import Semaine.Dialogue.UserState
import Semaine.Library.Outcome
import Semaine.Library.Transition

/-! What the counters of a user turn count. -/
namespace Semaine.Dialogue
open JavaText JavaFloat Outcome Transition

inductive Counter where
  | head | pitch | vocalization
  deriving DecidableEq, Repr

def Counter.name : Counter → Text
  | head => "Head".toList
  | pitch => "Pitch".toList
  | vocalization => "Vocalization".toList

def Counter.path : Counter → Text → Text
  | head => UserTurn.headPath
  | pitch => UserTurn.pitchPath
  | vocalization => UserTurn.vocalizationPath

def Counter.report : Counter → UserStateMessage → Option Text
  | head, m => UserTurn.headGesture m
  | pitch, m => m.getInfo "pitchDirection"
  | vocalization, m => m.getInfo "vocalization"

def reported (k : Counter) (g : Text) (messages : List UserStateMessage) : Nat :=
  messages.countP (fun m => k.report m = some g)

def counterOf (n : Nat) : Option Int := if n = 0 then none else some n

def NRof : Text := "nrOf".toList
def USERTURN : Text := "UserTurn".toList

section
variable {D : Type}

def Records (is : InformationState D) (name : Text) : Prop :=
  ∀ i, is.lookup name = some i → ∃ r, i = .record r

def fieldsOf (is : InformationState D) (name : Text) : InformationState D :=
  match is.lookup name with
  | some (.record r) => r
  | _ => []

structure TurnRecords (is : InformationState D) : Prop where
  turn : Records is USERTURN
  counters : ∀ k : Counter, Records (fieldsOf is USERTURN) k.name

def counter (is : InformationState D) (k : Counter) (g : Text) : Option Int :=
  ((fieldsOf (fieldsOf is USERTURN) k.name).lookup (NRof ++ g)).bind Item.getInteger

theorem segments_counterPath (k : Counter) (g : Text) : ∃ first rest, segments g = first :: rest ∧
    segments (k.path g) = USERTURN :: k.name :: (NRof ++ first) :: rest := by
  cases pieces : segments g with
  | nil => exact absurd pieces (List.splitOn_ne_nil _ _)
  | cons first rest =>
    have last : segments (NRof ++ g) = (NRof ++ first) :: rest := by
      rw [segments_append (by decide), pieces]
      rfl
    have path : k.path g = USERTURN ++ '.' :: (k.name ++ '.' :: (NRof ++ g)) := by
      cases k <;> rfl
    have nameDot : '.' ∉ k.name := by cases k <;> decide
    refine ⟨first, rest, rfl, ?_⟩
    rw [path, segments_dot (by decide), segments_dot nameDot, last]

theorem eq_of_segments {g first : Text} (h : segments g = [first]) : g = first := by
  have joined := congrArg (['.'].intercalate) h
  rw [segments, List.intercalate_splitOn] at joined
  simpa using joined

theorem getD_record {is : InformationState D} {name : Text} (h : Records is name) :
    (is.lookup name).getD (.record []) = .record (fieldsOf is name) := by
  unfold fieldsOf
  cases found : is.lookup name with
  | none => rfl
  | some i =>
    obtain ⟨r, rfl⟩ := h i found
    rfl

theorem records_put_same (is : InformationState D) (name : Text) (r : InformationState D) :
    Records (put is name (.record r)) name := by
  intro i found
  rw [lookup_put_same] at found
  cases found
  exact ⟨r, rfl⟩

theorem records_put_other {is : InformationState D} {name other : Text} (i : Item D)
    (h : other ≠ name) (records : Records is other) : Records (put is name i) other := by
  unfold Records
  rw [lookup_put_other is i h]
  exact records

@[simp] theorem fieldsOf_put_same (is : InformationState D) (name : Text)
    (r : InformationState D) : fieldsOf (put is name (.record r)) name = r := by
  simp [fieldsOf]

theorem fieldsOf_put_other (is : InformationState D) {name other : Text} (i : Item D)
    (h : other ≠ name) : fieldsOf (put is name i) other = fieldsOf is other := by
  unfold fieldsOf
  rw [lookup_put_other is i h]

theorem set_inside {value : Item D} {name : Text} {rest : List Text}
    {is : InformationState D} {changed : Item D}
    (done : Item.set value (name :: rest) (.record is) = (changed, none))
    (records : Records is name) (noDollar : dropDollar name = name) (more : rest ≠ [])
    (fresh : newInRecord rest = (.record [] : Item D)) :
    ∃ inner, changed = .record (put is name inner) ∧
      Item.set value rest (.record (fieldsOf is name)) = (inner, none) := by
  obtain ⟨_, inner, isPut, arrived⟩ := set_record_cases done
  rw [noDollar] at isPut arrived
  rw [fresh, getD_record records] at arrived
  rcases arrived with ⟨last, _⟩ | ⟨_, step⟩
  · exact absurd last more
  · exact ⟨inner, isPut, step⟩

theorem set_into {value : Item D} {name : Text} {rest : List Text} {is : InformationState D}
    {inner : Item D} (records : Records is name) (noDollar : dropDollar name = name)
    (more : rest ≠ []) (fresh : newInRecord rest = (.record [] : Item D))
    (step : Item.set value rest (.record (fieldsOf is name)) = (inner, none)) :
    Item.set value (name :: rest) (.record is) = (.record (put is name inner), none) := by
  obtain ⟨next, others, rfl⟩ := List.exists_cons_of_ne_nil more
  rw [Item.set, if_neg (fun h => more h.2), noDollar]
  unfold fieldsOf at step
  cases found : is.lookup name with
  | none =>
    rw [found] at step
    simp only [found, fresh, step]
  | some i =>
    obtain ⟨fields, rfl⟩ := records i found
    rw [found] at step
    simp only at step
    simp only [found, step]

theorem set_list {value : Item D} {position : Text} {rest : List Text} {items : List (Item D)}
    {changed : Item D} {failure : Option Failure}
    (done : Item.set value (position :: rest) (.list items) = (changed, failure)) :
    ∃ after, changed = .list after := by
  unfold Item.set at done
  dsimp only at done
  repeat' split at done
  all_goals
    cases done
    exact ⟨_, rfl⟩

theorem set_more {value : Item D} {position : Text} {rest : List Text} {i changed : Item D}
    (done : Item.set value (position :: rest) i = (changed, none)) :
    changed.getInteger = i.getInteger := by
  cases i with
  | record fields =>
    obtain ⟨_, inner, rfl, _⟩ := set_record_cases done
    rfl
  | list items =>
    obtain ⟨after, rfl⟩ := set_list done
    rfl
  | string | integer | double | untyped =>
    cases done
    rfl
  | noRecord | noList => cases done

theorem newInRecord_getInteger (rest : List Text) :
    (newInRecord rest : Item D).getInteger = none := by
  unfold newInRecord
  dsimp only
  split <;> rfl

def SameCounters (is after : InformationState D) : Prop :=
  TurnRecords is → TurnRecords after ∧
    ∀ (k : Counter) (g : Text), '.' ∉ g → counter after k g = counter is k g

theorem SameCounters.refl (is : InformationState D) : SameCounters is is :=
  fun records => ⟨records, fun _ _ _ => rfl⟩

theorem SameCounters.trans {is middle after : InformationState D}
    (first : SameCounters is middle) (second : SameCounters middle after) :
    SameCounters is after := by
  intro records
  obtain ⟨records', same⟩ := first records
  obtain ⟨records'', same'⟩ := second records'
  exact ⟨records'', fun k g plain => (same' k g plain).trans (same k g plain)⟩

theorem sameCounters_put {is : InformationState D} {name : Text} (i : Item D)
    (other : USERTURN ≠ name) : SameCounters is (put is name i) := by
  intro records
  have same : fieldsOf (put is name i) USERTURN = fieldsOf is USERTURN :=
    fieldsOf_put_other is i other
  refine ⟨⟨records_put_other i other records.turn, ?_⟩, ?_⟩
  · rw [same]
    exact records.counters
  · intro k g _
    unfold counter
    rw [same]

theorem sameCounters_turn {is : InformationState D} {name : Text} (i : Item D)
    (other : ∀ k : Counter, k.name ≠ name) :
    SameCounters is (put is USERTURN (.record (put (fieldsOf is USERTURN) name i))) := by
  intro records
  refine ⟨⟨records_put_same _ _ _, ?_⟩, ?_⟩
  · intro k
    rw [fieldsOf_put_same]
    exact records_put_other i (other k) (records.counters k)
  · intro k g _
    unfold counter
    rw [fieldsOf_put_same, fieldsOf_put_other _ i (other k)]

theorem records_counter {is : InformationState D} (records : TurnRecords is) (k : Counter)
    (inner : InformationState D) : TurnRecords
      (put is USERTURN (.record (put (fieldsOf is USERTURN) k.name (.record inner)))) := by
  refine ⟨records_put_same _ _ _, ?_⟩
  intro k'
  rw [fieldsOf_put_same]
  by_cases same : k'.name = k.name
  · rw [same]
    exact records_put_same _ _ _
  · exact records_put_other _ same (records.counters k')

theorem Counter.name_injective {k k' : Counter} (h : k'.name = k.name) : k' = k := by
  cases k <;> cases k' <;> first | rfl | exact absurd h (by decide)

theorem counter_inside (is : InformationState D) (k k' : Counter) (inner : InformationState D)
    (g : Text) :
    counter (put is USERTURN (.record (put (fieldsOf is USERTURN) k.name (.record inner)))) k' g =
      if k' = k then (inner.lookup (NRof ++ g)).bind Item.getInteger else counter is k' g := by
  unfold counter
  rw [fieldsOf_put_same]
  split
  · rename_i same
    rw [same, fieldsOf_put_same]
  · rename_i different
    have other : k'.name ≠ k.name := fun h => different (Counter.name_injective h)
    rw [fieldsOf_put_other _ _ other]

theorem newInRecord_counter (k : Counter) (rest : List Text) :
    newInRecord (k.name :: rest) = (.record [] : Item D) := by
  cases k <;> rfl

theorem newInRecord_counted {rest : List Text} {first : Text} :
    newInRecord ((NRof ++ first) :: rest) = (.record [] : Item D) := rfl

theorem Counter.name_noDollar (k : Counter) : dropDollar k.name = k.name := by
  cases k <;> rfl

theorem orThrow_ok {change : InformationState D × Option Failure} {after : InformationState D}
    (done : InformationState.orThrow change = .ok after) : change = (after, none) := by
  unfold InformationState.orThrow at done
  split at done
  · cases done
    rfl
  · cases done

theorem write_segments {is after : InformationState D} {path : Text} {value : Item D}
    (done : is.write path value = .ok after) :
    Item.set value (segments path) (.record is) = (.record after, none) :=
  set_segments (orThrow_ok done)

theorem write_counter {is after : InformationState D} {k : Counter} {position : Text}
    {rest : List Text} {path : Text} {value : Item D} (records : TurnRecords is)
    (pieces : segments path = USERTURN :: k.name :: position :: rest)
    (fresh : newInRecord (position :: rest) = (.record [] : Item D))
    (done : is.write path value = .ok after) : ∃ inner,
      after = put is USERTURN (.record (put (fieldsOf is USERTURN) k.name inner)) ∧
        Item.set value (position :: rest) (.record (fieldsOf (fieldsOf is USERTURN) k.name)) =
          (inner, none) := by
  have step := write_segments done
  rw [pieces] at step
  obtain ⟨turn, isTurn, stepTurn⟩ := set_inside step records.turn rfl (List.cons_ne_nil _ _)
    (newInRecord_counter k _)
  obtain ⟨inner, rfl, stepInner⟩ := set_inside stepTurn (records.counters k) k.name_noDollar
    (List.cons_ne_nil _ _) fresh
  cases isTurn
  exact ⟨inner, rfl, stepInner⟩

theorem write_nrOf {is after : InformationState D} {k : Counter} {name : Text} {value : Item D}
    (records : TurnRecords is) (done : is.write (k.path name) value = .ok after) :
    TurnRecords after ∧ ∀ (k' : Counter) (g : Text), '.' ∉ g →
      counter after k' g =
        if k' = k ∧ g = name then value.getInteger else counter is k' g := by
  obtain ⟨first, rest, isName, pieces⟩ := segments_counterPath k name
  obtain ⟨inner, rfl, step⟩ := write_counter records pieces newInRecord_counted done
  obtain ⟨_, x, rfl, arrived⟩ := set_record_cases step
  refine ⟨records_counter records k _, ?_⟩
  intro k' g plain
  rw [counter_inside]
  by_cases this : k' = k
  · subst this
    rw [if_pos rfl]
    by_cases same : g = first
    · subst same
      have isField : dropDollar (NRof ++ g) = NRof ++ g := rfl
      rw [isField, lookup_put_same, Option.bind_some]
      rw [isField] at arrived
      rcases arrived with ⟨rfl, rfl⟩ | ⟨more, inside⟩
      · rw [if_pos ⟨rfl, (eq_of_segments isName).symm⟩]
      · have notName : g ≠ name := by
          intro h
          rw [← h, segments_plain plain, List.cons.injEq] at isName
          exact more isName.2.symm
        rw [if_neg (fun h => notName h.2)]
        cases rest with
        | nil => exact absurd rfl more
        | cons next others =>
          rw [set_more inside]
          unfold counter
          cases (fieldsOf (fieldsOf is USERTURN) k'.name).lookup (NRof ++ g) with
          | none => exact newInRecord_getInteger _
          | some i => rfl
    · have notName : g ≠ name := by
        intro h
        rw [← h, segments_plain plain, List.cons.injEq] at isName
        exact same isName.1
      have other : NRof ++ g ≠ dropDollar (NRof ++ first) :=
        fun h => same (List.append_cancel_left h)
      rw [lookup_put_other _ _ other, if_neg (fun h => notName h.2)]
      rfl
  · rw [if_neg this, if_neg (fun h => this h.1)]

theorem write_last {is after : InformationState D} {k : Counter} {position : Text}
    {path : Text} {value : Item D} (pieces : segments path = [USERTURN, k.name, position])
    (fresh : newInRecord [position] = (.record [] : Item D))
    (other : ∀ g, NRof ++ g ≠ dropDollar position)
    (done : is.write path value = .ok after) : SameCounters is after := by
  intro records
  obtain ⟨inner, rfl, step⟩ := write_counter records pieces fresh done
  obtain ⟨_, x, rfl, _⟩ := set_record_cases step
  refine ⟨records_counter records k _, ?_⟩
  intro k' g _
  rw [counter_inside]
  by_cases this : k' = k
  · subst this
    rw [if_pos rfl, lookup_put_other _ _ (other g)]
    rfl
  · rw [if_neg this]

theorem write_turn {is after : InformationState D} {name : Text} {rest : List Text}
    {path : Text} {value : Item D} (pieces : segments path = USERTURN :: name :: rest)
    (fresh : newInRecord (name :: rest) = (.record [] : Item D))
    (other : ∀ k : Counter, k.name ≠ dropDollar name)
    (done : is.write path value = .ok after) : SameCounters is after := by
  intro records
  have step := write_segments done
  rw [pieces] at step
  obtain ⟨turn, isTurn, stepTurn⟩ := set_inside step records.turn rfl (List.cons_ne_nil _ _) fresh
  obtain ⟨_, x, rfl, _⟩ := set_record_cases stepTurn
  cases isTurn
  exact sameCounters_turn x other records

theorem write_user {is after : InformationState D} {rest : List Text}
    {path : Text} {value : Item D} (pieces : segments path = "User".toList :: rest)
    (done : is.write path value = .ok after) : SameCounters is after := by
  have step := write_segments done
  rw [pieces] at step
  obtain ⟨_, x, isPut, _⟩ := set_record_cases step
  cases isPut
  exact sameCounters_put x (by decide)

theorem lookup_removeName_other (is : InformationState D) {name other : Text} (h : other ≠ name) :
    (removeName is name).lookup other = is.lookup other := by
  have put_same := lookup_put_other is .untyped h
  have different : (other == name) = false := beq_eq_false_iff_ne.mpr h
  unfold put at put_same
  rw [List.lookup_cons, different] at put_same
  exact put_same

theorem sameCounters_removeName {is : InformationState D} {name : Text}
    (other : ∀ k : Counter, k.name ≠ name) :
    SameCounters is (put is USERTURN (.record (removeName (fieldsOf is USERTURN) name))) := by
  have same : ∀ k : Counter, (removeName (fieldsOf is USERTURN) name).lookup k.name =
      (fieldsOf is USERTURN).lookup k.name := fun k => lookup_removeName_other _ (other k)
  intro records
  refine ⟨⟨records_put_same _ _ _, ?_⟩, ?_⟩
  · intro k i found
    rw [fieldsOf_put_same, same k] at found
    exact records.counters k i found
  · intro k g _
    unfold counter
    rw [fieldsOf_put_same]
    unfold fieldsOf at same ⊢
    rw [same k]

theorem remove_turn (chars : Characters) (name : Text) {is after : InformationState D}
    {path : Text} (pieces : segments path = [USERTURN, name]) (given : name ≠ [])
    (other : ∀ k : Counter, k.name ≠ dropDollar name)
    (done : InformationState.orThrow (is.remove chars path) = .ok after) :
    SameCounters is after := by
  intro records
  have removed := orThrow_ok done
  have noDollar : dropDollar USERTURN = USERTURN := rfl
  unfold InformationState.remove at removed
  rw [pieces, removeFromRecord, noDollar] at removed
  cases found : is.lookup USERTURN with
  | none =>
    simp only [found] at removed
    cases removed
    exact SameCounters.refl is records
  | some i =>
    obtain ⟨turn, rfl⟩ := records.turn i found
    have isTurn : fieldsOf is USERTURN = turn := by
      unfold fieldsOf
      rw [found]
    simp only [found, removeFromRecord, if_neg given] at removed
    cases removed
    rw [← isTurn]
    exact sameCounters_removeName other records

theorem getValueOfPath_inside (chars : Characters) {is : InformationState D} {name : Text}
    (records : Records is name) (given : name ≠ []) (noDollar : dropDollar name = name)
    (next : Text) (rest : List Text) :
    Item.getValueOfPath chars (name :: next :: rest) (.record is) =
      Item.getValueOfPath chars (next :: rest) (.record (fieldsOf is name)) := by
  rw [Item.getValueOfPath, if_neg (fun h => given h.1), noDollar]
  unfold fieldsOf
  cases found : is.lookup name with
  | none =>
    rw [Item.getValueOfPath]
    simp
  | some i =>
    obtain ⟨fields, rfl⟩ := records i found
    rfl

theorem getInteger_inside (chars : Characters) {is : InformationState D} {outer inner field : Text}
    {path : Text} (pieces : segments path = [outer, inner, field])
    (outerRecord : Records is outer) (innerRecord : Records (fieldsOf is outer) inner)
    (given : outer ≠ [] ∧ inner ≠ [] ∧ field ≠ [])
    (noDollar : dropDollar outer = outer ∧ dropDollar inner = inner ∧ dropDollar field = field) :
    is.getInteger chars path =
      .ok (((fieldsOf (fieldsOf is outer) inner).lookup field).bind Item.getInteger) := by
  unfold InformationState.getInteger InformationState.getValueOfPath
  rw [pieces, getValueOfPath_inside chars outerRecord given.1 noDollar.1,
    getValueOfPath_inside chars innerRecord given.2.1 noDollar.2.1, Item.getValueOfPath,
    if_neg (fun h => given.2.2 h.1), noDollar.2.2]
  cases (fieldsOf (fieldsOf is outer) inner).lookup field with
  | none => rfl
  | some i => cases i <;> rfl

theorem getInteger_counter (chars : Characters) {is : InformationState D}
    (records : TurnRecords is) (k : Counter) {g : Text} (plain : '.' ∉ g) :
    is.getInteger chars (k.path g) = .ok (counter is k g) := by
  obtain ⟨first, rest, isName, pieces⟩ := segments_counterPath k g
  rw [segments_plain plain, List.cons.injEq] at isName
  obtain ⟨rfl, rfl⟩ := isName
  have named : k.name ≠ [] := by cases k <;> exact List.cons_ne_nil _ _
  exact getInteger_inside chars pieces records.turn (records.counters k)
    ⟨List.cons_ne_nil _ _, named, List.cons_ne_nil _ _⟩ ⟨rfl, k.name_noDollar, rfl⟩

end

section
variable {F D : Type} {chars : Characters} {floats : FloatNumbers F D} {s t : UserTurn F D}

namespace UserTurn

theorem write_ok {path : Text} {value : Item D} (done : s.write path value = .ok t) :
    s.is.write path value = .ok t.is := by
  obtain ⟨is, written, rfl⟩ := map_ok done
  exact written

theorem userStartsSpeaking_counters {time : Int} (done : s.userStartsSpeaking chars time = .ok t) :
    SameCounters s.is t.is := by
  obtain ⟨state, _, done⟩ := bind_ok done
  split at done
  · cases done
    exact .refl _
  · obtain ⟨s', first, done⟩ := bind_ok done
    obtain ⟨s'', second, done⟩ := bind_ok done
    have speaking := write_user rfl (write_ok first)
    have time := write_user rfl (write_ok second)
    cases done
    exact speaking.trans time

theorem userStopsSpeaking_counters {time : Int} (done : s.userStopsSpeaking chars time = .ok t) :
    SameCounters s.is t.is := by
  obtain ⟨state, _, done⟩ := bind_ok done
  split at done
  · cases done
    exact .refl _
  · obtain ⟨s', first, second⟩ := bind_ok done
    exact (write_user rfl (write_ok first)).trans (write_user rfl (write_ok second))

theorem updateSpeaking_counters {m : UserStateMessage} (done : s.updateSpeaking chars m = .ok t) :
    SameCounters s.is t.is := by
  unfold updateSpeaking at done
  split at done
  · exact userStartsSpeaking_counters done
  · split at done
    · exact userStopsSpeaking_counters done
    · cases done
      exact .refl _

def elsewhere (name : Text) : Bool :=
  !name.contains '.' && name.head? ≠ some '_' &&
    [Counter.head, .pitch, .vocalization].all (fun k => k.name ≠ dropDollar name)

theorem elsewhere_noDot {name : Text} (h : elsewhere name = true) : '.' ∉ name := by
  simp only [elsewhere, Bool.and_eq_true] at h
  simpa using h.1.1

theorem elsewhere_other {name : Text} (h : elsewhere name = true) (k : Counter) :
    k.name ≠ dropDollar name := by
  simp only [elsewhere, Bool.and_eq_true, List.all_eq_true, decide_eq_true_eq] at h
  apply h.2
  cases k <;> simp

theorem elsewhere_fresh {name : Text} (h : elsewhere name = true) (rest : List Text) :
    newInRecord (name :: rest) = (.record [] : Item D) := by
  simp only [elsewhere, Bool.and_eq_true, decide_eq_true_eq] at h
  exact newInRecord_head h.1.2 rest

theorem write_elsewhere (name rest : Text) {path : Text} {value : Item D}
    (h : elsewhere name = true) (isPath : path = USERTURN ++ '.' :: (name ++ '.' :: rest))
    (done : s.write path value = .ok t) : SameCounters s.is t.is := by
  have pieces : segments path = USERTURN :: name :: segments rest := by
    rw [isPath, segments_dot (by decide), segments_dot (elsewhere_noDot h)]
  exact write_turn pieces (elsewhere_fresh h _) (elsewhere_other h) (write_ok done)

theorem write_field (name : Text) {path : Text} {value : Item D} (h : elsewhere name = true)
    (isPath : path = USERTURN ++ '.' :: name) (done : s.write path value = .ok t) :
    SameCounters s.is t.is := by
  have pieces : segments path = USERTURN :: name :: [] := by
    rw [isPath, segments_dot (by decide), segments_plain (elsewhere_noDot h)]
  exact write_turn pieces (elsewhere_fresh h _) (elsewhere_other h) (write_ok done)

theorem setEmotion_counters {emotion : Text} {type : EmotionType}
    (h : elsewhere emotion = true) (done : s.setEmotion floats emotion type = .ok t) :
    SameCounters s.is t.is := by
  obtain ⟨s1, nrLow, done⟩ := bind_ok done
  obtain ⟨s2, nrHigh, done⟩ := bind_ok done
  obtain ⟨s3, average, done⟩ := bind_ok done
  obtain ⟨s4, low, high⟩ := bind_ok done
  have lows := (write_elsewhere emotion _ h rfl nrLow).trans (write_elsewhere emotion _ h rfl nrHigh)
  have middle := lows.trans (write_elsewhere emotion _ h rfl average)
  exact (middle.trans (write_elsewhere emotion _ h rfl low)).trans
    (write_elsewhere emotion _ h rfl high)

theorem summarizeEmotionEvents_counters (done : s.summarizeEmotionEvents floats = .ok t) :
    SameCounters s.is t.is := by
  obtain ⟨s1, valence, done⟩ := bind_ok done
  obtain ⟨s2, arousal, done⟩ := bind_ok done
  obtain ⟨s3, interest, done⟩ := bind_ok done
  obtain ⟨s4, potency, intensity⟩ := bind_ok done
  have first := (setEmotion_counters (by decide) valence).trans
    (setEmotion_counters (by decide) arousal)
  have middle := first.trans (setEmotion_counters (by decide) interest)
  exact (middle.trans (setEmotion_counters (by decide) potency)).trans
    (setEmotion_counters (by decide) intensity)

theorem updateEmotions_counters {m : UserStateMessage}
    (done : s.updateEmotions floats m = .ok t) : SameCounters s.is t.is := by
  unfold updateEmotions at done
  split at done
  · cases done
    exact .refl _
  · split at done
    · cases done
    · have summarized := summarizeEmotionEvents_counters done
      exact summarized

theorem addFeatures_counters {features : List Text} (done : s.addFeatures features = .ok t) :
    SameCounters s.is t.is := by
  induction features generalizing s with
  | nil =>
    cases done
    exact .refl _
  | cons contentFeature rest ih =>
    obtain ⟨s', added, done⟩ := bind_ok done
    have semantic := write_elsewhere "SemanticFeatures".toList "_addlast".toList
      (by decide) rfl added
    exact semantic.trans (ih done)

theorem getCombinedUserDialogueAct_counters (done : s.getCombinedUserDialogueAct chars = .ok t) :
    SameCounters s.is t.is := by
  unfold getCombinedUserDialogueAct at done
  split at done
  · cases done
    exact .refl _
  · obtain ⟨s1, utterance, done⟩ := bind_ok done
    obtain ⟨s2, starttime, done⟩ := bind_ok done
    obtain ⟨s3, endtime, done⟩ := bind_ok done
    obtain ⟨s4, target, done⟩ := bind_ok done
    obtain ⟨is, removed, features⟩ := bind_ok done
    have first := (write_field "utterance".toList (by decide) rfl utterance).trans
      (write_field "starttime".toList (by decide) rfl starttime)
    have middle := first.trans (write_field "endtime".toList (by decide) rfl endtime)
    have last := middle.trans (write_field "targetCharacter".toList (by decide) rfl target)
    have gone := remove_turn chars "SemanticFeatures".toList rfl (by decide)
      (elsewhere_other (by decide)) removed
    exact (last.trans gone).trans (addFeatures_counters features)

theorem updateUtterances_counters {m : UserStateMessage}
    (done : s.updateUtterances chars m = .ok t) : SameCounters s.is t.is := by
  unfold updateUtterances at done
  split at done
  · split at done
    · cases done
    · obtain ⟨s', act, speaking⟩ := bind_ok done
      have combined := getCombinedUserDialogueAct_counters act
      exact combined.trans (userStartsSpeaking_counters speaking)
  · cases done
    exact .refl _

theorem countActionUnits_counters {aus : List Text} (done : s.countActionUnits chars aus = .ok t) :
    SameCounters s.is t.is := by
  induction aus generalizing s with
  | nil =>
    cases done
    exact .refl _
  | cons au rest ih =>
    unfold countActionUnits at done
    split at done
    · exact ih done
    · obtain ⟨counter, _, done⟩ := bind_ok done
      obtain ⟨s', written, done⟩ := bind_ok done
      have count := write_elsewhere "AU".toList ("nrOfAU".toList ++ au) (by decide)
        rfl written
      exact count.trans (ih done)

theorem updateActionUnits_counters {m : UserStateMessage}
    (done : s.updateActionUnits chars m = .ok t) : SameCounters s.is t.is := by
  unfold updateActionUnits at done
  split at done
  · cases done
    exact .refl _
  · obtain ⟨s', counted, done⟩ := bind_ok done
    have counts := countActionUnits_counters counted
    cases done
    exact counts

def CountersAfter (k : Counter) (report : Option Text) (next : Option Int → Option Int)
    (is after : InformationState D) : Prop :=
  TurnRecords is → TurnRecords after ∧
    ∀ (k' : Counter) (g : Text), '.' ∉ g → counter after k' g =
      if k' = k ∧ report = some g then next (counter is k g) else counter is k' g

theorem countersAfter_none (k : Counter) (next : Option Int → Option Int)
    (is : InformationState D) : CountersAfter k none next is is :=
  fun records => ⟨records, fun _ _ _ => (if_neg (fun h => nomatch h.2)).symm⟩

theorem write_countersAfter (k : Counter) {name : Text} {value : Item D}
    {next : Option Int → Option Int}
    (isNext : TurnRecords s.is → '.' ∉ name → value.getInteger = next (counter s.is k name))
    (done : s.write (k.path name) value = .ok t) :
    CountersAfter k (some name) next s.is t.is := by
  intro records
  obtain ⟨records', counters⟩ := write_nrOf records (write_ok done)
  refine ⟨records', ?_⟩
  intro k' g plain
  rw [counters k' g plain]
  by_cases here : k' = k ∧ g = name
  · obtain ⟨rfl, rfl⟩ := here
    rw [if_pos ⟨rfl, rfl⟩, if_pos ⟨rfl, rfl⟩]
    exact isNext records plain
  · have notHere : ¬ (k' = k ∧ some name = some g) :=
      fun h => here ⟨h.1, (Option.some.inj h.2).symm⟩
    rw [if_neg here, if_neg notHere]

theorem CountersAfter.trans_same {k : Counter} {report : Option Text}
    {next : Option Int → Option Int} {is middle after : InformationState D}
    (first : CountersAfter k report next is middle) (second : SameCounters middle after) :
    CountersAfter k report next is after := by
  intro records
  obtain ⟨records', changed⟩ := first records
  obtain ⟨records'', same⟩ := second records'
  exact ⟨records'', fun k' g plain => (same k' g plain).trans (changed k' g plain)⟩

theorem CountersAfter.other {k k' : Counter} {report : Option Text} {g : Text}
    {next : Option Int → Option Int} {is after : InformationState D}
    (changed : CountersAfter k report next is after) (records : TurnRecords is) (plain : '.' ∉ g)
    (different : k' ≠ k) : counter after k' g = counter is k' g := by
  rw [(changed records).2 k' g plain, if_neg (fun h => different h.1)]

def succ (counter : Option Int) : Option Int := some (toInt (counter.getD 0 + 1))

theorem write_lastGesture {value : Item D}
    (done : s.write "UserTurn.Head.lastGesture".toList value = .ok t) :
    SameCounters s.is t.is := by
  have pieces : segments "UserTurn.Head.lastGesture".toList =
      [USERTURN, Counter.head.name, "lastGesture".toList] := rfl
  apply write_last pieces rfl _ (write_ok done)
  intro g h
  cases h

theorem write_lastPitch {value : Item D}
    (done : s.write "UserTurn.Pitch.lastPitch".toList value = .ok t) :
    SameCounters s.is t.is := by
  have pieces : segments "UserTurn.Pitch.lastPitch".toList =
      [USERTURN, Counter.pitch.name, "lastPitch".toList] := rfl
  apply write_last pieces rfl _ (write_ok done)
  intro g h
  cases h

theorem updateHead_counters {m : UserStateMessage} (done : s.updateHead chars m = .ok t) :
    CountersAfter .head (Counter.head.report m) succ s.is t.is := by
  unfold updateHead at done
  have reports : Counter.head.report m = headGesture m := rfl
  rw [reports]
  cases report : headGesture m with
  | none =>
    simp only [report] at done
    cases done
    exact countersAfter_none _ _ _
  | some gesture =>
    simp only [report] at done
    obtain ⟨value, counted, done⟩ := bind_ok done
    obtain ⟨s', written, lastGesture⟩ := bind_ok done
    have changed : CountersAfter .head (some gesture) succ s.is s'.is := by
      apply write_countersAfter .head _ written
      intro records plain
      have read := getInteger_counter chars records .head plain
      obtain ⟨c, isCounter, rfl⟩ := map_ok counted
      have same : c = counter s.is .head gesture := Except.ok.inj (isCounter.symm.trans read)
      rw [same]
      rfl
    exact changed.trans_same (write_lastGesture lastGesture)

theorem updatePitch_counters {m : UserStateMessage} (done : s.updatePitch chars m = .ok t) :
    CountersAfter .pitch (Counter.pitch.report m) (fun _ => none) s.is t.is := by
  unfold updatePitch at done
  have reports : Counter.pitch.report m = m.getInfo "pitchDirection" := rfl
  rw [reports]
  cases report : m.getInfo "pitchDirection" with
  | none =>
    simp only [report] at done
    cases done
    exact countersAfter_none _ _ _
  | some pitch =>
    simp only [report] at done
    obtain ⟨value, _, done⟩ := bind_ok done
    obtain ⟨s', written, lastPitch⟩ := bind_ok done
    have changed : CountersAfter .pitch (some pitch) (fun _ => none) s.is s'.is :=
      write_countersAfter .pitch (fun _ _ => rfl) written
    exact changed.trans_same (write_lastPitch lastPitch)

theorem updateVocalization_counters {m : UserStateMessage}
    (done : s.updateVocalization chars m = .ok t) :
    CountersAfter .vocalization (Counter.vocalization.report m) (fun _ => none) s.is t.is := by
  unfold updateVocalization at done
  have reports : Counter.vocalization.report m = m.getInfo "vocalization" := rfl
  rw [reports]
  cases report : m.getInfo "vocalization" with
  | none =>
    simp only [report] at done
    cases done
    exact countersAfter_none _ _ _
  | some vocalization =>
    simp only [report] at done
    obtain ⟨value, _, written⟩ := bind_ok done
    exact write_countersAfter .vocalization (fun _ _ => rfl) written

/-- What is stored for a name that was reported so often: gestures are counted by an `int`, the
others not at all. -/
def stored : Counter → Nat → Option Int
  | .head, n => if n = 0 then none else some (toInt n)
  | .pitch, _ => none
  | .vocalization, _ => none

structure Counted (messages : List UserStateMessage) (s : UserTurn F D) : Prop where
  records : TurnRecords s.is
  counters : ∀ (k : Counter) (g : Text), '.' ∉ g →
    counter s.is k g = stored k (reported k g messages)

theorem stored_head {n : Nat} (h : n ≠ 0) : stored .head n = some (toInt n) := by
  unfold stored
  exact if_neg h

theorem succ_stored (n : Nat) : succ (stored .head n) = stored .head (n + 1) := by
  have wraps : toInt (toInt n + 1) = toInt ((n + 1 : Nat) : Int) := by
    unfold toInt
    rw [Int.bmod_add_bmod]
    rfl
  rw [stored_head (Nat.succ_ne_zero n)]
  cases n with
  | zero => rfl
  | succ n => rw [stored_head (Nat.succ_ne_zero n), succ, Option.getD_some, wraps]

theorem reported_concat (k : Counter) (g : Text) (messages : List UserStateMessage)
    (m : UserStateMessage) : reported k g (messages ++ [m]) =
      reported k g messages + if k.report m = some g then 1 else 0 := by
  unfold reported
  rw [List.countP_append, List.countP_singleton]
  simp only [decide_eq_true_eq]

theorem react_counted {m : UserStateMessage} {messages : List UserStateMessage}
    (counted : Counted messages s) (done : s.react chars floats m = .ok t) :
    Counted (messages ++ [m]) t := by
  obtain ⟨s1, speaking, done⟩ := bind_ok done
  obtain ⟨s2, emotions, done⟩ := bind_ok done
  obtain ⟨s3, utterances, done⟩ := bind_ok done
  obtain ⟨s4, head, done⟩ := bind_ok done
  obtain ⟨s5, pitch, done⟩ := bind_ok done
  obtain ⟨s6, vocalization, units⟩ := bind_ok done
  have before := ((updateSpeaking_counters speaking).trans (updateEmotions_counters emotions)).trans
    (updateUtterances_counters utterances)
  obtain ⟨records3, same3⟩ := before counted.records
  have head4 := updateHead_counters head
  have pitch5 := updatePitch_counters pitch
  have vocalization6 := updateVocalization_counters vocalization
  have records4 := (head4 records3).1
  have records5 := (pitch5 records4).1
  have records6 := (vocalization6 records5).1
  obtain ⟨records, same⟩ := updateActionUnits_counters units records6
  refine ⟨records, ?_⟩
  intro k g plain
  have old := (same3 k g plain).trans (counted.counters k g plain)
  rw [same k g plain, reported_concat]
  cases k with
  | head =>
    rw [vocalization6.other records5 plain (by decide), pitch5.other records4 plain (by decide),
      (head4 records3).2 .head g plain, old]
    simp only [true_and]
    split
    · exact succ_stored _
    · rfl
  | pitch =>
    rw [vocalization6.other records5 plain (by decide), (pitch5 records4).2 .pitch g plain,
      head4.other records3 plain (by decide), old]
    simp [stored]
  | vocalization =>
    rw [(vocalization6 records5).2 .vocalization g plain, pitch5.other records4 plain (by decide),
      head4.other records3 plain (by decide), old]
    simp [stored]

/-- The messages that are handled one after another, each without an exception. -/
abbrev Turn (chars : Characters) (floats : FloatNumbers F D) (start : UserTurn F D)
    (messages : List UserStateMessage) (s : UserTurn F D) : Prop :=
  Run (fun s m t => s.react chars floats m = .ok t) start messages s

theorem turn_counted {start : UserTurn F D} {messages : List UserStateMessage}
    (run : Turn chars floats start messages s) (removed : start.is.lookup USERTURN = none) :
    Counted messages s := by
  apply run.history_invariant (fun messages s => Counted messages s)
  · intro messages s m t counted done
    exact react_counted counted done
  · have isEmpty : fieldsOf start.is USERTURN = [] := by
      unfold fieldsOf
      rw [removed]
    refine ⟨⟨?_, ?_⟩, ?_⟩
    · intro i found
      rw [removed] at found
      cases found
    · intro k i found
      rw [isEmpty] at found
      cases found
    · intro k g _
      unfold counter fieldsOf
      rw [removed]
      cases k <;> rfl

theorem stored_eq_iff (k : Counter) (n : Nat) :
    stored k n = counterOf n ↔ n = 0 ∨ k = .head ∧ n < 2 ^ 31 := by
  cases n with
  | zero =>
    have none : stored k 0 = counterOf 0 := by cases k <;> rfl
    simp [none]
  | succ n =>
    have given : counterOf (n + 1) = some ((n + 1 : Nat) : Int) := if_neg (Nat.succ_ne_zero n)
    rw [given]
    cases k with
    | head =>
      rw [stored_head (Nat.succ_ne_zero n), Option.some.injEq,
        toInt_eq_iff (Int.natCast_nonneg _)]
      simp
      omega
    | pitch => simp [stored]
    | vocalization => simp [stored]

/-- The counters of a turn are right exactly if nothing but head gestures was reported, and none
of them more often than an `int` counts. -/
theorem turn_counters {start : UserTurn F D} {messages : List UserStateMessage}
    (run : Turn chars floats start messages s) (removed : start.is.lookup USERTURN = none) :
    (∀ (k : Counter) (g : Text), '.' ∉ g → '_' ∉ g → '$' ∉ g →
      s.is.getInteger chars (k.path g) = .ok (counterOf (reported k g messages))) ↔
    (∀ (k : Counter) (g : Text), '.' ∉ g → '_' ∉ g → '$' ∉ g →
      reported k g messages = 0 ∨ k = .head ∧ reported k g messages < 2 ^ 31) := by
  have counted := turn_counted run removed
  have each : ∀ (k : Counter) (g : Text), '.' ∉ g →
      (s.is.getInteger chars (k.path g) = .ok (counterOf (reported k g messages)) ↔
        reported k g messages = 0 ∨ k = .head ∧ reported k g messages < 2 ^ 31) := by
    intro k g plain
    rw [getInteger_counter chars counted.records k plain, counted.counters k g plain,
      Except.ok.injEq]
    exact stored_eq_iff k _
  constructor
  · intro right k g dot underscore dollar
    exact (each k g dot).mp (right k g dot underscore dollar)
  · intro few k g dot underscore dollar
    exact (each k g dot).mpr (few k g dot underscore dollar)

end UserTurn

end

def noFloats : FloatNumbers Number Rat :=
  { exactFloats (fun _ => none) with
    ofInt := fun n => .val n
    toDouble := fun fl => match fl with
      | .val q => q
      | .nan => 0 }

def pitchUp : UserStateMessage where
  info := [("pitchDirection".toList, "up".toList)]
  time := 0

def nod : UserStateMessage where
  info := [("headGesture".toList, "NOD".toList), ("headGestureStarted".toList, "100".toList),
    ("headGestureStopped".toList, "500".toList)]
  time := 600

theorem react_pitchUp : ∃ s : UserTurn Number Rat,
    UserTurn.react ascii noFloats pitchUp { is := [] } = .ok s := ⟨_, rfl⟩

def shake : UserStateMessage where
  info := [("headGesture".toList, "SHAKE".toList), ("headGestureStarted".toList, "900".toList),
    ("headGestureStopped".toList, "1200".toList)]
  time := 1300

def nodAgain : UserStateMessage := { nod with time := 1500 }

theorem react_nods : ∃ s t u : UserTurn Number Rat,
    UserTurn.react ascii noFloats nod { is := [] } = .ok s ∧
      UserTurn.react ascii noFloats shake s = .ok t ∧
      UserTurn.react ascii noFloats nodAgain t = .ok u := ⟨_, _, _, rfl, rfl, rfl⟩

/-- A rising pitch is reported once, and no integer is kept for it. -/
theorem pitchUp_notCounted :
    ¬ ∀ (start s : UserTurn Number Rat) (messages : List UserStateMessage),
        UserTurn.Turn ascii noFloats start messages s → start.is.lookup USERTURN = none →
        ∀ (k : Counter) (g : Text), '.' ∉ g → '_' ∉ g → '$' ∉ g →
          s.is.getInteger ascii (k.path g) = .ok (counterOf (reported k g messages)) := by
  intro right
  obtain ⟨s, reacted⟩ := react_pitchUp
  have run : UserTurn.Turn ascii noFloats { is := [] } [pitchUp] s := .snoc .nil reacted
  have counted := UserTurn.turn_counted run rfl
  have kept := right _ s _ run rfl .pitch "up".toList (by decide) (by decide) (by decide)
  rw [getInteger_counter ascii counted.records .pitch (by decide),
    counted.counters .pitch "up".toList (by decide)] at kept
  exact absurd kept (by decide)

def nods : List UserStateMessage := [nod, shake, nodAgain]

theorem turn_counters_nods : ∃ s : UserTurn Number Rat,
    UserTurn.Turn ascii noFloats { is := [] } nods s ∧
    ((∀ (k : Counter) (g : Text), '.' ∉ g → '_' ∉ g → '$' ∉ g →
      s.is.getInteger ascii (k.path g) = .ok (counterOf (reported k g nods))) ↔
    (∀ (k : Counter) (g : Text), '.' ∉ g → '_' ∉ g → '$' ∉ g →
      reported k g nods = 0 ∨ k = .head ∧ reported k g nods < 2 ^ 31)) := by
  obtain ⟨s, t, u, first, second, third⟩ := react_nods
  have before : UserTurn.Turn ascii noFloats { is := [] } [nod] s := .snoc .nil first
  have run : UserTurn.Turn ascii noFloats { is := [] } nods u := (before.snoc second).snoc third
  exact ⟨u, run, UserTurn.turn_counters run rfl⟩

end Semaine.Dialogue
