import Semaine.Dialogue.Places
import Semaine.Dialogue.Update

/-! Writing along a path of records and reading it again. -/
namespace Semaine.Dialogue
open JavaText

def PlainField (s : Text) : Prop := s ≠ [] ∧ s.head? ≠ some '_' ∧ s.head? ≠ some '$'

instance (s : Text) : Decidable (PlainField s) := inferInstanceAs (Decidable (_ ∧ _ ∧ _))

def PlainFields (path : Text) : Prop := ∀ s ∈ segments path, PlainField s

instance (path : Text) : Decidable (PlainFields path) :=
  inferInstanceAs (Decidable (∀ s ∈ segments path, PlainField s))

def Apart (p q : List Text) : Prop := ¬ p <+: q ∧ ¬ q <+: p

instance (p q : List Text) : Decidable (Apart p q) := inferInstanceAs (Decidable (_ ∧ _))

theorem Apart.tail {name : Text} {p q : List Text} (apart : Apart (name :: p) (name :: q)) :
    Apart p q :=
  ⟨fun h => apart.1 (List.cons_prefix_cons.mpr ⟨rfl, h⟩),
   fun h => apart.2 (List.cons_prefix_cons.mpr ⟨rfl, h⟩)⟩

variable {D : Type}

/-- The proper prefixes of a path hold records, or nothing yet. -/
def RecordPath (is : InformationState D) (path : List Text) : Prop :=
  ∀ before, before <+: path → before ≠ path → ∀ i,
    (Item.record is).follow (before.map .field) = some i → ∃ fields, i = .record fields

theorem recordPath_nil (path : List Text) : RecordPath ([] : InformationState D) path := by
  intro before _ _ i reached
  cases before with
  | nil =>
    cases reached
    exact ⟨[], rfl⟩
  | cons name before => cases reached

theorem RecordPath.tail {is inner : InformationState D} {name : Text} {path : List Text}
    (records : RecordPath is (name :: path)) (held : is.lookup name = some (.record inner)) :
    RecordPath inner path := by
  intro before isBefore proper i reached
  apply records (name :: before)
  · exact List.cons_prefix_cons.mpr ⟨rfl, isBefore⟩
  · intro same
    exact proper (List.cons.inj same).2
  · rw [List.map_cons, Item.follow, held]
    exact reached

theorem RecordPath.head {is : InformationState D} {name next : Text} {path : List Text}
    (records : RecordPath is (name :: next :: path)) {i : Item D} (held : is.lookup name = some i) :
    ∃ inner, i = .record inner := by
  apply records [name]
  · exact List.cons_prefix_cons.mpr ⟨rfl, List.nil_prefix⟩
  · simp
  · simp [Item.follow, held]

theorem dropDollar_plain {s : Text} (plain : PlainField s) : dropDollar s = s := by
  unfold dropDollar
  split
  · exact absurd rfl plain.2.2
  · rfl

variable (chars : Characters)

theorem getValue_field {is : InformationState D} {name : Text} (plain : PlainField name)
    (rest : List Text) : (Item.record is).getValueOfPath chars (name :: rest) =
      match is.lookup name with
      | some i => i.getValueOfPath chars rest
      | none => .ok none := by
  have named : ¬ (name = [] ∧ rest = []) := fun missing => plain.1 missing.1
  cases held : is.lookup name with
  | none => simp only [Item.getValueOfPath, if_neg named, dropDollar_plain plain, held]
  | some i => simp only [Item.getValueOfPath, if_neg named, dropDollar_plain plain, held]

theorem getValue_empty {path : List Text} (given : path ≠ []) :
    (Item.record ([] : InformationState D)).getValueOfPath chars path = .ok none := by
  cases path with
  | nil => exact absurd rfl given
  | cons name rest =>
    rw [Item.getValueOfPath]
    split
    · rfl
    · rfl

/-- What a write along a path of records leaves behind. -/
structure Written (value : Item D) (path : List Text) (is after : InformationState D) : Prop where
  put : (Item.record after).getValueOfPath chars path = .ok (some value)
  apart : ∀ q, (∀ s ∈ q, PlainField s) → Apart path q →
    (Item.record after).getValueOfPath chars q = (Item.record is).getValueOfPath chars q

theorem written_last {value : Item D} (atomic : value.Atomic) (is : InformationState D)
    {name : Text} (plain : PlainField name) :
    Written chars value [name] is (put is name value) := by
  constructor
  · rw [getValue_field chars plain, lookup_put_same]
    exact reads_value chars atomic
  · intro q qPlain apart
    cases q with
    | nil => exact absurd List.nil_prefix apart.2
    | cons s q =>
      have different : s ≠ name := by
        rintro rfl
        exact apart.1 (List.cons_prefix_cons.mpr ⟨rfl, List.nil_prefix⟩)
      have sPlain := qPlain s List.mem_cons_self
      rw [getValue_field chars sPlain, getValue_field chars sPlain, lookup_put_other _ _ different]

/-- A write below a record, or below a new one where there is none. -/
theorem written_inner {value : Item D} {is inner after : InformationState D} {name : Text}
    (plain : PlainField name) {path : List Text}
    (held : is.lookup name = some (.record inner) ∨ is.lookup name = none ∧ inner = [])
    (written : Written chars value path inner after) :
    Written chars value (name :: path) is (put is name (.record after)) := by
  constructor
  · rw [getValue_field chars plain, lookup_put_same]
    exact written.put
  · intro q qPlain apart
    cases q with
    | nil => exact absurd List.nil_prefix apart.2
    | cons s q =>
      have sPlain := qPlain s List.mem_cons_self
      have rest : ∀ t ∈ q, PlainField t := fun t member => qPlain t (List.mem_cons_of_mem _ member)
      rw [getValue_field chars sPlain, getValue_field chars sPlain]
      by_cases same : s = name
      · subst same
        have below := written.apart q rest apart.tail
        rw [lookup_put_same]
        rcases held with held | ⟨absent, rfl⟩
        · rw [held]
          exact below
        · have given : q ≠ [] := by
            rintro rfl
            exact apart.tail.2 List.nil_prefix
          rw [getValue_empty chars given] at below
          rw [absent]
          exact below
      · rw [lookup_put_other _ _ same]

theorem set_written {value : Item D} (atomic : value.Atomic) {path : List Text}
    (given : path ≠ []) (plain : ∀ s ∈ path, PlainField s) {is : InformationState D}
    (records : RecordPath is path) : ∃ after,
      Item.set value path (.record is) = (.record after, none) ∧
        Written chars value path is after := by
  induction path generalizing is with
  | nil => exact absurd rfl given
  | cons name rest ih =>
    have namePlain := plain name List.mem_cons_self
    have restPlain : ∀ s ∈ rest, PlainField s :=
      fun s member => plain s (List.mem_cons_of_mem _ member)
    rw [Item.set, if_neg (fun missing => namePlain.1 missing.1), dropDollar_plain namePlain]
    cases rest with
    | nil => exact ⟨_, rfl, written_last chars atomic is namePlain⟩
    | cons next rest =>
      have below {inner : InformationState D} := @ih (List.cons_ne_nil _ _) restPlain inner
      cases held : is.lookup name with
      | some i =>
        obtain ⟨inner, rfl⟩ := records.head held
        obtain ⟨after, done, written⟩ := below (records.tail held)
        refine ⟨_, ?_, written_inner chars namePlain (.inl held) written⟩
        simp only [held, done]
      | none =>
        obtain ⟨after, done, written⟩ := below (recordPath_nil _)
        refine ⟨_, ?_, written_inner chars namePlain (.inr ⟨held, rfl⟩) written⟩
        simp only [held, newInRecord_head (restPlain next List.mem_cons_self).2.1, done]

theorem set_lens {value : Item D} (atomic : value.Atomic) (is : InformationState D) (p : Text)
    (plain : PlainFields p) (records : RecordPath is (segments p)) :
    (is.set p value).2 = none ∧
    (is.set p value).1.getValueOfPath chars p = .ok (some value) ∧
    ∀ q, PlainFields q → Apart (segments p) (segments q) →
      (is.set p value).1.getValueOfPath chars q = is.getValueOfPath chars q := by
  obtain ⟨after, done, written⟩ := set_written chars atomic (List.splitOn_ne_nil _ _) plain records
  have state : is.set p value = (after, none) := by
    unfold InformationState.set segments
    rw [done]
    rfl
  rw [state]
  exact ⟨rfl, written.put, fun q qPlain apart => written.apart (segments q) qPlain apart⟩

def twoNames : InformationState Unit :=
  [("a".toList, .record [("y".toList, .integer 2)]), ("b".toList, .list [.integer 3])]

theorem set_lens_twoNames :
    let after := (twoNames.set "a.x".toList (.integer 1)).1
    after.getValueOfPath ascii "a.x".toList = .ok (some (.integer 1)) ∧
    after.getValueOfPath ascii "a.y".toList = .ok (some (.integer 2)) ∧
    after.getValueOfPath ascii "b".toList = twoNames.getValueOfPath ascii "b".toList := by
  have records : RecordPath twoNames (segments "a.x".toList) := by
    have pieces : segments "a.x".toList = ["a".toList, "x".toList] := by decide
    rw [pieces]
    intro before isBefore proper i reached
    have cases := (List.mem_inits before _).mpr isBefore
    simp only [List.inits, List.map_cons, List.map_nil, List.mem_cons, List.not_mem_nil,
      or_false] at cases
    rcases cases with rfl | rfl | rfl
    · cases reached
      exact ⟨_, rfl⟩
    · cases reached
      exact ⟨_, rfl⟩
    · exact absurd rfl proper
  have lens := set_lens ascii (.integer 1) twoNames "a.x".toList (by decide) records
  refine ⟨lens.2.1, ?_, lens.2.2 "b".toList (by decide) (by decide)⟩
  rw [lens.2.2 "a.y".toList (by decide) (by decide)]
  rfl

end Semaine.Dialogue
