import Semaine.Dialogue.UserState

/-! The acts of a turn, combined two at a time. -/
namespace Semaine.Dialogue
open JavaText

theorem find_found {α : Type} [BEq α] [LawfulBEq α] {values : List α} (distinct : values.Nodup)
    {other : α} (absent : other ∉ values) (p q : α → Bool) :
    (values.find? fun v => v == (values.find? p).getD other || q v) =
      values.find? fun v => p v || q v := by
  induction values with
  | nil => rfl
  | cons v values ih =>
    obtain ⟨fresh, distinct⟩ := List.nodup_cons.mp distinct
    rw [List.mem_cons, not_or] at absent
    have later := ih distinct absent.2
    cases first : p v with
    | true =>
      rw [List.find?_cons_of_pos first]
      simp [first]
    | false =>
      have notFirst : (v == (values.find? p).getD other) = false := by
        rw [beq_eq_false_iff_ne]
        rintro rfl
        cases found : values.find? p with
        | none =>
          rw [found] at absent
          exact absent.1 rfl
        | some w =>
          rw [found] at fresh
          exact fresh (List.mem_of_find?_eq_some found)
      have skipped : (v :: values).find? p = values.find? p :=
        List.find?_cons_of_neg (by rw [first]; exact Bool.false_ne_true)
      rw [skipped, List.find?_cons, List.find?_cons, notFirst, first, Bool.false_or]
      cases q v with
      | true => rfl
      | false => exact later

namespace DialogueAct

def flags : List (DialogueAct → Bool) :=
  [positive, negative, agree, disagree, aboutOtherPeople, aboutOtherCharacter,
    aboutCurrentCharacter, aboutOwnFeelings, pragmatic, talkAboutSelf, future, past, event, action,
    laugh, changeSpeaker]

def targetCount (acts : List DialogueAct) (character : Text) : Nat :=
  (acts.map getTargetCharacter).count character

/-- A character that is the target of as many acts as any other, or none if no act has a target. -/
def IsCommonTarget (acts : List DialogueAct) (target : Text) : Prop :=
  (target ∈ characters ∧ 0 < targetCount acts target ∧
      ∀ c ∈ characters, targetCount acts c ≤ targetCount acts target) ∨
    (target = "null".toList ∧ ∀ c ∈ characters, targetCount acts c = 0)

structure Combines (acts : List DialogueAct) (result : DialogueAct) : Prop where
  flags : ∀ flag ∈ flags, flag result = acts.any flag
  starttime : result.starttime ∈ acts.map starttime ∧
    ∀ act ∈ acts, result.starttime ≤ act.starttime
  endtime : result.endtime ∈ acts.map endtime ∧ ∀ act ∈ acts, act.endtime ≤ result.endtime
  utterance : result.utterance = [' '].intercalate (acts.map utterance)
  target : IsCommonTarget acts result.getTargetCharacter

theorem combine_flags : ∀ flag ∈ flags, ∀ act1 act2 : DialogueAct,
    flag (act1.combine act2) = (flag act1 || flag act2) := by
  simp only [flags, List.forall_mem_cons, List.not_mem_nil, IsEmpty.forall_iff, implies_true,
    and_true]
  exact ⟨fun _ _ => rfl, fun _ _ => rfl, fun _ _ => rfl, fun _ _ => rfl, fun _ _ => rfl,
    fun _ _ => rfl, fun _ _ => rfl, fun _ _ => rfl, fun _ _ => rfl, fun _ _ => rfl,
    fun _ _ => rfl, fun _ _ => rfl, fun _ _ => rfl, fun _ _ => rfl, fun _ _ => rfl,
    fun _ _ => rfl⟩

theorem combined_flags (first : DialogueAct) (others : List DialogueAct) :
    ∀ flag ∈ flags, flag (others.foldl combine first) = (first :: others).any flag := by
  intro flag member
  induction others generalizing first with
  | nil => rw [List.foldl_nil, List.any_cons, List.any_nil, Bool.or_false]
  | cons next others ih =>
    rw [List.foldl_cons, ih, List.any_cons, combine_flags flag member, List.any_cons, List.any_cons,
      Bool.or_assoc]

theorem combined_starttime (first : DialogueAct) (others : List DialogueAct) :
    (others.foldl combine first).starttime ∈ (first :: others).map starttime ∧
      ∀ act ∈ first :: others, (others.foldl combine first).starttime ≤ act.starttime := by
  induction others generalizing first with
  | nil => simp
  | cons next others ih =>
    obtain ⟨member, least⟩ := ih (first.combine next)
    have start : (first.combine next).starttime = min first.starttime next.starttime := rfl
    have own := least _ (.head _)
    rw [List.map_cons, List.mem_cons, start] at member
    rw [start] at own
    rw [List.foldl_cons]
    constructor
    · rcases member with here | later
      · rw [here]
        rcases min_choice first.starttime next.starttime with left | right
        · rw [left]
          exact .head _
        · rw [right]
          exact .tail _ (.head _)
      · exact .tail _ (.tail _ later)
    · simp only [List.forall_mem_cons]
      refine ⟨own.trans (min_le_left _ _), own.trans (min_le_right _ _), ?_⟩
      intro act inside
      exact least act (.tail _ inside)

theorem combined_endtime (first : DialogueAct) (others : List DialogueAct) :
    (others.foldl combine first).endtime ∈ (first :: others).map endtime ∧
      ∀ act ∈ first :: others, act.endtime ≤ (others.foldl combine first).endtime := by
  induction others generalizing first with
  | nil => simp
  | cons next others ih =>
    obtain ⟨member, greatest⟩ := ih (first.combine next)
    have stop : (first.combine next).endtime = max first.endtime next.endtime := rfl
    have own := greatest _ (.head _)
    rw [List.map_cons, List.mem_cons, stop] at member
    rw [stop] at own
    rw [List.foldl_cons]
    constructor
    · rcases member with here | later
      · rw [here]
        rcases max_choice first.endtime next.endtime with left | right
        · rw [left]
          exact .head _
        · rw [right]
          exact .tail _ (.head _)
      · exact .tail _ (.tail _ later)
    · simp only [List.forall_mem_cons]
      refine ⟨(le_max_left _ _).trans own, (le_max_right _ _).trans own, ?_⟩
      intro act inside
      exact greatest act (.tail _ inside)

theorem combined_utterance (first : DialogueAct) (others : List DialogueAct) :
    (others.foldl combine first).utterance =
      [' '].intercalate ((first :: others).map utterance) := by
  induction others generalizing first with
  | nil => simp
  | cons next others ih =>
    have text : (first.combine next).utterance = first.utterance ++ [' '] ++ next.utterance := rfl
    rw [List.foldl_cons, ih, List.map_cons, List.map_cons, List.map_cons, text]
    cases others with
    | nil => simp
    | cons third others => simp [List.intercalate_cons_cons]

/-- The first character, in the order of `characters`, that is the target of an act. -/
def firstTarget (acts : List DialogueAct) : Option Text :=
  characters.find? fun c => (acts.map getTargetCharacter).contains c

theorem getTargetCharacter_known (act : DialogueAct) :
    act.getTargetCharacter ∈ characters ++ ["null".toList] := by
  rw [List.mem_append]
  unfold getTargetCharacter
  split
  · split
    · rename_i known
      exact .inl known
    · exact .inr (.head _)
  · have chosen (found : Option Text) (known : ∀ c ∈ found, c ∈ characters) :
        found.getD "null".toList ∈ characters ∨ found.getD "null".toList ∈ ["null".toList] := by
      cases found with
      | none => exact .inr (.head _)
      | some c => exact .inl (known c rfl)
    exact chosen _ fun c found => List.mem_of_find?_eq_some found

theorem getTargetCharacter_pair : ∀ t1 ∈ characters ++ ["null".toList],
    ∀ t2 ∈ characters ++ ["null".toList],
      getTargetCharacter { utterance := [], starttime := 0, targetCharacter := t1 ++ [' '] ++ t2 } =
        (characters.find? fun c => [t1, t2].contains c).getD "null".toList := by
  decide

theorem combine_target (act1 act2 : DialogueAct) :
    (act1.combine act2).getTargetCharacter = (firstTarget [act1, act2]).getD "null".toList :=
  getTargetCharacter_pair _ (getTargetCharacter_known act1) _ (getTargetCharacter_known act2)

theorem combined_target (first : DialogueAct) (others : List DialogueAct) :
    (others.foldl combine first).getTargetCharacter =
      (firstTarget (first :: others)).getD "null".toList := by
  induction others using List.reverseRecOn with
  | nil =>
    have own : ∀ t ∈ characters ++ ["null".toList],
        t = (characters.find? fun c => [t].contains c).getD "null".toList := by
      decide
    exact own _ (getTargetCharacter_known first)
  | append_singleton others last ih =>
    have found := find_found (by decide : characters.Nodup)
      (by decide : "null".toList ∉ characters)
      (fun c => ((first :: others).map getTargetCharacter).contains c)
      (fun c => c == last.getTargetCharacter)
    have pair : (fun c => ([others.foldl combine first, last].map getTargetCharacter).contains c) =
        fun c => c == (others.foldl combine first).getTargetCharacter ||
          c == last.getTargetCharacter := by
      funext c
      rw [List.map_cons, List.map_singleton, List.contains_cons, List.contains_cons,
        List.contains_nil, Bool.or_false]
    have whole : (fun c => ((first :: (others ++ [last])).map getTargetCharacter).contains c) =
        fun c => ((first :: others).map getTargetCharacter).contains c ||
          c == last.getTargetCharacter := by
      funext c
      rw [← List.cons_append, List.map_append, List.contains_append, List.map_singleton,
        List.contains_cons, List.contains_nil, Bool.or_false]
    rw [List.foldl_append, List.foldl_cons, List.foldl_nil, combine_target]
    unfold firstTarget at ih ⊢
    rw [pair, whole, ih, found]

theorem firstTarget_none {acts : List DialogueAct} (none : firstTarget acts = none) :
    ∀ c ∈ characters, targetCount acts c = 0 := by
  intro c member
  have absent := List.find?_eq_none.mp none c member
  unfold targetCount
  rw [List.count_eq_zero]
  simpa using absent

theorem firstTarget_some {acts : List DialogueAct} {c : Text} (found : firstTarget acts = some c) :
    c ∈ characters ∧ 0 < targetCount acts c := by
  have present := List.find?_some found
  refine ⟨List.mem_of_find?_eq_some found, ?_⟩
  unfold targetCount
  rw [List.count_pos_iff]
  simpa using present

/-- The acts of a turn are combined as they should be if and only if, of the characters that are
the target of some act, the first in the order Poppy, Prudence, Obadiah, Spike is so most often. -/
theorem combined_iff (first : DialogueAct) (others : List DialogueAct) :
    Combines (first :: others) (first.combineAll others) ↔
      ∀ c, firstTarget (first :: others) = some c → ∀ d ∈ characters,
        targetCount (first :: others) d ≤ targetCount (first :: others) c := by
  have target := combined_target first others
  unfold combineAll
  constructor
  · intro combines c found
    rw [found, Option.getD_some] at target
    have common := combines.target
    rw [target] at common
    rcases common with ⟨_, _, most⟩ | ⟨none, _⟩
    · exact most
    · have known := (firstTarget_some found).1
      rw [none] at known
      exact absurd known (by decide)
  · intro most
    refine ⟨combined_flags first others, combined_starttime first others,
      combined_endtime first others, combined_utterance first others, ?_⟩
    rw [target]
    cases found : firstTarget (first :: others) with
    | none => exact .inr ⟨rfl, firstTarget_none found⟩
    | some c =>
      obtain ⟨known, positive⟩ := firstTarget_some found
      exact .inl ⟨known, positive, most c found⟩

def actFor (target : String) : DialogueAct :=
  { utterance := [], starttime := 0, targetCharacter := target.toList }

/-- Two acts for Prudence and one for Poppy. -/
theorem combined_minority : ¬ ∀ (first : DialogueAct) (others : List DialogueAct),
    Combines (first :: others) (first.combineAll others) := by
  intro combines
  have common := (combines (actFor "Prudence") [actFor "Prudence", actFor "Poppy"]).target
  have named :
      ((actFor "Prudence").combineAll [actFor "Prudence", actFor "Poppy"]).getTargetCharacter =
        "Poppy".toList := by
    decide
  unfold IsCommonTarget at common
  rw [named] at common
  revert common
  decide

end DialogueAct
end Semaine.Dialogue
