import Semaine.Library.RegexLoops

/-! Counting a word by replacing one match after the other: the count is the largest number of
places at which the word stands without overlaps. -/
namespace JavaText
namespace Regex

def letters (w : Text) : List Regex := w.map fun c => char (.oneOf [c])

def literal (w : Text) : Regex := sequence (letters w)

variable {length : Nat} {r pattern : Regex} {w s t : Text}

theorem takes_sequence {rs : List Regex} :
    Takes length (sequence rs) s t ↔ TakesAll length rs s t := by
  induction rs generalizing s with
  | nil =>
    constructor
    · intro h
      cases h
      exact .nil
    · intro h
      cases h
      exact .empty
  | cons r rs ih =>
    cases rs with
    | nil => exact takesAll_single.symm
    | cons q qs =>
      rw [sequence, takes_seq]
      constructor
      · rintro ⟨u, first, rest⟩
        exact .cons first (ih.mp rest)
      · intro h
        cases h with
        | cons first rest => exact ⟨_, first, ih.mpr rest⟩
      · intro same
        cases same

theorem takes_literal : Takes length (literal w) s t ↔ s = w ++ t := by
  unfold literal letters
  rw [takes_sequence]
  induction w generalizing s with
  | nil =>
    constructor
    · intro h
      cases h
      rfl
    · rintro rfl
      exact .nil
  | cons c w ih =>
    constructor
    · intro h
      cases h with
      | cons first rest =>
        obtain ⟨d, holds, rfl⟩ := takes_char.mp first
        have same : d = c := by simpa [CharClass.holds] using holds
        rw [ih.mp rest, same, List.cons_append]
    · rintro rfl
      have holds : (CharClass.oneOf [c]).holds c = true := by simp [CharClass.holds]
      exact .cons (.char holds) (ih.mpr rfl)

theorem findFrom_first {before rest here : Text} (h : r.findFrom length s = some (before, rest))
    (place : here <:+ s) (taken : Takes length r here t) :
    before.length + here.length ≤ s.length := by
  induction s generalizing before with
  | nil =>
    obtain ⟨rest, _, same⟩ := Option.map_eq_some_iff.mp h
    cases same
    rw [List.suffix_nil.mp place]
    exact Nat.le_refl 0
  | cons c s ih =>
    rw [findFrom] at h
    split at h
    · cases h
      have shorter := place.length_le
      simpa using shorter
    · rename_i none
      obtain ⟨⟨before, rest⟩, later, same⟩ := Option.map_eq_some_iff.mp h
      cases same
      rcases List.suffix_cons_iff.mp place with rfl | place
      · rw [List.head?_eq_none_iff] at none
        have member := (mem_rests r _ _).mpr taken
        rw [none] at member
        cases member
      · have earlier := ih later place
        simp only [List.length_cons]
        omega

inductive Apart (w : Text) : Nat → Text → Prop where
  | nowhere (s : Text) : Apart w 0 s
  | place {n : Nat} {rest : Text} (before : Text) :
      Apart w n rest → Apart w (n + 1) (before ++ w ++ rest)

theorem Apart.behind {n : Nat} {rest : Text} (apart : Apart w n rest) (front : Text) :
    Apart w n (front ++ rest) := by
  cases apart with
  | nowhere => exact .nowhere _
  | @place n rest before apart =>
    have longer := apart.place (front ++ before)
    simp only [List.append_assoc] at longer ⊢
    exact longer

theorem word_before {c : Char} (foreign : c ∉ w) {a rest rest' : Text}
    (same : a ++ c :: rest = w ++ rest') : ∃ z, a = w ++ z ∧ rest' = z ++ c :: rest := by
  induction w generalizing a with
  | nil => exact ⟨a, rfl, same.symm⟩
  | cons d w ih =>
    rw [List.mem_cons, not_or] at foreign
    obtain ⟨other, foreign⟩ := foreign
    cases a with
    | nil => exact absurd (List.cons.inj same).1 other
    | cons e a =>
      obtain ⟨rfl, later⟩ := List.cons.inj same
      obtain ⟨z, rfl, last⟩ := ih foreign later
      exact ⟨z, rfl, last⟩

theorem foreign_split {c : Char} (foreign : c ∉ w) {a rest before rest' : Text}
    (same : a ++ c :: rest = before ++ (w ++ rest')) :
    (∃ x, rest = x ++ (w ++ rest')) ∨ ∃ z, a = before ++ (w ++ z) ∧ rest' = z ++ c :: rest := by
  induction before generalizing a with
  | nil =>
    obtain ⟨z, inside, last⟩ := word_before foreign same
    exact .inr ⟨z, inside, last⟩
  | cons e before ih =>
    cases a with
    | nil => exact .inl ⟨before, (List.cons.inj same).2⟩
    | cons d a =>
      obtain ⟨rfl, later⟩ := List.cons.inj same
      rcases ih later with behind | ⟨z, rfl, last⟩
      · exact .inl behind
      · exact .inr ⟨z, rfl, last⟩

theorem Apart.fill {n : Nat} {c : Char} (foreign : c ∉ w) {a rest : Text}
    (apart : Apart w n (a ++ c :: rest)) : Apart w (n + 1) (a ++ w ++ rest) := by
  generalize whole : a ++ c :: rest = s at apart
  induction apart generalizing a with
  | nowhere => exact .place a (.nowhere rest)
  | @place n rest' before apart ih =>
    rw [List.append_assoc] at whole
    rcases foreign_split foreign whole with ⟨x, rfl⟩ | ⟨z, rfl, rfl⟩
    · have second := Apart.place x apart
      rw [List.append_assoc] at second
      exact .place a second
    · have later := Apart.place before (ih rfl)
      simp only [List.append_assoc] at later ⊢
      exact later

theorem Apart.erase {n : Nat} {a rest : Text} (c : Char)
    (first : ∀ x y, a ++ w ++ rest = x ++ w ++ y → a.length ≤ x.length)
    (apart : Apart w (n + 1) (a ++ w ++ rest)) : Apart w n (a ++ c :: rest) := by
  generalize whole : a ++ w ++ rest = s at apart
  cases apart with
  | @place n rest' before apart =>
    have earlier := first before rest' whole
    obtain ⟨z, same⟩ : rest' <:+ rest := by
      have behind : rest' <:+ a ++ w ++ rest := whole ▸ List.suffix_append _ _
      have inside : rest <:+ a ++ w ++ rest := List.suffix_append _ _
      have sum := congrArg List.length whole
      simp only [List.length_append] at sum
      exact List.suffix_of_suffix_length_le behind inside (by omega)
    have longer := apart.behind (a ++ c :: z)
    rw [List.append_assoc, List.cons_append, same] at longer
    exact longer

theorem Turns.isGreatest (shape : Anywhere pattern (literal w)) (plain : ' ' ∉ w)
    (line : ∀ c ∈ s, isLineEnd c = false) {n : Nat}
    (turns : Turns pattern (literal w) s n t) : IsGreatest {k | Apart w k s} n := by
  induction turns with
  | @done s fails =>
    refine ⟨.nowhere s, ?_⟩
    intro k apart
    cases apart with
    | nowhere => exact Nat.le_refl 0
    | @place k rest before apart =>
      have matched : pattern.isMatch (before ++ w ++ rest) = true := by
        apply shape.isMatch_iff.mpr
        refine ⟨before, w ++ rest, rest, List.append_assoc _ _ _, takes_literal.mpr rfl, ?_, ?_⟩
        · intro c member
          exact line c (by simp [member])
        · intro c member
          exact line c (by simp [member])
      exact absurd (fails.symm.trans matched) Bool.false_ne_true
  | @turn s t n matched _ ih =>
    obtain ⟨_, here', _, whole', taken', _⟩ := shape.isMatch_iff.mp matched
    have place' : here' <:+ s := ⟨_, whole'.symm⟩
    cases found : (literal w).find s with
    | none => exact absurd taken' (findFrom_none found place')
    | some pair =>
      obtain ⟨before, rest⟩ := pair
      obtain ⟨here, whole, taken⟩ := findFrom_some found
      rw [takes_literal] at taken
      rw [taken, ← List.append_assoc] at whole
      have replaced : (literal w).replaceFirst [' '] s = before ++ ' ' :: rest := by
        unfold replaceFirst
        rw [found]
        simp
      have first : ∀ x y, before ++ w ++ rest = x ++ w ++ y → before.length ≤ x.length := by
        intro x y same
        rw [← whole, List.append_assoc] at same
        have earlier := findFrom_first found ⟨x, same.symm⟩ (takes_literal.mpr rfl)
        have sum := congrArg List.length same
        simp only [List.length_append] at sum earlier
        omega
      rw [replaced] at ih
      have line' : ∀ c ∈ before ++ ' ' :: rest, isLineEnd c = false := by
        intro c member
        rcases List.mem_append.mp member with front | back
        · exact line c (by rw [whole]; simp [front])
        · rcases List.mem_cons.mp back with rfl | back
          · rfl
          · exact line c (by rw [whole]; simp [back])
      obtain ⟨holds, most⟩ := ih line'
      rw [whole]
      refine ⟨Apart.fill plain holds, ?_⟩
      intro k apart
      cases k with
      | zero => exact Nat.zero_le _
      | succ k => exact Nat.succ_le_succ (most (Apart.erase ' ' first apart))

end Regex
end JavaText
