import Semaine.Library.JavaText

/-! Decimal numerals with an optional minus sign, and how Java reads them. -/
namespace JavaText

def minusOf : Text → Bool × Text
  | '-' :: rest => (true, rest)
  | s => (false, s)

def signed {N : Type} [Neg N] (negative : Bool) (n : N) : N := if negative then -n else n

def integer (s : Text) : Option Int :=
  let (negative, digits) := minusOf s
  if digits ≠ [] ∧ digits.all Char.isDigit then
    some (signed negative (Nat.ofDigitChars 10 digits 0 : Int))
  else none

/-- The number that a text with exactly one dot, and at least one ASCII digit, stands for. -/
def decimal (s : Text) : Option Rat :=
  let (negative, digits) := minusOf s
  match digits.splitOn '.' with
  | [whole, fraction] =>
    if whole ++ fraction ≠ [] ∧ (whole ++ fraction).all Char.isDigit then
      some (signed negative (Nat.ofDigitChars 10 (whole ++ fraction) 0 / 10 ^ fraction.length))
    else none
  | _ => none

def IsInt (n : Int) : Prop := -2 ^ 31 ≤ n ∧ n < 2 ^ 31

instance (n : Int) : Decidable (IsInt n) := inferInstanceAs (Decidable (_ ∧ _))

variable (chars : Characters)

theorem digit_ascii {c : Char} (h : c.isDigit = true) :
    chars.digit c = some (c.toNat - '0'.toNat) := by
  have small : c.val < 128 := by
    simp only [Char.isDigit, Bool.and_eq_true, decide_eq_true_eq, ge_iff_le,
      UInt32.le_iff_toNat_le] at h
    rw [UInt32.lt_iff_toNat_lt]
    simp at h ⊢
    omega
  rw [chars.asciiDigit c small, if_pos h]

theorem mapM_digit {digits : Text} (h : digits.all Char.isDigit = true) :
    digits.mapM chars.digit = some (digits.map fun c => c.toNat - '0'.toNat) := by
  induction digits with
  | nil => rfl
  | cons c digits ih =>
    rw [List.all_cons, Bool.and_eq_true] at h
    rw [List.mapM_cons, digit_ascii chars h.1, ih h.2]
    rfl

theorem foldl_digits (digits : Text) (n : Nat) :
    (digits.map fun c => c.toNat - '0'.toNat).foldl (fun (n : Int) (d : Nat) => 10 * n + d) n =
      (Nat.ofDigitChars 10 digits n : Int) := by
  induction digits generalizing n with
  | nil => rfl
  | cons c digits ih =>
    rw [List.map_cons, List.foldl_cons, Nat.ofDigitChars_cons, ← ih]
    norm_cast

theorem signOf_minusOf {s : Text} (h : (minusOf s).2.all Char.isDigit = true) :
    signOf s = minusOf s := by
  unfold minusOf at h ⊢
  split at h
  · rfl
  · rename_i noMinus
    cases s with
    | nil => rfl
    | cons c rest =>
      rw [List.all_cons, Bool.and_eq_true] at h
      unfold signOf
      split
      · rename_i rest' same
        exact absurd same (noMinus rest')
      · rename_i same
        cases same
        cases h.1
      · rfl

theorem parseInt_integer {s : Text} {n : Int} (h : integer s = some n) :
    chars.parseInt s = if IsInt n then some n else none := by
  unfold integer at h
  dsimp only at h
  split at h
  · rename_i numeral
    have sign := signOf_minusOf numeral.2
    have values := mapM_digit chars numeral.2
    have magnitude := foldl_digits (minusOf s).2 0
    have value := Option.some.inj h
    unfold signed at value
    unfold Characters.parseInt
    rw [sign]
    simp only [values, Option.bind_eq_bind, Option.bind_some]
    rw [show ((0 : Int)) = ((0 : Nat) : Int) from rfl, magnitude, value]
    simp only [guard]
    by_cases range : IsInt n
    · rw [if_pos ⟨numeral.1, range⟩, if_pos range]
      rfl
    · rw [if_neg (fun all => range all.2), if_neg range]
      rfl
  · cases h

theorem mem_minusOf {s : Text} {c : Char} (member : c ∈ s) (noMinus : c ≠ '-') :
    c ∈ (minusOf s).2 := by
  unfold minusOf
  split
  · exact (List.mem_cons.mp member).resolve_left noMinus
  · exact member

theorem minusOf_cons {c : Char} (cs : Text) (noMinus : c ≠ '-') :
    minusOf (c :: cs) = (false, c :: cs) := by
  unfold minusOf
  split
  · rename_i same
    cases same
    exact absurd rfl noMinus
  · rfl

def IsNumeral (s : Text) : Prop :=
  (minusOf s).2.all (fun c => c.isDigit || c == '.') = true

theorem integer_some {s : Text} {n : Int} (h : integer s = some n) :
    (minusOf s).2 ≠ [] ∧ (minusOf s).2.all Char.isDigit = true := by
  unfold integer at h
  dsimp only at h
  split at h
  · assumption
  · cases h

theorem decimal_some {s : Text} {q : Rat} (h : decimal s = some q) :
    ∃ whole fraction, (minusOf s).2 = whole ++ '.' :: fraction ∧
      whole ++ fraction ≠ [] ∧ (whole ++ fraction).all Char.isDigit = true := by
  unfold decimal at h
  dsimp only at h
  split at h
  · rename_i whole fraction pieces
    split at h
    · rename_i digits
      refine ⟨whole, fraction, ?_, digits⟩
      have joined : ['.'].intercalate ((minusOf s).2.splitOn '.') = (minusOf s).2 :=
        List.intercalate_splitOn '.'
      rw [pieces] at joined
      exact joined.symm.trans (by simp [List.intercalate])
    · cases h
  · cases h

theorem isNumeral_integer {s : Text} {n : Int} (h : integer s = some n) : IsNumeral s := by
  unfold IsNumeral
  rw [List.all_eq_true]
  intro c member
  rw [List.all_eq_true.mp (integer_some h).2 c member, Bool.true_or]

theorem isNumeral_decimal {s : Text} {q : Rat} (h : decimal s = some q) : IsNumeral s := by
  obtain ⟨whole, fraction, shape, _, digits⟩ := decimal_some h
  rw [List.all_append, Bool.and_eq_true, List.all_eq_true, List.all_eq_true] at digits
  unfold IsNumeral
  rw [shape, List.all_eq_true]
  intro c member
  rw [Bool.or_eq_true, beq_iff_eq]
  rcases List.mem_append.mp member with inWhole | later
  · exact .inl (digits.1 c inWhole)
  · rcases List.mem_cons.mp later with dot | inFraction
    · exact .inr dot
    · exact .inl (digits.2 c inFraction)

theorem IsNumeral.cases {s : Text} (h : IsNumeral s) {c : Char} (member : c ∈ s) :
    c = '-' ∨ c = '.' ∨ c.isDigit = true := by
  by_cases minus : c = '-'
  · exact .inl minus
  · have number := List.all_eq_true.mp h c (mem_minusOf member minus)
    rw [Bool.or_eq_true, beq_iff_eq] at number
    exact .inr number.symm

theorem IsNumeral.tail {c : Char} {s : Text} (h : IsNumeral (c :: s)) : '-' ∉ s := by
  have rest : s.all (fun c => c.isDigit || c == '.') = true := by
    by_cases minus : c = '-'
    · subst minus
      exact h
    · unfold IsNumeral at h
      rw [minusOf_cons s minus, List.all_cons, Bool.and_eq_true] at h
      exact h.2
  intro member
  cases List.all_eq_true.mp rest '-' member

theorem isBlank_digit {c : Char} (h : c.isDigit = true) : isBlank c = false := by
  simp only [Char.isDigit, Bool.and_eq_true, decide_eq_true_eq, ge_iff_le,
    UInt32.le_iff_toNat_le] at h
  simp only [isBlank, decide_eq_false_iff_not, UInt32.le_iff_toNat_le]
  simp at h ⊢
  omega

theorem trim_eq_self {s : Text} (visible : ∀ c ∈ s, isBlank c = false) : trim s = s := by
  have front : s.dropWhile isBlank = s := by
    rw [List.dropWhile_eq_self_iff]
    intro given
    rw [visible _ (List.getElem_mem given)]
    exact Bool.false_ne_true
  unfold trim
  rw [front, List.rdropWhile_eq_self_iff]
  intro given
  rw [visible _ (List.getLast_mem given)]
  exact Bool.false_ne_true

theorem IsNumeral.trim {s : Text} (h : IsNumeral s) : trim s = s := by
  apply trim_eq_self
  intro c member
  rcases h.cases member with rfl | rfl | digit
  · decide
  · decide
  · exact isBlank_digit digit

end JavaText
