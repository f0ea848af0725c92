import Semaine.Library.JavaNumerals

/-! An integer that is written into a text is read back from it. -/
namespace JavaText

theorem ofNat_digits (n : Nat) : (ofNat n).all Char.isDigit = true :=
  List.all_eq_true.mpr fun _ member => mem_ofNat member

theorem minusOf_ofNat (n : Nat) : minusOf (ofNat n) = (false, ofNat n) := by
  cases written : ofNat n with
  | nil => exact absurd written Nat.toDigits_ne_nil
  | cons c cs =>
    apply minusOf_cons
    rintro rfl
    have digit := mem_ofNat (n := n) (written ▸ List.mem_cons_self)
    cases digit

theorem ofDigitChars_ofNat (n : Nat) : Nat.ofDigitChars 10 (ofNat n) 0 = n := by
  simp [ofNat]

theorem integer_of_minusOf {s digits : Text} {negative : Bool}
    (parts : minusOf s = (negative, digits))
    (numeral : digits ≠ [] ∧ digits.all Char.isDigit = true) :
    integer s = some (signed negative (Nat.ofDigitChars 10 digits 0 : Int)) := by
  unfold integer
  simp only [parts, if_pos numeral]

theorem integer_ofInt (n : Int) : integer (ofInt n) = some n := by
  have numeral : ∀ k, ofNat k ≠ [] ∧ (ofNat k).all Char.isDigit = true :=
    fun k => ⟨Nat.toDigits_ne_nil, ofNat_digits k⟩
  cases n with
  | ofNat n =>
    have read := integer_of_minusOf (minusOf_ofNat n) (numeral n)
    rw [ofDigitChars_ofNat] at read
    exact read
  | negSucc n =>
    have parts : minusOf (ofInt (Int.negSucc n)) = (true, ofNat (n + 1)) := rfl
    have read := integer_of_minusOf parts (numeral (n + 1))
    rw [ofDigitChars_ofNat] at read
    exact read

variable (chars : Characters)

theorem digits_integer {s : Text} {n : Int} (h : integer s = some n) :
    ∃ values, (signOf s).2.mapM chars.digit = some values ∧ (signOf s).2 ≠ [] ∧
      (if (signOf s).1 then -values.foldl (fun (n : Int) (d : Nat) => 10 * n + d) 0
        else values.foldl (fun (n : Int) (d : Nat) => 10 * n + d) 0) = n := by
  unfold integer at h
  dsimp only at h
  split at h
  · rename_i numeral
    have magnitude := foldl_digits (minusOf s).2 0
    rw [signOf_minusOf numeral.2]
    refine ⟨_, mapM_digit chars numeral.2, numeral.1, ?_⟩
    have value := Option.some.inj h
    unfold signed at value
    rw [show ((0 : Int)) = ((0 : Nat) : Int) from rfl, magnitude, value]
  · cases h

theorem parseLong_integer {s : Text} {n : Int} (h : integer s = some n) (range : IsLong n) :
    chars.parseLong s = some n := by
  obtain ⟨values, read, given, value⟩ := digits_integer chars h
  unfold Characters.parseLong
  simp only [read, Option.bind_eq_bind, Option.bind_some, value, guard]
  rw [if_pos ⟨given, range⟩]
  rfl

theorem parseLong_ofInt {n : Int} (range : IsLong n) : chars.parseLong (ofInt n) = some n :=
  parseLong_integer chars (integer_ofInt n) range

end JavaText
