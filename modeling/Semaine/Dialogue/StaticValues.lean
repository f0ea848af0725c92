import Semaine.Dialogue.AbstractValue
import Semaine.Library.JavaNumerals

/-! Values that are written in templates without a reference: for which texts they can be made,
and which numbers they are. -/
namespace Semaine.Dialogue
open JavaText JavaFloat

section
variable {D : Type} (chars : Characters) (ops : Arithmetic D)

def isIntegerShaped (t : Text) : Bool := (minusOf t).2.all chars.isDigit

def isDotted (t : Text) : Bool :=
  t.contains '.' && (minusOf t).2.all fun c => chars.isDigit c || c == '.'

def LettersApart : Prop := ∀ c, chars.isDigit c = true → chars.isLetter c = false

/-- What `Double.parseDouble` says of digits and dots; `ofRat` rounds to a double. -/
structure ReadsDecimals (ofRat : Rat → D) : Prop where
  number : ∀ t q, decimal t = some q → ops.parseDouble t = some (ofRat q)
  noNumber : ∀ t, isDotted chars t = true → decimal t = none → ops.parseDouble t = none

theorem foldl_next (a : Allowed) (cs : Text) :
    cs.foldl (Allowed.next chars) a =
      { isInt := a.isInt && cs.all chars.isDigit
        isDouble := a.isDouble && cs.all fun c => chars.isDigit c || c == '.'
        isString := a.isString && cs.all (isStringCharacter chars) } := by
  induction cs generalizing a with
  | nil => simp
  | cons c cs ih =>
    rw [List.foldl_cons, ih]
    simp [Allowed.next, Bool.and_assoc, beq_eq_decide]

theorem allowed_isInt {t : Text} (given : t ≠ []) :
    (allowed chars t).isInt = isIntegerShaped chars t := by
  cases t with
  | nil => exact absurd rfl given
  | cons c cs =>
    unfold allowed isIntegerShaped
    simp only [foldl_next, Allowed.first]
    by_cases minus : c = '-'
    · subst minus
      simp [minusOf]
    · rw [minusOf_cons cs minus]
      simp [minus]

theorem allowed_isDouble {t : Text} (given : t ≠ []) :
    (allowed chars t).isDouble = isDotted chars t := by
  cases t with
  | nil => exact absurd rfl given
  | cons c cs =>
    unfold allowed isDotted
    simp only [foldl_next, Allowed.first]
    by_cases minus : c = '-'
    · subst minus
      simp [minusOf]
    · rw [minusOf_cons cs minus]
      simp [minus, Bool.and_assoc, beq_eq_decide]

theorem isDigit_ascii {c : Char} (small : c.val < 128) : chars.isDigit c = c.isDigit := by
  unfold Characters.isDigit
  rw [chars.asciiDigit c small]
  cases c.isDigit <;> rfl

theorem allowed_isString {t : Text} (given : t ≠ []) (apart : LettersApart chars)
    (number : (minusOf t).2.all (fun c => chars.isDigit c || c == '.') = true) :
    (allowed chars t).isString = false := by
  cases t with
  | nil => exact absurd rfl given
  | cons c cs =>
    unfold allowed
    simp only [foldl_next, Allowed.first]
    have first : c = '-' ∨ c = '.' ∨ chars.isDigit c = true := by
      by_cases minus : c = '-'
      · exact .inl minus
      · rw [minusOf_cons cs minus, List.all_cons, Bool.and_eq_true, Bool.or_eq_true] at number
        rcases number.1 with digit | dot
        · exact .inr (.inr digit)
        · exact .inr (.inl (eq_of_beq dot))
    have noStart : (chars.isLetter c || "!?#".toList.contains c) = false := by
      rcases first with rfl | rfl | digit
      · rw [chars.asciiLetter '-' (by decide)]
        decide
      · rw [chars.asciiLetter '.' (by decide)]
        decide
      · rw [apart c digit, Bool.false_or]
        cases mark : "!?#".toList.contains c with
        | false => rfl
        | true =>
          have one : c = '!' ∨ c = '?' ∨ c = '#' := by simpa using mark
          rcases one with rfl | rfl | rfl <;>
            exact absurd digit (by rw [isDigit_ascii chars (by decide)]; decide)
    rw [noStart]
    simp

theorem isDotted_of_integerShaped {t : Text} (shaped : isIntegerShaped chars t = true) :
    isDotted chars t = false := by
  unfold isDotted
  cases dot : t.contains '.' with
  | false => rfl
  | true =>
    have digit := List.all_eq_true.mp shaped '.'
      (mem_minusOf (List.contains_iff_mem.mp dot) (by decide))
    rw [isDigit_ascii chars (by decide)] at digit
    cases digit

theorem getStaticValue_blank {str : Text} (given : str ≠ []) (blank : trim str = []) :
    getStaticValue chars ops str = .ok none := by
  unfold getStaticValue
  rw [if_neg given, blank]
  rfl

theorem getStaticValue_integer {str : Text} (given : trim str ≠ []) (apart : LettersApart chars)
    (shaped : isIntegerShaped chars (trim str) = true) :
    getStaticValue chars ops str =
      match chars.parseInt (trim str) with
      | some i => .ok (some (.integer i))
      | none => .error .runtime := by
  have nonempty : str ≠ [] := by
    rintro rfl
    exact given rfl
  have number : (minusOf (trim str)).2.all (fun c => chars.isDigit c || c == '.') = true := by
    rw [List.all_eq_true]
    intro c member
    rw [List.all_eq_true.mp shaped c member, Bool.true_or]
  have isInt := (allowed_isInt chars given).trans shaped
  have isDouble := (allowed_isDouble chars given).trans (isDotted_of_integerShaped chars shaped)
  have isString := allowed_isString chars given apart number
  unfold getStaticValue
  rw [if_neg nonempty]
  dsimp only
  generalize allowed chars (trim str) = classes at isInt isDouble isString ⊢
  cases classes with
  | mk int double string =>
    cases isInt
    cases isDouble
    cases isString
    rfl

theorem getStaticValue_dotted {str : Text} (apart : LettersApart chars)
    (dotted : isDotted chars (trim str) = true) :
    getStaticValue chars ops str =
      match ops.parseDouble (trim str) with
      | some d => .ok (some (.double d))
      | none => .error .runtime := by
  have given : trim str ≠ [] := by
    intro blank
    rw [blank] at dotted
    cases dotted
  have nonempty : str ≠ [] := by
    rintro rfl
    exact given rfl
  have number := (Bool.and_eq_true_iff.mp dotted).2
  have noInt : isIntegerShaped chars (trim str) = false := by
    cases shaped : isIntegerShaped chars (trim str) with
    | false => rfl
    | true => cases dotted.symm.trans (isDotted_of_integerShaped chars shaped)
  have isInt := (allowed_isInt chars given).trans noInt
  have isDouble := (allowed_isDouble chars given).trans dotted
  have isString := allowed_isString chars given apart number
  unfold getStaticValue
  rw [if_neg nonempty]
  dsimp only
  generalize allowed chars (trim str) = classes at isInt isDouble isString ⊢
  cases classes with
  | mk int double string =>
    cases isInt
    cases isDouble
    cases isString
    rfl

theorem getStaticValue_other {str : Text} (given : trim str ≠ [])
    (noInt : isIntegerShaped chars (trim str) = false)
    (undotted : isDotted chars (trim str) = false) :
    ∃ value, getStaticValue chars ops str = .ok value := by
  have nonempty : str ≠ [] := by
    rintro rfl
    exact given rfl
  have isInt := (allowed_isInt chars given).trans noInt
  have isDouble := (allowed_isDouble chars given).trans undotted
  unfold getStaticValue
  rw [if_neg nonempty]
  dsimp only
  generalize allowed chars (trim str) = classes at isInt isDouble ⊢
  cases classes with
  | mk int double string =>
    cases isInt
    cases isDouble
    cases string with
    | true => exact ⟨_, rfl⟩
    | false => exact ⟨_, rfl⟩

/-- A number that Java does not read: not an `int`, or not one decimal number. -/
def Unreadable (t : Text) : Prop :=
  (t ≠ [] ∧ isIntegerShaped chars t = true ∧ chars.parseInt t = none) ∨
    (isDotted chars t = true ∧ decimal t = none)

variable {chars ops} in
theorem getStaticValue_total {ofRat : Rat → D} (reads : ReadsDecimals chars ops ofRat)
    (apart : LettersApart chars) (str : Text) :
    (∃ value, getStaticValue chars ops str = .ok value) ↔ ¬ Unreadable chars (trim str) := by
  unfold Unreadable
  by_cases blank : trim str = []
  · have nothing : isDotted chars [] = false := rfl
    refine iff_of_true ?_ ?_
    · by_cases given : str = []
      · rw [given]
        exact ⟨_, rfl⟩
      · exact ⟨none, getStaticValue_blank chars ops given blank⟩
    · rw [blank]
      rintro (⟨given, _⟩ | ⟨dotted, _⟩)
      · exact given rfl
      · cases nothing.symm.trans dotted
  · cases shaped : isIntegerShaped chars (trim str) with
    | true =>
      have undotted := isDotted_of_integerShaped chars shaped
      rw [getStaticValue_integer chars ops blank apart shaped]
      cases parsed : chars.parseInt (trim str) with
      | some i => simp [undotted]
      | none => simp [blank]
    | false =>
      cases dotted : isDotted chars (trim str) with
      | true =>
        rw [getStaticValue_dotted chars ops apart dotted]
        cases number : decimal (trim str) with
        | some q => simp [reads.number _ q number]
        | none => simp [reads.noNumber _ dotted number]
      | false => simp [getStaticValue_other chars ops blank shaped dotted]

theorem new_static {s : Text} (noReference : s.contains '$' = false) :
    AbstractValue.new chars ops s =
      match operatorOf s with
      | some _ => .error .runtime
      | none => (getStaticValue chars ops s).map (.one s) := by
  unfold AbstractValue.new
  cases operatorOf s with
  | some operator =>
    simp only [noReference]
    rfl
  | none =>
    simp only [noReference]
    cases getStaticValue chars ops s <;> rfl

/-- A text without arithmetic signs, and not a number that Java does not read. -/
def Loads (s : Text) : Prop := operatorOf s = none ∧ ¬ Unreadable chars (trim s)

structure Robust (ofRat : Rat → D) (s : Text) : Prop where
  constructs : ∃ abstractValue, AbstractValue.new chars ops s = .ok abstractValue
  integers : ∀ n, integer s = some n → IsInt n →
    AbstractValue.new chars ops s = .ok (.one s (some (.integer n)))
  decimals : ∀ q, decimal s = some q →
    AbstractValue.new chars ops s = .ok (.one s (some (.double (ofRat q))))

theorem operatorOf_numeral {s : Text} (numeral : IsNumeral s) : operatorOf s = none := by
  have plain {c : Char} (noNumber : ¬ (c = '-' ∨ c = '.' ∨ c.isDigit = true)) :
      s.contains c = false := by
    cases inside : s.contains c with
    | false => rfl
    | true => exact absurd (numeral.cases (List.contains_iff_mem.mp inside)) noNumber
  have minus : (s.drop 1).contains '-' = false := by
    cases s with
    | nil => rfl
    | cons c cs =>
      cases inside : ((c :: cs).drop 1).contains '-' with
      | false => rfl
      | true => exact absurd (List.contains_iff_mem.mp inside) numeral.tail
  unfold operatorOf
  rw [plain (c := '+') (by decide), minus, plain (c := '/') (by decide),
    plain (c := '*') (by decide)]
  rfl

theorem noReference_numeral {s : Text} (numeral : IsNumeral s) : s.contains '$' = false := by
  cases inside : s.contains '$' with
  | false => rfl
  | true =>
    rcases numeral.cases (List.contains_iff_mem.mp inside) with minus | dot | digit
    · cases minus
    · cases dot
    · cases digit

theorem isIntegerShaped_integer {s : Text} {n : Int} (h : integer s = some n) :
    isIntegerShaped chars s = true := by
  unfold isIntegerShaped
  rw [List.all_eq_true]
  intro c member
  have digit := List.all_eq_true.mp (integer_some h).2 c member
  unfold Characters.isDigit
  rw [digit_ascii chars digit]
  rfl

theorem isDotted_decimal {s : Text} {q : Rat} (h : decimal s = some q) :
    isDotted chars s = true := by
  obtain ⟨whole, fraction, shape, _⟩ := decimal_some h
  have numeral := isNumeral_decimal h
  have dot : '.' ∈ s := by
    have inside : '.' ∈ (minusOf s).2 := by
      rw [shape]
      exact List.mem_append_right whole (.head fraction)
    unfold minusOf at inside
    split at inside
    · exact List.mem_cons_of_mem _ inside
    · exact inside
  unfold isDotted
  rw [List.contains_iff_mem.mpr dot, Bool.true_and, List.all_eq_true]
  intro c member
  have number := List.all_eq_true.mp numeral c member
  rw [Bool.or_eq_true] at number ⊢
  refine number.imp_left fun digit => ?_
  unfold Characters.isDigit
  rw [digit_ascii chars digit]
  rfl

variable {chars ops}

theorem getStaticValue_of_integer (apart : LettersApart chars) {s : Text} {n : Int}
    (h : integer s = some n) (range : IsInt n) :
    getStaticValue chars ops s = .ok (some (.integer n)) := by
  have same := (isNumeral_integer h).trim
  have given : s ≠ [] := by
    rintro rfl
    exact (integer_some h).1 rfl
  rw [getStaticValue_integer chars ops (by rw [same]; exact given) apart
    (by rw [same]; exact isIntegerShaped_integer chars h), same, parseInt_integer chars h,
    if_pos range]

theorem getStaticValue_of_decimal {ofRat : Rat → D} (reads : ReadsDecimals chars ops ofRat)
    (apart : LettersApart chars) {s : Text} {q : Rat} (h : decimal s = some q) :
    getStaticValue chars ops s = .ok (some (.double (ofRat q))) := by
  have same := (isNumeral_decimal h).trim
  rw [getStaticValue_dotted chars ops apart (by rw [same]; exact isDotted_decimal chars h), same,
    reads.number s q h]

theorem new_numeral {s : Text} (numeral : IsNumeral s) :
    AbstractValue.new chars ops s = (getStaticValue chars ops s).map (.one s) := by
  rw [new_static chars ops (noReference_numeral numeral), operatorOf_numeral numeral]

/-- A text without a reference is robust exactly if it has no arithmetic sign and is not a number
that Java does not read. -/
theorem robust_iff {ofRat : Rat → D} (reads : ReadsDecimals chars ops ofRat)
    (apart : LettersApart chars) {s : Text} (noReference : s.contains '$' = false) :
    Robust chars ops ofRat s ↔ Loads chars s := by
  have total := getStaticValue_total reads apart s
  have made := new_static chars ops noReference
  constructor
  · rintro ⟨⟨abstractValue, constructs⟩, _, _⟩
    rw [made] at constructs
    cases operator : operatorOf s with
    | some sign =>
      rw [operator] at constructs
      cases constructs
    | none =>
      rw [operator] at constructs
      refine ⟨operator, total.mp ?_⟩
      cases read : getStaticValue chars ops s with
      | ok value => exact ⟨value, rfl⟩
      | error e =>
        simp only [read] at constructs
        cases constructs
  · rintro ⟨operator, readable⟩
    obtain ⟨value, read⟩ := total.mpr readable
    refine ⟨⟨.one s value, ?_⟩, ?_, ?_⟩
    · rw [made, operator, read]
      rfl
    · intro n h range
      rw [new_numeral (isNumeral_integer h), getStaticValue_of_integer apart h range]
      rfl
    · intro q h
      rw [new_numeral (isNumeral_decimal h), getStaticValue_of_decimal reads apart h]
      rfl

end

def exactDecimals : Arithmetic Rat := exactArithmetic decimal

theorem exactDecimals_reads : ReadsDecimals ascii exactDecimals id where
  number _ _ h := h
  noNumber _ _ h := h

theorem ascii_lettersApart : LettersApart ascii := by
  intro c digit
  have isDigit : c.isDigit = true := by
    cases number : c.isDigit with
    | true => rfl
    | false =>
      unfold Characters.isDigit ascii at digit
      simp only [number] at digit
      cases digit
  change c.isAlpha = false
  simp only [Char.isDigit, Bool.and_eq_true, decide_eq_true_eq, ge_iff_le,
    UInt32.le_iff_toNat_le] at isDigit
  simp only [Char.isAlpha, Char.isUpper, Char.isLower, ge_iff_le, UInt32.le_iff_toNat_le,
    Bool.or_eq_false_iff, Bool.and_eq_false_iff, decide_eq_false_iff_not]
  simp at isDigit ⊢
  omega

theorem robust_iff_five : Robust ascii exactDecimals id "5".toList ↔ Loads ascii "5".toList :=
  robust_iff exactDecimals_reads ascii_lettersApart rfl

/-- A sum of two numbers, and a text with two dots. -/
theorem notRobust :
    AbstractValue.new ascii exactDecimals "5+3".toList = .error .runtime ∧
      AbstractValue.new ascii exactDecimals "1.2.3".toList = .error .runtime ∧
      ¬ Robust ascii exactDecimals id "5+3".toList := by
  have sum : AbstractValue.new ascii exactDecimals "5+3".toList = .error .runtime := rfl
  have dots : AbstractValue.new ascii exactDecimals "1.2.3".toList = .error .runtime := rfl
  refine ⟨sum, dots, fun robust => ?_⟩
  obtain ⟨abstractValue, constructs⟩ := robust.constructs
  cases sum.symm.trans constructs

end Semaine.Dialogue
