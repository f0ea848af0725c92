import Mathlib

/-! The operations of `java.lang.String` that the models use, over lists of characters.
An index that falls next to an ASCII character selects the same piece whether characters or UTF-16
units are counted. Where it can fall elsewhere, or a distance matters, units are counted. -/
namespace JavaText

abbrev Text := List Char

instance : LawfulBEq Text := inferInstanceAs (LawfulBEq (List Char))

/-- `s.indexOf(c, start)`, with `none` for the result -1. -/
def indexOf (s : Text) (c : Char) (start : Nat) : Option Nat :=
  ((s.drop start).findIdx? (· == c)).map (start + ·)

def startsWith (s p : Text) : Bool := p.isPrefixOf s

/-- `s.split(sep)` for a single literal character: trailing empty pieces are dropped. -/
def split (s : Text) (sep : Char) : List Text :=
  if s = [] then [[]] else (s.splitOn sep).rdropWhile (·.isEmpty)

/-- `s.trim()`: every character up to the blank counts as white space. -/
def isBlank (c : Char) : Bool := c.val ≤ 32

def trim (s : Text) : Text := (s.dropWhile isBlank).rdropWhile isBlank

inductive Thrown where
  | nullPointer
  | illegalArgument (message : Text)
  | stringIndexOutOfBounds
  | indexOutOfBounds
  | patternSyntax
  | domInvalidCharacter
  | domNamespace
  deriving DecidableEq, Repr

def substring (s : Text) (start stop : Nat) : Except Thrown Text :=
  if start ≤ stop ∧ stop ≤ s.length then .ok ((s.take stop).drop start)
  else .error .stringIndexOutOfBounds

def utf16Size (c : Char) : Nat := if c.val < 0x10000 then 1 else 2

def units (width : Char → Nat) (s : Text) : Nat := (s.map width).sum

def charAt (s : Text) (i : Nat) : Except Thrown Char :=
  match s[i]? with
  | some c => .ok c
  | none => .error .stringIndexOutOfBounds

theorem indexOf_spec {s : Text} {c : Char} {start i : Nat} (h : indexOf s c start = some i) :
    start ≤ i ∧ s[i]? = some c ∧ ∀ j, start ≤ j → j < i → s[j]? ≠ some c := by
  obtain ⟨k, found, rfl⟩ := Option.map_eq_some_iff.mp h
  obtain ⟨inside, here, before⟩ := List.findIdx?_eq_some_iff_getElem.mp found
  refine ⟨Nat.le_add_right _ _, ?_, ?_⟩
  · have there : (s.drop start)[k]? = some c := by
      rw [List.getElem?_eq_getElem inside, Option.some.injEq]
      simpa using here
    rwa [List.getElem?_drop] at there
  · intro j after earlier isChar
    have index : j - start < k := by omega
    have different := before (j - start) index
    have there : (s.drop start)[j - start]? = some c := by
      rw [List.getElem?_drop, Nat.add_sub_cancel' after]
      exact isChar
    rw [List.getElem?_eq_getElem (by omega), Option.some.injEq] at there
    simp [there] at different

theorem indexOf_lt {s : Text} {c : Char} {start i : Nat} (h : indexOf s c start = some i) :
    i < s.length := by
  obtain ⟨_, here, _⟩ := indexOf_spec h
  exact (List.getElem?_eq_some_iff.mp here).1

theorem units_more {width : Char → Nat} (positive : ∀ c, 0 < width c) (c d : Char) (s : Text) :
    1 < units width (c :: d :: s) := by
  have first := positive c
  have second := positive d
  simp only [units, List.map_cons, List.sum_cons]
  omega

theorem trim_trim (s : Text) : trim (trim s) = trim s := by
  have head : (trim s).dropWhile isBlank = trim s := by
    obtain ⟨tail, whole⟩ : trim s <+: s.dropWhile isBlank :=
      List.rdropWhile_prefix isBlank _
    cases trimmed : trim s with
    | nil => rfl
    | cons c rest =>
      rw [trimmed, List.cons_append] at whole
      have front := List.dropWhile_idempotent isBlank s
      rw [← whole] at front
      have visible : ¬ isBlank c = true := by
        intro blank
        rw [List.dropWhile_cons_of_pos blank] at front
        have shorter := (List.dropWhile_sublist isBlank (l := rest ++ tail)).length_le
        rw [front, List.length_cons] at shorter
        omega
      exact List.dropWhile_cons_of_neg visible
  unfold trim at head ⊢
  rw [head, List.rdropWhile_idempotent]

def ofNat (n : Nat) : Text := Nat.toDigits 10 n

theorem ofNat_injective {m n : Nat} (h : ofNat m = ofNat n) : m = n := by
  have read := congrArg (Nat.ofDigitChars 10 · 0) h
  simpa [ofNat] using read

theorem mem_ofNat {n : Nat} {c : Char} (h : c ∈ ofNat n) : c.isDigit = true :=
  Nat.isDigit_of_mem_toDigits (by decide) (by decide) h

def ofInt : Int → Text
  | .ofNat n => ofNat n
  | .negSucc n => '-' :: ofNat (n + 1)

theorem ofInt_ne_nil (n : Int) : ofInt n ≠ [] := by
  cases n with
  | ofNat n => exact Nat.toDigits_ne_nil
  | negSucc n => exact List.cons_ne_nil _ _

theorem mem_ofInt {n : Int} {c : Char} (h : c ∈ ofInt n) : c = '-' ∨ c.isDigit = true := by
  cases n with
  | ofNat n => exact .inr (mem_ofNat h)
  | negSucc n => exact (List.mem_cons.mp h).imp_right mem_ofNat

theorem ofInt_injective {m n : Int} (h : ofInt m = ofInt n) : m = n := by
  have unsigned : ∀ k l, ofNat k ≠ '-' :: ofNat l := by
    intro k l same
    have digit : '-'.isDigit = true := mem_ofNat (same ▸ List.mem_cons_self)
    cases digit
  cases m with
  | ofNat m =>
    cases n with
    | ofNat n => rw [ofNat_injective h]
    | negSucc n => exact absurd h (unsigned m (n + 1))
  | negSucc m =>
    cases n with
    | ofNat n => exact absurd h.symm (unsigned n (m + 1))
    | negSucc n =>
      have digits := ofNat_injective (List.cons.inj h).2
      rw [Nat.succ.inj digits]

/-- What `java.lang.Character` says about a `char`: the ASCII part, and that neither unit of a pair
is a letter or a digit. -/
structure Characters where
  isLetter : Char → Bool
  digit : Char → Option Nat
  asciiLetter : ∀ c : Char, c.val < 128 → isLetter c = c.isAlpha
  asciiDigit : ∀ c : Char, c.val < 128 →
    digit c = if c.isDigit then some (c.toNat - '0'.toNat) else none
  pairLetter : ∀ c : Char, 0x10000 ≤ c.val → isLetter c = false
  pairDigit : ∀ c : Char, 0x10000 ≤ c.val → digit c = none

def signOf : Text → Bool × Text
  | '-' :: rest => (true, rest)
  | '+' :: rest => (false, rest)
  | s => (false, s)

def ascii : Characters where
  isLetter := Char.isAlpha
  digit c := if c.isDigit then some (c.toNat - '0'.toNat) else none
  asciiLetter _ _ := rfl
  asciiDigit _ _ := rfl
  pairLetter c pair := by
    simp only [Char.isAlpha, Char.isUpper, Char.isLower, Bool.or_eq_false_iff,
      Bool.and_eq_false_iff, decide_eq_false_iff_not, UInt32.le_iff_toNat_le] at pair ⊢
    simp at pair ⊢
    omega
  pairDigit c pair := by
    have above : c.isDigit = false := by
      simp only [Char.isDigit, Bool.and_eq_false_iff, decide_eq_false_iff_not,
        UInt32.le_iff_toNat_le] at pair ⊢
      simp at pair ⊢
      omega
    simp [above]

namespace Characters
variable (chars : Characters)

def isDigit (c : Char) : Bool := (chars.digit c).isSome

/-- `Integer.parseInt(s)`, with `none` for a NumberFormatException. -/
def parseInt (s : Text) : Option Int := do
  let (negative, digits) := signOf s
  let values ← digits.mapM chars.digit
  let magnitude := values.foldl (fun (n : Int) (d : Nat) => 10 * n + d) 0
  let value := if negative then -magnitude else magnitude
  guard (digits ≠ [] ∧ -2 ^ 31 ≤ value ∧ value < 2 ^ 31)
  return value

def parseLong (s : Text) : Option Int := do
  let (negative, digits) := signOf s
  let values ← digits.mapM chars.digit
  let magnitude := values.foldl (fun (n : Int) (d : Nat) => 10 * n + d) 0
  let value := if negative then -magnitude else magnitude
  guard (digits ≠ [] ∧ -2 ^ 63 ≤ value ∧ value < 2 ^ 63)
  return value

end Characters

/-- `s.toLowerCase()`, as far as ASCII letters come out. -/
def toLowerCase (s : Text) : Text := s.map Char.toLower

/-- `s.replaceAll(pattern, replacement)` for texts without special characters. -/
def replaceAll (pattern replacement : Text) : Nat → Text → Text
  | 0, s => s
  | _ + 1, [] => []
  | n + 1, c :: cs =>
    if startsWith (c :: cs) pattern then
      replacement ++ replaceAll pattern replacement n ((c :: cs).drop pattern.length)
    else c :: replaceAll pattern replacement n cs

def textAfter (sub : Text) : Text → Option Text
  | [] => if sub = [] then some [] else none
  | c :: cs =>
    if startsWith (c :: cs) sub then some ((c :: cs).drop sub.length) else textAfter sub cs

def containsText (s sub : Text) : Bool := (textAfter sub s).isSome

/-- An arithmetic result as an `int` or a `long`. -/
def toInt (n : Int) : Int := n.bmod (2 ^ 32)

def toLong (n : Int) : Int := n.bmod (2 ^ 64)

/-- `Math.abs(n)` of a `long`. -/
def absLong (n : Int) : Int := if n = -2 ^ 63 then n else |n|

theorem toInt_le {n : Int} (h : 0 ≤ n) : toInt n ≤ n := by
  unfold toInt
  rw [Int.bmod_def]
  split <;> omega

theorem toInt_eq_self_iff (n : Int) : toInt n = n ↔ -2 ^ 31 ≤ n ∧ n < 2 ^ 31 := by
  unfold toInt
  rw [Int.bmod_def]
  split <;> omega

theorem toInt_eq_iff {n : Int} (h : 0 ≤ n) : toInt n = n ↔ n < 2 ^ 31 := by
  rw [toInt_eq_self_iff]
  omega

def IsLong (n : Int) : Prop := -2 ^ 63 ≤ n ∧ n < 2 ^ 63

instance (n : Int) : Decidable (IsLong n) := inferInstanceAs (Decidable (_ ∧ _))

theorem toLong_eq_self {n : Int} (h : IsLong n) : toLong n = n := by
  unfold IsLong at h
  unfold toLong
  apply Int.bmod_eq_of_le
  · omega
  · omega

theorem isLong_toLong (n : Int) : IsLong (toLong n) := by
  have lower := Int.le_bmod (x := n) (m := 2 ^ 64) (by decide)
  have upper := Int.bmod_lt (x := n) (m := 2 ^ 64) (by decide)
  unfold IsLong toLong
  omega

end JavaText
