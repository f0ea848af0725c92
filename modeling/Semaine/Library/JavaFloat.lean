import Mathlib

/-! Java's floating-point numbers as exact rationals with a value that is not a number.
Rounding and the infinities are not represented; every comparison with NaN is false and
every operation on NaN gives NaN, as in Java. -/
namespace JavaFloat

inductive Number where
  | nan
  | val (q : Rat)
  deriving DecidableEq

namespace Number

def lift (f : Rat → Rat → Rat) : Number → Number → Number
  | val a, val b => val (f a b)
  | _, _ => nan

def add : Number → Number → Number := lift (· + ·)
def sub : Number → Number → Number := lift (· - ·)
def mul : Number → Number → Number := lift (· * ·)

def div : Number → Number → Number
  | val a, val b => if b = 0 then nan else val (a / b)
  | _, _ => nan

def lt : Number → Number → Bool
  | val a, val b => decide (a < b)
  | _, _ => false

def le : Number → Number → Bool
  | val a, val b => decide (a ≤ b)
  | _, _ => false

def isNaN : Number → Bool
  | nan => true
  | val _ => false

/-- `Math.round`: the closest integer, halves up, and 0 for NaN. -/
def round : Number → Int
  | nan => 0
  | val q => (q + 1 / 2).floor

end Number

/-- The operations on `double` that a program uses, whatever their rounding. -/
structure Doubles (D : Type) where
  ofInt : Int → D
  tenth : D
  sub : D → D → D
  mul : D → D → D
  lt : D → D → Bool

def exact : Doubles Rat where
  ofInt := Int.cast
  tenth := 1 / 10
  sub := (· - ·)
  mul := (· * ·)
  lt a b := decide (a < b)

/-- What the order of doubles and their rounding keep: a larger subtrahend does not leave more, and
no two tenths of an `int` are the same. -/
structure Doubles.Lawful {D : Type} (d : Doubles D) : Prop where
  irrefl (a : D) : d.lt a a = false
  trans {a b c : D} : d.lt a b = true → d.lt b c = true → d.lt a c = true
  sub_lt {p p' : D} (q a : D) : d.lt p p' = true → d.lt a (d.sub q p') = true →
    d.lt a (d.sub q p) = true
  sub_zero (q : D) : d.sub q (d.ofInt 0) = q
  noTenth : d.mul (d.ofInt 0) d.tenth = d.ofInt 0
  tenths {i j : Int} : 0 ≤ i → i < j → j < 2 ^ 31 →
    d.lt (d.mul (d.ofInt i) d.tenth) (d.mul (d.ofInt j) d.tenth) = true

theorem exact_lawful : exact.Lawful where
  irrefl a := decide_eq_false (lt_irrefl a)
  trans first second :=
    decide_eq_true (lt_trans (of_decide_eq_true first) (of_decide_eq_true second))
  sub_lt {p p'} q a larger below := by
    have larger : p < p' := of_decide_eq_true larger
    have below : a < q - p' := of_decide_eq_true below
    have more : a < q - p := by linarith
    exact decide_eq_true more
  sub_zero q := by simp [exact]
  noTenth := by simp [exact]
  tenths {i j} _ more _ := by
    have more : (i : Rat) < j := by exact_mod_cast more
    exact decide_eq_true (mul_lt_mul_of_pos_right more (by norm_num [exact]))

/-- More operations on `double`: arithmetic, `intValue`, `Double.equals`, `==` and
`Double.parseDouble`, whatever their rounding. -/
structure Arithmetic (D : Type) extends Doubles D where
  add : D → D → D
  div : D → D → D
  intValue : D → Int
  equals : D → D → Bool
  eq : D → D → Bool
  le : D → D → Bool
  parseDouble : List Char → Option D

/-- Arithmetic without rounding, for the texts that a given function reads. -/
def exactArithmetic (parseDouble : List Char → Option Rat) : Arithmetic Rat where
  toDoubles := exact
  add := (· + ·)
  div := (· / ·)
  intValue q := if 0 ≤ q then q.floor else -(-q).floor
  equals a b := decide (a = b)
  eq a b := decide (a = b)
  le a b := decide (a ≤ b)
  parseDouble := parseDouble

/-- The operations on `float` that a program uses, whatever their rounding. No number is parsed
from a text that `Float.parseFloat` refuses. -/
structure Floats (F : Type) where
  nan : F
  zero : F
  one : F
  parseFloat : List Char → Option F
  isNaN : F → Bool
  lt : F → F → Bool
  le : F → F → Bool
  add : F → F → F
  sub : F → F → F
  mul : F → F → F
  div : F → F → F

def exactFloats (parseFloat : List Char → Option Number) : Floats Number where
  nan := .nan
  zero := .val 0
  one := .val 1
  parseFloat := parseFloat
  isNaN := Number.isNaN
  lt := Number.lt
  le := Number.le
  add := Number.add
  sub := Number.sub
  mul := Number.mul
  div := Number.div

def Floats.eq {F : Type} (fl : Floats F) (a b : F) : Bool := fl.le a b && fl.le b a

/-- Floats and `Math.sqrt`, and the `float` that an `int` is converted to. -/
structure Roots (F : Type) extends Floats F where
  sqrt : F → F
  ofInt : Int → F

/-- Doubles with NaN, 1.e-9 and the order of `doubleToLongBits`. -/
structure Comparisons (D : Type) extends Doubles D where
  nan : D
  billionth : D
  add : D → D → D
  div : D → D → D
  le : D → D → Bool
  eq : D → D → Bool
  longBits : D → Int

namespace Comparisons
variable {D : Type} (d : Comparisons D)

def isNaN (a : D) : Bool := !d.eq a a

def abs (a : D) : D := if d.le a (d.ofInt 0) then d.sub (d.ofInt 0) a else a

def compare (a b : D) : Int :=
  if d.lt a b then -1
  else if d.lt b a then 1
  else if d.longBits a = d.longBits b then 0
  else if d.longBits a < d.longBits b then -1
  else 1

end Comparisons

def exactComparisons : Comparisons Number where
  ofInt n := .val n
  tenth := .val (1 / 10)
  sub := Number.sub
  mul := Number.mul
  lt := Number.lt
  nan := .nan
  billionth := .val (1 / 1000000000)
  add := Number.add
  div := Number.div
  le := Number.le
  eq a b := Number.le a b && Number.le b a
  longBits
    | .nan => 1
    | .val _ => 0

def Comparisons.Near {D : Type} (d : Comparisons D) (threshold a b : D) : Prop :=
  d.lt (d.abs (d.sub a b)) threshold = true

/-- The finite doubles are in order, and how far they are apart does not depend on which is taken
first. Rounding keeps all of this. -/
structure Comparisons.OrderedOver {D : Type} (d : Comparisons D) (Finite : D → Prop) : Prop where
  trans {a b c : D} : Finite a → Finite b → Finite c →
    d.le a b = true → d.le b c = true → d.le a c = true
  lt_iff {a b : D} : Finite a → Finite b → (d.lt a b = true ↔ ¬ d.le b a = true)
  total {a b : D} : Finite a → Finite b → d.le a b = true ∨ d.le b a = true
  near_swap {threshold a b : D} : Finite a → Finite b →
    d.Near threshold a b → d.Near threshold b a
  near_equal {threshold a b : D} : Finite a → Finite b → d.lt (d.ofInt 0) threshold = true →
    d.le a b = true → d.le b a = true → d.Near threshold a b

theorem exactComparisons_distance (a b : Rat) :
    exactComparisons.abs (exactComparisons.sub (.val a) (.val b)) = .val |a - b| := by
  change (if decide (a - b ≤ 0) then Number.val (0 - (a - b)) else Number.val (a - b)) =
    .val |a - b|
  rcases le_total (a - b) 0 with below | above
  · rw [if_pos (decide_eq_true below), abs_of_nonpos below, zero_sub]
  · rw [abs_of_nonneg above]
    split
    · rename_i below
      have zero : a - b = 0 := le_antisymm (of_decide_eq_true below) above
      rw [zero, sub_zero]
    · rfl

theorem exactComparisons_ordered : exactComparisons.OrderedOver fun a => ∃ q, a = .val q where
  trans := by
    rintro _ _ _ ⟨a, rfl⟩ ⟨b, rfl⟩ ⟨c, rfl⟩ first second
    exact decide_eq_true (le_trans (of_decide_eq_true first) (of_decide_eq_true second))
  lt_iff := by
    rintro _ _ ⟨a, rfl⟩ ⟨b, rfl⟩
    exact decide_eq_true_iff.trans (not_le.symm.trans (not_congr decide_eq_true_iff.symm))
  total := by
    rintro _ _ ⟨a, rfl⟩ ⟨b, rfl⟩
    exact (le_total a b).imp decide_eq_true decide_eq_true
  near_swap := by
    rintro threshold _ _ ⟨a, rfl⟩ ⟨b, rfl⟩ near
    unfold Comparisons.Near at near ⊢
    rw [exactComparisons_distance] at near ⊢
    rw [abs_sub_comm]
    exact near
  near_equal := by
    rintro threshold _ _ ⟨a, rfl⟩ ⟨b, rfl⟩ positive first second
    have same : a = b := le_antisymm (of_decide_eq_true first) (of_decide_eq_true second)
    unfold Comparisons.Near
    rw [exactComparisons_distance, same, sub_self, abs_zero]
    exact positive

/-- The floats `val q` and NaN behave as the numbers of a field without rounding. -/
structure Floats.ExactOver {F K : Type} [Field K] [LinearOrder K] (fl : Floats F)
    (val : K → F) : Prop where
  zero : fl.zero = val 0
  one : fl.one = val 1
  add (a b : K) : fl.add (val a) (val b) = val (a + b)
  sub (a b : K) : fl.sub (val a) (val b) = val (a - b)
  mul (a b : K) : fl.mul (val a) (val b) = val (a * b)
  div (a b : K) : b ≠ 0 → fl.div (val a) (val b) = val (a / b)
  le (a b : K) : fl.le (val a) (val b) = decide (a ≤ b)
  lt (a b : K) : fl.lt (val a) (val b) = decide (a < b)
  isNaN (a : K) : fl.isNaN (val a) = false

structure Floats.Absorbing {F : Type} (fl : Floats F) : Prop where
  isNaN : fl.isNaN fl.nan = true
  add_left (x : F) : fl.add fl.nan x = fl.nan
  add_right (x : F) : fl.add x fl.nan = fl.nan
  sub_left (x : F) : fl.sub fl.nan x = fl.nan
  sub_right (x : F) : fl.sub x fl.nan = fl.nan
  mul_left (x : F) : fl.mul fl.nan x = fl.nan
  mul_right (x : F) : fl.mul x fl.nan = fl.nan
  div_left (x : F) : fl.div fl.nan x = fl.nan

theorem exactFloats_exact (parseFloat : List Char → Option Number) :
    (exactFloats parseFloat).ExactOver Number.val where
  zero := rfl
  one := rfl
  add _ _ := rfl
  sub _ _ := rfl
  mul _ _ := rfl
  div _ _ nonzero := if_neg nonzero
  le _ _ := rfl
  lt _ _ := rfl
  isNaN _ := rfl

theorem Floats.ExactOver.eq {F K : Type} [Field K] [LinearOrder K] {fl : Floats F} {val : K → F}
    (exact : fl.ExactOver val) (a b : K) : fl.eq (val a) (val b) = decide (a = b) := by
  rw [Floats.eq, exact.le, exact.le, ← Bool.decide_and]
  exact decide_eq_decide.mpr le_antisymm_iff.symm

end JavaFloat
