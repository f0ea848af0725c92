import Semaine.Library.JavaFloat
import Semaine.Library.JavaNumerals

/-! What holds of `double` whatever the rounding: the order of small integers, and the signs of
quotients, products and converted values. -/
namespace JavaFloat
open JavaText

/-- Arithmetic with `-x`, `Math.exp` and the literals of a program. -/
structure Exponentials (D : Type) extends Arithmetic D where
  neg : D → D
  exp : D → D
  literal : Rat → D

namespace Exponentials

variable {D : Type} (d : Exponentials D)

/-- `Math.min(a, b)` for a `b` that is a number. -/
def minimum (a b : D) : D := if d.le b a then b else a

/-- Rounding keeps the order and the sign, an `int` is converted without rounding, and what is not
a number becomes 0. -/
structure Laws : Prop where
  sub_nonneg {a b : Int} : a ≤ b → d.le (d.ofInt 0) (d.sub (d.ofInt b) (d.ofInt a)) = true
  div_nonneg {x : D} {n : Int} :
    0 < n → d.le (d.ofInt 0) x = true → d.le (d.ofInt 0) (d.div x (d.ofInt n)) = true
  mul_nonneg {x : D} {n : Int} :
    0 < n → d.le (d.ofInt 0) x = true → d.le (d.ofInt 0) (d.mul (d.ofInt n) x) = true
  le_ofInt {a b : Int} : a ≤ b → d.le (d.ofInt a) (d.ofInt b) = true
  intValue_ofInt {n : Int} : IsInt n → d.intValue (d.ofInt n) = n
  intValue_nonneg {x : D} : d.le (d.ofInt 0) x = true → 0 ≤ d.intValue x
  intValue_below {x : D} {n : Int} :
    IsInt n → 0 ≤ n → d.le (d.ofInt n) x = false → d.intValue x ≤ n
  intValue_sub {x y : D} : d.le x y = true → d.intValue (d.sub x y) ≤ 0

variable {d}

theorem Laws.minimum_nonneg (laws : d.Laws) {x : D} {n : Int} (least : 0 ≤ n)
    (sign : d.le (d.ofInt 0) x = true) : d.le (d.ofInt 0) (d.minimum x (d.ofInt n)) = true := by
  unfold minimum
  split
  · exact laws.le_ofInt least
  · exact sign

theorem Laws.intValue_minimum (laws : d.Laws) {n : Int} (range : IsInt n) (least : 0 ≤ n) (x : D) :
    d.intValue (d.minimum x (d.ofInt n)) ≤ n := by
  unfold minimum
  split
  · exact Int.le_of_eq (laws.intValue_ofInt range)
  · rename_i below
    exact laws.intValue_below range least (Bool.eq_false_iff.mpr below)

end Exponentials

def exactExponentials (exp : Rat → Rat) : Exponentials Rat where
  toArithmetic := exactArithmetic fun _ => none
  neg q := -q
  exp := exp
  literal := id

theorem exact_intValue_le {q : Rat} {n : Int} (least : 0 ≤ n) (below : q ≤ n) :
    (if 0 ≤ q then q.floor else -(-q).floor) ≤ n := by
  split
  · exact Int.cast_le.mp (le_trans (Rat.floor_le q) below)
  · rename_i sign
    have high : 0 ≤ (-q).floor := Rat.le_floor_iff.mpr (by push_cast; linarith)
    omega

theorem exact_laws (exp : Rat → Rat) : (exactExponentials exp).Laws where
  sub_nonneg order := by
    have cast : ((_ : Int) : Rat) ≤ _ := Int.cast_le.mpr order
    simpa [exactExponentials, exactArithmetic, exact] using cast
  div_nonneg positive sign := by
    simp only [exactExponentials, exactArithmetic, exact, decide_eq_true_eq, Int.cast_zero] at sign ⊢
    have cast : (0 : Rat) < _ := Int.cast_pos.mpr positive
    positivity
  mul_nonneg positive sign := by
    simp only [exactExponentials, exactArithmetic, exact, decide_eq_true_eq, Int.cast_zero] at sign ⊢
    have cast : (0 : Rat) < _ := Int.cast_pos.mpr positive
    positivity
  le_ofInt order := decide_eq_true (Int.cast_le.mpr order)
  intValue_ofInt {n} _ := by
    simp only [exactExponentials, exactArithmetic, exact]
    split
    · exact Rat.floor_intCast n
    · rw [← Int.cast_neg, Rat.floor_intCast, neg_neg]
  intValue_nonneg sign := by
    simp only [exactExponentials, exactArithmetic, exact, decide_eq_true_eq, Int.cast_zero] at sign ⊢
    rw [if_pos sign]
    exact Rat.le_floor_iff.mpr (by exact_mod_cast sign)
  intValue_below _ least below := by
    simp only [exactExponentials, exactArithmetic, exact, decide_eq_false_iff_not, not_le] at below ⊢
    exact exact_intValue_le least (le_of_lt below)
  intValue_sub order := by
    simp only [exactExponentials, exactArithmetic, exact, decide_eq_true_eq] at order ⊢
    exact exact_intValue_le (Int.le_refl 0) (by push_cast; linarith)

end JavaFloat
