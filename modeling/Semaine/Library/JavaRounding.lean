import Semaine.Library.JavaFloat

/-! What holds of `float` whatever the rounding. The finite floats are those with a value, and a
rounded result is on the same side of every float as the exact one. -/
namespace JavaFloat

section
variable {F : Type} (fl : Roots F) (value : F → Option Rat)

def Roots.Rounds (x : F) (e : Rat) : Prop :=
  ∀ r t, value r = some t → (e ≤ t → fl.le x r = true) ∧ (t ≤ e → fl.le r x = true)

def Roots.sum (terms : List F) : F := terms.foldl fl.add fl.zero

/-- The sum without rounding. -/
def exactSum (terms : List F) : Rat := (terms.map fun c => (value c).getD 0).sum

/-- What one addition of floats rounds off at most, as a part of the sum. -/
def roundoff : Rat := 1 / 2 ^ 24

/-- Up to 1 a float has a double, and a sum of such floats, however many there are, does not come
near the infinite. Zero and one are the units that one expects. -/
structure Roots.Rounded : Prop where
  absorbing : fl.toFloats.Absorbing
  value_zero : value fl.zero = some 0
  value_one : value fl.one = some 1
  value_ofInt {n : Int} : -2 ≤ n → n ≤ 2 → value (fl.ofInt n) = some n
  le_iff {a b : F} {p q : Rat} : value a = some p → value b = some q →
    (fl.le a b = true ↔ p ≤ q)
  lt_iff {a b : F} {p q : Rat} : value a = some p → value b = some q →
    (fl.lt a b = true ↔ p < q)
  between {a b x : F} {p q : Rat} : value a = some p → value b = some q → fl.le a x = true →
    fl.le x b = true → ∃ r, value x = some r
  add {a b : F} {p q : Rat} : value a = some p → value b = some q →
    fl.Rounds value (fl.add a b) (p + q)
  add_near {a b : F} {p q r : Rat} : value a = some p → value b = some q →
    value (fl.add a b) = some r → |r - (p + q)| ≤ roundoff * |p + q|
  sub {a b : F} {p q : Rat} : value a = some p → value b = some q →
    fl.Rounds value (fl.sub a b) (p - q)
  mul {a b : F} {p q : Rat} : value a = some p → value b = some q →
    fl.Rounds value (fl.mul a b) (p * q)
  div {a b : F} {p q : Rat} : value a = some p → value b = some q → q ≠ 0 →
    fl.Rounds value (fl.div a b) (p / q)
  neg {a : F} {p : Rat} : value a = some p → ∃ b, value b = some (-p)
  twice {a : F} {p : Rat} : value a = some p → 0 ≤ p → p ≤ 1 → ∃ b, value b = some (2 * p)
  sums {terms : List F} : (∀ c ∈ terms, ∃ p, value c = some p ∧ 0 ≤ p ∧ p ≤ 1) →
    ∃ p, value (fl.sum terms) = some p ∧ ∃ b, value b = some (2 * p)
  add_nonneg {a b : F} : fl.le fl.zero a = true → fl.le fl.zero b = true →
    fl.le fl.zero (fl.add a b) = true
  div_nonneg {a b : F} {p : Rat} : fl.le fl.zero a = true → value b = some p → 0 < p →
    fl.le fl.zero (fl.div a b) = true
  sqrt_nonneg {a : F} : fl.le fl.zero a = true → fl.isNaN (fl.sqrt a) = false
  sqrt_nan : fl.sqrt fl.nan = fl.nan
  sqrt_zero : fl.sqrt fl.zero = fl.zero
  zero_add {a : F} {p : Rat} : value a = some p → 0 < p → fl.add fl.zero a = a
  zero_add_zero {a : F} : value a = some 0 → fl.add fl.zero a = fl.zero
  zero_div {a : F} {p : Rat} : value a = some p → 0 < p → fl.div fl.zero a = fl.zero
  zero_div_zero : fl.isNaN (fl.div fl.zero (fl.ofInt 0)) = true
  one_sub_zero : fl.sub fl.one fl.zero = fl.one
  one_number : fl.isNaN fl.one = false
  div_one {a : F} {p : Rat} : value a = some p → fl.div a (fl.ofInt 1) = a
  div_ne_one {a : F} {p : Rat} {n : Int} : value a = some p → p ≤ 1 → 2 ≤ n →
    fl.div a (fl.ofInt n) ≠ fl.one

end

namespace Roots.Rounded
variable {F : Type} {fl : Roots F} {value : F → Option Rat}

theorem within (rounded : fl.Rounded value) {x a b : F} {e s t : Rat}
    (rounds : fl.Rounds value x e) (low : value a = some s) (high : value b = some t)
    (above : s ≤ e) (below : e ≤ t) : ∃ q, value x = some q ∧ s ≤ q ∧ q ≤ t := by
  have least := (rounds a s low).2 above
  have most := (rounds b t high).1 below
  obtain ⟨q, finite⟩ := rounded.between low high least most
  exact ⟨q, finite, (rounded.le_iff low finite).mp least, (rounded.le_iff finite high).mp most⟩

theorem value_eq (rounded : fl.Rounded value) {x r : F} {e : Rat} (rounds : fl.Rounds value x e)
    (float : value r = some e) : value x = some e := by
  obtain ⟨q, finite, above, below⟩ := rounded.within rounds float float (le_refl e) (le_refl e)
  rw [finite, le_antisymm below above]

theorem nonneg (rounded : fl.Rounded value) {x : F} {e : Rat} (rounds : fl.Rounds value x e)
    (sign : 0 ≤ e) : fl.le fl.zero x = true :=
  (rounds fl.zero 0 rounded.value_zero).2 sign

theorem multiple (rounded : fl.Rounded value) {c : F} {q : Rat} {n : Int}
    (finite : value c = some q) (least : 0 ≤ q) (most : q ≤ 1) (low : -2 ≤ n) (high : n ≤ 2) :
    ∃ b, value b = some (n * q) := by
  obtain ⟨twice, double⟩ := rounded.twice finite least most
  obtain rfl | rfl | rfl | rfl | rfl : n = -2 ∨ n = -1 ∨ n = 0 ∨ n = 1 ∨ n = 2 := by omega
  · obtain ⟨b, negated⟩ := rounded.neg double
    exact ⟨b, by rw [negated]; congr 1; push_cast; ring⟩
  · obtain ⟨b, negated⟩ := rounded.neg finite
    exact ⟨b, by rw [negated]; congr 1; push_cast; ring⟩
  · exact ⟨fl.zero, by rw [rounded.value_zero]; congr 1; push_cast; ring⟩
  · exact ⟨c, by rw [finite]; congr 1; push_cast; ring⟩
  · exact ⟨twice, by rw [double]; congr 1⟩

/-- A share `x * c / w` of `x` lies where `x` lies. -/
theorem share (rounded : fl.Rounded value) {x c w : F} {p q r : Rat} {a b : Int}
    (term : value x = some p) (weight : value c = some q) (total : value w = some r)
    (positive : 0 < q) (most : q ≤ 1) (part : q ≤ r) (low : -2 ≤ a) (high : b ≤ 2)
    (least : a ≤ 0) (greatest : 0 ≤ b) (above : a ≤ p) (below : p ≤ b) :
    ∃ y, value (fl.div (fl.mul x c) w) = some y ∧ a ≤ y ∧ y ≤ b := by
  obtain ⟨lower, lowest⟩ := rounded.multiple weight positive.le most low (by omega)
  obtain ⟨upper, highest⟩ := rounded.multiple weight positive.le most (by omega) high
  have scaled : (a : Rat) * q ≤ p * q := mul_le_mul_of_nonneg_right above positive.le
  have scaled' : p * q ≤ (b : Rat) * q := mul_le_mul_of_nonneg_right below positive.le
  obtain ⟨n, product, above, below⟩ :=
    rounded.within (rounded.mul term weight) lowest highest scaled scaled'
  have positive' : 0 < r := lt_of_lt_of_le positive part
  have least' : (a : Rat) ≤ 0 := by exact_mod_cast least
  have greatest' : (0 : Rat) ≤ b := by exact_mod_cast greatest
  apply rounded.within (rounded.div product total (ne_of_gt positive'))
    (rounded.value_ofInt low (by omega)) (rounded.value_ofInt (by omega) high)
  · rw [le_div_iff₀ positive']
    exact le_trans (mul_le_mul_of_nonpos_left part least') above
  · rw [div_le_iff₀ positive']
    exact le_trans below (mul_le_mul_of_nonneg_left part greatest')

theorem sum_concat (terms : List F) (c : F) : fl.sum (terms ++ [c]) = fl.add (fl.sum terms) c := by
  simp [Roots.sum]

theorem sum_least (rounded : fl.Rounded value) {terms : List F}
    (units : ∀ c ∈ terms, ∃ p, value c = some p ∧ 0 ≤ p ∧ p ≤ 1) :
    ∃ p, value (fl.sum terms) = some p ∧ 0 ≤ p ∧ ∃ b, value b = some (2 * p) := by
  induction terms using List.reverseRecOn with
  | nil => exact ⟨0, rounded.value_zero, le_refl 0, fl.zero, by rw [rounded.value_zero, mul_zero]⟩
  | append_singleton terms c ih =>
    obtain ⟨p, before, least, _⟩ := ih fun c member => units c (List.mem_append_left _ member)
    obtain ⟨q, last, least', _⟩ := units c (List.mem_append_right _ (.head []))
    obtain ⟨r, total, double⟩ := rounded.sums units
    refine ⟨r, total, ?_, double⟩
    rw [sum_concat] at total
    have sign := rounded.nonneg (rounded.add before last) (by linarith)
    exact (rounded.le_iff rounded.value_zero total).mp sign

theorem exactSum_concat {terms : List F} {c : F} {q : Rat} (last : value c = some q) :
    exactSum value (terms ++ [c]) = exactSum value terms + q := by
  simp [exactSum, last]

/-- A float sum of numbers between 0 and 1 is their sum, up to the roundoff of every addition. -/
theorem sum_near (rounded : fl.Rounded value) {terms : List F}
    (units : ∀ c ∈ terms, ∃ p, value c = some p ∧ 0 ≤ p ∧ p ≤ 1) :
    ∃ s, value (fl.sum terms) = some s ∧
      (1 - roundoff) ^ terms.length * exactSum value terms ≤ s ∧
      s ≤ (1 + roundoff) ^ terms.length * exactSum value terms := by
  induction terms using List.reverseRecOn with
  | nil => exact ⟨0, rounded.value_zero, by simp [exactSum], by simp [exactSum]⟩
  | append_singleton terms c ih =>
    have units' := fun c member => units c (List.mem_append_left _ member)
    obtain ⟨s, before, low, high⟩ := ih units'
    obtain ⟨s', before', least, _⟩ := rounded.sum_least units'
    obtain rfl := Option.some.inj (before.symm.trans before')
    obtain ⟨q, last, least', _⟩ := units c (List.mem_append_right _ (.head []))
    obtain ⟨r, total, _⟩ := rounded.sums units
    have near := rounded.add_near before last (by rw [← sum_concat]; exact total)
    rw [abs_of_nonneg (by linarith : 0 ≤ s + q), abs_le] at near
    refine ⟨r, total, ?_, ?_⟩
    · have shrinks : (1 - roundoff) ^ terms.length * q ≤ q :=
        mul_le_of_le_one_left least' (pow_le_one₀ (by norm_num [roundoff]) (by norm_num [roundoff]))
      calc (1 - roundoff) ^ (terms ++ [c]).length * exactSum value (terms ++ [c])
          = (1 - roundoff) * ((1 - roundoff) ^ terms.length * exactSum value terms +
              (1 - roundoff) ^ terms.length * q) := by
            rw [exactSum_concat last, List.length_append, List.length_singleton]
            ring
        _ ≤ (1 - roundoff) * (s + q) :=
            mul_le_mul_of_nonneg_left (add_le_add low shrinks) (by norm_num [roundoff])
        _ ≤ r := by linarith [near.1]
    · have grows : q ≤ (1 + roundoff) ^ terms.length * q :=
        le_mul_of_one_le_left least' (one_le_pow₀ (by norm_num [roundoff]))
      calc r ≤ (1 + roundoff) * (s + q) := by linarith [near.2]
        _ ≤ (1 + roundoff) * ((1 + roundoff) ^ terms.length * exactSum value terms +
              (1 + roundoff) ^ terms.length * q) :=
            mul_le_mul_of_nonneg_left (add_le_add high grows) (by norm_num [roundoff])
        _ = (1 + roundoff) ^ (terms ++ [c]).length * exactSum value (terms ++ [c]) := by
            rw [exactSum_concat last, List.length_append, List.length_singleton]
            ring

theorem sum_concat_least (rounded : fl.Rounded value) {terms : List F} {c : F} {q : Rat}
    (units : ∀ c ∈ terms, ∃ p, value c = some p ∧ 0 ≤ p ∧ p ≤ 1) (last : value c = some q)
    (least : 0 ≤ q) (most : q ≤ 1) :
    ∃ r, value (fl.add (fl.sum terms) c) = some r ∧ q ≤ r := by
  have units' : ∀ c' ∈ terms ++ [c], ∃ p, value c' = some p ∧ 0 ≤ p ∧ p ≤ 1 := by
    intro c' member
    rcases List.mem_append.mp member with before | single
    · exact units c' before
    · rw [List.mem_singleton.mp single]
      exact ⟨q, last, least, most⟩
  obtain ⟨p, before, least', _⟩ := rounded.sum_least units
  obtain ⟨r, total, _⟩ := rounded.sums units'
  rw [sum_concat] at total
  have more := (rounded.add before last c q last).2 (by linarith)
  exact ⟨r, total, (rounded.le_iff last total).mp more⟩

end Roots.Rounded

/-- Floats without rounding. -/
def exactRoots (parseFloat : List Char → Option Number) (root : Rat → Rat) : Roots Number where
  toFloats := exactFloats parseFloat
  sqrt
    | .nan => .nan
    | .val q => if q < 0 then .nan else .val (root q)
  ofInt n := .val n

def Number.value : Number → Option Rat
  | .nan => none
  | .val q => some q

theorem Number.of_value {x : Number} {q : Rat} (finite : x.value = some q) : x = .val q := by
  cases x with
  | nan => cases finite
  | val p =>
    obtain rfl := Option.some.inj finite
    rfl

theorem exactRoots_sum (parseFloat : List Char → Option Number) (root : Rat → Rat)
    {terms : List Number} (finite : ∀ c ∈ terms, ∃ p, c.value = some p) :
    ∃ p, ((exactRoots parseFloat root).sum terms).value = some p := by
  induction terms using List.reverseRecOn with
  | nil => exact ⟨0, rfl⟩
  | append_singleton terms c ih =>
    obtain ⟨p, before⟩ := ih fun c member => finite c (List.mem_append_left _ member)
    obtain ⟨q, last⟩ := finite c (List.mem_append_right _ (.head []))
    rw [Roots.Rounded.sum_concat, Number.of_value before, Number.of_value last]
    exact ⟨p + q, rfl⟩

theorem exactRoots_rounds {parseFloat : List Char → Option Number} {root : Rat → Rat} (e : Rat) :
    (exactRoots parseFloat root).Rounds Number.value (.val e) e := by
  intro r t finite
  rw [Number.of_value finite]
  exact ⟨fun below => decide_eq_true below, fun above => decide_eq_true above⟩

theorem exactRoots_div {parseFloat : List Char → Option Number} {root : Rat → Rat} (p : Rat)
    {q : Rat} (nonzero : q ≠ 0) :
    (exactRoots parseFloat root).div (.val p) (.val q) = .val (p / q) :=
  if_neg nonzero

theorem exactRoots_rounded (parseFloat : List Char → Option Number) {root : Rat → Rat}
    (zero : root 0 = 0) : (exactRoots parseFloat root).Rounded Number.value where
  absorbing := by
    refine ⟨rfl, fun _ => rfl, ?_, fun _ => rfl, ?_, fun _ => rfl, ?_, fun _ => rfl⟩
    all_goals
      intro x
      cases x with
      | nan => rfl
      | val q => rfl
  value_zero := rfl
  value_one := rfl
  value_ofInt _ _ := rfl
  le_iff first second := by
    rw [Number.of_value first, Number.of_value second]
    exact decide_eq_true_iff
  lt_iff first second := by
    rw [Number.of_value first, Number.of_value second]
    exact decide_eq_true_iff
  between {a b x p q} _ _ least _ := by
    cases x with
    | nan =>
      cases a with
      | nan => cases least
      | val q => cases least
    | val q => exact ⟨q, rfl⟩
  add first second := by
    rw [Number.of_value first, Number.of_value second]
    exact exactRoots_rounds _
  add_near {a b p q r} first second total := by
    rw [Number.of_value first, Number.of_value second] at total
    obtain rfl : p + q = r := Option.some.inj total
    rw [sub_self, abs_zero]
    exact mul_nonneg (by norm_num [roundoff]) (abs_nonneg _)
  sub first second := by
    rw [Number.of_value first, Number.of_value second]
    exact exactRoots_rounds _
  mul first second := by
    rw [Number.of_value first, Number.of_value second]
    exact exactRoots_rounds _
  div {a b p q} first second nonzero := by
    rw [Number.of_value first, Number.of_value second, exactRoots_div p nonzero]
    exact exactRoots_rounds _
  neg {_ p} _ := ⟨.val (-p), rfl⟩
  twice {_ p} _ _ _ := ⟨.val (2 * p), rfl⟩
  sums {terms} units := by
    obtain ⟨p, total⟩ := exactRoots_sum parseFloat root fun c member =>
      (units c member).imp fun _ unit => unit.1
    exact ⟨p, total, .val (2 * p), rfl⟩
  add_nonneg {a b} first second := by
    cases a with
    | nan => cases first
    | val p =>
      cases b with
      | nan => cases second
      | val q =>
        have first : (0 : Rat) ≤ p := of_decide_eq_true first
        have second : (0 : Rat) ≤ q := of_decide_eq_true second
        exact decide_eq_true (add_nonneg first second)
  div_nonneg {a b p} sign divisor positive := by
    cases a with
    | nan => cases sign
    | val q =>
      have sign : (0 : Rat) ≤ q := of_decide_eq_true sign
      rw [Number.of_value divisor, exactRoots_div q (ne_of_gt positive)]
      exact decide_eq_true (div_nonneg sign positive.le)
  sqrt_nonneg {a} sign := by
    cases a with
    | nan => cases sign
    | val q =>
      have sign : (0 : Rat) ≤ q := of_decide_eq_true sign
      have radical : (exactRoots parseFloat root).sqrt (.val q) = .val (root q) :=
        if_neg (not_lt.mpr sign)
      rw [radical]
      rfl
  sqrt_nan := rfl
  sqrt_zero := by
    show (if (0 : Rat) < 0 then Number.nan else .val (root 0)) = .val 0
    rw [if_neg (lt_irrefl _), zero]
  zero_add {a p} finite _ := by
    rw [Number.of_value finite]
    exact congrArg Number.val (zero_add p)
  zero_add_zero {a} finite := by
    rw [Number.of_value finite]
    exact congrArg Number.val (zero_add (0 : Rat))
  zero_div {a p} finite positive := by
    rw [Number.of_value finite]
    exact (exactRoots_div 0 (ne_of_gt positive)).trans (congrArg Number.val (zero_div p))
  zero_div_zero := rfl
  one_sub_zero := congrArg Number.val (sub_zero 1)
  one_number := rfl
  div_one {a p} finite := by
    rw [Number.of_value finite]
    have nonzero : ((1 : Int) : Rat) ≠ 0 := Int.cast_ne_zero.mpr Int.one_ne_zero
    refine (exactRoots_div p nonzero).trans ?_
    rw [Int.cast_one, div_one]
  div_ne_one {a p n} finite most several same := by
    have several : (2 : Rat) ≤ n := by exact_mod_cast several
    rw [Number.of_value finite] at same
    have nonzero : (n : Rat) ≠ 0 := by linarith
    have one : p / n = 1 := Number.val.inj ((exactRoots_div p nonzero).symm.trans same)
    rw [div_eq_one_iff_eq nonzero] at one
    linarith

end JavaFloat
