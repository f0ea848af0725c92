import Mathlib

/-! The mean and the variance of weighted values, and how one more value changes them. A point is
a value and its weight. Without points both are zero. -/
namespace WeightedMean

variable {K : Type} [Field K]

def weight (points : List (K × K)) : K := (points.map fun p => p.2).sum

def mean (points : List (K × K)) : K := (points.map fun p => p.2 * p.1).sum / weight points

def sumSqDiff (points : List (K × K)) : K :=
  (points.map fun p => p.2 * (p.1 - mean points) ^ 2).sum

def variance (points : List (K × K)) : K := sumSqDiff points / weight points

@[simp] theorem weight_nil : weight ([] : List (K × K)) = 0 := rfl

@[simp] theorem mean_nil : mean ([] : List (K × K)) = 0 := by simp [mean]

@[simp] theorem sumSqDiff_nil : sumSqDiff ([] : List (K × K)) = 0 := rfl

@[simp] theorem variance_nil : variance ([] : List (K × K)) = 0 := by simp [variance]

theorem weight_concat (points : List (K × K)) (v c : K) :
    weight (points ++ [(v, c)]) = weight points + c := by
  simp [weight]

theorem sum_sq_around (points : List (K × K)) (m : K) :
    (points.map fun p => p.2 * (p.1 - m) ^ 2).sum =
      (points.map fun p => p.2 * p.1 ^ 2).sum - 2 * m * (points.map fun p => p.2 * p.1).sum +
        m ^ 2 * weight points := by
  induction points with
  | nil => simp
  | cons p points ih =>
    simp only [List.map_cons, List.sum_cons, weight] at ih ⊢
    rw [ih]
    ring

theorem mean_mul_weight {points : List (K × K)} (h : weight points ≠ 0) :
    mean points * weight points = (points.map fun p => p.2 * p.1).sum :=
  div_mul_cancel₀ _ h

theorem sumSqDiff_eq {points : List (K × K)} (h : weight points ≠ 0) :
    sumSqDiff points =
      (points.map fun p => p.2 * p.1 ^ 2).sum - mean points ^ 2 * weight points := by
  rw [sumSqDiff, sum_sq_around, ← mean_mul_weight h]
  ring

theorem mean_concat {points : List (K × K)} {v c : K} (before : points = [] ∨ weight points ≠ 0)
    (after : weight points + c ≠ 0) :
    mean (points ++ [(v, c)]) =
      mean points + (v - mean points) * c / (weight points + c) := by
  have sums : mean (points ++ [(v, c)]) =
      ((points.map fun p => p.2 * p.1).sum + c * v) / (weight points + c) := by
    rw [mean, weight_concat]
    simp
  rw [sums]
  rcases before with rfl | before
  · simp [mul_comm]
  · rw [← mean_mul_weight before]
    field_simp
    ring

theorem sumSqDiff_concat {points : List (K × K)} {v c : K}
    (before : points = [] ∨ weight points ≠ 0) (after : weight points + c ≠ 0) :
    sumSqDiff (points ++ [(v, c)]) =
      sumSqDiff points +
        weight points * (v - mean points) * ((v - mean points) * c / (weight points + c)) := by
  have total : weight (points ++ [(v, c)]) ≠ 0 := by
    rw [weight_concat]
    exact after
  have squares : ((points ++ [(v, c)]).map fun p => p.2 * p.1 ^ 2).sum =
      (points.map fun p => p.2 * p.1 ^ 2).sum + c * v ^ 2 := by
    simp
  rw [sumSqDiff_eq total, squares, weight_concat, mean_concat before after]
  rcases before with rfl | before
  · have present : c ≠ 0 := by simpa using after
    simp only [List.map_nil, List.sum_nil, mean_nil, weight_nil, sumSqDiff_nil, zero_add, sub_zero,
      mul_div_cancel_right₀ v present]
    ring
  · rw [sumSqDiff_eq before]
    field_simp
    ring

theorem weight_perm {points points' : List (K × K)} (h : points.Perm points') :
    weight points = weight points' :=
  (h.map _).sum_eq

theorem mean_perm {points points' : List (K × K)} (h : points.Perm points') :
    mean points = mean points' := by
  rw [mean, mean, weight_perm h, (h.map _).sum_eq]

theorem sumSqDiff_perm {points points' : List (K × K)} (h : points.Perm points') :
    sumSqDiff points = sumSqDiff points' := by
  rw [sumSqDiff, sumSqDiff, mean_perm h, (h.map _).sum_eq]

section
variable [LinearOrder K]

theorem weight_pos [IsStrictOrderedRing K] {points : List (K × K)}
    (positive : ∀ p ∈ points, 0 < p.2) (some : points ≠ []) : 0 < weight points := by
  apply List.sum_pos
  · intro c hc
    obtain ⟨p, hp, rfl⟩ := List.mem_map.mp hc
    exact positive p hp
  · simpa using some

end

end WeightedMean
