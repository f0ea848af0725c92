import Semaine.Emotion.EmotionFusion
import Semaine.Library.WeightedMean

/-! What a data set says about its data points: the value and the variance of an `EmotionDataSet`
are those of the weighted points that were added to it. -/
namespace Semaine.Emotion
open JavaText JavaFloat WeightedMean

namespace EmotionDataSet
variable {F : Type}

def getMean (eds : EmotionDataSet F) : F := eds.weightedMean

def getVariance (fl : Floats F) (eds : EmotionDataSet F) : F :=
  if fl.eq eds.sumOfWeights fl.zero then fl.zero
  else fl.div eds.weightedSumSqDiff eds.sumOfWeights

def getStandardDeviation (fl : Roots F) (eds : EmotionDataSet F) : F :=
  fl.sqrt (eds.getVariance fl.toFloats)

def getConfidence (fl : Roots F) (eds : EmotionDataSet F) : F :=
  if fl.isNaN (eds.getStandardDeviation fl) then
    fl.div eds.sumOfWeights (fl.ofInt (toInt eds.numDataPoints))
  else
    fl.sub fl.one
      (trimToRange fl.toFloats (eds.getStandardDeviation fl) fl.zero fl.one)

def addAll (fl : Floats F) (eds : EmotionDataSet F) (points : List (F × F)) : EmotionDataSet F :=
  points.foldl (fun eds p => eds.addDataPoint fl p.1 p.2) eds

theorem addAll_concat (fl : Floats F) (eds : EmotionDataSet F) (points : List (F × F))
    (p : F × F) :
    eds.addAll fl (points ++ [p]) = (eds.addAll fl points).addDataPoint fl p.1 p.2 := by
  simp [addAll]

end EmotionDataSet

section
variable {F K : Type} [Field K] [LinearOrder K] [IsStrictOrderedRing K]

/-- The points that `addDataPoint` does not ignore. -/
def counted (points : List (K × K)) : List (K × K) := points.filter fun p => 0 < p.2

omit [IsStrictOrderedRing K] in
theorem counted_concat (points : List (K × K)) (p : K × K) :
    counted (points ++ [p]) =
      if 0 < p.2 then counted points ++ [p] else counted points := by
  by_cases positive : 0 < p.2
  · simp [counted, positive]
  · simp [counted, positive]

omit [IsStrictOrderedRing K] in
theorem counted_pos (points : List (K × K)) : ∀ p ∈ counted points, 0 < p.2 := by
  intro p hp
  simpa using (List.mem_filter.mp hp).2

theorem weight_counted (points : List (K × K)) :
    counted points = [] ∨ 0 < weight (counted points) := by
  rcases List.eq_nil_or_concat (counted points) with none | ⟨_, _, last⟩
  · exact Or.inl none
  · apply Or.inr
    apply weight_pos (counted_pos points)
    rw [last]
    simp

def sets (val : K → F) (eds : EmotionDataSet F) (points : List (K × K)) : EmotionDataSet F :=
  { eds with
    numDataPoints := points.length
    weightedMean := val (mean points)
    weightedSumSqDiff := val (sumSqDiff points)
    sumOfWeights := val (weight points) }

theorem addDataPoint_exact {fl : Floats F} {val : K → F} (exact : fl.ExactOver val)
    (eds : EmotionDataSet F) (points : List (K × K)) (p : K × K) :
    (sets val eds (counted points)).addDataPoint fl (val p.1) (val p.2) =
      sets val eds (counted (points ++ [p])) := by
  rw [EmotionDataSet.addDataPoint, exact.zero, exact.le, counted_concat]
  rcases lt_or_ge 0 p.2 with positive | ignored
  · have before : counted points = [] ∨ weight (counted points) ≠ 0 :=
      (weight_counted points).imp_right ne_of_gt
    have after : weight (counted points) + p.2 ≠ 0 := by
      rcases weight_counted points with none | some
      · rw [none, weight_nil, zero_add]
        exact ne_of_gt positive
      · exact ne_of_gt (add_pos some positive)
    have counts : decide (p.2 ≤ 0) = false := decide_eq_false (not_le_of_gt positive)
    rw [if_pos positive, counts]
    simp only [Bool.false_eq_true, if_false, sets, exact.add, exact.sub, exact.mul,
      exact.div _ _ after]
    congr 1
    · simp
    · rw [mean_concat before after]
    · rw [sumSqDiff_concat before after]
    · rw [weight_concat]
  · rw [if_neg (not_lt_of_ge ignored), if_pos (decide_eq_true ignored)]

theorem addAll_exact {fl : Floats F} {val : K → F} (exact : fl.ExactOver val)
    (descriptionType : Text) (vocabularyURI name : Option Text) (creationTime : Int)
    (points : List (K × K)) :
    (EmotionDataSet.new fl descriptionType vocabularyURI name creationTime).addAll fl
        (points.map fun p => (val p.1, val p.2)) =
      sets val (EmotionDataSet.new fl descriptionType vocabularyURI name creationTime)
        (counted points) := by
  induction points using List.reverseRecOn with
  | nil =>
    simp [EmotionDataSet.addAll, sets, counted, EmotionDataSet.new, exact.zero]
  | append_singleton points p ih =>
    rw [List.map_append, List.map_singleton, EmotionDataSet.addAll_concat, ih]
    exact addDataPoint_exact exact _ points p

theorem getVariance_sets {fl : Floats F} {val : K → F} (exact : fl.ExactOver val)
    (eds : EmotionDataSet F) (points : List (K × K)) :
    (sets val eds (counted points)).getVariance fl = val (variance (counted points)) := by
  simp only [EmotionDataSet.getVariance, sets, exact.zero, exact.eq, decide_eq_true_eq]
  rcases weight_counted points with none | some
  · rw [none, weight_nil, variance_nil, if_pos rfl]
  · rw [if_neg (ne_of_gt some), exact.div _ _ (ne_of_gt some), variance]

end

def rationals (points : List (Rat × Rat)) : List (Number × Number) :=
  points.map fun p => (.val p.1, .val p.2)

theorem fusion_eq_batch (parseFloat : Text → Option Number) (descriptionType : Text)
    (vocabularyURI name : Option Text) (creationTime : Int) (points : List (Rat × Rat)) :
    let fl := exactFloats parseFloat
    let eds := EmotionDataSet.new fl descriptionType vocabularyURI name creationTime
    (eds.addAll fl (rationals points)).getMean = .val (mean (counted points)) ∧
    (eds.addAll fl (rationals points)).getVariance fl = .val (variance (counted points)) ∧
    (counted points = [] →
      (eds.addAll fl (rationals points)).getMean = .val 0 ∧
      (eds.addAll fl (rationals points)).getVariance fl = .val 0) ∧
    ∀ points', points.Perm points' →
      eds.addAll fl (rationals points') = eds.addAll fl (rationals points) := by
  intro fl eds
  have exact := exactFloats_exact parseFloat
  have state (points : List (Rat × Rat)) :
      eds.addAll fl (rationals points) = sets Number.val eds (counted points) :=
    addAll_exact exact descriptionType vocabularyURI name creationTime points
  have value : (eds.addAll fl (rationals points)).getMean = .val (mean (counted points)) := by
    rw [state]
    rfl
  have spread : (eds.addAll fl (rationals points)).getVariance fl =
      .val (variance (counted points)) := by
    rw [state]
    exact getVariance_sets exact eds points
  refine ⟨value, spread, ?_, ?_⟩
  · intro none
    rw [value, spread, none, mean_nil, variance_nil]
    exact ⟨rfl, rfl⟩
  · intro points' same
    have perm : (counted points').Perm (counted points) := (same.filter _).symm
    rw [state, state, sets, sets, mean_perm perm, sumSqDiff_perm perm, weight_perm perm,
      perm.length_eq]

theorem fusion_eq_batch_swap :
    let fl := exactFloats fun _ => none
    let eds := EmotionDataSet.new fl EmotionML.intensity none none 0
    eds.addAll fl (rationals [(1, 1 / 2), (1 / 2, 1)]) =
      eds.addAll fl (rationals [(1 / 2, 1), (1, 1 / 2)]) ∧
    (eds.addAll fl (rationals [(1, 0)])).getMean = .val 0 := by
  have swapped := fusion_eq_batch (fun _ => none) EmotionML.intensity none none 0
    [(1 / 2, 1), (1, 1 / 2)]
  have ignored := fusion_eq_batch (fun _ => none) EmotionML.intensity none none 0 [(1, 0)]
  exact ⟨swapped.2.2.2 _ (List.Perm.swap _ _ _), (ignored.2.2.1 (by decide)).1⟩

end Semaine.Emotion
