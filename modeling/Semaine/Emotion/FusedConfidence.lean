import Semaine.Emotion.FusedValues
import Semaine.Library.JavaRounding

/-! `EmotionDataSet.getConfidence` against its documentation, whatever the rounding of `float`. -/
namespace Semaine.Emotion
open JavaText JavaFloat

/-- A value, which categories do not have, and a confidence. -/
abbrev Entered (F : Type) := Option F × F

section
variable {F : Type} (fl : Roots F) (descriptionType : Text) (vocabularyURI name : Option Text)
  (creationTime : Int)

def UnitRange (x : F) : Prop := fl.le fl.zero x = true ∧ fl.le x fl.one = true

def Trimmed (points : List (Entered F)) : Prop :=
  ∀ p ∈ points, UnitRange fl p.2 ∧ ∀ v, p.1 = some v → UnitRange fl v

def emptySet : EmotionDataSet F :=
  EmotionDataSet.new fl.toFloats descriptionType vocabularyURI name creationTime

def dataSetOf (points : List (Entered F)) : EmotionDataSet F :=
  (emptySet fl descriptionType vocabularyURI name creationTime).addAll fl.toFloats
    (points.map fun p => (p.1.getD fl.nan, p.2))

/-- The points that `addDataPoint` does not ignore. -/
def weighty (points : List (Entered F)) : List (Entered F) :=
  points.filter fun p => !fl.le p.2 fl.zero

def averaged (points : List (Entered F)) : List (Entered F) :=
  (weighty fl points).filter fun p => p.1.isSome

def sumOfConfidences (points : List (Entered F)) : F := fl.sum (points.map fun p => p.2)

def averageConfidence (points : List (Entered F)) : F :=
  fl.div (sumOfConfidences fl points) (fl.ofInt points.length)

/-- What the documentation of `getConfidence` says. -/
def documentedConfidence (points : List (Entered F)) : F :=
  if 1 < (averaged fl points).length then
    let deviation := (dataSetOf fl descriptionType vocabularyURI name creationTime
      (averaged fl points)).getStandardDeviation fl
    fl.sub fl.one (trimToRange fl.toFloats deviation fl.zero fl.one)
  else averageConfidence fl points

def AllValued (points : List (Entered F)) : Prop := ∀ p ∈ weighty fl points, p.1.isSome

def totalConfidence (value : F → Option Rat) (points : List (Entered F)) : Rat :=
  exactSum value (points.map fun p => p.2)

/-- Several values and nothing else that counts, or one value that is certain, or points without a
value and at most one with a value, of which none is ignored. A float sum of confidences stands
still at `2 ^ 24`. -/
def Documented (value : F → Option Rat) (points : List (Entered F)) : Prop :=
  (AllValued fl points ∧
    (1 < (averaged fl points).length ∨ ∃ v, points = [(some v, fl.one)])) ∨
  (¬ AllValued fl points ∧ (averaged fl points).length ≤ 1 ∧
    (∀ p ∈ points, fl.le p.2 fl.zero = false) ∧ points.length < 2 ^ 31 ∧
    totalConfidence value points ≤ 2 ^ 24)

end

section
variable {F : Type} {fl : Roots F} {value : F → Option Rat} {descriptionType : Text}
  {vocabularyURI name : Option Text} {creationTime : Int}

theorem UnitRange.finite (rounded : fl.Rounded value) {x : F} (unit : UnitRange fl x) :
    ∃ p, value x = some p ∧ 0 ≤ p ∧ p ≤ 1 := by
  obtain ⟨p, finite⟩ := rounded.between rounded.value_zero rounded.value_one unit.1 unit.2
  exact ⟨p, finite, (rounded.le_iff rounded.value_zero finite).mp unit.1,
    (rounded.le_iff finite rounded.value_one).mp unit.2⟩

theorem weighty_concat (points : List (Entered F)) (p : Entered F) :
    weighty fl (points ++ [p]) =
      if fl.le p.2 fl.zero then weighty fl points else weighty fl points ++ [p] := by
  cases ignored : fl.le p.2 fl.zero with
  | true => simp [weighty, ignored]
  | false => simp [weighty, ignored]

theorem averaged_eq {points : List (Entered F)} (all : AllValued fl points) :
    averaged fl points = weighty fl points :=
  List.filter_eq_self.mpr all

theorem Trimmed.weighty {points : List (Entered F)} (range : Trimmed fl points) :
    Trimmed fl (weighty fl points) :=
  fun p member => range p (List.mem_filter.mp member).1

theorem Trimmed.positive (rounded : fl.Rounded value) {points : List (Entered F)}
    (range : Trimmed fl points) {p : Entered F} (member : p ∈ Emotion.weighty fl points) :
    ∃ q, value p.2 = some q ∧ 0 < q ∧ q ≤ 1 := by
  obtain ⟨among, counts⟩ := List.mem_filter.mp member
  obtain ⟨q, finite, _, most⟩ := (range p among).1.finite rounded
  refine ⟨q, finite, ?_, most⟩
  by_contra small
  have ignored := (rounded.le_iff finite rounded.value_zero).mpr (not_lt.mp small)
  simp [ignored] at counts

theorem Trimmed.units (rounded : fl.Rounded value) {points : List (Entered F)}
    (range : Trimmed fl points) :
    ∀ c ∈ points.map fun p => p.2, ∃ q, value c = some q ∧ 0 ≤ q ∧ q ≤ 1 := by
  intro c member
  obtain ⟨p, among, rfl⟩ := List.mem_map.mp member
  exact (range p among).1.finite rounded

theorem dataSetOf_concat (points : List (Entered F)) (p : Entered F) :
    dataSetOf fl descriptionType vocabularyURI name creationTime (points ++ [p]) =
      (dataSetOf fl descriptionType vocabularyURI name creationTime points).addDataPoint
        fl.toFloats (p.1.getD fl.nan) p.2 := by
  rw [dataSetOf, List.map_append, List.map_singleton, EmotionDataSet.addAll_concat, dataSetOf]

theorem addDataPoint_ignored (eds : EmotionDataSet F) (v : F) {c : F}
    (ignored : fl.le c fl.zero = true) : eds.addDataPoint fl.toFloats v c = eds := by
  rw [EmotionDataSet.addDataPoint, if_pos ignored]

theorem dataSetOf_weighty (points : List (Entered F)) :
    dataSetOf fl descriptionType vocabularyURI name creationTime (weighty fl points) =
      dataSetOf fl descriptionType vocabularyURI name creationTime points := by
  induction points using List.reverseRecOn with
  | nil => rfl
  | append_singleton points p ih =>
    rw [dataSetOf_concat, weighty_concat]
    cases ignored : fl.le p.2 fl.zero with
    | true =>
      rw [if_pos rfl, addDataPoint_ignored _ _ ignored]
      exact ih
    | false => rw [if_neg Bool.false_ne_true, dataSetOf_concat, ih]

structure Counts (fl : Roots F) (eds : EmotionDataSet F) (points : List (Entered F)) : Prop where
  numDataPoints : eds.numDataPoints = (weighty fl points).length
  sumOfWeights : eds.sumOfWeights = sumOfConfidences fl (weighty fl points)

theorem counts_dataSetOf (points : List (Entered F)) :
    Counts fl (dataSetOf fl descriptionType vocabularyURI name creationTime points) points := by
  induction points using List.reverseRecOn with
  | nil => exact ⟨rfl, rfl⟩
  | append_singleton points p ih =>
    rw [dataSetOf_concat]
    cases ignored : fl.le p.2 fl.zero with
    | true =>
      have same : weighty fl (points ++ [p]) = weighty fl points := by
        rw [weighty_concat, if_pos ignored]
      rw [addDataPoint_ignored _ _ ignored]
      exact ⟨by rw [same]; exact ih.numDataPoints, by rw [same]; exact ih.sumOfWeights⟩
    | false =>
      have more : weighty fl (points ++ [p]) = weighty fl points ++ [p] := by
        rw [weighty_concat, if_neg (by simp [ignored])]
      rw [EmotionDataSet.addDataPoint, if_neg (by simp [ignored])]
      constructor
      · simp [more, ih.numDataPoints]
      · simp only [more, ih.sumOfWeights, sumOfConfidences, List.map_append, List.map_singleton,
          Roots.Rounded.sum_concat]

/-- The mean stays near the values, and the sum of squares is not negative. -/
structure Sound (fl : Roots F) (value : F → Option Rat) (eds : EmotionDataSet F) : Prop where
  mean : ∃ m, value eds.weightedMean = some m ∧ -1 ≤ m ∧ m ≤ 2
  spread : fl.le fl.zero eds.weightedSumSqDiff = true

/-- How far the mean moves: by a part of the distance to the value, which is at most 1 if the mean
is among the values. -/
theorem moves (rounded : fl.Rounded value) {v m c w : F} {p q r t : Rat} (new : value v = some p)
    (low : 0 ≤ p) (high : p ≤ 1) (mean : value m = some q) (below : -1 ≤ q) (above : q ≤ 2)
    (weight : value c = some r) (positive : 0 < r) (most : r ≤ 1) (total : value w = some t)
    (part : r ≤ t) :
    ∃ x y, value (fl.sub v m) = some x ∧ value (fl.div (fl.mul (fl.sub v m) c) w) = some y ∧
      -2 ≤ x ∧ x ≤ 2 ∧ -1 ≤ q + y ∧ q + y ≤ 2 ∧ (0 ≤ x ∧ 0 ≤ y ∨ x ≤ 0 ∧ y ≤ 0) := by
  have interval (a b : Int) (low' : -2 ≤ a) (high' : b ≤ 2) (least : a ≤ 0) (greatest : 0 ≤ b)
      (near : (a : Rat) ≤ p - q ∧ p - q ≤ b) (stays : -1 ≤ q + a ∧ q + b ≤ 2)
      (oneWay : 0 ≤ (a : Rat) ∨ (b : Rat) ≤ 0) :
      ∃ x y, value (fl.sub v m) = some x ∧ value (fl.div (fl.mul (fl.sub v m) c) w) = some y ∧
        -2 ≤ x ∧ x ≤ 2 ∧ -1 ≤ q + y ∧ q + y ≤ 2 ∧ (0 ≤ x ∧ 0 ≤ y ∨ x ≤ 0 ∧ y ≤ 0) := by
    obtain ⟨x, delta, above, below⟩ := rounded.within (rounded.sub new mean)
      (rounded.value_ofInt low' (by omega)) (rounded.value_ofInt (by omega) high') near.1 near.2
    obtain ⟨y, moved, above', below'⟩ := rounded.share delta weight total positive most part low'
      high' least greatest above below
    have lowest : (-2 : Rat) ≤ a := by exact_mod_cast low'
    have highest : (b : Rat) ≤ 2 := by exact_mod_cast high'
    refine ⟨x, y, delta, moved, by linarith, by linarith, by linarith, by linarith, ?_⟩
    rcases oneWay with up | down
    · exact .inl ⟨by linarith, by linarith⟩
    · exact .inr ⟨by linarith, by linarith⟩
  rcases le_total q p with upwards | downwards
  · rcases le_total 0 q with inside | outside
    · apply interval 0 1 (by decide) (by decide) (by decide) (by decide)
      · constructor <;> push_cast <;> linarith
      · constructor <;> push_cast <;> linarith
      · exact .inl (by norm_num)
    · apply interval 0 2 (by decide) (by decide) (by decide) (by decide)
      · constructor <;> push_cast <;> linarith
      · constructor <;> push_cast <;> linarith
      · exact .inl (by norm_num)
  · rcases le_total q 1 with inside | outside
    · apply interval (-1) 0 (by decide) (by decide) (by decide) (by decide)
      · constructor <;> push_cast <;> linarith
      · constructor <;> push_cast <;> linarith
      · exact .inr (by norm_num)
    · apply interval (-2) 0 (by decide) (by decide) (by decide) (by decide)
      · constructor <;> push_cast <;> linarith
      · constructor <;> push_cast <;> linarith
      · exact .inr (by norm_num)

/-- One more square, with a sum of weights that can be doubled. -/
theorem square_nonneg (rounded : fl.Rounded value) {w x y b : F} {p q r : Rat}
    (weight : value w = some p) (least : 0 ≤ p) (double : value b = some (2 * p))
    (delta : value x = some q) (low : -2 ≤ q) (high : q ≤ 2) (moved : value y = some r)
    (signs : 0 ≤ q ∧ 0 ≤ r ∨ q ≤ 0 ∧ r ≤ 0) :
    fl.le fl.zero (fl.mul (fl.mul w x) y) = true := by
  obtain ⟨b', negated⟩ := rounded.neg double
  have product : ∃ u, value (fl.mul w x) = some u ∧ (0 ≤ u ∧ 0 ≤ r ∨ u ≤ 0 ∧ r ≤ 0) := by
    rcases signs with ⟨up, up'⟩ | ⟨down, down'⟩
    · obtain ⟨u, finite, sign, _⟩ := rounded.within (rounded.mul weight delta) rounded.value_zero
        double (mul_nonneg least up) (by nlinarith)
      exact ⟨u, finite, .inl ⟨sign, up'⟩⟩
    · obtain ⟨u, finite, _, sign⟩ := rounded.within (rounded.mul weight delta) negated
        rounded.value_zero (by nlinarith) (mul_nonpos_of_nonneg_of_nonpos least down)
      exact ⟨u, finite, .inr ⟨sign, down'⟩⟩
  obtain ⟨u, finite, signs⟩ := product
  apply rounded.nonneg (rounded.mul finite moved)
  rcases signs with ⟨up, up'⟩ | ⟨down, down'⟩
  · exact mul_nonneg up up'
  · exact mul_nonneg_of_nonpos_of_nonpos down down'

theorem Sound.addDataPoint (rounded : fl.Rounded value) {eds : EmotionDataSet F}
    {points : List (Entered F)} (sound : Sound fl value eds) (counts : Counts fl eds points)
    (range : Trimmed fl points) {v c : F} {q : Rat} (number : UnitRange fl v)
    (weight : value c = some q) (positive : 0 < q) (most : q ≤ 1)
    (counted : fl.le c fl.zero = false) : Sound fl value (eds.addDataPoint fl.toFloats v c) := by
  obtain ⟨⟨m, mean, below, above⟩, spread⟩ := sound
  obtain ⟨p, new, low, high⟩ := number.finite rounded
  have units := range.weighty.units rounded
  obtain ⟨s, sum, least, b, double⟩ := rounded.sum_least units
  obtain ⟨t, total, part⟩ := rounded.sum_concat_least units weight positive.le most
  rw [← sumOfConfidences, ← counts.sumOfWeights] at sum total
  obtain ⟨x, y, delta, moved, farthest, farthest', stays, stays', signs⟩ :=
    moves rounded new low high mean below above weight positive most total part
  rw [EmotionDataSet.addDataPoint, if_neg (by simp [counted])]
  constructor
  · have low' := rounded.value_ofInt (n := -1) (by decide) (by decide)
    have high' := rounded.value_ofInt (n := 2) (by decide) (by decide)
    exact rounded.within (rounded.add mean moved) low' high' stays stays'
  · exact rounded.add_nonneg spread
      (square_nonneg rounded sum least double delta farthest farthest' moved signs)

theorem sound_dataSetOf (rounded : fl.Rounded value) {points : List (Entered F)}
    (range : Trimmed fl points) (all : AllValued fl points) :
    Sound fl value (dataSetOf fl descriptionType vocabularyURI name creationTime points) := by
  induction points using List.reverseRecOn with
  | nil =>
    refine ⟨⟨0, rounded.value_zero, by norm_num, by norm_num⟩, ?_⟩
    exact (rounded.le_iff rounded.value_zero rounded.value_zero).mpr (le_refl 0)
  | append_singleton points p ih =>
    have range' : Trimmed fl points := fun p member => range p (List.mem_append_left _ member)
    rw [AllValued, weighty_concat] at all
    rw [dataSetOf_concat]
    cases ignored : fl.le p.2 fl.zero with
    | true =>
      rw [if_pos ignored] at all
      rw [addDataPoint_ignored _ _ ignored]
      exact ih range' all
    | false =>
      rw [if_neg (by simp [ignored])] at all
      have before := ih range' fun p member => all p (List.mem_append_left _ member)
      obtain ⟨v, number⟩ := Option.isSome_iff_exists.mp (all p (by simp))
      have last : p ∈ weighty fl (points ++ [p]) := by simp [weighty, ignored]
      obtain ⟨q, weight, positive, most⟩ := range.positive rounded last
      rw [number]
      exact before.addDataPoint rounded (counts_dataSetOf points) range'
        ((range p (by simp)).2 v number) weight positive most ignored

theorem sumOfConfidences_pos (rounded : fl.Rounded value) {points : List (Entered F)}
    (range : Trimmed fl points) (present : weighty fl points ≠ []) :
    ∃ s, value (sumOfConfidences fl (weighty fl points)) = some s ∧ 0 < s := by
  obtain ⟨before, last, split⟩ := (List.eq_nil_or_concat (weighty fl points)).resolve_left present
  rw [List.concat_eq_append] at split
  have member : last ∈ weighty fl points := by simp [split]
  obtain ⟨q, weight, positive, most⟩ := range.positive rounded member
  have rest : Trimmed fl before := by
    intro p among
    apply range.weighty p
    rw [split]
    exact List.mem_append_left _ among
  obtain ⟨s, total, part⟩ :=
    rounded.sum_concat_least (rest.units rounded) weight positive.le most
  refine ⟨s, ?_, lt_of_lt_of_le positive part⟩
  rw [split, sumOfConfidences, List.map_append, List.map_singleton, Roots.Rounded.sum_concat]
  exact total

theorem eq_zero_iff (rounded : fl.Rounded value) {x : F} {p : Rat} (finite : value x = some p) :
    fl.eq x fl.zero = true ↔ p = 0 := by
  rw [Floats.eq, Bool.and_eq_true, rounded.le_iff finite rounded.value_zero,
    rounded.le_iff rounded.value_zero finite]
  exact le_antisymm_iff.symm

theorem deviation_number (rounded : fl.Rounded value) {eds : EmotionDataSet F}
    (sound : Sound fl value eds) {s : Rat} (sum : value eds.sumOfWeights = some s) (least : 0 ≤ s) :
    fl.isNaN (eds.getStandardDeviation fl) = false := by
  have zero := (rounded.le_iff rounded.value_zero rounded.value_zero).mpr (le_refl 0)
  apply rounded.sqrt_nonneg
  unfold EmotionDataSet.getVariance
  by_cases none : s = 0
  · rw [if_pos ((eq_zero_iff rounded sum).mpr none)]
    exact zero
  · rw [if_neg (none ∘ (eq_zero_iff rounded sum).mp)]
    exact rounded.div_nonneg sound.spread sum (lt_of_le_of_ne least (Ne.symm none))

theorem getConfidence_valued (rounded : fl.Rounded value) {points : List (Entered F)}
    (range : Trimmed fl points) (all : AllValued fl points) :
    (dataSetOf fl descriptionType vocabularyURI name creationTime points).getConfidence fl =
      fl.sub fl.one (trimToRange fl.toFloats
        ((dataSetOf fl descriptionType vocabularyURI name creationTime
          points).getStandardDeviation fl) fl.zero fl.one) := by
  have sound : Sound fl value
      (dataSetOf fl descriptionType vocabularyURI name creationTime points) :=
    sound_dataSetOf rounded range all
  obtain ⟨s, sum, least, _⟩ := rounded.sum_least (range.weighty.units rounded)
  rw [← sumOfConfidences, ← (counts_dataSetOf points).sumOfWeights] at sum
  rw [EmotionDataSet.getConfidence, deviation_number rounded sound sum least,
    if_neg Bool.false_ne_true]

/-- After a point without a value, the mean and the sum of squares are lost. -/
structure Lost (fl : Roots F) (eds : EmotionDataSet F) : Prop where
  weightedMean : eds.weightedMean = fl.nan
  weightedSumSqDiff : eds.weightedSumSqDiff = fl.nan

theorem Lost.addDataPoint (absorbing : fl.toFloats.Absorbing) {eds : EmotionDataSet F}
    (h : Lost fl eds) (v c : F) : Lost fl (eds.addDataPoint fl.toFloats v c) := by
  rw [EmotionDataSet.addDataPoint]
  split
  · exact h
  · constructor
    · simp only [h.weightedMean, absorbing.add_left]
    · simp only [h.weightedSumSqDiff, absorbing.add_left]

theorem lost_of_nan (absorbing : fl.toFloats.Absorbing) (eds : EmotionDataSet F) {c : F}
    (counted : fl.le c fl.zero = false) :
    Lost fl (eds.addDataPoint fl.toFloats fl.nan c) := by
  rw [EmotionDataSet.addDataPoint, if_neg (by simp [counted])]
  constructor
  · simp only [absorbing.sub_left, absorbing.mul_left, absorbing.div_left, absorbing.add_right]
  · simp only [absorbing.sub_left, absorbing.mul_left, absorbing.div_left, absorbing.mul_right,
      absorbing.add_right]

theorem lost_dataSetOf (absorbing : fl.toFloats.Absorbing) {points : List (Entered F)}
    (notAll : ¬ AllValued fl points) :
    Lost fl (dataSetOf fl descriptionType vocabularyURI name creationTime points) := by
  induction points using List.reverseRecOn with
  | nil => exact absurd (fun p member => absurd member List.not_mem_nil) notAll
  | append_singleton points p ih =>
    rw [AllValued, weighty_concat] at notAll
    rw [dataSetOf_concat]
    cases ignored : fl.le p.2 fl.zero with
    | true =>
      rw [if_pos ignored] at notAll
      rw [addDataPoint_ignored _ _ ignored]
      exact ih notAll
    | false =>
      rw [if_neg (by simp [ignored])] at notAll
      by_cases before : AllValued fl points
      · have none : p.1 = none := by
          by_contra given
          apply notAll
          intro p' member
          rcases List.mem_append.mp member with among | single
          · exact before p' among
          · rw [List.mem_singleton.mp single]
            exact Option.isSome_iff_ne_none.mpr given
        rw [none]
        exact lost_of_nan absorbing _ ignored
      · exact (ih before).addDataPoint absorbing _ _

theorem getConfidence_unvalued (rounded : fl.Rounded value) {points : List (Entered F)}
    (range : Trimmed fl points) (notAll : ¬ AllValued fl points) :
    (dataSetOf fl descriptionType vocabularyURI name creationTime points).getConfidence fl =
      fl.div (sumOfConfidences fl (weighty fl points))
        (fl.ofInt (toInt (weighty fl points).length)) := by
  have counts : Counts fl
      (dataSetOf fl descriptionType vocabularyURI name creationTime points) points :=
    counts_dataSetOf points
  have lost : Lost fl (dataSetOf fl descriptionType vocabularyURI name creationTime points) :=
    lost_dataSetOf rounded.absorbing notAll
  have present : weighty fl points ≠ [] := by
    intro none
    apply notAll
    intro p member
    rw [none] at member
    cases member
  obtain ⟨s, sum, positive⟩ := sumOfConfidences_pos rounded range present
  have nonzero : ¬ fl.eq (sumOfConfidences fl (weighty fl points)) fl.zero = true :=
    ne_of_gt positive ∘ (eq_zero_iff rounded sum).mp
  have deviation : (dataSetOf fl descriptionType vocabularyURI name creationTime
      points).getStandardDeviation fl = fl.nan := by
    rw [EmotionDataSet.getStandardDeviation, EmotionDataSet.getVariance, counts.sumOfWeights,
      if_neg nonzero, lost.weightedSumSqDiff, rounded.absorbing.div_left, rounded.sqrt_nan]
  rw [EmotionDataSet.getConfidence, deviation, rounded.absorbing.isNaN, if_pos rfl,
    counts.sumOfWeights, counts.numDataPoints]

theorem trimToRange_zero (rounded : fl.Rounded value) :
    trimToRange fl.toFloats fl.zero fl.zero fl.one = fl.zero := by
  have below : ¬ fl.lt fl.zero fl.zero = true :=
    lt_irrefl 0 ∘ (rounded.lt_iff rounded.value_zero rounded.value_zero).mp
  have above : ¬ fl.lt fl.one fl.zero = true := fun less =>
    absurd ((rounded.lt_iff rounded.value_one rounded.value_zero).mp less) (by norm_num)
  rw [trimToRange, if_neg below, if_neg above]

/-- A single value is not spread. -/
theorem deviation_single (rounded : fl.Rounded value) {v c : F} (number : UnitRange fl v)
    {q : Rat} (weight : value c = some q) (positive : 0 < q) (most : q ≤ 1) :
    (dataSetOf fl descriptionType vocabularyURI name creationTime
      [(some v, c)]).getStandardDeviation fl = fl.zero := by
  have counted : ¬ fl.le c fl.zero = true := fun small =>
    absurd ((rounded.le_iff weight rounded.value_zero).mp small) (not_le.mpr positive)
  obtain ⟨p, new, low, high⟩ := number.finite rounded
  have one := rounded.zero_add weight positive
  obtain ⟨x, y, delta, moved, _⟩ :=
    moves rounded new low high rounded.value_zero (by norm_num) (by norm_num) weight positive most
      weight (le_refl q)
  have first : value (fl.mul fl.zero (fl.sub v fl.zero)) = some 0 := by
    have product := rounded.mul rounded.value_zero delta
    rw [zero_mul] at product
    exact rounded.value_eq product rounded.value_zero
  have second : value (fl.mul (fl.mul fl.zero (fl.sub v fl.zero))
      (fl.div (fl.mul (fl.sub v fl.zero) c) c)) = some 0 := by
    have product := rounded.mul first moved
    rw [zero_mul] at product
    exact rounded.value_eq product rounded.value_zero
  have squares := rounded.zero_add_zero second
  have held : dataSetOf fl descriptionType vocabularyURI name creationTime [(some v, c)] =
      { emptySet fl descriptionType vocabularyURI name creationTime with
        weightedMean := fl.add fl.zero (fl.div (fl.mul (fl.sub v fl.zero) c) c)
        weightedSumSqDiff := fl.zero
        sumOfWeights := c
        numDataPoints := 1 } := by
    show EmotionDataSet.addDataPoint fl.toFloats _ v c = _
    rw [EmotionDataSet.addDataPoint, if_neg counted]
    simp only [emptySet, EmotionDataSet.new, one, squares]
  rw [EmotionDataSet.getStandardDeviation, EmotionDataSet.getVariance, held]
  rw [if_neg (ne_of_gt positive ∘ (eq_zero_iff rounded weight).mp),
    rounded.zero_div weight positive, rounded.sqrt_zero]

theorem deviation_few (rounded : fl.Rounded value) {points : List (Entered F)}
    (range : Trimmed fl points) (all : AllValued fl points)
    (few : (averaged fl points).length ≤ 1) :
    (dataSetOf fl descriptionType vocabularyURI name creationTime
      points).getStandardDeviation fl = fl.zero := by
  have weights := fun p member => range.positive rounded (p := p) member
  have range' := range.weighty
  rw [averaged_eq all] at few
  rw [AllValued] at all
  rw [← dataSetOf_weighty]
  generalize weighty fl points = kept at few weights range' all ⊢
  match kept with
  | [] =>
    have zero := (eq_zero_iff rounded rounded.value_zero).mpr rfl
    show fl.sqrt (if fl.eq fl.zero fl.zero then fl.zero else _) = fl.zero
    rw [if_pos zero, rounded.sqrt_zero]
  | [(v, c)] =>
    obtain ⟨q, weight, positive, most⟩ := weights (v, c) (.head [])
    obtain ⟨v, rfl⟩ := Option.isSome_iff_exists.mp (all (v, c) (.head []))
    exact deviation_single rounded ((range' (some v, c) (.head [])).2 v rfl) weight positive most
  | _ :: _ :: _ => simp at few

theorem sum_few (rounded : fl.Rounded value) {points : List (Entered F)}
    (range : Trimmed fl points) (few : (weighty fl points).length ≤ 1) :
    ∃ q, value (sumOfConfidences fl points) = some q ∧ q ≤ 1 ∧
      (weighty fl points = [] → q = 0) := by
  induction points using List.reverseRecOn with
  | nil => exact ⟨0, rounded.value_zero, zero_le_one, fun _ => rfl⟩
  | append_singleton points p ih =>
    have range' : Trimmed fl points := fun p member => range p (List.mem_append_left _ member)
    obtain ⟨c, last, least, most⟩ := (range p (by simp)).1.finite rounded
    have added : sumOfConfidences fl (points ++ [p]) = fl.add (sumOfConfidences fl points) p.2 := by
      simp only [sumOfConfidences, List.map_append, List.map_singleton, Roots.Rounded.sum_concat]
    rw [added]
    rw [weighty_concat] at few ⊢
    cases ignored : fl.le p.2 fl.zero with
    | true =>
      rw [if_pos ignored] at few
      rw [if_pos rfl]
      obtain ⟨q, sum, high, none⟩ := ih range' few
      obtain rfl : c = 0 :=
        le_antisymm ((rounded.le_iff last rounded.value_zero).mp ignored) least
      have same : value (sumOfConfidences fl points) = some (q + 0) := by rw [sum, add_zero]
      have total := rounded.value_eq (rounded.add sum last) same
      rw [add_zero] at total
      exact ⟨q, total, high, none⟩
    | false =>
      rw [if_neg (by simp [ignored]), List.length_append] at few
      rw [if_neg Bool.false_ne_true]
      have empty : weighty fl points = [] := by
        apply List.eq_nil_of_length_eq_zero
        simp only [List.length_singleton] at few
        omega
      obtain ⟨q, sum, _, none⟩ := ih range' (by simp [empty])
      obtain rfl := none empty
      have same : value p.2 = some (0 + c) := by rw [last, zero_add]
      have total := rounded.value_eq (rounded.add sum last) same
      rw [zero_add] at total
      exact ⟨c, total, most, by simp⟩

/-- Unless there is a single value and it is certain, the average of the confidences is not 1. -/
theorem average_iff (rounded : fl.Rounded value) {points : List (Entered F)}
    (range : Trimmed fl points) (all : AllValued fl points)
    (few : (averaged fl points).length ≤ 1) :
    averageConfidence fl points = fl.one ↔ ∃ v, points = [(some v, fl.one)] := by
  rw [averaged_eq all] at few
  obtain ⟨q, sum, most, none⟩ := sum_few rounded range few
  rw [averageConfidence]
  match points with
  | [] =>
    have nan : fl.isNaN (averageConfidence fl []) = true := rounded.zero_div_zero
    rw [averageConfidence] at nan
    constructor
    · intro same
      rw [same, rounded.one_number] at nan
      cases nan
    · rintro ⟨v, single⟩
      cases single
  | [(v, c)] =>
    have whole := rounded.div_one sum
    constructor
    · intro same
      have certain : sumOfConfidences fl [(v, c)] = fl.one := whole.symm.trans same
      rw [certain, rounded.value_one] at sum
      obtain rfl : 1 = q := Option.some.inj sum
      have counts : ¬ fl.le c fl.zero = true := by
        intro ignored
        have zero := none (by simp [weighty, ignored])
        exact one_ne_zero zero
      obtain ⟨v, rfl⟩ := Option.isSome_iff_exists.mp (all (v, c) (by simp [weighty, counts]))
      obtain ⟨r, weight, positive, _⟩ :=
        range.positive rounded (p := (some v, c)) (by simp [weighty, counts])
      have one : sumOfConfidences fl [(some v, c)] = c := rounded.zero_add weight positive
      exact ⟨v, by rw [← one, certain]⟩
    · rintro ⟨v', single⟩
      obtain ⟨rfl, rfl⟩ := Prod.mk.inj (List.cons.inj single).1
      exact whole.trans (rounded.zero_add rounded.value_one zero_lt_one)
  | p :: p' :: rest =>
    constructor
    · intro same
      exact absurd same (rounded.div_ne_one sum most (by simp only [List.length_cons]; omega))
    · rintro ⟨v, single⟩
      simp at single

theorem weighty_eq {points : List (Entered F)}
    (none : ∀ p ∈ points, fl.le p.2 fl.zero = false) : weighty fl points = points := by
  apply List.filter_eq_self.mpr
  intro p member
  simp [none p member]

end

/-- `Math.sqrt` at 0 and at a quarter. -/
def quarterRoot (q : Rat) : Rat := if q = 1 / 4 then 1 / 2 else 0

def quarters : Roots Number := exactRoots (fun _ => none) quarterRoot

theorem quarters_rounded : quarters.Rounded Number.value :=
  exactRoots_rounded _ (if_neg (by norm_num))

def disagreeing : List (Entered Number) := [(some (.val 0), .val 1), (some (.val 1), .val 1)]

theorem disagreeing_range : Trimmed quarters disagreeing := by
  intro p member
  simp only [disagreeing, List.mem_cons, List.not_mem_nil, or_false] at member
  obtain rfl | rfl := member
  · refine ⟨by unfold UnitRange; decide +kernel, fun v given => ?_⟩
    obtain rfl := Option.some.inj given
    unfold UnitRange
    decide +kernel
  · refine ⟨by unfold UnitRange; decide +kernel, fun v given => ?_⟩
    obtain rfl := Option.some.inj given
    unfold UnitRange
    decide +kernel

theorem disagreeing_valued : AllValued quarters disagreeing := by
  unfold AllValued
  decide +kernel

def halfSure : List (Entered Number) := [(some (.val (1 / 2)), .val (1 / 2))]

end Semaine.Emotion
