import Semaine.Emotion.Accounting

/-! Which data sets `act` leaves in the queue. The loop looks at the head of a heap whose elements
change their priority while they are inside, so a data set that has reached the target can wait
below one that is not due. -/
namespace Semaine.Emotion
open JavaText JavaFloat Semaine.Xml BinaryHeap

variable {F : Type} (fl : Floats F) (config : Config)

theorem compareTo_isLE (a b : EmotionDataSet F) :
    (a.compareTo config b).isLE ↔
      (b.reachedTarget config → a.reachedTarget config) ∧
        (a.reachedTarget config = b.reachedTarget config → a.creationTime ≤ b.creationTime) := by
  unfold EmotionDataSet.compareTo
  rcases lt_trichotomy a.creationTime b.creationTime with earlier | same | later
  · cases a.reachedTarget config <;> cases b.reachedTarget config <;>
      simp [earlier, Int.le_of_lt earlier]
  · cases a.reachedTarget config <;> cases b.reachedTarget config <;> simp [same]
  · cases a.reachedTarget config <;> cases b.reachedTarget config <;>
      simp [later, not_lt_of_gt later, not_le_of_gt later]

theorem compareTo_swap (a b : EmotionDataSet F) :
    a.compareTo config b = (b.compareTo config a).swap := by
  unfold EmotionDataSet.compareTo
  rcases lt_trichotomy a.creationTime b.creationTime with earlier | same | later
  · cases a.reachedTarget config <;> cases b.reachedTarget config <;>
      simp [earlier, not_lt_of_gt earlier]
  · cases a.reachedTarget config <;> cases b.reachedTarget config <;> simp [same]
  · cases a.reachedTarget config <;> cases b.reachedTarget config <;>
      simp [later, not_lt_of_gt later]

instance compare_trans (s : EmotionFusion F) : Std.TransCmp (s.compare config) where
  eq_swap := compareTo_swap config _ _
  isLE_trans := by
    intro a b c ab bc
    simp only [EmotionFusion.compare, compareTo_isLE] at ab bc ⊢
    obtain ⟨reachedAB, earlierAB⟩ := ab
    obtain ⟨reachedBC, earlierBC⟩ := bc
    constructor
    · exact fun h => reachedAB (reachedBC h)
    · intro same
      have sameAB : (s.dataSet a).reachedTarget config = (s.dataSet b).reachedTarget config := by
        cases hb : (s.dataSet b).reachedTarget config with
        | true => exact reachedAB hb
        | false =>
          rw [same]
          cases hc : (s.dataSet c).reachedTarget config with
          | true => exact absurd (reachedBC hc) (by simp [hb])
          | false => rfl
      exact (earlierAB sameAB).trans (earlierBC (sameAB.symm.trans same))

theorem ready_iff (currentTime : Int) (eds : EmotionDataSet F) :
    eds.ready config currentTime ↔
      eds.reachedTarget config ∨ config.maxDelay ≤ currentTime - eds.creationTime := by
  simp [EmotionDataSet.ready]

def Aged (s : EmotionFusion F) (parent child : Nat) : Prop :=
  (s.dataSet parent).reachedTarget config ∨
    (s.dataSet parent).creationTime ≤ (s.dataSet child).creationTime

def PassesReady (currentTime : Int) (s : EmotionFusion F) (parent child : Nat) : Prop :=
  (s.dataSet child).ready config currentTime → (s.dataSet parent).ready config currentTime

theorem aged_of_isLE (s : EmotionFusion F) (a b : Nat) (h : (s.compare config a b).isLE) :
    Aged config s a b := by
  obtain ⟨reached, earlier⟩ := (compareTo_isLE config _ _).mp h
  cases ha : (s.dataSet a).reachedTarget config with
  | true => exact .inl ha
  | false =>
    cases hb : (s.dataSet b).reachedTarget config with
    | true => exact .inl (reached hb)
    | false => exact .inr (earlier (ha.trans hb.symm))

theorem passesReady_of_aged {currentTime : Int} {s : EmotionFusion F} {a b : Nat}
    (aged : Aged config s a b)
    (reached : (s.dataSet b).reachedTarget config → (s.dataSet a).ready config currentTime) :
    PassesReady config currentTime s a b := by
  intro due
  rcases (ready_iff config currentTime _).mp due with target | old
  · exact reached target
  · rcases aged with target | earlier
    · exact (ready_iff config currentTime _).mpr (.inl target)
    · exact (ready_iff config currentTime _).mpr (.inr (by omega))

theorem passesReady_of_isLE (currentTime : Int) (s : EmotionFusion F) (a b : Nat)
    (h : (s.compare config a b).isLE) : PassesReady config currentTime s a b := by
  apply passesReady_of_aged config (aged_of_isLE config s a b h)
  intro target
  have passed := ((compareTo_isLE config _ _).mp h).1 target
  exact (ready_iff config currentTime _).mpr (.inl passed)

theorem drain_ordered {R : Nat → Nat → Prop} {s : EmotionFusion F}
    (implied : ∀ a b, (s.compare config a b).isLE → R a b) (currentTime : Int) (rounds : Nat)
    (toBeSent : List Nat) (h : Ordered R s.emotionDataSetQueue) :
    Ordered R (s.drain config currentTime rounds toBeSent).1.emotionDataSetQueue := by
  induction rounds generalizing s toBeSent with
  | zero => exact h
  | succ rounds ih =>
    unfold EmotionFusion.drain
    split
    · exact h
    · rename_i eds first
      split
      · exact ih (s := s.remove config eds) implied _ (poll_ordered (s.compare config) implied h)
      · exact h

theorem drain_subset (currentTime : Int) (rounds : Nat) (s : EmotionFusion F)
    (toBeSent : List Nat) :
    (s.drain config currentTime rounds toBeSent).1.emotionDataSetQueue ⊆ s.emotionDataSetQueue := by
  induction rounds generalizing s toBeSent with
  | zero => exact List.Subset.refl _
  | succ rounds ih =>
    unfold EmotionFusion.drain
    split
    · exact List.Subset.refl _
    · rename_i eds first
      split
      · have polled := poll_perm (s.compare config) first
        intro other queued
        exact polled.subset (List.mem_cons_of_mem eds (ih (s.remove config eds) _ queued))
      · exact List.Subset.refl _

/-- No data set has collected more points than an `int` counts. -/
def InRange (s : EmotionFusion F) : Prop :=
  ∀ eds < s.created, (s.dataSet eds).numDataPoints < 2 ^ 31

theorem reachedTarget_iff {eds : EmotionDataSet F} (small : eds.numDataPoints < 2 ^ 31) :
    eds.reachedTarget config ↔ config.targetNumDataPoints ≤ (eds.numDataPoints : Int) := by
  have unwrapped :=
    (toInt_eq_iff (Int.natCast_nonneg eds.numDataPoints)).mpr (by exact_mod_cast small)
  rw [EmotionDataSet.reachedTarget, unwrapped]
  exact decide_eq_true_iff

theorem numDataPoints_add (eds : EmotionDataSet F) (value confidence : F) :
    eds.numDataPoints ≤ (eds.addDataPoint fl value confidence).numDataPoints := by
  unfold EmotionDataSet.addDataPoint
  split
  · exact Nat.le_refl _
  · exact Nat.le_succ _

theorem addTo_counts (s : EmotionFusion F) (eds : Nat) (p : DataPoint F) (other : Nat) :
    (s.dataSet other).numDataPoints ≤ ((s.addTo fl eds p).dataSet other).numDataPoints := by
  simp only [EmotionFusion.addTo]
  by_cases same : other = eds
  · rw [same, Function.update_self]
    exact numDataPoints_add fl _ _ _
  · rw [Function.update_of_ne same]

theorem inRange_addTo {s : EmotionFusion F} {eds : Nat} {p : DataPoint F}
    (after : InRange (s.addTo fl eds p)) : InRange s :=
  fun other created => (addTo_counts fl s eds p other).trans_lt (after other created)

theorem inRange_create {s : EmotionFusion F} {time : Int} {p : DataPoint F}
    (after : InRange ((s.create fl time p).enqueue config s.created)) : InRange s := by
  intro eds created
  have small := after eds (Nat.lt_succ_of_lt created)
  simpa [EmotionFusion.enqueue, EmotionFusion.create, Function.update_of_ne (Nat.ne_of_lt created)]
    using small

/-- The queue is ordered by age up to the target, as long as the points can be counted; nothing
in it is newer than the clock. -/
structure InOrder (now : Int) (s : EmotionFusion F) : Prop where
  aged : InRange s → Ordered (Aged config s) s.emotionDataSetQueue
  past : ∀ eds ∈ s.emotionDataSetQueue, (s.dataSet eds).creationTime ≤ now
  known : ∀ eds ∈ s.emotionDataSetQueue, eds < s.created

namespace InOrder
variable {config} {now : Int} {s : EmotionFusion F}

theorem addTo (h : InOrder config now s) (eds : Nat) (p : DataPoint F) :
    InOrder config now (s.addTo fl eds p) := by
  have time : ∀ other, ((s.addTo fl eds p).dataSet other).creationTime =
      (s.dataSet other).creationTime := by
    intro other
    simp only [EmotionFusion.addTo]
    by_cases same : other = eds
    · rw [same, Function.update_self, addDataPoint_creationTime]
    · rw [Function.update_of_ne same]
  constructor
  · intro small j parent child positive hp hc
    have before : InRange s := inRange_addTo fl small
    have created := h.known parent (List.mem_of_getElem? hp)
    rcases h.aged before j parent child positive hp hc with target | earlier
    · refine .inl ((reachedTarget_iff config (small parent created)).mpr ?_)
      have reached := (reachedTarget_iff config (before parent created)).mp target
      have grown := addTo_counts fl s eds p parent
      omega
    · refine .inr ?_
      rw [time, time]
      exact earlier
  · intro other queued
    rw [time]
    exact h.past other queued
  · exact h.known

theorem create (h : InOrder config now s) (p : DataPoint F) :
    InOrder config now ((s.create fl now p).enqueue config s.created) := by
  have same : ∀ eds ∈ s.emotionDataSetQueue,
      (s.create fl now p).dataSet eds = s.dataSet eds := by
    intro eds queued
    exact Function.update_of_ne (Nat.ne_of_lt (h.known eds queued)) _ _
  have created : (s.create fl now p).dataSet s.created =
      EmotionDataSet.new fl p.descriptionType p.vocabularyURI p.name now :=
    Function.update_self _ _ _
  have older : ∀ eds ∈ s.emotionDataSetQueue,
      ((s.create fl now p).dataSet eds).creationTime ≤
        ((s.create fl now p).dataSet s.created).creationTime := by
    intro eds queued
    rw [same eds queued, created]
    exact h.past eds queued
  have members : ∀ eds ∈ ((s.create fl now p).enqueue config s.created).emotionDataSetQueue,
      eds = s.created ∨ eds ∈ s.emotionDataSetQueue := by
    intro eds queued
    have all := offer_perm ((s.create fl now p).compare config) s.emotionDataSetQueue s.created
    exact List.mem_cons.mp (all.subset queued)
  constructor
  · intro small
    have before : InRange s := inRange_create fl config small
    have last : ∀ eds ∈ s.emotionDataSetQueue,
        ((s.create fl now p).compare config s.created eds).isGE := by
      intro eds queued
      apply Std.OrientedCmp.isGE_of_isLE
      refine (compareTo_isLE config _ _).mpr ⟨?_, fun _ => older eds queued⟩
      intro target
      rw [same eds queued, reachedTarget_iff config (before eds (h.known eds queued))]
      rw [created, reachedTarget_iff config (by exact Nat.two_pow_pos 31)] at target
      exact target.trans (Int.natCast_nonneg _)
    have appended : ((s.create fl now p).enqueue config s.created).emotionDataSetQueue =
        s.emotionDataSetQueue ++ [s.created] :=
      offer_last ((s.create fl now p).compare config) last
    rw [appended]
    apply Ordered.concat
    · intro j parent child positive hp hc
      have aged := h.aged before j parent child positive hp hc
      unfold Aged at aged ⊢
      rw [← same parent (List.mem_of_getElem? hp), ← same child (List.mem_of_getElem? hc)] at aged
      exact aged
    · intro eds queued
      exact .inr (older eds queued)
  · intro eds queued
    rcases members eds queued with rfl | queued
    · exact Int.le_of_eq (congrArg EmotionDataSet.creationTime created)
    · have past := h.past eds queued
      rw [← same eds queued] at past
      exact past
  · intro eds queued
    rcases members eds queued with rfl | queued
    · exact Nat.lt_succ_self _
    · exact Nat.lt_succ_of_lt (h.known eds queued)

theorem later (h : InOrder config now s) {now' : Int} (le : now ≤ now') :
    InOrder config now' s :=
  ⟨h.aged, fun eds queued => (h.past eds queued).trans le, h.known⟩

theorem act (h : InOrder config now s) (currentTime : Int) :
    InOrder config now (s.act config currentTime).1 := by
  have same := drain_dataSet config currentTime s.emotionDataSetQueue.length s []
  have count := drain_created config currentTime s.emotionDataSetQueue.length s []
  have fewer := drain_subset config currentTime s.emotionDataSetQueue.length s []
  have relation : Aged config (s.act config currentTime).1 = Aged config s := by
    unfold Aged EmotionFusion.act
    rw [same]
  constructor
  · intro small
    have before : InRange s := by
      unfold InRange EmotionFusion.act at small
      rwa [same, count] at small
    rw [relation]
    exact drain_ordered config (aged_of_isLE config s) currentTime _ [] (h.aged before)
  · intro eds queued
    have older := h.past eds (fewer queued)
    unfold EmotionFusion.act
    rw [same]
    exact older
  · intro eds queued
    unfold EmotionFusion.act
    rw [count]
    exact h.known eds (fewer queued)

theorem enterDataPoint {clock : Nat → Int} (h : InOrder config (clock s.created) s)
    (p : DataPoint F) :
    InOrder config (clock s.created) (s.enterDataPoint fl config clock p) := by
  unfold EmotionFusion.enterDataPoint
  split
  · exact h.addTo fl _ p
  · exact (h.create fl p).addTo fl _ p

theorem enterAll {clock : Nat → Int} (monotone : Monotone clock) {latest : Int}
    (bounded : ∀ n, clock n ≤ latest) (h : InOrder config (clock s.created) s)
    (points : List (DataPoint F)) :
    InOrder config latest (points.foldl (EmotionFusion.enterDataPoint fl config clock) s) := by
  induction points generalizing s with
  | nil => exact h.later (bounded s.created)
  | cons p points ih =>
    have grown : s.created ≤ (s.enterDataPoint fl config clock p).created := by
      unfold EmotionFusion.enterDataPoint
      split
      · exact Nat.le_refl _
      · exact Nat.le_succ _
    exact ih ((h.enterDataPoint fl p).later (monotone grown))

end InOrder

def Timely (s : Int × Session F) (call : Call) (t : Int × Session F) : Prop :=
  Next fl config s.2 call t.2 ∧
    match call with
    | .react clock _ => Monotone clock ∧ ∀ n, s.1 ≤ clock n ∧ clock n ≤ t.1
    | .act currentTime => s.1 ≤ currentTime ∧ t.1 = currentTime

theorem inOrder_step {s t : Int × Session F} {call : Call}
    (h : InOrder config s.1 s.2.fusion) (step : Timely fl config s call t) :
    InOrder config t.1 t.2.fusion := by
  obtain ⟨next, times⟩ := step
  rw [next]
  cases call with
  | react clock m =>
    obtain ⟨monotone, between⟩ := times
    have start := h.later (between s.2.fusion.created).1
    exact start.enterAll fl monotone (fun n => (between n).2) _
  | act currentTime =>
    obtain ⟨later, now⟩ := times
    rw [now]
    exact (h.later later).act currentTime

theorem inOrder_run {start : Int} {calls : List Call} {s : Int × Session F}
    (run : Transition.Run (Timely fl config) (start, Session.start fl) calls s) :
    InOrder config s.1 s.2.fusion := by
  apply run.invariant (fun s => InOrder config s.1 s.2.fusion)
  · intro s call t inOrder step
    exact inOrder_step fl config inOrder step
  · refine ⟨fun _ => .nil, ?_, ?_⟩
    · intro eds queued
      cases queued
    · intro eds queued
      cases queued

/-- A data set that should have been sent: it has enough points, or it is too old. -/
def Due (currentTime : Int) (eds : EmotionDataSet F) : Prop :=
  config.targetNumDataPoints ≤ (eds.numDataPoints : Int) ∨
    config.maxDelay ≤ currentTime - eds.creationTime

def Drained (currentTime : Int) (s : EmotionFusion F) : Prop :=
  ∀ eds ∈ s.emotionDataSetQueue, ¬ Due config currentTime (s.dataSet eds)

theorem due_iff {eds : EmotionDataSet F} (small : eds.numDataPoints < 2 ^ 31) (currentTime : Int) :
    Due config currentTime eds ↔ eds.ready config currentTime = true := by
  rw [ready_iff, reachedTarget_iff config small]
  rfl

def NoneReady (currentTime : Int) (s : EmotionFusion F) : Prop :=
  ∀ eds ∈ s.emotionDataSetQueue, (s.dataSet eds).ready config currentTime = false

theorem drained_iff {s : EmotionFusion F} {now : Int} (h : InOrder config now s)
    (small : InRange s) (currentTime : Int) :
    Drained config currentTime s ↔ NoneReady config currentTime s := by
  unfold Drained NoneReady
  refine forall_congr' fun eds => forall_congr' fun queued => ?_
  rw [due_iff config (small eds (h.known eds queued)), Bool.not_eq_true]

/-- Below the head of the heap, the parent of a data set that has reached the target is due. -/
def TargetsBelowReady (currentTime : Int) (s : EmotionFusion F) : Prop :=
  Ordered (fun parent child => (s.dataSet child).reachedTarget config →
    (s.dataSet parent).ready config currentTime) s.emotionDataSetQueue

theorem drain_noneReady {s : EmotionFusion F} {currentTime : Int} {rounds : Nat}
    {toBeSent : List Nat} (enough : s.emotionDataSetQueue.length ≤ rounds)
    (h : Ordered (PassesReady config currentTime s) s.emotionDataSetQueue) :
    NoneReady config currentTime (s.drain config currentTime rounds toBeSent).1 := by
  induction rounds generalizing s toBeSent with
  | zero =>
    intro eds queued
    have empty := List.eq_nil_of_length_eq_zero (Nat.le_zero.mp enough)
    simp [EmotionFusion.drain, empty] at queued
  | succ rounds ih =>
    unfold EmotionFusion.drain
    split
    · rename_i empty
      intro eds queued
      rw [List.head?_eq_none_iff.mp empty] at queued
      cases queued
    · rename_i head first
      split
      · have fewer := (poll_perm (s.compare config) first).length_eq
        apply ih (s := s.remove config head)
        · simp only [List.length_cons] at fewer
          simp only [EmotionFusion.remove]
          omega
        · exact poll_ordered (s.compare config) (passesReady_of_isLE config currentTime s) h
      · rename_i waits
        intro eds queued
        by_contra due
        obtain ⟨top, isTop, topDue⟩ := h.root queued (by simpa using due)
        rw [first, Option.some.injEq] at isTop
        exact waits (isTop ▸ topDue)

theorem InOrder.noneReady {now currentTime : Int} {s : EmotionFusion F}
    (h : InOrder config now s) (small : InRange s)
    (below : TargetsBelowReady config currentTime s) :
    NoneReady config currentTime (s.act config currentTime).1 := by
  apply drain_noneReady config (Nat.le_refl _)
  intro j parent child positive hp hc
  exact passesReady_of_aged config (h.aged small j parent child positive hp hc)
    (below j parent child positive hp hc)

theorem act_waits {s : EmotionFusion F} {currentTime : Int}
    (waits : ∀ head, peek s.emotionDataSetQueue = some head →
      (s.dataSet head).ready config currentTime = false) :
    (s.act config currentTime).1 = s := by
  unfold EmotionFusion.act
  cases length : s.emotionDataSetQueue.length with
  | zero => rfl
  | succ rounds =>
    unfold EmotionFusion.drain
    split
    · rfl
    · rename_i head first
      rw [if_neg (by simp [waits head first])]

def fsre : SEMAINEMessage := valence "fsre".toList

def quadrants : SEMAINEMessage := valence "quadrants".toList

def afterThree (first second third : SEMAINEMessage) : Session Number :=
  [.react (fun _ => 0) first, .react (fun _ => 1) second, .react (fun _ => 2) third].foldl
    (Session.perform half ⟨500, 2⟩) (Session.start half)

theorem timely_react (s : Session F) {now time : Int} (m : SEMAINEMessage) (later : now ≤ time) :
    Timely fl config (now, s) (.react (fun _ => time) m)
      (time, s.perform fl config (.react (fun _ => time) m)) :=
  ⟨rfl, monotone_const, fun _ => ⟨later, Int.le_refl time⟩⟩

theorem afterThree_run (first second third : SEMAINEMessage) :
    Transition.Run (Timely half ⟨500, 2⟩) (0, Session.start half)
      [.react (fun _ => 0) first, .react (fun _ => 1) second, .react (fun _ => 2) third]
      (2, afterThree first second third) := by
  have at0 := timely_react half ⟨500, 2⟩ (Session.start half) first (Int.le_refl 0)
  have run := (Transition.Run.nil.snoc at0).snoc
    (timely_react half ⟨500, 2⟩ _ second (show (0 : Int) ≤ 1 by decide))
  exact run.snoc (timely_react half ⟨500, 2⟩ _ third (show (1 : Int) ≤ 2 by decide))

end Semaine.Emotion
