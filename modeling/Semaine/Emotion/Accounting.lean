import Semaine.Emotion.EmotionFusion
import Semaine.Library.Transition

/-! No data point and no data set is lost or doubled: the map and the queue hold the same data
sets, each exactly once and under its own key, and every data set is handed on at most once. -/
namespace Semaine.Emotion
open JavaText JavaFloat Semaine.Xml

variable {F : Type} (fl : Floats F) (config : Config)

section
variable (eds : EmotionDataSet F) (value confidence : F)

@[simp] theorem addDataPoint_descriptionType :
    (eds.addDataPoint fl value confidence).descriptionType = eds.descriptionType := by
  unfold EmotionDataSet.addDataPoint
  split <;> rfl

@[simp] theorem addDataPoint_vocabularyURI :
    (eds.addDataPoint fl value confidence).vocabularyURI = eds.vocabularyURI := by
  unfold EmotionDataSet.addDataPoint
  split <;> rfl

@[simp] theorem addDataPoint_name :
    (eds.addDataPoint fl value confidence).name = eds.name := by
  unfold EmotionDataSet.addDataPoint
  split <;> rfl

@[simp] theorem addDataPoint_creationTime :
    (eds.addDataPoint fl value confidence).creationTime = eds.creationTime := by
  unfold EmotionDataSet.addDataPoint
  split <;> rfl

@[simp] theorem addDataPoint_key :
    (eds.addDataPoint fl value confidence).key = eds.key := by
  simp [EmotionDataSet.key]

end

/-- The data set as it was created, with the given points added one after the other. -/
def Collected (points : List (DataPoint F)) (eds : EmotionDataSet F) : Prop :=
  (∀ p ∈ points, p.key = eds.key) ∧
    eds = points.foldl (fun eds p => eds.addDataPoint fl p.value p.confidence)
      (EmotionDataSet.new fl eds.descriptionType eds.vocabularyURI eds.name eds.creationTime)

theorem Collected.add {fl : Floats F} {points : List (DataPoint F)} {eds : EmotionDataSet F}
    {p : DataPoint F} (h : Collected fl points eds) (hp : p.key = eds.key) :
    Collected fl (points ++ [p]) (eds.addDataPoint fl p.value p.confidence) := by
  obtain ⟨keys, sum⟩ := h
  constructor
  · intro q hq
    rw [addDataPoint_key]
    rcases List.mem_append.mp hq with hq | hq
    · exact keys q hq
    · rw [List.mem_singleton.mp hq]
      exact hp
  · simp only [addDataPoint_descriptionType, addDataPoint_vocabularyURI, addDataPoint_name,
      addDataPoint_creationTime, List.foldl_append, List.foldl_cons, List.foldl_nil]
    rw [← sum]

/-- The points that an assignment of points to data sets gives to one of them. -/
def share (ledger : List (Nat × DataPoint F)) (eds : Nat) : List (DataPoint F) :=
  (ledger.filter (·.1 = eds)).map Prod.snd

theorem share_same (ledger : List (Nat × DataPoint F)) (eds : Nat) (p : DataPoint F) :
    share (ledger ++ [(eds, p)]) eds = share ledger eds ++ [p] := by
  simp [share]

theorem share_other (ledger : List (Nat × DataPoint F)) {eds other : Nat} (p : DataPoint F)
    (h : other ≠ eds) : share (ledger ++ [(eds, p)]) other = share ledger other := by
  simp [share, Ne.symm h]

theorem share_none {ledger : List (Nat × DataPoint F)} {eds : Nat}
    (h : ∀ entry ∈ ledger, entry.1 ≠ eds) : share ledger eds = [] := by
  simpa [share] using h

/-- Every entered point is assigned to one data set, and every data set consists of its points. -/
structure Ledger (points : List (DataPoint F)) (s : EmotionFusion F)
    (ledger : List (Nat × DataPoint F)) : Prop where
  entered : ledger.map Prod.snd = points
  created : ∀ entry ∈ ledger, entry.1 < s.created
  collected : ∀ eds < s.created, Collected fl (share ledger eds) (s.dataSet eds)

structure Accounted (points : List (DataPoint F)) (s : EmotionFusion F) (sent : List Nat) :
    Prop where
  same : (s.emotionDataSets.entries.map Sigma.snd).Perm s.emotionDataSetQueue
  ownKey : ∀ key eds, s.emotionDataSets.lookup key = some eds → key = (s.dataSet eds).key
  everySet : (sent ++ s.emotionDataSetQueue).Perm (List.range s.created)
  everyPoint : ∃ ledger, Ledger fl points s ledger

theorem erase_entries_perm {β : Type} {m : AList (fun _ : Text => β)} {key : Text} {value : β}
    (found : m.lookup key = some value) : (⟨key, value⟩ :: (m.erase key).entries).Perm m.entries := by
  have entry := AList.mem_lookup_iff.mp found
  obtain ⟨other, before, after, _, split, erased⟩ :=
    List.exists_of_kerase (List.mem_keys_of_mem entry)
  have same : other = value := by
    have found' := AList.mem_lookup_iff.mpr (split ▸ List.mem_append_right before (.head after))
    rw [found] at found'
    exact (Option.some.inj found').symm
  subst same
  have rest : (m.erase key).entries = before ++ after := erased
  rw [split, rest]
  exact List.perm_middle.symm

namespace Accounted
variable {fl} {points : List (DataPoint F)} {s : EmotionFusion F} {sent : List Nat}

theorem init : Accounted fl [] (EmotionFusion.init fl : EmotionFusion F) [] := by
  constructor
  · exact .refl _
  · intro key eds found
    cases found
  · exact .refl _
  · refine ⟨[], rfl, ?_, ?_⟩
    · intro entry h
      cases h
    · intro eds h
      exact absurd h (Nat.not_lt_zero eds)

theorem lookup_queue (h : Accounted fl points s sent) {key : Text} {eds : Nat}
    (found : s.emotionDataSets.lookup key = some eds) : eds ∈ s.emotionDataSetQueue := by
  have entry := AList.mem_lookup_iff.mp found
  exact h.same.mem_iff.mp (List.mem_map_of_mem entry)

theorem queue_lookup (h : Accounted fl points s sent) {eds : Nat}
    (queued : eds ∈ s.emotionDataSetQueue) :
    s.emotionDataSets.lookup (s.dataSet eds).key = some eds := by
  obtain ⟨⟨key, value⟩, entry, rfl⟩ := List.mem_map.mp (h.same.mem_iff.mpr queued)
  have found := AList.mem_lookup_iff.mpr entry
  rwa [← h.ownKey key value found]

theorem nodup (h : Accounted fl points s sent) : (sent ++ s.emotionDataSetQueue).Nodup :=
  h.everySet.nodup_iff.mpr List.nodup_range

theorem queue_created (h : Accounted fl points s sent) {eds : Nat}
    (queued : eds ∈ s.emotionDataSetQueue) : eds < s.created :=
  List.mem_range.mp (h.everySet.mem_iff.mp (List.mem_append_right sent queued))

theorem sent_created (h : Accounted fl points s sent) {eds : Nat} (handed : eds ∈ sent) :
    eds < s.created :=
  List.mem_range.mp (h.everySet.mem_iff.mp (List.mem_append_left _ handed))

theorem sent_not_queued (h : Accounted fl points s sent) {eds : Nat} (handed : eds ∈ sent) :
    eds ∉ s.emotionDataSetQueue := by
  intro queued
  exact (List.disjoint_of_nodup_append h.nodup) handed queued

theorem create (h : Accounted fl points s sent) (time : Int) {p : DataPoint F}
    (absent : s.emotionDataSets.lookup p.key = none) :
    Accounted fl points ((s.create fl time p).enqueue config s.created) sent := by
  have queue := BinaryHeap.offer_perm ((s.create fl time p).compare config)
    s.emotionDataSetQueue s.created
  have fresh : p.key ∉ s.emotionDataSets := AList.lookup_eq_none.mp absent
  constructor
  · have grown := congrArg (List.map Sigma.snd)
      (AList.entries_insert_of_notMem (b := s.created) fresh)
    exact (List.Perm.of_eq grown).trans ((h.same.cons s.created).trans queue.symm)
  · intro key eds found
    simp only [EmotionFusion.enqueue, EmotionFusion.create] at found ⊢
    by_cases hk : key = p.key
    · subst hk
      rw [AList.lookup_insert, Option.some.injEq] at found
      subst found
      rw [Function.update_self]
      rfl
    · rw [AList.lookup_insert_ne hk] at found
      have older := h.queue_created (h.lookup_queue found)
      rw [Function.update_of_ne (Nat.ne_of_lt older)]
      exact h.ownKey key eds found
  · have grown : (List.range (s.created + 1)).Perm (s.created :: List.range s.created) := by
      rw [List.range_succ]
      exact List.perm_append_singleton _ _
    have moved := (queue.append_left sent).trans List.perm_middle
    exact (moved.trans (h.everySet.cons s.created)).trans grown.symm
  · obtain ⟨ledger, entered, created, collected⟩ := h.everyPoint
    refine ⟨ledger, entered, ?_, ?_⟩
    · intro entry he
      exact Nat.lt_succ_of_lt (created entry he)
    · intro eds older
      simp only [EmotionFusion.enqueue, EmotionFusion.create] at older ⊢
      rcases Nat.lt_succ_iff_lt_or_eq.mp older with older | rfl
      · rw [Function.update_of_ne (Nat.ne_of_lt older)]
        exact collected eds older
      · have nothing : share ledger s.created = [] :=
          share_none fun entry he => Nat.ne_of_lt (created entry he)
        rw [Function.update_self, nothing]
        exact ⟨by simp, rfl⟩

theorem addTo (h : Accounted fl points s sent) {eds : Nat} {p : DataPoint F}
    (queued : eds ∈ s.emotionDataSetQueue) (hp : p.key = (s.dataSet eds).key) :
    Accounted fl (points ++ [p]) (s.addTo fl eds p) sent := by
  constructor
  · exact h.same
  · intro key other found
    rw [h.ownKey key other found]
    simp only [EmotionFusion.addTo]
    by_cases same : other = eds
    · subst same
      rw [Function.update_self, addDataPoint_key]
    · rw [Function.update_of_ne same]
  · exact h.everySet
  · obtain ⟨ledger, entered, created, collected⟩ := h.everyPoint
    refine ⟨ledger ++ [(eds, p)], ?_, ?_, ?_⟩
    · rw [List.map_append, entered]
      rfl
    · intro entry he
      rcases List.mem_append.mp he with he | he
      · exact created entry he
      · rw [List.mem_singleton.mp he]
        exact h.queue_created queued
    · intro other older
      simp only [EmotionFusion.addTo]
      by_cases same : other = eds
      · subst same
        rw [Function.update_self, share_same]
        exact (collected other older).add hp
      · rw [Function.update_of_ne same, share_other ledger p same]
        exact collected other older

theorem enterDataPoint (h : Accounted fl points s sent) (clock : Nat → Int) (p : DataPoint F) :
    Accounted fl (points ++ [p]) (s.enterDataPoint fl config clock p) sent := by
  unfold EmotionFusion.enterDataPoint
  split
  · rename_i eds found
    exact h.addTo (h.lookup_queue found) (h.ownKey _ _ found)
  · rename_i absent
    have grown := h.create config (clock s.created) absent
    have found : ((s.create fl (clock s.created) p).enqueue config s.created).emotionDataSets.lookup
        p.key = some s.created := AList.lookup_insert _
    exact grown.addTo (grown.lookup_queue found) (grown.ownKey _ _ found)

theorem enterDataPoint_sent (h : Accounted fl points s sent) (clock : Nat → Int)
    (p : DataPoint F) {eds : Nat} (handed : eds ∈ sent) :
    (s.enterDataPoint fl config clock p).dataSet eds = s.dataSet eds := by
  unfold EmotionFusion.enterDataPoint
  split
  · rename_i other found
    have different : eds ≠ other := by
      rintro rfl
      exact h.sent_not_queued handed (h.lookup_queue found)
    exact Function.update_of_ne different _ _
  · have different : eds ≠ s.created := Nat.ne_of_lt (h.sent_created handed)
    simp only [EmotionFusion.addTo, EmotionFusion.enqueue, EmotionFusion.create]
    rw [Function.update_of_ne different, Function.update_of_ne different]

theorem enterAll (h : Accounted fl points s sent) (clock : Nat → Int)
    (more : List (DataPoint F)) :
    Accounted fl (points ++ more) (more.foldl (EmotionFusion.enterDataPoint fl config clock) s)
        sent ∧
      ∀ eds ∈ sent, (more.foldl (EmotionFusion.enterDataPoint fl config clock) s).dataSet eds =
        s.dataSet eds := by
  induction more generalizing points s with
  | nil =>
    rw [List.append_nil]
    exact ⟨h, fun _ _ => rfl⟩
  | cons p more ih =>
    obtain ⟨accounted, unchanged⟩ := ih (h.enterDataPoint config clock p)
    rw [List.append_assoc] at accounted
    constructor
    · exact accounted
    · intro eds handed
      exact (unchanged eds handed).trans (h.enterDataPoint_sent config clock p handed)

theorem remove (h : Accounted fl points s sent) {eds : Nat}
    (first : BinaryHeap.peek s.emotionDataSetQueue = some eds) :
    Accounted fl points (s.remove config eds) (sent ++ [eds]) := by
  have queued : eds ∈ s.emotionDataSetQueue := List.mem_of_head? first
  have queue := BinaryHeap.poll_perm (s.compare config) first
  have found := h.queue_lookup queued
  constructor
  · have values := (erase_entries_perm found).map Sigma.snd
    have both := (values.trans h.same).trans queue.symm
    exact both.cons_inv
  · intro key other stored
    have different : key ≠ (s.dataSet eds).key := by
      rintro rfl
      rw [EmotionFusion.remove, AList.lookup_erase] at stored
      cases stored
    rw [EmotionFusion.remove, AList.lookup_erase_ne different] at stored
    exact h.ownKey key other stored
  · rw [List.append_assoc]
    exact (queue.append_left sent).trans h.everySet
  · obtain ⟨ledger, entered, created, collected⟩ := h.everyPoint
    exact ⟨ledger, entered, created, collected⟩

theorem drain (currentTime : Int) (rounds : Nat) (toBeSent : List Nat)
    (h : Accounted fl points s (sent ++ toBeSent)) :
    Accounted fl points (s.drain config currentTime rounds toBeSent).1
      (sent ++ (s.drain config currentTime rounds toBeSent).2) := by
  induction rounds generalizing s toBeSent with
  | zero => exact h
  | succ rounds ih =>
    unfold EmotionFusion.drain
    split
    · exact h
    · rename_i eds first
      split
      · apply ih
        rw [← List.append_assoc]
        exact h.remove config first
      · exact h

theorem act (h : Accounted fl points s sent) (currentTime : Int) :
    Accounted fl points (s.act config currentTime).1 (sent ++ (s.act config currentTime).2) :=
  drain config currentTime _ [] (by rwa [List.append_nil])

end Accounted

theorem drain_dataSet (config : Config) (currentTime : Int) (rounds : Nat) (s : EmotionFusion F)
    (toBeSent : List Nat) :
    (s.drain config currentTime rounds toBeSent).1.dataSet = s.dataSet := by
  induction rounds generalizing s toBeSent with
  | zero => rfl
  | succ rounds ih =>
    unfold EmotionFusion.drain
    split
    · rfl
    · split
      · exact ih _ _
      · rfl

theorem drain_created (config : Config) (currentTime : Int) (rounds : Nat) (s : EmotionFusion F)
    (toBeSent : List Nat) :
    (s.drain config currentTime rounds toBeSent).1.created = s.created := by
  induction rounds generalizing s toBeSent with
  | zero => rfl
  | succ rounds ih =>
    unfold EmotionFusion.drain
    split
    · rfl
    · split
      · exact ih _ _
      · rfl

inductive Call where
  | react (clock : Nat → Int) (m : SEMAINEMessage)
  | act (currentTime : Int)

def Call.entered : Call → List (DataPoint F)
  | .react _ m => (dataPoints fl m).1
  | .act _ => []

/-- The component, and the data sets given to `createEmotionXML` so far as they were then. -/
structure Session (F : Type) where
  fusion : EmotionFusion F
  sent : List (Nat × EmotionDataSet F)

def Session.start : Session F := ⟨EmotionFusion.init fl, []⟩

def Session.perform (s : Session F) : Call → Session F
  | .react clock m => { s with fusion := (s.fusion.react fl config clock m).1 }
  | .act currentTime =>
    let (fusion, toBeSent) := s.fusion.act config currentTime
    { fusion := fusion
      sent := s.sent ++ toBeSent.map fun eds => (eds, fusion.dataSet eds) }

def Next (s : Session F) (call : Call) (t : Session F) : Prop := t = s.perform fl config call

/-- The references are accounted for and no data set has changed since it was handed on. -/
structure Session.Sound (calls : List Call) (s : Session F) : Prop where
  accounted : Accounted fl (calls.flatMap (Call.entered fl)) s.fusion (s.sent.map Prod.fst)
  final : ∀ handed ∈ s.sent, s.fusion.dataSet handed.1 = handed.2

theorem Session.Sound.perform {fl : Floats F} {calls : List Call} {s : Session F}
    (h : s.Sound fl calls) (call : Call) : (s.perform fl config call).Sound fl (calls ++ [call]) := by
  obtain ⟨accounted, final⟩ := h
  cases call with
  | react clock m =>
    obtain ⟨grown, unchanged⟩ := accounted.enterAll config clock (dataPoints fl m).1
    constructor
    · have points : (calls ++ [Call.react clock m]).flatMap (Call.entered fl) =
          calls.flatMap (Call.entered fl) ++ (dataPoints fl m).1 := by
        simp [Call.entered]
      rw [points]
      exact grown
    · intro handed member
      exact (unchanged handed.1 (List.mem_map_of_mem member)).trans (final handed member)
  | act currentTime =>
    have drained := accounted.act config currentTime
    constructor
    · simpa [Call.entered, Session.perform, Function.comp_def] using drained
    · intro handed member
      rcases List.mem_append.mp member with older | newer
      · have same := drain_dataSet config currentTime s.fusion.emotionDataSetQueue.length
          s.fusion []
        exact (congrFun same handed.1).trans (final handed older)
      · obtain ⟨eds, _, rfl⟩ := List.mem_map.mp newer
        rfl

theorem sound_run {calls : List Call} {s : Session F}
    (run : Transition.Run (Next fl config) (Session.start fl) calls s) : s.Sound fl calls := by
  apply run.history_invariant (fun calls s => s.Sound fl calls)
  · rintro calls s call t h rfl
    exact h.perform config call
  · constructor
    · exact .init
    · intro handed member
      cases member

def readHalf (s : Text) : Option Number := if s = "0.5".toList then some (.val (1 / 2)) else none

def half : Floats Number := exactFloats readHalf

def valence (vocabulary : Text) : SEMAINEMessage :=
  let descriptor : Tag := {
    localName := EmotionML.dimension
    namespaceURI := some EmotionML.namespaceURI
    attributes := [⟨EmotionML.name, "valence".toList⟩, ⟨EmotionML.value, "0.5".toList⟩].toAList }
  let emotion : Tag := {
    localName := EmotionML.emotion
    namespaceURI := some EmotionML.namespaceURI
    attributes := [⟨"dimension-set".toList, vocabulary⟩].toAList }
  let interpretation : Tag := {
    localName := EMMA.interpretation
    namespaceURI := some EMMA.namespaceURI }
  .emma {
    localName := "emma".toList
    namespaceURI := some EMMA.namespaceURI
    children := [.element interpretation [.element emotion [.element descriptor []]]] }

end Semaine.Emotion
