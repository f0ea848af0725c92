import Semaine.Dialogue.ActionUnits
import Semaine.Library.JavaSplit
import Semaine.StateInfo.RoundTrip

/-! `eu.semaine.components.dialogue.interpreters.NonVerbalInterpreter`, as far as it reports facial
action units, and what the proposer of utterances counts of its reports. -/
namespace Semaine.Interpreters
open JavaText Semaine.Xml Semaine.StateInfo Semaine.Dialogue

namespace NonVerbalInterpreter

def facialActionUnits : Text := "facialActionUnits".toList
def facialActionUnitsStarted : Text := "facialActionUnitsStarted".toList

/-- The items of the user state, unless there is not one value for each name. -/
def sendUserStateChange (shortNames values : List Text) : Option (List (Text × Text)) :=
  if shortNames.length ≠ values.length then none else some (shortNames.zip values)

def auTexts (auList : Finset Int) : List Text := auList.sort.map ofInt

def auText (auList : Finset Int) : Text := trim ((auTexts auList).flatMap (· ++ [' ']))

def checkNewAUList (time : Int) (auList activeActionUnits : Finset Int) :
    Finset Int × Option (List (Text × Text)) :=
  if auList = activeActionUnits then (activeActionUnits, none)
  else
    (auList, sendUserStateChange [facialActionUnits, facialActionUnitsStarted]
      [auText auList, ofInt time])

section
variable (dom : DOMImplementation) (iteration : List (Text × Text) → List (Text × Text))

/-- A user state is made from a map, sent as a document and read. The map is iterated over in an
order of its own. -/
def transmit (userStateInfo : List (Text × Text)) :
    Except StateInfo.Failure (List (Text × Text)) :=
  match mapperFor .userState with
  | none => .error (.thrown .nullPointer)
  | some mapper => do
    match ← createDocumentFromInfo dom mapper (iteration userStateInfo) with
    | none => throw (.thrown .nullPointer)
    | some doc => analyseDocument mapper StateType.userState.rootName (some semaineURI) doc

variable {F D : Type} (chars : Characters) (floats : FloatNumbers F D)

structure Link (F D : Type) where
  activeActionUnits : Finset Int := ∅
  proposer : UserTurn F D

inductive LinkFailure where
  | interpreter (e : StateInfo.Failure)
  | proposer (e : Dialogue.Failure)

/-- The units that were detected, and the times at which the interpreter and the proposer handle
them. -/
structure Detection where
  auList : Finset Int
  time : Int
  arrival : Int

def Link.detect (link : Link F D) (d : Detection) : Except LinkFailure (Link F D) :=
  match checkNewAUList d.time d.auList link.activeActionUnits with
  | (activeActionUnits, none) => .ok { link with activeActionUnits := activeActionUnits }
  | (activeActionUnits, some userStateInfo) => do
    let info ← (transmit dom iteration userStateInfo).mapError .interpreter
    let proposer ← (link.proposer.react chars floats ⟨info, d.arrival⟩).mapError .proposer
    return ⟨activeActionUnits, proposer⟩

end

theorem mem_auTexts (auList : Finset Int) (a : Int) : ofInt a ∈ auTexts auList ↔ a ∈ auList := by
  unfold auTexts
  rw [List.mem_map_of_injective fun _ _ => ofInt_injective, Finset.mem_sort]

theorem auTexts_nonempty {auList : Finset Int} {au : Text} (h : au ∈ auTexts auList) :
    au ≠ [] := by
  obtain ⟨a, _, rfl⟩ := List.mem_map.mp h
  exact ofInt_ne_nil a

theorem auTexts_plain {auList : Finset Int} {au : Text} (h : au ∈ auTexts auList) :
    ∀ c ∈ au, isBlank c = false ∧ c ≠ '.' := by
  obtain ⟨a, _, rfl⟩ := List.mem_map.mp h
  intro c member
  rcases mem_ofInt member with rfl | digit
  · decide
  · refine ⟨?_, ?_⟩
    · simp only [Char.isDigit, Bool.and_eq_true, decide_eq_true_eq, ge_iff_le,
        UInt32.le_iff_toNat_le] at digit
      simp only [isBlank, decide_eq_false_iff_not, UInt32.le_iff_toNat_le]
      simp at digit ⊢
      omega
    · rintro rfl
      cases digit

theorem auTexts_ne_nil {auList : Finset Int} (h : auList ≠ ∅) : auTexts auList ≠ [] := by
  obtain ⟨a, member⟩ := Finset.nonempty_iff_ne_empty.mpr h
  exact List.ne_nil_of_mem ((mem_auTexts auList a).mpr member)

theorem auText_empty : auText ∅ = [] := by
  unfold auText auTexts
  rw [Finset.sort_empty]
  rfl

theorem split_auText {auList : Finset Int} (h : auList ≠ ∅) :
    auText auList ≠ [] ∧ split (auText auList) ' ' = auTexts auList := by
  obtain ⟨trimmed, pieces⟩ := split_trim_words (auTexts_ne_nil h) (fun _ => auTexts_nonempty)
    (fun _ member c inside => (auTexts_plain member c inside).1)
  have visible := visible_words (auTexts_ne_nil h) (fun _ => auTexts_nonempty)
    (fun _ member c inside => (auTexts_plain member c inside).1)
  obtain ⟨c, rest, shape, _⟩ := visible.head
  unfold auText
  rw [trimmed]
  refine ⟨?_, pieces⟩
  rw [shape]
  exact List.cons_ne_nil c rest

structure Units (aus time : Text) (items : List (Text × Text)) : Prop where
  same : items.Perm [(facialActionUnits, aus), (facialActionUnitsStarted, time)]

namespace Units
variable {aus time : Text} {items : List (Text × Text)} (h : Units aus time items)
include h

theorem distinct : (items.map Prod.fst).Nodup := by
  have names : [facialActionUnits, facialActionUnitsStarted].Nodup := by decide
  exact (h.same.map Prod.fst).nodup_iff.mpr names

theorem cases {item : Text × Text} (member : item ∈ items) :
    item = (facialActionUnits, aus) ∨ item = (facialActionUnitsStarted, time) := by
  have listed := h.same.mem_iff.mp member
  rw [List.mem_cons, List.mem_singleton] at listed
  exact listed

theorem nonempty : items ≠ [] := by
  rintro rfl
  exact List.cons_ne_nil _ _ h.same.nil_eq.symm

theorem lookup_units : items.lookup facialActionUnits = some aus :=
  List.lookup_of_mem h.distinct (h.same.mem_iff.mpr (.head _))

theorem lookup_other {name : Text} (noFace : faceItem? name = none) :
    items.lookup name = none := by
  apply List.lookup_eq_none_of_notMem
  intro member
  obtain ⟨item, listed, rfl⟩ := List.mem_map.mp member
  rcases h.cases listed with rfl | rfl
  · cases noFace.symm.trans (faceItem?_shortName (.main .actionUnits))
  · cases noFace.symm.trans (faceItem?_shortName (.time .actionUnits .started))

theorem leads {mapper : XPathInfoMapper} (shipped : Shipped .userState mapper) :
    ∀ item ∈ items, LeadsTo .userState mapper item.1 := by
  intro item member
  rcases h.cases member with rfl | rfl
  · exact leadsTo_known shipped (face_known (.main .actionUnits))
  · exact leadsTo_known shipped (face_known (.time .actionUnits .started))

theorem read (context : NamespaceContext) :
    faceRead (.main .actionUnits) (writeFaces context (faceItems items)) = some aus := by
  have own := (faceItems_lookup items (.main .actionUnits)).trans h.lookup_units
  have kinds : ∀ item ∈ faceItems items, item.1.kind = .actionUnits := by
    intro item member
    obtain ⟨source, listed, selected⟩ := List.mem_filterMap.mp member
    rcases h.cases listed with rfl | rfl
    · cases selected
      rfl
    · cases selected
      rfl
  have tracked := tracks .actionUnits (faceItems_distinct h.distinct)
  cases faces : faceItems items with
  | nil =>
    rw [faces] at own
    cases own
  | cons first rest =>
    rw [faces] at own kinds tracked
    have shows := shows_writeFaces context first rest
    rw [kinds first (.head rest)] at shows
    rw [shows.read_own, tracked.own, own]
    rfl

end Units

theorem transmit_def : @transmit = (fun dom iteration userStateInfo =>
    match mapperFor .userState with
    | none => .error (.thrown .nullPointer)
    | some mapper => do
      match ← createDocumentFromInfo dom mapper (iteration userStateInfo) with
      | none => throw (.thrown .nullPointer)
      | some doc => analyseDocument mapper StateType.userState.rootName (some semaineURI) doc) := by
  delta transmit
  rfl

theorem transmit_units (dom : DOMImplementation)
    {iteration : List (Text × Text) → List (Text × Text)}
    (iterated : ∀ items, (iteration items).Perm items) (aus time : Text) :
    ∃ info, transmit dom iteration [(facialActionUnits, aus), (facialActionUnitsStarted, time)] =
        .ok info ∧
      info.lookup facialActionUnits = (if aus = [] then none else some aus) ∧
      ∀ name, faceItem? name = none → info.lookup name = none := by
  obtain ⟨mapper, shipped⟩ := exists_shipped .userState
  have units : Units aus time
      (iteration [(facialActionUnits, aus), (facialActionUnitsStarted, time)]) := ⟨iterated _⟩
  obtain ⟨created, state⟩ := createDocumentFromInfo_eq dom units.nonempty (units.leads shipped)
  obtain ⟨info, analysed, lookups⟩ := analyseDocument_lookup shipped.sound state
  refine ⟨info, ?_, ?_, ?_⟩
  · rw [transmit_def]
    simp only [shipped.found, created, bind, Except.bind]
    exact analysed
  · have leads : LeadsTo .userState mapper facialActionUnits :=
      leadsTo_known shipped (face_known (.main .actionUnits))
    have value : readName mapper (writeItems .userState mapper (iteration
        [(facialActionUnits, aus), (facialActionUnitsStarted, time)])) facialActionUnits =
          some aus :=
      (readName_face shipped.sound (units.leads shipped) (i := .main .actionUnits) leads).trans
        (units.read mapper.namespaceContext)
    rw [lookups, leads.compiled, Option.bind_some]
    simp only [evaluate_name leads state, value]
    rfl
  · intro name noFace
    rw [lookups]
    cases compiled : mapper.name2compiledExpression.lookup name with
    | none => rfl
    | some xpath =>
      have leads : LeadsTo .userState mapper name := by
        apply leadsTo_known shipped
        rw [shipped.getShortNames_eq]
        exact List.mem_map.mpr ⟨(name, xpath), List.mem_of_lookup compiled, rfl⟩
      have absent := (lookup_writeItems shipped.sound units.distinct (units.leads shipped) leads
        noFace).trans (units.lookup_other noFace)
      rw [← compiled, leads.compiled, Option.bind_some]
      simp only [evaluate_name leads state, absent]
      rfl

section
variable {F D : Type} {chars : Characters} {floats : FloatNumbers F D}

theorem react_units {m : UserStateMessage} (s : UserTurn F D)
    (bare : ∀ name, faceItem? name = none → m.info.lookup name = none) :
    s.react chars floats m = s.updateActionUnits chars m := by
  have none (name : String) (noFace : faceItem? name.toList = none) : m.getInfo name = none :=
    bare name.toList noFace
  have speaking : s.updateSpeaking chars m = .ok s := by
    unfold UserTurn.updateSpeaking
    rw [none "speaking" (by decide)]
    rfl
  have emotions : s.updateEmotions floats m = .ok s := by
    have absent : UserTurn.emotionOf m = .none := by
      simp only [UserTurn.emotionOf, List.findSome?_cons, List.findSome?_nil,
        none "valence" (by decide), none "arousal" (by decide), none "interest" (by decide),
        none "potency" (by decide), none "intensity" (by decide), Option.map_none]
    unfold UserTurn.updateEmotions
    rw [absent]
  have utterances : s.updateUtterances chars m = .ok s := by
    unfold UserTurn.updateUtterances
    rw [none "userUtterance" (by decide)]
  have head : s.updateHead chars m = .ok s := by
    have absent : UserTurn.headGesture m = .none := by
      unfold UserTurn.headGesture
      rw [none "headGesture" (by decide), ite_self]
    unfold UserTurn.updateHead
    rw [absent]
  have pitch : s.updatePitch chars m = .ok s := by
    unfold UserTurn.updatePitch
    rw [none "pitchDirection" (by decide)]
  have vocalization : s.updateVocalization chars m = .ok s := by
    unfold UserTurn.updateVocalization
    rw [none "vocalization" (by decide)]
  unfold UserTurn.react
  simp only [speaking, emotions, utterances, head, pitch, vocalization, bind, Except.bind]

def shownAfter (shown auList : Finset Int) : Finset Int := if auList = ∅ then shown else auList

/-- The units that the proposer takes for active are those of the last set that was not empty. -/
structure InStep (shown active : Finset Int) (link : Link F D) : Prop where
  records : UnitRecords link.proposer.is
  sent : link.activeActionUnits = active
  known (g : Text) : link.proposer.Active g ↔ g ∈ auTexts shown
  same : active ≠ ∅ → shown = active

variable {dom : DOMImplementation} {iteration : List (Text × Text) → List (Text × Text)}
  {shown active : Finset Int} {link : Link F D}

theorem shownAfter_same (auList shown : Finset Int) :
    auList ≠ ∅ → shownAfter shown auList = auList :=
  fun nonempty => if_neg nonempty

structure Detected (shown auList : Finset Int) (link next : Link F D) : Prop where
  inStep : InStep (shownAfter shown auList) auList next
  counted {a : Int} : a ∉ shown → a ∈ auList →
    unitCounter next.proposer.is (ofInt a) =
      UserTurn.succ (unitCounter link.proposer.is (ofInt a))
  kept {a : Int} : a ∈ shown ∨ a ∉ auList →
    unitCounter next.proposer.is (ofInt a) = unitCounter link.proposer.is (ofInt a)

variable (chars floats) in
theorem react_change {info : List (Text × Text)} {auList : Finset Int}
    (h : InStep shown active link) (arrival : Int)
    (units : info.lookup facialActionUnits =
      if auText auList = [] then none else some (auText auList))
    (bare : ∀ name, faceItem? name = none → info.lookup name = none) :
    ∃ proposer, link.proposer.react chars floats ⟨info, arrival⟩ = .ok proposer ∧
      Detected shown auList link ⟨auList, proposer⟩ := by
  rw [react_units link.proposer bare]
  by_cases empty : auList = ∅
  · subst empty
    rw [auText_empty, if_pos rfl] at units
    have ignored : link.proposer.updateActionUnits chars ⟨info, arrival⟩ = .ok link.proposer := by
      have absent : UserStateMessage.getInfo ⟨info, arrival⟩ "facialActionUnits" = none := units
      unfold UserTurn.updateActionUnits
      rw [absent]
    refine ⟨link.proposer, ignored, ⟨h.records, rfl, ?_, fun absurd => (absurd rfl).elim⟩, ?_,
      fun _ => rfl⟩
    · intro g
      unfold shownAfter
      rw [if_pos rfl]
      exact h.known g
    · exact fun _ member => absurd member (Finset.notMem_empty _)
  · obtain ⟨nonempty, pieces⟩ := split_auText empty
    rw [if_neg nonempty] at units
    obtain ⟨proposer, done, records, known, counted, kept⟩ :=
      UserTurn.updateActionUnits_units chars (m := ⟨info, arrival⟩) units (by
        rw [pieces]
        exact fun au member dot => (auTexts_plain member '.' dot).2 rfl) h.records
    rw [pieces] at known counted kept
    refine ⟨proposer, done, ⟨records, rfl, ?_, shownAfter_same auList shown⟩, ?_, ?_⟩
    · rw [shownAfter_same auList shown empty]
      exact known
    · intro a new member
      apply counted (ofInt a) ((mem_auTexts auList a).mpr member)
      rw [h.known, mem_auTexts]
      exact new
    · intro a old
      apply kept (ofInt a)
      rw [h.known, mem_auTexts, mem_auTexts]
      exact old.symm

theorem checkNewAUList_changed (time : Int) {auList activeActionUnits : Finset Int}
    (changed : auList ≠ activeActionUnits) :
    checkNewAUList time auList activeActionUnits =
      (auList, some [(facialActionUnits, auText auList),
        (facialActionUnitsStarted, ofInt time)]) := by
  unfold checkNewAUList
  rw [if_neg changed]
  rfl

theorem detect_unchanged (link : Link F D) {d : Detection}
    (unchanged : d.auList = link.activeActionUnits) :
    link.detect dom iteration chars floats d = .ok link := by
  unfold Link.detect checkNewAUList
  rw [if_pos unchanged]

theorem detect_changed (link : Link F D) {d : Detection} {info : List (Text × Text)}
    {proposer : UserTurn F D} (changed : d.auList ≠ link.activeActionUnits)
    (sent : transmit dom iteration [(facialActionUnits, auText d.auList),
      (facialActionUnitsStarted, ofInt d.time)] = .ok info)
    (reacted : link.proposer.react chars floats ⟨info, d.arrival⟩ = .ok proposer) :
    link.detect dom iteration chars floats d = .ok ⟨d.auList, proposer⟩ := by
  unfold Link.detect
  rw [checkNewAUList_changed d.time changed]
  dsimp only
  rw [sent]
  simp only [Except.mapError, bind, Except.bind, pure, Except.pure, reacted]

variable (chars floats dom) in
theorem detect_detected (iterated : ∀ items, (iteration items).Perm items)
    (h : InStep shown active link) (d : Detection) :
    ∃ next, link.detect dom iteration chars floats d = .ok next ∧
      Detected shown d.auList link next := by
  by_cases unchanged : d.auList = active
  · have still : shownAfter shown d.auList = shown := by
      by_cases empty : d.auList = ∅
      · exact if_pos empty
      · rw [shownAfter_same d.auList shown empty, unchanged]
        exact (h.same (unchanged ▸ empty)).symm
    refine ⟨link, detect_unchanged link (unchanged.trans h.sent.symm), ⟨h.records,
      h.sent.trans unchanged.symm, ?_, shownAfter_same d.auList shown⟩, ?_, fun _ => rfl⟩
    · rw [still]
      exact h.known
    · intro a new member
      rw [unchanged] at member
      have nonempty : active ≠ ∅ := Finset.ne_empty_of_mem member
      rw [h.same nonempty] at new
      exact absurd member new
  · obtain ⟨info, sent, units, bare⟩ :=
      transmit_units dom iterated (auText d.auList) (ofInt d.time)
    obtain ⟨proposer, reacted, detected⟩ :=
      react_change chars floats h d.arrival units bare
    rw [← h.sent] at unchanged
    exact ⟨_, detect_changed link unchanged sent reacted, detected⟩

def risesFrom (a : Int) : Finset Int → List (Finset Int) → Nat
  | _, [] => 0
  | before, auList :: rest =>
    (if a ∉ before ∧ a ∈ auList then 1 else 0) + risesFrom a auList rest

/-- How often the unit is in a set and not in the last one before that was not empty. -/
def countedFrom (a : Int) : Finset Int → List (Finset Int) → Nat
  | _, [] => 0
  | shown, auList :: rest =>
    (if a ∉ shown ∧ a ∈ auList then 1 else 0) + countedFrom a (shownAfter shown auList) rest

variable (chars floats dom) in
theorem foldlM_detect (iterated : ∀ items, (iteration items).Perm items) (a : Int)
    (detections : List Detection) {n : Nat} (h : InStep shown active link)
    (counter : unitCounter link.proposer.is (ofInt a) = UserTurn.stored .head n) :
    ∃ final, detections.foldlM (Link.detect dom iteration chars floats) link = .ok final ∧
      UnitRecords final.proposer.is ∧
      unitCounter final.proposer.is (ofInt a) =
        UserTurn.stored .head (n + countedFrom a shown (detections.map (·.auList))) := by
  induction detections generalizing shown active link n with
  | nil => exact ⟨link, rfl, h.records, counter⟩
  | cons d detections ih =>
    obtain ⟨next, done, detected⟩ :=
      detect_detected chars floats dom iterated h d
    have now : unitCounter next.proposer.is (ofInt a) =
        UserTurn.stored .head (n + if a ∉ shown ∧ a ∈ d.auList then 1 else 0) := by
      by_cases rise : a ∉ shown ∧ a ∈ d.auList
      · rw [if_pos rise, detected.counted rise.1 rise.2, counter]
        exact UserTurn.succ_stored n
      · rw [if_neg rise, detected.kept, counter]
        · rfl
        · rw [not_and_or, not_not] at rise
          exact rise
    obtain ⟨final, rest, records, counted⟩ := ih detected.inStep now
    refine ⟨final, ?_, records, ?_⟩
    · rw [List.foldlM_cons, done]
      exact rest
    · rw [counted, List.map_cons, countedFrom, Nat.add_assoc]

/-- How often the unit comes back with the set after an empty one, when the proposer takes it for
active. -/
def missedFrom (a : Int) : Finset Int → Finset Int → List (Finset Int) → Nat
  | _, _, [] => 0
  | shown, before, auList :: rest =>
    (if a ∈ auList ∧ before = ∅ ∧ a ∈ shown then 1 else 0) +
      missedFrom a (shownAfter shown auList) auList rest

theorem risesFrom_eq (a : Int) (sets : List (Finset Int)) {shown before : Finset Int}
    (same : before ≠ ∅ → shown = before) :
    risesFrom a before sets = countedFrom a shown sets + missedFrom a shown before sets := by
  induction sets generalizing shown before with
  | nil => rfl
  | cons auList rest ih =>
    have first : (if a ∉ before ∧ a ∈ auList then 1 else 0) =
        (if a ∉ shown ∧ a ∈ auList then 1 else 0) +
          if a ∈ auList ∧ before = ∅ ∧ a ∈ shown then 1 else 0 := by
      by_cases empty : before = ∅
      · subst empty
        by_cases known : a ∈ shown
        · simp [known]
        · simp [known]
      · rw [same empty]
        simp [empty]
    have later := ih (shownAfter_same auList shown)
    rw [risesFrom, countedFrom, missedFrom, first, later]
    omega

theorem missedFrom_eq_zero (a : Int) (sets : List (Finset Int)) (shown before : Finset Int) :
    missedFrom a shown before sets = 0 ↔ ∀ earlier auList later,
      sets = earlier ++ auList :: later → a ∈ auList → earlier.getLastD before = ∅ →
        a ∉ earlier.foldl shownAfter shown := by
  induction sets generalizing shown before with
  | nil =>
    refine ⟨fun _ earlier auList later whole => ?_, fun _ => rfl⟩
    exact absurd whole.symm (List.append_ne_nil_of_right_ne_nil _ (List.cons_ne_nil _ _))
  | cons first rest ih =>
    rw [missedFrom, Nat.add_eq_zero_iff, ih]
    constructor
    · rintro ⟨here, there⟩ earlier auList later whole member empty known
      cases earlier with
      | nil =>
        cases whole
        rw [if_pos ⟨member, empty, known⟩] at here
        cases here
      | cons s earlier =>
        cases whole
        rw [List.getLastD_cons] at empty
        exact there earlier auList later rfl member empty known
    · intro all
      refine ⟨?_, ?_⟩
      · apply if_neg
        rintro ⟨member, empty, known⟩
        exact all [] first rest rfl member empty known
      · intro earlier auList later whole member empty
        apply all (first :: earlier) auList later (congrArg (first :: ·) whole) member
        rw [List.getLastD_cons]
        exact empty

def activations (a : Int) (sets : List (Finset Int)) : Nat := risesFrom a ∅ sets

/-- After the empty set, the unit comes back although it was in the last set before that was not
empty. -/
def ComesBack (a : Int) (sets : List (Finset Int)) : Prop :=
  ∃ earlier auList later, sets = earlier ++ auList :: later ∧ a ∈ auList ∧
    earlier.getLastD ∅ = ∅ ∧ a ∈ earlier.foldl shownAfter ∅

def nrOfAU (chars : Characters) (s : UserTurn F D) (a : Int) : Except Dialogue.Failure Int :=
  (s.is.getInteger chars (UserTurn.actionUnitPath (ofInt a))).map (·.getD 0)

theorem stored_getD (n : Nat) : (UserTurn.stored .head n).getD 0 = toInt n := by
  cases n with
  | zero => rfl
  | succ n =>
    rw [UserTurn.stored_head (Nat.succ_ne_zero n), Option.getD_some]

theorem counted_iff (a : Int) (sets : List (Finset Int)) :
    toInt (countedFrom a ∅ sets) = activations a sets ↔
      activations a sets < 2 ^ 31 ∧ ¬ ComesBack a sets := by
  have total : activations a sets = countedFrom a ∅ sets + missedFrom a ∅ ∅ sets :=
    risesFrom_eq a sets fun h => (h rfl).elim
  have missed : missedFrom a ∅ ∅ sets = 0 ↔ ¬ ComesBack a sets := by
    rw [missedFrom_eq_zero]
    unfold ComesBack
    push Not
    exact Iff.rfl
  have few := toInt_eq_iff (Int.natCast_nonneg (countedFrom a ∅ sets))
  have least := toInt_le (Int.natCast_nonneg (countedFrom a ∅ sets))
  rw [← missed]
  constructor
  · intro same
    rw [same] at least few
    omega
  · rintro ⟨small, none⟩
    rw [total, none, Nat.add_zero] at small ⊢
    exact few.mpr (by omega)

theorem run_counted (dom : DOMImplementation) (iterated : ∀ items, (iteration items).Perm items)
    (chars : Characters) (floats : FloatNumbers F D) {start : UserTurn F D}
    (removed : start.is.lookup USERTURN = none) (inactive : ∀ au, ¬ start.Active au)
    (detections : List Detection) (a : Int) :
    ∃ final, detections.foldlM (Link.detect dom iteration chars floats) ⟨∅, start⟩ =
        .ok final ∧
      nrOfAU chars final.proposer a =
        .ok (toInt (countedFrom a ∅ (detections.map (·.auList)))) := by
  have noTurn : fieldsOf start.is USERTURN = [] := by
    unfold fieldsOf
    rw [removed]
  have plain : '.' ∉ ofInt a := by
    intro dot
    rcases mem_ofInt dot with minus | digit
    · cases minus
    · cases digit
  have inStep : InStep ∅ ∅ (⟨∅, start⟩ : Link F D) := by
    refine ⟨⟨?_, ?_⟩, rfl, ?_, fun absurd => (absurd rfl).elim⟩
    · intro i found
      rw [removed] at found
      cases found
    · intro i found
      rw [noTurn] at found
      cases found
    · intro g
      unfold auTexts
      rw [Finset.sort_empty]
      exact iff_of_false (inactive g) List.not_mem_nil
  have counter : unitCounter start.is (ofInt a) = UserTurn.stored .head 0 := by
    unfold unitCounter
    rw [noTurn]
    rfl
  obtain ⟨final, done, records, counted⟩ := foldlM_detect chars floats dom iterated a
    detections inStep counter
  refine ⟨final, done, ?_⟩
  unfold nrOfAU
  rw [getInteger_actionUnit chars records plain, counted, Nat.zero_add]
  exact congrArg Except.ok (stored_getD _)

/-- The activations of a unit are counted exactly if an `int` counts that far and the unit never
comes back after an empty set. -/
theorem activations_counted_iff (dom : DOMImplementation)
    (iterated : ∀ items, (iteration items).Perm items) (chars : Characters)
    (floats : FloatNumbers F D) {start : UserTurn F D}
    (removed : start.is.lookup USERTURN = none) (inactive : ∀ au, ¬ start.Active au)
    (detections : List Detection) (a : Int) :
    ∃ final, detections.foldlM (Link.detect dom iteration chars floats) ⟨∅, start⟩ =
        .ok final ∧
      (nrOfAU chars final.proposer a = .ok (activations a (detections.map (·.auList)) : Int) ↔
        activations a (detections.map (·.auList)) < 2 ^ 31 ∧
          ¬ ComesBack a (detections.map (·.auList))) := by
  obtain ⟨final, done, read⟩ := run_counted dom iterated chars floats removed inactive detections a
  refine ⟨final, done, ?_⟩
  rw [read, Except.ok.injEq]
  exact counted_iff a _

end

def emptyTurn : UserTurn JavaFloat.Number Rat := { is := [] }

theorem emptyTurn_inactive (au : Text) : ¬ emptyTurn.Active au := by
  intro active
  cases active

/-- A unit that is shown, and shown again after others. -/
def browAgain : List Detection :=
  [⟨{4}, 100, 110⟩, ⟨{1, 4}, 200, 210⟩, ⟨{1}, 300, 310⟩, ⟨{4}, 400, 410⟩, ⟨∅, 500, 510⟩]

def browTwice : List Detection := [⟨{4}, 100, 110⟩, ⟨∅, 200, 210⟩, ⟨{4}, 300, 310⟩]

theorem activations_counted_iff_again :
    ∃ final, browAgain.foldlM (Link.detect asciiDom id ascii noFloats) ⟨∅, emptyTurn⟩ =
        .ok final ∧
      (nrOfAU ascii final.proposer 4 = .ok (activations 4 (browAgain.map (·.auList)) : Int) ↔
        activations 4 (browAgain.map (·.auList)) < 2 ^ 31 ∧
          ¬ ComesBack 4 (browAgain.map (·.auList))) :=
  activations_counted_iff asciiDom List.Perm.refl ascii noFloats rfl emptyTurn_inactive
    browAgain 4

theorem browTwice_countedOnce :
    ∃ final, browTwice.foldlM (Link.detect asciiDom id ascii noFloats) ⟨∅, emptyTurn⟩ =
        .ok final ∧
      nrOfAU ascii final.proposer 4 = .ok 1 ∧ activations 4 (browTwice.map (·.auList)) = 2 := by
  have run : ∃ final, browTwice.foldlM (Link.detect asciiDom id ascii noFloats) ⟨∅, emptyTurn⟩ =
      .ok final ∧ nrOfAU ascii final.proposer 4 =
        .ok (toInt (countedFrom 4 ∅ (browTwice.map (·.auList)))) :=
    run_counted asciiDom List.Perm.refl ascii noFloats rfl emptyTurn_inactive browTwice 4
  have once : countedFrom 4 ∅ (browTwice.map (·.auList)) = 1 := by decide
  rw [once] at run
  obtain ⟨final, done, read⟩ := run
  exact ⟨final, done, read, by decide⟩

end NonVerbalInterpreter
end Semaine.Interpreters
