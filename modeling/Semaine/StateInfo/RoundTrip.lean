import Semaine.StateInfo.Configuration

/-! State information that is made from a map and read back from its document. -/
namespace Semaine.StateInfo
open JavaText Semaine.Xml

/-- A map from short names of a type to strings that are not empty, in the order in which it is
iterated over. -/
structure InfoMap (t : StateType) where
  items : List (Text × Text)
  distinct : (items.map Prod.fst).Nodup
  known : ∀ item ∈ items, item.1 ∈ getShortNames t
  nonempty : ∀ item ∈ items, item.2 ≠ []

/-- The document that is built from the map contains the map and nothing else. -/
def RoundTrips (dom : DOMImplementation) {t : StateType} (info : InfoMap t) : Prop :=
  ∃ mapper doc result, mapperFor t = some mapper ∧
    createDocumentFromInfo dom mapper info.items = .ok (some doc) ∧
    analyseDocument mapper t.rootName (some semaineURI) doc = .ok result ∧
    ∀ name, result.lookup name = info.items.lookup name

def faceItems (items : List (Text × Text)) : List (FaceItem × Text) :=
  items.filterMap fun item => (faceItem? item.1).map fun i => (i, item.2)

/-- The times of the facial expression and of the facial action units do not get mixed up. -/
def FacesKeptApart (items : List (Text × Text)) : Prop := KeptApart (faceItems items)

instance : DecidablePred FacesKeptApart := fun _ => inferInstanceAs (Decidable (KeptApart _))

section
variable (t : StateType) (mapper : XPathInfoMapper)

def pathFor (name : Text) : Path :=
  ((mapper.name2compiledExpression.lookup name).map pathOf).getD { parts := [], attName := [] }

def writeItem (root : Element) (item : Text × Text) : Element :=
  write mapper.namespaceContext (pathFor mapper item.1).attName item.2
    (pathFor mapper item.1).parts root

def writeItems (items : List (Text × Text)) : Element :=
  items.foldl (writeItem mapper) (fresh mapper.namespaceContext (rootPart t))

def readName (root : Element) (name : Text) : Option Text :=
  read mapper.namespaceContext (pathFor mapper name).attName (pathFor mapper name).parts root

end

/-- The expression of a short name leads from the root to where the name is written. -/
structure LeadsTo (t : StateType) (mapper : XPathInfoMapper) (name : Text) : Prop where
  expression : ∃ expr, mapper.name2exprString.lookup name = some expr ∧
    splitXPathIntoParts expr = .ok {
      parts := rootPart t :: (pathFor mapper name).parts
      last := .attribute (pathFor mapper name).attName }
  compiled : mapper.name2compiledExpression.lookup name = some {
    parts := rootPart t :: (pathFor mapper name).parts
    last := .attribute (pathFor mapper name).attName }
  writable : Writable mapper.namespaceContext (rootPart t) (pathFor mapper name).parts
    (pathFor mapper name).attName

structure StateRoot (t : StateType) (mapper : XPathInfoMapper) (root : Element) : Prop where
  isRoot : IsRoot mapper.namespaceContext (rootPart t) root
  clean : Clean root.toNode

section
variable {t : StateType} {mapper : XPathInfoMapper}

theorem pathFor_eq (sound : Sound t mapper) {e : Text × XPath}
    (member : e ∈ mapper.name2compiledExpression) : pathFor mapper e.1 = pathOf e.2 := by
  unfold pathFor
  rw [List.lookup_of_mem sound.distinct member]
  rfl

theorem leadsTo (sound : Sound t mapper) (compiled : Compiled mapper) {name : Text}
    (known : name ∈ mapper.name2exprString.map Prod.fst) : LeadsTo t mapper name := by
  obtain ⟨expr, found⟩ := List.exists_lookup known
  obtain ⟨xpath, split, lookup⟩ := compiled.lookup name expr found
  have member := List.mem_of_lookup lookup
  obtain ⟨rest, attName, rfl, writable⟩ := writable_cases _ (sound.writable _ member)
  have path := pathFor_eq sound member
  have parts : (pathFor mapper name).parts = rest := by rw [path]; rfl
  have att : (pathFor mapper name).attName = attName := by rw [path]; rfl
  constructor
  · refine ⟨expr, found, ?_⟩
    rw [parts, att]
    exact split
  · rw [parts, att]
    exact lookup
  · rw [parts, att]
    exact writable

namespace LeadsTo
variable {name : Text} (leads : LeadsTo t mapper name)
include leads

theorem face (sound : Sound t mapper) {i : FaceItem} (isFace : faceItem? name = some i) :
    pathFor mapper name = i.path := by
  have member := List.mem_of_lookup leads.compiled
  exact (pathFor_eq sound member).trans (sound.face _ member i isFace)

theorem spares (sound : Sound t mapper) (noFace : faceItem? name = none) :
    sparesFaces (pathFor mapper name).parts = true := by
  have member := List.mem_of_lookup leads.compiled
  exact sound.spares _ member noFace

theorem apart (sound : Sound t mapper) {other : Text} (leads' : LeadsTo t mapper other)
    (different : name ≠ other) (noFace : faceItem? other = none) :
    apart (pathFor mapper name).attName (pathFor mapper other).attName
      (pathFor mapper name).parts (pathFor mapper other).parts = true := by
  have member := List.mem_of_lookup leads.compiled
  have member' := List.mem_of_lookup leads'.compiled
  exact sound.apart _ member _ member' different noFace

end LeadsTo

theorem stateRoot_fresh {name : Text} (leads : LeadsTo t mapper name) :
    StateRoot t mapper (fresh mapper.namespaceContext (rootPart t)) :=
  ⟨isRoot_fresh (rootPart t), clean_fresh leads.writable.root⟩

theorem StateRoot.writeItem {root : Element} (h : StateRoot t mapper root) (item : Text × Text)
    (leads : LeadsTo t mapper item.1) : StateRoot t mapper (writeItem mapper root item) :=
  ⟨h.isRoot.write _ _ _, clean_write _ leads.writable.formed h.clean⟩

variable (dom : DOMImplementation)

theorem addInfo_new (item : Text × Text) (leads : LeadsTo t mapper item.1) :
    addInfo dom mapper none item =
      .ok (some (writeItem mapper (fresh mapper.namespaceContext (rootPart t)) item)) := by
  obtain ⟨expr, found, split⟩ := leads.expression
  have written := xpath2doc_new dom leads.writable split item.2
  unfold addInfo
  simp only [found, written]
  rfl

theorem addInfo_given (item : Text × Text) (leads : LeadsTo t mapper item.1) {root : Element}
    (h : StateRoot t mapper root) :
    addInfo dom mapper (some root) item = .ok (some (writeItem mapper root item)) := by
  obtain ⟨expr, found, split⟩ := leads.expression
  have written := xpath2doc_given dom leads.writable split item.2 h.isRoot h.clean
  unfold addInfo
  simp only [found, written]
  rfl

theorem foldlM_addInfo {items : List (Text × Text)}
    (leads : ∀ item ∈ items, LeadsTo t mapper item.1) {root : Element}
    (h : StateRoot t mapper root) :
    items.foldlM (addInfo dom mapper) (some root) =
        .ok (some (items.foldl (writeItem mapper) root)) ∧
      StateRoot t mapper (items.foldl (writeItem mapper) root) := by
  induction items generalizing root with
  | nil => exact ⟨rfl, h⟩
  | cons item items ih =>
    have first := leads item (.head items)
    have rest := ih (fun other member => leads other (.tail item member)) (h.writeItem _ first)
    rw [List.foldlM_cons, addInfo_given dom _ first h]
    exact rest

theorem createDocumentFromInfo_eq {items : List (Text × Text)} (nonempty : items ≠ [])
    (leads : ∀ item ∈ items, LeadsTo t mapper item.1) :
    createDocumentFromInfo dom mapper items = .ok (some (writeItems t mapper items)) ∧
      StateRoot t mapper (writeItems t mapper items) := by
  cases items with
  | nil => exact absurd rfl nonempty
  | cons item items =>
    have first := leads item (.head items)
    have rest := foldlM_addInfo dom (fun other member => leads other (.tail item member))
      ((stateRoot_fresh first).writeItem _ first)
    unfold createDocumentFromInfo
    rw [if_neg (by simp), List.foldlM_cons, addInfo_new dom _ first]
    exact rest

theorem analyseDocument_lookup (sound : Sound t mapper) {doc : Document}
    (h : StateRoot t mapper doc) :
    ∃ result, analyseDocument mapper t.rootName (some semaineURI) doc = .ok result ∧
      ∀ name, result.lookup name = (mapper.name2compiledExpression.lookup name).bind fun xpath =>
        let result := evaluate mapper.namespaceContext xpath doc
        if result = [] then none else some result := by
  have name : doc.localName = t.rootName := h.isRoot.1
  have uri : doc.namespaceURI = some semaineURI := h.isRoot.2.trans (congrArg some sound.uri)
  unfold analyseDocument
  rw [if_neg (not_not.mpr name), if_neg (by simp [isSameNamespace, uri])]
  refine ⟨_, rfl, ?_⟩
  intro shortName
  rw [← List.lookup_filterMap sound.distinct (fun e =>
    let result := evaluate mapper.namespaceContext e.2 doc
    if result = [] then none else some result)]
  congr 2
  funext e
  simp only
  split <;> rfl

theorem evaluate_name {name : Text} (leads : LeadsTo t mapper name) {doc : Document}
    (h : StateRoot t mapper doc) :
    evaluate mapper.namespaceContext {
      parts := rootPart t :: (pathFor mapper name).parts
      last := .attribute (pathFor mapper name).attName } doc =
      (readName mapper doc name).getD [] :=
  evaluate_read leads.writable.untested h.isRoot

theorem lookup_writeItems (sound : Sound t mapper) {items : List (Text × Text)}
    (distinct : (items.map Prod.fst).Nodup) (leads : ∀ item ∈ items, LeadsTo t mapper item.1)
    {name : Text} (own : LeadsTo t mapper name) (noFace : faceItem? name = none) :
    readName mapper (writeItems t mapper items) name = items.lookup name := by
  induction items using List.reverseRecOn with
  | nil => exact read_fresh _ (by simp [own.writable.deeper])
  | append_singleton items item ih =>
    obtain ⟨distinct, new⟩ := List.nodup_keys_concat distinct
    have before := ih distinct fun other member => leads other (List.mem_append_left _ member)
    have last := leads item (List.mem_append_right _ (.head []))
    unfold readName writeItems at before ⊢
    rw [List.foldl_append, List.lookup_concat (List.lookup_eq_none_of_notMem new) item.2]
    by_cases same : name = item.1
    · subst same
      rw [if_pos rfl]
      exact read_write_same _ item.2 own.writable.keeps _
    · rw [if_neg same, ← before]
      exact read_write_apart _ item.2 (last.apart sound own (Ne.symm same) noFace) _

theorem faceItem?_eq {name : Text} {i : FaceItem} : faceItem? name = some i ↔ i.shortName = name := by
  constructor
  · exact shortName_of_faceItem?
  · rintro rfl
    exact faceItem?_shortName i

theorem faceItems_lookup (items : List (Text × Text)) (i : FaceItem) :
    (faceItems items).lookup i = items.lookup i.shortName := by
  unfold faceItems
  induction items with
  | nil => rfl
  | cons item items ih =>
    rw [List.filterMap_cons, List.lookup_cons]
    cases face : faceItem? item.1 with
    | none =>
      have different : (i.shortName == item.1) = false := by
        apply beq_eq_false_iff_ne.mpr
        intro same
        rw [faceItem?_eq.mpr same] at face
        cases face
      simp [ih, different]
    | some j =>
      have same : (i.shortName == item.1) = (i == j) := by
        rw [Bool.eq_iff_iff, beq_iff_eq, beq_iff_eq, ← faceItem?_eq, face, Option.some.injEq, eq_comm]
      rw [same]
      simp [List.lookup_cons, ih]

theorem faceItems_distinct {items : List (Text × Text)} (distinct : (items.map Prod.fst).Nodup) :
    ((faceItems items).map Prod.fst).Nodup := by
  have keys : (faceItems items).map Prod.fst = (items.map Prod.fst).filterMap faceItem? := by
    unfold faceItems
    rw [List.map_filterMap, List.filterMap_map]
    congr 1
    funext item
    cases h : faceItem? item.1 <;> simp [h]
  rw [keys]
  apply distinct.filterMap
  intro a b i ha hb
  rw [← faceItem?_eq.mp ha, ← faceItem?_eq.mp hb]

theorem hasFaces_writeItems (sound : Sound t mapper) {items : List (Text × Text)}
    (leads : ∀ item ∈ items, LeadsTo t mapper item.1) :
    HasFaces mapper.namespaceContext (writeItems t mapper items)
      (writeFaces mapper.namespaceContext (faceItems items)) := by
  induction items using List.reverseRecOn with
  | nil => exact hasFaces_fresh _ (rootPart t)
  | append_singleton items item ih =>
    have before := ih fun other member => leads other (List.mem_append_left _ member)
    have last := leads item (List.mem_append_right _ (.head []))
    unfold writeItems writeFaces faceItems at before ⊢
    rw [List.foldl_append, List.filterMap_append, List.foldl_append]
    cases face : faceItem? item.1 with
    | none =>
      have kept := before.spared mapper.namespaceContext (pathFor mapper item.1).attName item.2
        (last.spares sound face)
      simpa [face, writeItem] using kept
    | some i =>
      have written := before.write mapper.namespaceContext i item.2
      have path := last.face sound face
      simpa [face, writeItem, path, FaceItem.path] using written

theorem readName_face (sound : Sound t mapper) {items : List (Text × Text)}
    (leads : ∀ item ∈ items, LeadsTo t mapper item.1) {i : FaceItem}
    (own : LeadsTo t mapper i.shortName) :
    readName mapper (writeItems t mapper items) i.shortName =
      faceRead i (writeFaces mapper.namespaceContext (faceItems items)) := by
  have path := own.face sound (faceItem?_shortName i)
  unfold readName
  rw [path]
  exact (hasFaces_writeItems sound leads).read mapper.namespaceContext i

end

namespace InfoMap
variable {t : StateType} (info : InfoMap t)

theorem values {name value : Text} (h : info.items.lookup name = some value) : value ≠ [] :=
  info.nonempty (name, value) (List.mem_of_lookup h)

theorem lookup_unknown {name : Text} (unknown : name ∉ getShortNames t) :
    info.items.lookup name = none := by
  apply List.lookup_eq_none_of_notMem
  intro member
  obtain ⟨item, isItem, rfl⟩ := List.mem_map.mp member
  exact unknown (info.known item isItem)

end InfoMap

theorem found_iff {value : Text} {given : Option Text}
    (nonempty : ∀ v, given = some v → v ≠ []) :
    (if value = [] then none else some value) = given ↔ value = given.getD [] := by
  cases given with
  | none => simp
  | some v =>
    have notEmpty := nonempty v rfl
    by_cases empty : value = []
    · simp [empty, Ne.symm notEmpty]
    · simp [empty]

section
variable (dom : DOMImplementation) {t : StateType} (info : InfoMap t) {mapper : XPathInfoMapper}
  (shipped : Shipped t mapper)
include shipped

theorem leadsTo_known {name : Text} (known : name ∈ getShortNames t) :
    LeadsTo t mapper name := by
  rw [shipped.getShortNames_eq, shipped.compiled.names] at known
  exact leadsTo shipped.sound shipped.compiled known

theorem leadsTo_items : ∀ item ∈ info.items, LeadsTo t mapper item.1 :=
  fun item member => leadsTo_known shipped (info.known item member)

theorem analyse_created (nonempty : info.items ≠ []) : ∃ doc result,
    createDocumentFromInfo dom mapper info.items = .ok (some doc) ∧
    analyseDocument mapper t.rootName (some semaineURI) doc = .ok result ∧
    ∀ name, result.lookup name = info.items.lookup name ↔
      name ∈ getShortNames t →
        (readName mapper (writeItems t mapper info.items) name).getD [] =
          (info.items.lookup name).getD [] := by
  obtain ⟨created, state⟩ := createDocumentFromInfo_eq dom nonempty
    (leadsTo_items info shipped)
  obtain ⟨result, analysed, lookups⟩ := analyseDocument_lookup shipped.sound state
  refine ⟨_, result, created, analysed, ?_⟩
  intro name
  by_cases known : name ∈ getShortNames t
  · have leads := leadsTo_known shipped known
    have value := evaluate_name leads state
    rw [lookups, leads.compiled]
    simp only [Option.bind_some, value, known, true_imp_iff]
    exact found_iff fun v => info.values
  · have absent : mapper.name2compiledExpression.lookup name = none := by
      apply List.lookup_eq_none_of_notMem
      rw [← shipped.getShortNames_eq]
      exact known
    simp [lookups, absent, known, info.lookup_unknown known]

theorem roundTrips_iff_reads (nonempty : info.items ≠ []) :
    RoundTrips dom info ↔ ∀ name ∈ getShortNames t,
      (readName mapper (writeItems t mapper info.items) name).getD [] =
        (info.items.lookup name).getD [] := by
  obtain ⟨doc, result, created, analysed, lookups⟩ :=
    analyse_created dom info shipped nonempty
  constructor
  · rintro ⟨mapper', doc', result', found', created', analysed', same⟩ name
    rw [shipped.found, Option.some.injEq] at found'
    subst found'
    rw [created, Except.ok.injEq, Option.some.injEq] at created'
    subst created'
    rw [analysed, Except.ok.injEq] at analysed'
    subst analysed'
    exact (lookups name).mp (same name)
  · intro reads
    exact ⟨mapper, doc, result, shipped.found, created, analysed,
      fun name => (lookups name).mpr (reads name)⟩

theorem faceItems_none {i : FaceItem} (unknown : i.shortName ∉ getShortNames t) :
    faceItems info.items = [] := by
  have notUser : t ≠ .userState := by
    intro isUser
    rw [shipped.getShortNames_eq] at unknown
    exact unknown (shipped.sound.allFaces isUser i)
  apply List.filterMap_eq_nil_iff.mpr
  intro item member
  have known := info.known item member
  rw [shipped.getShortNames_eq] at known
  obtain ⟨e, isEntry, name⟩ := List.mem_map.mp known
  rw [← name, shipped.sound.noFaces notUser e isEntry]
  rfl

theorem reads_iff_facesKeptApart :
    (∀ name ∈ getShortNames t, (readName mapper (writeItems t mapper info.items) name).getD [] =
      (info.items.lookup name).getD []) ↔ FacesKeptApart info.items := by
  have leads := leadsTo_items info shipped
  have values : ∀ item ∈ faceItems info.items, item.2 ≠ [] := by
    intro item member
    obtain ⟨source, isItem, selected⟩ := List.mem_filterMap.mp member
    obtain ⟨i, _, rfl⟩ := Option.map_eq_some_iff.mp selected
    exact info.nonempty source isItem
  have readFace : ∀ i : FaceItem, i.shortName ∈ getShortNames t →
      readName mapper (writeItems t mapper info.items) i.shortName =
        faceRead i (writeFaces mapper.namespaceContext (faceItems info.items)) :=
    fun i known => readName_face shipped.sound leads (leadsTo_known shipped known)
  unfold FacesKeptApart
  rw [← faces_kept mapper.namespaceContext (faceItems_distinct info.distinct) values]
  constructor
  · intro reads i
    by_cases known : i.shortName ∈ getShortNames t
    · rw [← readFace i known, faceItems_lookup]
      exact reads i.shortName known
    · rw [faceItems_none info shipped known]
      rfl
  · intro kept name known
    cases face : faceItem? name with
    | none =>
      rw [lookup_writeItems shipped.sound info.distinct leads (leadsTo_known shipped known) face]
    | some i =>
      have same := faceItem?_eq.mp face
      subst same
      rw [readFace i known, kept i, faceItems_lookup]

end

/-- The map makes the round trip exactly if it is not empty and its faces are kept apart. -/
theorem roundTrips_iff (dom : DOMImplementation) {t : StateType} (info : InfoMap t) :
    RoundTrips dom info ↔ info.items ≠ [] ∧ FacesKeptApart info.items := by
  obtain ⟨mapper, shipped⟩ := exists_shipped t
  by_cases empty : info.items = []
  · constructor
    · rintro ⟨mapper', doc, result, _, created, _⟩
      rw [empty] at created
      cases created
    · rintro ⟨nonempty, _⟩
      exact absurd empty nonempty
  · rw [roundTrips_iff_reads dom info shipped empty, reads_iff_facesKeptApart info shipped]
    exact (and_iff_right empty).symm

theorem face_known (i : FaceItem) : i.shortName ∈ getShortNames .userState := by
  obtain ⟨mapper, shipped⟩ := exists_shipped .userState
  rw [shipped.getShortNames_eq]
  exact shipped.sound.allFaces rfl i

def asciiDom : DOMImplementation := { isXMLName := isAsciiName, asciiName := fun _ h => h }

/-- A face with an expression and action units, and the time at which the expression started. -/
def smile : InfoMap .userState where
  items := [((FaceItem.main .expression).shortName, "smile".toList),
    ((FaceItem.main .actionUnits).shortName, "AU12".toList),
    ((FaceItem.time .expression .started).shortName, "1500".toList)]
  distinct := by decide
  known := by
    intro item member
    simp only [List.mem_cons, List.not_mem_nil, or_false] at member
    rcases member with rfl | rfl | rfl
    · exact face_known (.main .expression)
    · exact face_known (.main .actionUnits)
    · exact face_known (.time .expression .started)
  nonempty := by decide

/-- The start of the expression is read as the start of the action units, too. -/
theorem smile_altered : ¬ RoundTrips asciiDom smile := by
  obtain ⟨mapper, shipped⟩ := exists_shipped .userState
  have nonempty : smile.items ≠ [] := List.cons_ne_nil _ _
  rw [roundTrips_iff_reads asciiDom smile shipped nonempty, reads_iff_facesKeptApart smile shipped]
  decide

end Semaine.StateInfo
