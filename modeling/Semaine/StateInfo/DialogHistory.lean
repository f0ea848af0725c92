import Semaine.StateInfo.DialogStateInfo
import Semaine.Xml.ElementNames

/-! The history of dialog acts on its way to a document and back. -/
namespace Semaine.StateInfo
open JavaText Semaine.Xml Outcome

structure DialogInfo where
  items : InfoItems
  distinct : (items.map Prod.fst).Nodup
  known : ∀ item ∈ items, item.1 ∈ getShortNames .dialogState
  nonempty : items ≠ []

/-- The document of a map and a collection of dialog acts can be read again, and gives the same
dialog acts, newest first. -/
def HistoryRoundTrips (dom : DOMImplementation) (chars : Characters) (info : DialogInfo)
    (dialogActs : List DialogAct) : Prop :=
  ∃ mapper s doc s', mapperFor .dialogState = some mapper ∧
    DialogStateInfo.new mapper info.items (some dialogActs) = .ok s ∧
    s.createDocumentFromInfo dom mapper = ({ s with doc := some doc }, none) ∧
    DialogStateInfo.ofDocument mapper chars (some doc) = .ok s' ∧
    s'.getDialogHistory.Perm dialogActs ∧
    s'.getDialogHistory.Pairwise fun a b => b.time ≤ a.time

theorem compareTo_zero {a b : DialogAct} : a.compareTo b = 0 ↔ a.time = b.time := by
  unfold DialogAct.compareTo
  split
  · simpa
  · split <;> simpa

theorem compareTo_pos {a b : DialogAct} : 0 < a.compareTo b ↔ a.time < b.time := by
  unfold DialogAct.compareTo
  split
  · rename_i same
    simp [same]
  · split
    · simpa
    · rename_i notOlder
      simpa using notOlder

theorem compareTo_neg {a b : DialogAct} : a.compareTo b < 0 ↔ b.time < a.time := by
  have different (h : b.time < a.time) : a.time ≠ b.time := by
    intro same
    rw [same] at h
    exact Int64.lt_irrefl h
  rcases Int64.lt_or_le a.time b.time with older | notOlder
  · have positive := compareTo_pos.mpr older
    have notNewer := Int64.lt_asymm older
    constructor
    · intro negative
      omega
    · intro newer
      exact absurd newer notNewer
  · have notPositive : ¬ 0 < a.compareTo b := by
      rw [compareTo_pos, Int64.not_lt]
      exact notOlder
    constructor
    · intro negative
      refine Int64.lt_of_le_of_ne notOlder fun same => ?_
      rw [compareTo_zero.mpr same.symm] at negative
      cases negative
    · intro newer
      have nonzero : a.compareTo b ≠ 0 := fun zero => different newer (compareTo_zero.mp zero)
      omega

theorem compareTo_comparison : SortedSet.Comparison DialogAct.compareTo where
  swap a b := by rw [compareTo_neg, compareTo_pos]
  trans a b c first second := by
    rw [compareTo_neg] at first second ⊢
    exact Int64.lt_trans second first

section
variable {dom : DOMImplementation} {mapper : XPathInfoMapper} {chars : Characters}
  {infoItems : InfoItems} {dialogActs : List DialogAct} {s : DialogStateInfo}

theorem new_ok (created : DialogStateInfo.new mapper infoItems (some dialogActs) = .ok s) :
    StateInfoObject.new mapper infoItems = .ok s.toStateInfoObject ∧
      s.dialogHistory = SortedSet.addAll DialogAct.compareTo dialogActs [] := by
  obtain ⟨object, new, result⟩ := bind_ok created
  cases result
  exact ⟨new, rfl⟩

theorem new_dialogHistory
    (created : DialogStateInfo.new mapper infoItems (some dialogActs) = .ok s) :
    s.dialogHistory.Pairwise (fun a b => b.time < a.time) ∧ s.dialogHistory ⊆ dialogActs ∧
      ∀ a ∈ dialogActs, ∃ b ∈ s.dialogHistory, b.time = a.time := by
  rw [(new_ok created).2]
  refine ⟨?_, ?_, ?_⟩
  · have sorted := SortedSet.sorted_addAll compareTo_comparison dialogActs (s := []) .nil
    exact sorted.imp compareTo_neg.mp
  · intro a member
    rcases SortedSet.mem_of_mem_addAll member with given | none
    · exact given
    · cases none
  · intro a given
    have reflexive (a : DialogAct) : a.compareTo a = 0 := compareTo_zero.mpr rfl
    obtain ⟨b, member, equal⟩ := SortedSet.addAll_mem_equal reflexive (s := []) given
    exact ⟨b, member, (compareTo_zero.mp equal).symm⟩

theorem ofDocument_dialogHistory {doc : Option Document}
    (analysed : DialogStateInfo.ofDocument mapper chars doc = .ok s) : s.dialogHistory = [] := by
  unfold DialogStateInfo.ofDocument at analysed
  cases doc with
  | none => cases analysed
  | some doc =>
    obtain ⟨info, _, analysed⟩ := bind_ok analysed
    obtain ⟨history, _, analysed⟩ := bind_ok analysed
    cases analysed
    rfl

end

def NoHistory (root : Element) : Prop :=
  ∀ e ∈ root.toNode.elements, e.localName ≠ dialogHistoryName

section
variable {context : NamespaceContext} {attName value : Text} {parts : List PathPart}

theorem noHistory_fresh {part : PathPart} (plain : part.localName ≠ dialogHistoryName) :
    NoHistory (fresh context part) := by
  intro e member
  rcases mem_elements.mp member with rfl | ⟨n, none, _⟩
  · exact (freshTag_localName context part).trans_ne plain
  · cases none

theorem noHistory_write (plain : ∀ part ∈ parts, part.localName ≠ dialogHistoryName)
    {root : Element} (none : NoHistory root) : NoHistory (write context attName value parts root) := by
  induction parts generalizing root with
  | nil =>
    intro e member
    rcases mem_elements.mp member with rfl | ⟨n, child, below⟩
    · exact none root (mem_elements.mpr (.inl rfl))
    · exact none e (mem_elements.mpr (.inr ⟨n, child, below⟩))
  | cons part rest ih =>
    have deeper := fun other member => plain other (List.Mem.tail part member)
    intro e member
    rcases mem_elements.mp member with rfl | ⟨n, child, below⟩
    · exact none root (mem_elements.mpr (.inl rfl))
    · rcases List.mem_modifyFirst child with old | ⟨old, inside, found, rfl⟩ | rfl
      · exact none e (mem_elements.mpr (.inr ⟨n, old, below⟩))
      · obtain ⟨before, rfl, _⟩ := matches_element context found
        refine ih deeper (fun e' member' => ?_) e below
        exact none e' (mem_elements.mpr (.inr ⟨_, inside, member'⟩))
      · exact ih deeper (noHistory_fresh (plain part (.head rest))) e below

end

def dialogNames : List Text :=
  ["userTurnState".toList, "agentTurnState".toList, "convState".toList]

/-- The short names of a dialog state, none of which leads through an element that is named like
a history. -/
structure DialogMapper (mapper : XPathInfoMapper) : Prop where
  names : mapper.name2compiledExpression.map Prod.fst = dialogNames
  plain : ∀ e ∈ mapper.name2compiledExpression, ∀ part ∈ e.2.parts,
    part.localName ≠ dialogHistoryName

def dialogCheck (lines : List Text) : Bool :=
  match (lines.foldl Sections.readLine {}).close.configSections.lookup .dialogState with
  | some configSection =>
    match getXPathExpressions .dialogState configSection with
    | .ok mapper => decide (mapper.name2compiledExpression.map Prod.fst = dialogNames) &&
        mapper.name2compiledExpression.all fun e =>
          e.2.parts.all fun part => decide (part.localName ≠ dialogHistoryName)
    | .error _ => false
  | none => false

set_option maxRecDepth 8000 in
theorem dialogCheck_config : dialogCheck (stateInfoConfig.map String.toList) = true := by
  have evaluated : ∃ lines, stateInfoConfig.map String.toList = lines ∧
      dialogCheck lines = true := by
    apply Exists.intro
    constructor
    · unfold stateInfoConfig
      repeat apply cons_chars String.toList_ofList
      rfl
    · decide
  obtain ⟨lines, same, checked⟩ := evaluated
  rw [same]
  exact checked

theorem section_of_infos {lines : List Text} {infos : List (StateType × XPathInfoMapper)}
    (read : getInfosByType lines = .ok infos) {t : StateType} {mapper : XPathInfoMapper}
    (member : (t, mapper) ∈ infos) : ∃ configSection,
      (lines.foldl Sections.readLine {}).close.configSections.lookup t = some configSection ∧
        getXPathExpressions t configSection = .ok mapper := by
  obtain ⟨t', created⟩ := exists_source (mapM_ok read) _ member
  split at created
  · cases created
  · rename_i configSection found
    obtain ⟨mapper', parsed, same⟩ := map_ok created
    cases same
    exact ⟨configSection, found, parsed⟩

theorem dialogMapper_of_check {lines : List Text} (checked : dialogCheck lines = true)
    {infos : List (StateType × XPathInfoMapper)} (read : getInfosByType lines = .ok infos)
    {mapper : XPathInfoMapper} (member : (.dialogState, mapper) ∈ infos) :
    DialogMapper mapper := by
  obtain ⟨configSection, inConfig, parsed⟩ := section_of_infos read member
  unfold dialogCheck at checked
  rw [inConfig] at checked
  dsimp only at checked
  rw [parsed] at checked
  simp only [Bool.and_eq_true, List.all_eq_true, decide_eq_true_eq] at checked
  exact ⟨checked.1, checked.2⟩

theorem mapper_mem {lines : List Text} {t : StateType} {mapper : XPathInfoMapper}
    (found : (getInfosByType lines).toOption.bind (List.lookup t) = some mapper) :
    ∃ infos, getInfosByType lines = .ok infos ∧ (t, mapper) ∈ infos := by
  obtain ⟨infos, read, found⟩ := Option.bind_eq_some_iff.mp found
  cases result : getInfosByType lines with
  | error failure =>
    rw [result] at read
    cases read
  | ok infos' =>
    rw [result] at read
    cases read
    exact ⟨infos, rfl, List.mem_of_lookup found⟩

theorem dialogMapper_shipped {mapper : XPathInfoMapper}
    (found : mapperFor .dialogState = some mapper) : DialogMapper mapper := by
  obtain ⟨infos, read, member⟩ := mapper_mem found
  exact dialogMapper_of_check dialogCheck_config read member

theorem getShortNames_dialogState : getShortNames .dialogState = dialogNames := by
  obtain ⟨mapper, shipped⟩ := exists_shipped .dialogState
  rw [shipped.getShortNames_eq]
  exact (dialogMapper_shipped shipped.found).names

structure DialogRoot (mapper : XPathInfoMapper) (root : Element) : Prop where
  state : StateRoot .dialogState mapper root
  none : NoHistory root

section
variable {dom : DOMImplementation} {mapper : XPathInfoMapper} (isDialog : DialogMapper mapper)
include isDialog

theorem plain_path {t : StateType} {name : Text} (leads : LeadsTo t mapper name) :
    ∀ part ∈ rootPart t :: (pathFor mapper name).parts, part.localName ≠ dialogHistoryName :=
  isDialog.plain _ (List.mem_of_lookup leads.compiled)

theorem dialogRoot_fresh {name : Text} (leads : LeadsTo .dialogState mapper name) :
    DialogRoot mapper (fresh mapper.namespaceContext (rootPart .dialogState)) where
  state := stateRoot_fresh leads
  none := noHistory_fresh (plain_path isDialog leads _ (.head _))

theorem DialogRoot.writeItem {root : Element} (h : DialogRoot mapper root) (item : Text × Text)
    (leads : LeadsTo .dialogState mapper item.1) :
    DialogRoot mapper (writeItem mapper root item) where
  state := h.state.writeItem item leads
  none := noHistory_write
    (fun part member => plain_path isDialog leads part (.tail _ member)) h.none

theorem fill_given_root (dom : DOMImplementation) {items : InfoItems}
    (leads : ∀ item ∈ items, LeadsTo .dialogState mapper item.1) {root : Element}
    (h : DialogRoot mapper root) : ∃ root',
      fill dom mapper (some root) items = (some root', none) ∧ DialogRoot mapper root' := by
  induction items generalizing root with
  | nil => exact ⟨root, rfl, h⟩
  | cons item rest ih =>
    obtain ⟨shortName, value⟩ := item
    have own := leads (shortName, value) (.head rest)
    have others := fun other member => leads other (List.Mem.tail (shortName, value) member)
    cases value with
    | none => exact ih others h
    | some value =>
      have added := addInfo_given dom (shortName, value) own h.state
      obtain ⟨root', filled, h'⟩ := ih others (h.writeItem isDialog (shortName, value) own)
      refine ⟨root', ?_, h'⟩
      unfold fill fillItem
      dsimp only
      rw [added]
      exact filled

theorem fill_map (dom : DOMImplementation) {items : InfoItems}
    (leads : ∀ item ∈ items, LeadsTo .dialogState mapper item.1) :
    ((∀ item ∈ items, item.2 = none) ∧ fill dom mapper none items = (none, none)) ∨
      (∃ item ∈ items, item.2 ≠ none) ∧
        ∃ root, fill dom mapper none items = (some root, none) ∧ DialogRoot mapper root := by
  induction items with
  | nil => exact .inl ⟨nofun, rfl⟩
  | cons item rest ih =>
    obtain ⟨shortName, value⟩ := item
    have own := leads (shortName, value) (.head rest)
    have others := fun other member => leads other (List.Mem.tail (shortName, value) member)
    cases value with
    | none =>
      rcases ih others with ⟨allNull, filled⟩ | ⟨⟨item, member, given⟩, root, filled, h⟩
      · exact .inl ⟨List.forall_mem_cons.mpr ⟨rfl, allNull⟩, filled⟩
      · exact .inr ⟨⟨item, .tail _ member, given⟩, root, filled, h⟩
    | some value =>
      have added := addInfo_new dom (shortName, value) own
      obtain ⟨root, filled, h⟩ := fill_given_root isDialog dom others
        ((dialogRoot_fresh isDialog own).writeItem isDialog (shortName, value) own)
      refine .inr ⟨⟨_, .head rest, nofun⟩, root, ?_, h⟩
      unfold fill fillItem
      dsimp only
      rw [added]
      exact filled

end

section
variable {dom : DOMImplementation} {mapper : XPathInfoMapper} {chars : Characters}

theorem analyseHistory_none {root : Element} (none : NoHistory root)
    (dialogHistory : Option (List DialogAct)) :
    analyseHistory chars root dialogHistory = .ok dialogHistory := by
  have found : getElementsByTagNameNS root semaineURI dialogHistoryName = [] := by
    apply List.filter_eq_nil_iff.mpr
    intro e member
    simp [none e member]
  unfold analyseHistory
  rw [found]

theorem createDocumentFromInfo_new (dom : DOMImplementation) {infoItems : InfoItems}
    {dialogActs : List DialogAct}
    {s : DialogStateInfo} (nonempty : infoItems ≠ [])
    (created : DialogStateInfo.new mapper infoItems (some dialogActs) = .ok s) :
    s.toStateInfoObject.createDocumentFromInfo dom mapper =
      ({ info := infoItems, doc := (fill dom mapper none infoItems).1 },
        (fill dom mapper none infoItems).2) := by
  have new := (new_ok created).1
  unfold StateInfoObject.new at new
  split at new
  · cases new
  · have info : s.toStateInfoObject = { info := infoItems } := (Except.ok.inj new).symm
    unfold StateInfoObject.createDocumentFromInfo
    rw [info, if_neg (by simpa using nonempty)]

theorem new_known {infoItems : InfoItems} (dialogActs : List DialogAct)
    (known : ∀ item ∈ infoItems, item.1 ∈ mapper.name2exprString.map Prod.fst) :
    DialogStateInfo.new mapper infoItems (some dialogActs) = .ok {
      info := infoItems
      dialogHistory := SortedSet.addAll DialogAct.compareTo dialogActs [] } := by
  have noneUnknown : (infoItems.find? fun item =>
      (mapper.name2exprString.lookup item.1).isNone) = none := by
    apply List.find?_eq_none.mpr
    intro item member
    obtain ⟨expr, found⟩ := List.exists_lookup (known item member)
    simp [found]
  unfold DialogStateInfo.new StateInfoObject.new
  rw [noneUnknown]
  rfl

end

theorem DialogInfo.leadsTo {mapper : XPathInfoMapper} (info : DialogInfo)
    (shipped : Shipped .dialogState mapper) :
    ∀ item ∈ info.items, LeadsTo .dialogState mapper item.1 :=
  fun item member => leadsTo_known shipped (info.known item member)

theorem DialogInfo.known_names {mapper : XPathInfoMapper} (info : DialogInfo)
    (shipped : Shipped .dialogState mapper) :
    ∀ item ∈ info.items, item.1 ∈ mapper.name2exprString.map Prod.fst := by
  intro item member
  rw [← shipped.compiled.names, ← shipped.getShortNames_eq]
  exact info.known item member

theorem history_lost {dom : DOMImplementation} {chars : Characters} {info : DialogInfo}
    {dialogActs : List DialogAct} (roundTrips : HistoryRoundTrips dom chars info dialogActs) :
    dialogActs = [] := by
  obtain ⟨mapper, s, doc, s', _, _, _, analysed, same, _⟩ := roundTrips
  unfold DialogStateInfo.getDialogHistory at same
  rw [ofDocument_dialogHistory analysed] at same
  exact same.nil_eq.symm

/-- The history round trips exactly if there is none and the map has a value that is not null. -/
theorem history_roundTrips_iff (dom : DOMImplementation) (chars : Characters) (info : DialogInfo)
    (dialogActs : List DialogAct) :
    HistoryRoundTrips dom chars info dialogActs ↔
      dialogActs = [] ∧ ∃ item ∈ info.items, item.2 ≠ none := by
  obtain ⟨mapper, shipped⟩ := exists_shipped .dialogState
  have isDialog := dialogMapper_shipped shipped.found
  have filled := fill_map isDialog dom (info.leadsTo shipped)
  constructor
  · intro roundTrips
    have noActs := history_lost roundTrips
    refine ⟨noActs, ?_⟩
    rcases filled with ⟨allNull, filled⟩ | ⟨given, _⟩
    · obtain ⟨mapper', s, doc, s', found, created, built, _⟩ := roundTrips
      cases shipped.found.symm.trans found
      have none := createDocumentFromInfo_new dom info.nonempty created
      have noHistory := (new_ok created).2
      rw [noActs] at noHistory
      unfold DialogStateInfo.createDocumentFromInfo at built
      rw [none, filled, noHistory] at built
      cases congrArg (fun result => result.1.doc) built
    · exact given
  · rintro ⟨rfl, item, member, given⟩
    rcases filled with ⟨allNull, _⟩ | ⟨_, root, filled, h⟩
    · exact absurd (allNull item member) given
    · have created := new_known [] (info.known_names shipped)
      have built := createDocumentFromInfo_new dom info.nonempty created
      rw [filled] at built
      obtain ⟨result, analysed, _⟩ := analyseDocument_lookup shipped.sound h.state
      refine ⟨mapper, _, root, { info := result.map fun item => (item.1, some item.2)
                                 doc := some root }, shipped.found, created, ?_, ?_, ?_, ?_⟩
      · unfold DialogStateInfo.createDocumentFromInfo
        rw [built]
        rfl
      · unfold DialogStateInfo.ofDocument
        dsimp only
        rw [analysed, analyseHistory_none h.none]
        rfl
      · exact .nil
      · exact .nil

def actElement (dialogAct : DialogAct) : Element :=
  let tag : Tag := { localName := dialogActName, namespaceURI := some semaineURI }
  let tag := tag.putAttribute "speaker".toList dialogAct.speaker
  let tag := tag.putAttribute "topic".toList dialogAct.topic
  let tag := tag.putAttribute "time".toList (toString dialogAct.time.toInt).toList
  { tag with children := if dialogAct.text = [] then [] else [.text dialogAct.text] }

def historyElement (dialogHistory : List DialogAct) : Element where
  localName := dialogHistoryName
  namespaceURI := some semaineURI
  children := dialogHistory.map fun dialogAct => (actElement dialogAct).toNode

section
variable {dom : DOMImplementation} {mapper : XPathInfoMapper} {chars : Characters}

theorem childElementNS_semaine (dom : DOMImplementation) (name : Text)
    (ascii : isAsciiName name = true) (noXmlns : name ≠ "xmlns".toList) :
    childElementNS dom name (some semaineURI) =
      .ok { localName := name, namespaceURI := some semaineURI } := by
  have given : some semaineURI ≠ some [] := by decide
  have other : some semaineURI ≠ some xmlnsURI := by decide
  exact (createElementNS_plain (.ascii ascii) given).mpr ⟨iff_of_false noXmlns other, rfl⟩

theorem appendAct_eq (dh : Element) (dialogAct : DialogAct) :
    appendAct dom dh dialogAct = .ok (dh.appendChild (actElement dialogAct).toNode) := by
  have child := childElementNS_semaine dom dialogActName (by decide) (by decide)
  have speaker : isAsciiName "speaker".toList = true := by decide
  have topic : isAsciiName "topic".toList = true := by decide
  have time : isAsciiName "time".toList = true := by decide
  unfold appendAct
  rw [child]
  simp only [bind, Except.bind, setAttribute_ascii _ speaker, setAttribute_ascii _ topic,
    setAttribute_ascii _ time]
  rfl

theorem appendHistory_eq (root : Element) (dialogHistory : List DialogAct) :
    appendHistory dom root dialogHistory =
      .ok (root.appendChild (historyElement dialogHistory).toNode) := by
  have child := childElementNS_semaine dom dialogHistoryName (by decide) (by decide)
  have acts (dialogHistory : List DialogAct) (dh : Element) :
      dialogHistory.foldlM (appendAct dom) dh = .ok { dh with
        children := dh.children ++ dialogHistory.map fun a => (actElement a).toNode } := by
    induction dialogHistory generalizing dh with
    | nil =>
      rw [List.map_nil, List.append_nil]
      rfl
    | cons a rest ih =>
      rw [List.foldlM_cons, appendAct_eq]
      simpa [Element.appendChild, bind, Except.bind] using ih (dh.appendChild (actElement a).toNode)
  unfold appendHistory
  rw [child]
  simp only [bind, Except.bind, acts, pure, Except.pure]
  rfl

theorem historyElement_found {root : Element} (none : NoHistory root)
    (dialogHistory : List DialogAct) : ∃ others,
      getElementsByTagNameNS (root.appendChild (historyElement dialogHistory).toNode) semaineURI
        dialogHistoryName = historyElement dialogHistory :: others := by
  have own : root.localName ≠ dialogHistoryName := none root (mem_elements.mpr (.inl rfl))
  have before : (elementsOf root.children).filter (fun e =>
      e.localName = dialogHistoryName && e.namespaceURI = some semaineURI) = [] := by
    apply List.filter_eq_nil_iff.mpr
    intro e member
    have named := none e (mem_elements.mpr (.inr (mem_elementsOf.mp member)))
    simp [named]
  have elements : (root.appendChild (historyElement dialogHistory).toNode).toNode.elements =
      root.appendChild (historyElement dialogHistory).toNode ::
        (elementsOf root.children ++ (historyElement dialogHistory ::
          elementsOf (historyElement dialogHistory).children)) := by
    have appended := elementsOf_append root.children [(historyElement dialogHistory).toNode]
    simp only [elementsOf, List.append_nil] at appended
    exact congrArg _ appended
  unfold getElementsByTagNameNS
  rw [elements, List.filter_cons_of_neg (by simp [Element.appendChild, own]),
    List.filter_append, before, List.nil_append,
    List.filter_cons_of_pos (by simp [historyElement])]
  exact ⟨_, rfl⟩

theorem analyseHistory_appended (chars : Characters) {root : Element} (none : NoHistory root)
    {dialogHistory : List DialogAct} (nonempty : dialogHistory ≠ []) : ∃ failure,
      analyseHistory chars (root.appendChild (historyElement dialogHistory).toNode) .none =
        .error failure := by
  obtain ⟨others, found⟩ := historyElement_found none dialogHistory
  unfold analyseHistory
  rw [found]
  cases dialogHistory with
  | nil => exact absurd rfl nonempty
  | cons a rest =>
    have first : ∃ failure, analyseAct chars .none (actElement a).toNode = .error failure := by
      unfold analyseAct
      rw [asElement_toNode]
      have uri : (actElement a).namespaceURI = some semaineURI := rfl
      have name : (actElement a).localName = dialogActName := rfl
      dsimp only
      rw [uri]
      dsimp only
      rw [if_pos ⟨rfl, name⟩]
      cases parseAct chars (actElement a) with
      | ok act => exact ⟨_, rfl⟩
      | error failure => exact ⟨failure, rfl⟩
    obtain ⟨failure, failed⟩ := first
    refine ⟨failure, ?_⟩
    dsimp only [historyElement]
    rw [List.map_cons, List.foldlM_cons, failed]
    rfl

end

theorem history_refused (dom : DOMImplementation) (chars : Characters) (info : DialogInfo)
    {dialogActs : List DialogAct} (nonempty : dialogActs ≠ [])
    (given : ∃ item ∈ info.items, item.2 ≠ none) :
    ∃ mapper s doc failure, mapperFor .dialogState = some mapper ∧
      DialogStateInfo.new mapper info.items (some dialogActs) = .ok s ∧
      s.createDocumentFromInfo dom mapper = ({ s with doc := some doc }, none) ∧
      DialogStateInfo.ofDocument mapper chars (some doc) = .error failure := by
  obtain ⟨mapper, shipped⟩ := exists_shipped .dialogState
  have isDialog := dialogMapper_shipped shipped.found
  rcases fill_map isDialog dom (info.leadsTo shipped) with ⟨allNull, _⟩ | ⟨_, root, filled, h⟩
  · obtain ⟨item, member, given⟩ := given
    exact absurd (allNull item member) given
  · have created := new_known dialogActs (info.known_names shipped)
    have built := createDocumentFromInfo_new dom info.nonempty created
    rw [filled] at built
    have history : SortedSet.addAll DialogAct.compareTo dialogActs [] ≠ [] := by
      obtain ⟨a, others, rfl⟩ := List.exists_cons_of_ne_nil nonempty
      obtain ⟨b, member, _⟩ := (new_dialogHistory created).2.2 a (.head others)
      exact List.ne_nil_of_mem member
    obtain ⟨failure, refused⟩ := analyseHistory_appended chars h.none history
    let doc := root.appendChild
      (historyElement (SortedSet.addAll DialogAct.compareTo dialogActs [])).toNode
    have notRead : ∃ failure, DialogStateInfo.ofDocument mapper chars (some doc) =
        .error failure := by
      unfold DialogStateInfo.ofDocument
      dsimp only
      cases analyseDocument mapper StateType.dialogState.rootName (some semaineURI) doc with
      | error failure => exact ⟨failure, rfl⟩
      | ok info =>
        refine ⟨failure, ?_⟩
        simp only [bind, Except.bind]
        rw [refused]
    obtain ⟨failure, notRead⟩ := notRead
    refine ⟨mapper, _, doc, failure, shipped.found, created, ?_, notRead⟩
    unfold DialogStateInfo.createDocumentFromInfo
    rw [built]
    dsimp only
    rw [if_pos (List.length_pos_of_ne_nil history), appendHistory_eq]

def listening : DialogInfo where
  items := [("convState".toList, some "listening".toList)]
  distinct := by decide
  known := by
    intro item member
    rw [List.mem_singleton] at member
    subst member
    rw [getShortNames_dialogState]
    decide
  nonempty := List.cons_ne_nil _ _

def greetingAct : DialogAct where
  text := "hello".toList
  speaker := "user".toList
  topic := "greeting".toList
  time := 0

theorem greetingAct_lost :
    ¬ ∀ (dom : DOMImplementation) (chars : Characters) (info : DialogInfo)
        (dialogActs : List DialogAct), HistoryRoundTrips dom chars info dialogActs := by
  intro roundTrips
  cases history_lost (roundTrips asciiDom ascii listening [greetingAct])

end Semaine.StateInfo
