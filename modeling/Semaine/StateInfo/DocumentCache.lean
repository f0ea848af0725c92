import Semaine.Library.Transition
import Semaine.StateInfo.RoundTrip

/-! `StateInfo` of a map: the document is built when it is asked for, in the field that tells
whether there is one, and forgotten when the map changes. -/
namespace Semaine.StateInfo
open JavaText Semaine.Xml Transition Outcome

/-- The items of a map in the order in which it iterates over them; a value may be null. -/
abbrev InfoItems := List (Text × Option Text)

structure StateInfoObject where
  info : InfoItems
  doc : Option Document := none

section
variable (dom : DOMImplementation) (mapper : XPathInfoMapper)

def unknownItem (name : Text) : Thrown :=
  .illegalArgument ("Don't know how to handle info item '".toList ++ name ++
    "' -- something seems to be out of sync".toList)

def StateInfoObject.new (infoItems : InfoItems) : Except Thrown StateInfoObject :=
  match infoItems.find? fun item => (mapper.name2exprString.lookup item.1).isNone with
  | some item => .error (unknownItem item.1)
  | none => .ok { info := infoItems }

/-- What one turn of the loop leaves in the field `doc`, and the exception that ends it, if any.
The document is changed in place, so a turn that fails leaves what it has changed. -/
def fillItem (doc : Option Document) : Text × Option Text → Option Document × Option Failure
  | (_, none) => (doc, none)
  | (shortName, some value) =>
    match addInfo dom mapper doc (shortName, value) with
    | .ok doc => (doc, none)
    | .error failure =>
      match mapper.name2exprString.lookup shortName with
      | none => (doc, some failure)
      | some expr =>
        ((xpath2doc dom expr (some value) mapper.namespaceContext doc).1, some failure)

def fill (doc : Option Document) : InfoItems → Option Document × Option Failure
  | [] => (doc, none)
  | item :: rest =>
    match fillItem dom mapper doc item with
    | (doc, none) => fill doc rest
    | (doc, some failure) => (doc, some failure)

namespace StateInfoObject

/-- The exception, if there is one; a map that is empty is noticed before the field is set. -/
def createDocumentFromInfo (s : StateInfoObject) : StateInfoObject × Option Failure :=
  if s.info.isEmpty then
    (s, some (.systemConfiguration "Cannot create document from empty info".toList))
  else
    let (doc, failure) := fill dom mapper none s.info
    ({ s with doc := doc }, failure)

def getDocument (s : StateInfoObject) : StateInfoObject × Except Failure (Option Document) :=
  match s.doc with
  | some doc => (s, .ok (some doc))
  | none =>
    match s.createDocumentFromInfo dom mapper with
    | (s, none) => (s, .ok s.doc)
    | (s, some failure) => (s, .error failure)

/-- What `getDocument` gives when there is no document yet. -/
def fromScratch (s : StateInfoObject) : Except Failure (Option Document) :=
  (getDocument dom mapper { s with doc := none }).2

end StateInfoObject

/-- `HashMap.put`; the map may then iterate over its items in another order. -/
def Puts (info : InfoItems) (name : Text) (value : Option Text) (info' : InfoItems) : Prop :=
  info'.Perm ((name, value) :: info.filter (·.1 ≠ name))

/-- A call with what it gives: the map after it, the exception for a name that is not known, or
the document. -/
inductive Call where
  | setInfo (name : Text) (value : Option Text) (info : InfoItems)
  | refuse (name : Text) (value : Option Text) (thrown : Thrown)
  | getDocument (result : Except Failure (Option Document))

inductive Step : StateInfoObject → Call → StateInfoObject → Prop where
  | setInfo {s : StateInfoObject} {name : Text} {value : Option Text} {info : InfoItems}
      (known : (mapper.name2exprString.lookup name).isSome) (puts : Puts s.info name value info) :
      Step s (.setInfo name value info) { info := info, doc := none }
  | refuse {s : StateInfoObject} {name : Text} {value : Option Text}
      (unknown : (mapper.name2exprString.lookup name).isNone) :
      Step s (.refuse name value (unknownItem name)) s
  | getDocument (s : StateInfoObject) :
      Step s (.getDocument (s.getDocument dom mapper).2) (s.getDocument dom mapper).1

/-- A document that is returned is the one built from scratch, and a failure leaves none. -/
def NeverStale (s : StateInfoObject) (call : Call) (s' : StateInfoObject) : Prop :=
  ∀ result, call = .getDocument result →
    (∀ doc, result = .ok (some doc) → s.fromScratch dom mapper = .ok (some doc)) ∧
      ∀ failure, result = .error failure → s'.doc = none

def AllWritable (doc : Option Document) : InfoItems → Prop
  | [] => True
  | (_, none) :: rest => AllWritable doc rest
  | (name, some value) :: rest =>
    ∃ doc', addInfo dom mapper doc (name, value) = .ok doc' ∧ AllWritable doc' rest

def Unstartable : InfoItems → Prop
  | [] => True
  | (_, none) :: rest => Unstartable rest
  | (name, some value) :: _ => ∃ failure, addInfo dom mapper none (name, value) = .error failure

/-- Before a document is built, either all values can be written or not even the first. -/
def AllOrNothing (s : StateInfoObject) (call : Call) : Prop :=
  ∀ result, call = .getDocument result → s.doc = none →
    AllWritable dom mapper none s.info ∨ Unstartable dom mapper s.info

def outcome (filled : Option Document × Option Failure) : Except Failure (Option Document) :=
  match filled.2 with
  | none => .ok filled.1
  | some failure => .error failure

variable {dom} {mapper}

theorem addInfo_isSome {doc doc' : Option Document} {item : Text × Text}
    (added : addInfo dom mapper doc item = .ok doc') : doc'.isSome = true := by
  unfold addInfo at added
  split at added
  · cases added
  · obtain ⟨root, _, rfl⟩ := map_ok added
    rfl

theorem xpath2doc_none (expr : Text) (value : Option Text) (context : NamespaceContext) :
    (xpath2doc dom expr value context none).1 = none := by
  unfold xpath2doc
  split
  · rfl
  · rfl
  · split
    · rfl
    · dsimp only
      split
      · rfl
      · split <;> rfl

theorem xpath2doc_some (expr : Text) (value : Option Text) (context : NamespaceContext)
    (root : Document) : (xpath2doc dom expr value context (some root)).1.isSome = true := by
  unfold xpath2doc
  split
  · rfl
  · rfl
  · split
    · rfl
    · dsimp only
      split
      · rfl
      · split <;> rfl

theorem fillItem_started (dom : DOMImplementation) (mapper : XPathInfoMapper) (doc : Document)
    (item : Text × Option Text) :
    (fillItem dom mapper (some doc) item).1.isSome = true := by
  obtain ⟨shortName, value⟩ := item
  unfold fillItem
  cases value with
  | none => rfl
  | some value =>
    dsimp only
    cases added : addInfo dom mapper (some doc) (shortName, value) with
    | ok doc' => exact addInfo_isSome added
    | error failure =>
      dsimp only
      split
      · rfl
      · exact xpath2doc_some _ _ _ _

theorem fill_started (dom : DOMImplementation) (mapper : XPathInfoMapper) (doc : Document)
    (items : InfoItems) :
    (fill dom mapper (some doc) items).1.isSome = true := by
  induction items generalizing doc with
  | nil => rfl
  | cons item rest ih =>
    have first := fillItem_started dom mapper doc item
    unfold fill
    cases step : fillItem dom mapper (some doc) item with
    | mk doc' failure =>
      rw [step] at first
      obtain ⟨root, rfl⟩ := Option.isSome_iff_exists.mp first
      cases failure with
      | none => exact ih root
      | some failure => rfl

theorem fillItem_failed {shortName value : Text} {failure : Failure}
    (failed : addInfo dom mapper none (shortName, value) = .error failure) :
    fillItem dom mapper none (shortName, some value) = (none, some failure) := by
  unfold fillItem
  dsimp only
  rw [failed]
  dsimp only
  split
  · rfl
  · rw [xpath2doc_none]

theorem fill_none_iff (items : InfoItems) :
    (fill dom mapper none items).1 = none ↔ Unstartable dom mapper items := by
  induction items with
  | nil => exact ⟨fun _ => trivial, fun _ => rfl⟩
  | cons item rest ih =>
    obtain ⟨shortName, value⟩ := item
    cases value with
    | none => exact ih
    | some value =>
      unfold fill Unstartable
      cases added : addInfo dom mapper none (shortName, value) with
      | error failure =>
        rw [fillItem_failed added]
        exact ⟨fun _ => ⟨failure, rfl⟩, fun _ => rfl⟩
      | ok doc =>
        obtain ⟨root, rfl⟩ := Option.isSome_iff_exists.mp (addInfo_isSome added)
        have step : fillItem dom mapper none (shortName, some value) = (some root, none) := by
          unfold fillItem
          dsimp only
          rw [added]
        rw [step]
        have started := fill_started dom mapper root rest
        constructor
        · intro none
          dsimp only at none
          rw [none] at started
          cases started
        · rintro ⟨failure, ⟨⟩⟩

theorem fill_writable (doc : Option Document) (items : InfoItems) :
    (fill dom mapper doc items).2 = none ↔ AllWritable dom mapper doc items := by
  induction items generalizing doc with
  | nil => exact ⟨fun _ => trivial, fun _ => rfl⟩
  | cons item rest ih =>
    obtain ⟨shortName, value⟩ := item
    cases value with
    | none => exact ih doc
    | some value =>
      unfold fill fillItem AllWritable
      dsimp only
      cases added : addInfo dom mapper doc (shortName, value) with
      | error failure =>
        dsimp only
        constructor
        · intro ended
          split at ended
          · rename_i same
            split at same <;> cases same
          · cases ended
        · rintro ⟨doc', ⟨⟩, _⟩
      | ok doc' => simpa using ih doc'

namespace StateInfoObject

def Fresh (dom : DOMImplementation) (mapper : XPathInfoMapper) (s : StateInfoObject) : Prop :=
  ∀ doc, s.doc = some doc → s.fromScratch dom mapper = .ok (some doc)

theorem getDocument_cached {s : StateInfoObject} {doc : Document} (cached : s.doc = some doc) :
    s.getDocument dom mapper = (s, .ok (some doc)) := by
  unfold getDocument
  rw [cached]

theorem getDocument_built {s : StateInfoObject} (empty : s.doc = none) (items : s.info ≠ []) :
    s.getDocument dom mapper = ({ s with doc := (fill dom mapper none s.info).1 },
      outcome (fill dom mapper none s.info)) := by
  unfold getDocument createDocumentFromInfo outcome
  rw [empty, if_neg (by simpa using items)]
  dsimp only
  cases (fill dom mapper none s.info).2 <;> rfl

theorem getDocument_empty {s : StateInfoObject} (empty : s.doc = none) (noItems : s.info = []) :
    s.getDocument dom mapper =
      (s, .error (.systemConfiguration "Cannot create document from empty info".toList)) := by
  unfold getDocument createDocumentFromInfo
  rw [empty, if_pos (by simpa using noItems)]

theorem fromScratch_of_empty {s : StateInfoObject} (empty : s.doc = none) :
    s.fromScratch dom mapper = (s.getDocument dom mapper).2 := by
  unfold fromScratch
  rw [← empty]

theorem fromScratch_built {s : StateInfoObject} (items : s.info ≠ []) :
    s.fromScratch dom mapper = outcome (fill dom mapper none s.info) := by
  unfold fromScratch
  rw [getDocument_built (s := { s with doc := none }) rfl items]

theorem fresh_empty {s : StateInfoObject} (empty : s.doc = none) : s.Fresh dom mapper := by
  intro doc isDoc
  rw [empty] at isDoc
  cases isDoc

theorem failure_leaves_none {s : StateInfoObject} (empty : s.doc = none) :
    (∀ failure, (s.getDocument dom mapper).2 = .error failure →
        (s.getDocument dom mapper).1.doc = none) ↔
      AllWritable dom mapper none s.info ∨ Unstartable dom mapper s.info := by
  by_cases noItems : s.info = []
  · rw [getDocument_empty empty noItems, noItems]
    exact ⟨fun _ => .inl trivial, fun _ _ _ => empty⟩
  · rw [getDocument_built empty noItems, ← fill_writable, ← fill_none_iff]
    unfold outcome
    cases (fill dom mapper none s.info).2 with
    | none => simp
    | some failure => simp

theorem neverStale_iff {s s' : StateInfoObject} {call : Call} (fresh : s.Fresh dom mapper)
    (step : Step dom mapper s call s') :
    NeverStale dom mapper s call s' ↔ AllOrNothing dom mapper s call := by
  cases step with
  | setInfo known puts => exact ⟨fun _ => nofun, fun _ => nofun⟩
  | refuse unknown => exact ⟨fun _ => nofun, fun _ => nofun⟩
  | getDocument =>
    unfold NeverStale AllOrNothing
    simp only [Call.getDocument.injEq, forall_eq']
    cases doc : s.doc with
    | some root =>
      rw [getDocument_cached doc, fresh root doc]
      simp
    | none =>
      rw [fromScratch_of_empty doc, failure_leaves_none doc]
      simp

theorem fresh_step {s s' : StateInfoObject} {call : Call} (fresh : s.Fresh dom mapper)
    (step : Step dom mapper s call s') (neverStale : NeverStale dom mapper s call s') :
    s'.Fresh dom mapper := by
  cases step with
  | setInfo known puts => exact fresh_empty rfl
  | refuse unknown => exact fresh
  | getDocument =>
    obtain ⟨_, failed⟩ := neverStale _ rfl
    cases doc : s.doc with
    | some root =>
      rw [getDocument_cached doc]
      exact fresh
    | none =>
      cases result : (s.getDocument dom mapper).2 with
      | error failure => exact fresh_empty (failed failure result)
      | ok built =>
        intro root isRoot
        by_cases noItems : s.info = []
        · rw [getDocument_empty doc noItems] at result
          cases result
        · rw [getDocument_built doc noItems] at result isRoot ⊢
          unfold outcome at result
          dsimp only at isRoot
          change s.fromScratch dom mapper = .ok (some root)
          rw [fromScratch_built noItems, outcome]
          cases ended : (fill dom mapper none s.info).2 with
          | none => rw [isRoot]
          | some failure =>
            rw [ended] at result
            cases result

end StateInfoObject

/-- In the runs of an object made from a map no document is stale or half built exactly if at
every call that builds one, either all values can be written or not even the first. -/
theorem neverStale_runs {infoItems : InfoItems} {start : StateInfoObject}
    (created : StateInfoObject.new mapper infoItems = .ok start) (calls : List Call)
    (s : StateInfoObject) :
    Run (fun s call s' => Step dom mapper s call s' ∧ NeverStale dom mapper s call s')
        start calls s ↔
      Run (Guarded (AllOrNothing dom mapper) (Step dom mapper)) start calls s := by
  have initial : start.Fresh dom mapper := by
    apply StateInfoObject.fresh_empty
    unfold StateInfoObject.new at created
    split at created <;> cases created
    rfl
  apply Run.iff_of_invariant (StateInfoObject.Fresh dom mapper) initial
  · intro s call s' fresh
    constructor
    · rintro ⟨step, neverStale⟩
      exact ⟨(StateInfoObject.neverStale_iff fresh step).mp neverStale, step⟩
    · rintro ⟨allOrNothing, step⟩
      exact ⟨step, (StateInfoObject.neverStale_iff fresh step).mpr allOrNothing⟩
  · rintro s call s' fresh ⟨step, neverStale⟩
    exact StateInfoObject.fresh_step fresh step neverStale

theorem fill_given (doc : Option Document) (items : List (Text × Text)) :
    outcome (fill dom mapper doc (items.map fun item => (item.1, some item.2))) =
      items.foldlM (addInfo dom mapper) doc := by
  induction items generalizing doc with
  | nil => rfl
  | cons item rest ih =>
    rw [List.map_cons, List.foldlM_cons]
    unfold fill fillItem
    dsimp only
    cases added : addInfo dom mapper doc item with
    | ok doc' => exact ih doc'
    | error failure =>
      dsimp only
      cases mapper.name2exprString.lookup item.1 <;> rfl

theorem fromScratch_given {items : List (Text × Text)} {s : StateInfoObject}
    (given : s.info = items.map fun item => (item.1, some item.2)) :
    s.fromScratch dom mapper = createDocumentFromInfo dom mapper items := by
  cases items with
  | nil =>
    unfold StateInfoObject.fromScratch
    rw [StateInfoObject.getDocument_empty (s := { s with doc := none }) rfl given]
    rfl
  | cons item rest =>
    have nonempty : s.info ≠ [] := by simp [given]
    rw [StateInfoObject.fromScratch_built nonempty, given, createDocumentFromInfo,
      if_neg (by simp), fill_given]

section
variable {t : StateType}

theorem allWritable_given {items : InfoItems} (leads : ∀ item ∈ items, LeadsTo t mapper item.1)
    {root : Element} (h : StateRoot t mapper root) : AllWritable dom mapper (some root) items := by
  induction items generalizing root with
  | nil => trivial
  | cons item rest ih =>
    obtain ⟨shortName, value⟩ := item
    have own := leads (shortName, value) (.head rest)
    have others := fun other member => leads other (List.Mem.tail (shortName, value) member)
    cases value with
    | none => exact ih others h
    | some value =>
      exact ⟨_, addInfo_given dom (shortName, value) own h,
        ih others (h.writeItem (shortName, value) own)⟩

theorem allWritable_new {items : InfoItems} (leads : ∀ item ∈ items, LeadsTo t mapper item.1) :
    AllWritable dom mapper none items := by
  induction items with
  | nil => trivial
  | cons item rest ih =>
    obtain ⟨shortName, value⟩ := item
    have own := leads (shortName, value) (.head rest)
    have others := fun other member => leads other (List.Mem.tail (shortName, value) member)
    cases value with
    | none => exact ih others
    | some value =>
      exact ⟨_, addInfo_new dom (shortName, value) own,
        allWritable_given others ((stateRoot_fresh own).writeItem (shortName, value) own)⟩

def StateInfoObject.Known (mapper : XPathInfoMapper) (s : StateInfoObject) : Prop :=
  ∀ item ∈ s.info, item.1 ∈ mapper.name2exprString.map Prod.fst

theorem known_new {infoItems : InfoItems} {start : StateInfoObject}
    (created : StateInfoObject.new mapper infoItems = .ok start) : start.Known mapper := by
  unfold StateInfoObject.new at created
  split at created
  · cases created
  · rename_i unknown
    cases created
    intro item member
    have found := List.find?_eq_none.mp unknown item member
    exact List.mem_keys_of_lookup (by simpa using found)

theorem known_step {s s' : StateInfoObject} {call : Call} (known : s.Known mapper)
    (step : Step dom mapper s call s') : s'.Known mapper := by
  cases step with
  | setInfo isName puts =>
    intro item member
    rcases List.mem_cons.mp (puts.subset member) with rfl | old
    · exact List.mem_keys_of_lookup isName
    · exact known item (List.mem_of_mem_filter old)
  | refuse unknown => exact known
  | getDocument =>
    cases doc : s.doc with
    | some root =>
      rw [StateInfoObject.getDocument_cached doc]
      exact known
    | none =>
      by_cases noItems : s.info = []
      · rw [StateInfoObject.getDocument_empty doc noItems]
        exact known
      · rw [StateInfoObject.getDocument_built doc noItems]
        exact known

theorem shipped_allOrNothing (shipped : Shipped t mapper) {infoItems : InfoItems}
    {start : StateInfoObject} (created : StateInfoObject.new mapper infoItems = .ok start)
    {calls : List Call} {s : StateInfoObject} :
    Run (Step dom mapper) start calls s ↔
      Run (Guarded (AllOrNothing dom mapper) (Step dom mapper)) start calls s := by
  apply Run.iff_of_invariant (StateInfoObject.Known mapper) (known_new created)
  · intro s call s' known
    refine ⟨fun step => ⟨fun _ _ _ => .inl ?_, step⟩, fun allowed => allowed.2⟩
    exact allWritable_new fun item member => leadsTo shipped.sound shipped.compiled (known item member)
  · intro s call s' known step
    exact known_step known step

end

end

def twoRoots : List Text :=
  ["[namespace prefixes]".toList, "s http://s".toList, "[short names]".toList,
    "a /s:x/@v".toList, "b /s:y/@v".toList]

def twoRootsMapper : XPathInfoMapper where
  namespaceContext := AList.insert "s".toList "http://s".toList ∅
  name2exprString := [("a".toList, "/s:x/@v".toList), ("b".toList, "/s:y/@v".toList)]
  name2compiledExpression :=
    [("a".toList, { parts := [{ nsPrefix := some "s".toList, localName := "x".toList }]
                    last := .attribute "v".toList }),
      ("b".toList, { parts := [{ nsPrefix := some "s".toList, localName := "y".toList }]
                     last := .attribute "v".toList })]

def firstValue : StateInfoObject where
  info := [("a".toList, some "1".toList)]

def otherValue : StateInfoObject where
  info := [("a".toList, some "3".toList)]

/-- A document is built and kept, the value is replaced, and the document is built again. -/
theorem neverStale_firstValue :
    let kept := (firstValue.getDocument asciiDom twoRootsMapper).1
    Run (fun s call s' => Step asciiDom twoRootsMapper s call s' ∧
        NeverStale asciiDom twoRootsMapper s call s') firstValue
      [.getDocument (firstValue.getDocument asciiDom twoRootsMapper).2,
        .getDocument (kept.getDocument asciiDom twoRootsMapper).2,
        .setInfo "a".toList (some "3".toList) otherValue.info,
        .getDocument (otherValue.getDocument asciiDom twoRootsMapper).2]
      (otherValue.getDocument asciiDom twoRootsMapper).1 := by
  intro kept
  have created : StateInfoObject.new twoRootsMapper firstValue.info = .ok firstValue := rfl
  have writable : AllWritable asciiDom twoRootsMapper none firstValue.info := ⟨_, rfl, trivial⟩
  have writable' : AllWritable asciiDom twoRootsMapper none otherValue.info := ⟨_, rfl, trivial⟩
  have replaces : Puts (kept.getDocument asciiDom twoRootsMapper).1.info "a".toList
      (some "3".toList) otherValue.info := .refl _
  apply (neverStale_runs created _ _).mpr
  have built : Run (Guarded (AllOrNothing asciiDom twoRootsMapper) (Step asciiDom twoRootsMapper))
      firstValue [.getDocument (firstValue.getDocument asciiDom twoRootsMapper).2] kept :=
    Run.nil.snoc ⟨fun _ _ _ => .inl writable, .getDocument firstValue⟩
  have again := built.snoc ⟨fun _ _ _ => .inl writable, .getDocument kept⟩
  have notRead : AllOrNothing asciiDom twoRootsMapper (kept.getDocument asciiDom twoRootsMapper).1
      (.setInfo "a".toList (some "3".toList) otherValue.info) := fun _ same => Call.noConfusion same
  have replaced := again.snoc ⟨notRead, .setInfo rfl replaces⟩
  exact replaced.snoc ⟨fun _ _ _ => .inl writable', .getDocument otherValue⟩

def bothValues : StateInfoObject where
  info := [("a".toList, some "1".toList), ("b".toList, some "2".toList)]

/-- The second value cannot be written, and the next call returns the document with the first. -/
theorem bothValues_halfBuilt :
    ¬ ∀ (typeForTable : StateType) (configSection : List Text) (mapper : XPathInfoMapper)
        (infoItems : InfoItems) (start s : StateInfoObject) (calls : List Call),
        getXPathExpressions typeForTable configSection = .ok mapper →
        StateInfoObject.new mapper infoItems = .ok start →
        Run (Step asciiDom mapper) start calls s →
        Run (fun s call s' => Step asciiDom mapper s call s' ∧ NeverStale asciiDom mapper s call s')
          start calls s := by
  intro neverStale
  let half := (bothValues.getDocument asciiDom twoRootsMapper).1
  have first : Run (Step asciiDom twoRootsMapper) bothValues
      [.getDocument (bothValues.getDocument asciiDom twoRootsMapper).2] half :=
    Run.nil.snoc (.getDocument bothValues)
  have run := neverStale .dialogState twoRoots twoRootsMapper bothValues.info bothValues _ _ rfl rfl
    (first.snoc (.getDocument half))
  obtain ⟨s, before, _, fresh⟩ := run.last
  obtain ⟨step, _⟩ := before.of_single
  cases step
  have stale := (fresh _ rfl).1 _ rfl
  cases stale

end Semaine.StateInfo
