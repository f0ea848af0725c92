import Semaine.Xml.ChildSearch
import Semaine.Xml.ElementNames

/-! What `xpath2doc` does below a root, for every expression whose names are names of XML: it fails
at a child without a namespace that it compares, and at an element whose name or prefix is
reserved, and it stores the value otherwise. -/
namespace Semaine.Xml
open JavaText

section
variable (dom : DOMImplementation)

structure ValidPart (part : PathPart) : Prop where
  localName : PlainName dom part.localName
  nsPrefix : ∀ p, part.nsPrefix = some p → PlainName dom p
  attName : ∀ a, part.attName = some a → PlainName dom a

end

section
variable (context : NamespaceContext)

def KnownPrefix (part : PathPart) : Prop :=
  ∀ p, part.nsPrefix = some p → getNamespaceURI context p ≠ []

structure Unreserved (part : PathPart) : Prop where
  name : part.localName = "xmlns".toList ↔
    part.nsPrefix.map (getNamespaceURI context) = some xmlnsURI
  nsPrefix : part.nsPrefix = some "xml".toList → getNamespaceURI context "xml".toList = xmlURI

variable {context} {dom : DOMImplementation} {part : PathPart}

theorem partNamespace_known (known : KnownPrefix context part) :
    partNamespace context part = .ok (part.nsPrefix.map (getNamespaceURI context)) := by
  unfold partNamespace
  cases given : part.nsPrefix with
  | none => rfl
  | some p => exact if_neg (known p given)

theorem KnownPrefix.given (known : KnownPrefix context part) :
    part.nsPrefix.map (getNamespaceURI context) ≠ some [] := by
  intro empty
  obtain ⟨p, given, unknown⟩ := Option.map_eq_some_iff.mp empty
  exact known p given unknown

def named (context : NamespaceContext) (part : PathPart) : Element where
  localName := part.localName
  namespaceURI := part.nsPrefix.map (getNamespaceURI context)

theorem setPrefix_part (valid : ValidPart dom part) {e f : Element}
    (sameURI : e.namespaceURI = part.nsPrefix.map (getNamespaceURI context)) :
    e.setPrefix dom part.nsPrefix = .ok f ↔
      (part.nsPrefix = some "xml".toList → getNamespaceURI context "xml".toList = xmlURI) ∧
        f = { e with nsPrefix := part.nsPrefix } := by
  cases given : part.nsPrefix with
  | none =>
    have same : e.setPrefix dom none = .ok { e with nsPrefix := none } := rfl
    rw [same, Except.ok.injEq]
    exact ⟨fun set => ⟨nofun, set.symm⟩, fun set => set.2.symm⟩
  | some p =>
    rw [given] at sameURI
    have isNamed : e.namespaceURI ≠ none := by
      rw [sameURI]
      exact Option.some_ne_none _
    rw [setPrefix_plain (valid.nsPrefix p given) isNamed, sameURI]
    simp only [Option.map_some, Option.some.injEq]
    constructor
    · rintro ⟨own, set⟩
      refine ⟨?_, set⟩
      rintro rfl
      exact own rfl
    · rintro ⟨own, set⟩
      refine ⟨?_, set⟩
      rintro rfl
      exact own rfl

theorem fitOut_valid (valid : ValidPart dom part)
    (own : part.nsPrefix = some "xml".toList → getNamespaceURI context "xml".toList = xmlURI) :
    fitOut dom part (named context part) = (fresh context part, none) := by
  have prefixed : (named context part).setPrefix dom part.nsPrefix =
      .ok { named context part with nsPrefix := part.nsPrefix } :=
    (setPrefix_part valid rfl).mpr ⟨own, rfl⟩
  unfold fitOut fresh freshTag
  cases given : part.nsPrefix with
  | none =>
    cases tested : part.attName with
    | none => simp [named, given]
    | some a =>
      have isName := (valid.attName a tested).valid
      simp [named, given, Changed.of, Element.setAttribute, isName]
  | some p =>
    rw [given] at prefixed
    cases tested : part.attName with
    | none =>
      simp only [prefixed, Changed.of]
      simp [named, given]
    | some a =>
      have isName := (valid.attName a tested).valid
      simp only [prefixed, Changed.of, Element.setAttribute, if_pos isName]
      simp [named, given]

theorem fitOut_reserved (valid : ValidPart dom part) {p : Text} (given : part.nsPrefix = some p)
    (reserved : p = "xml".toList ∧ getNamespaceURI context p ≠ xmlURI) :
    (fitOut dom part (named context part)).2 ≠ none := by
  cases set : (named context part).setPrefix dom (some p) with
  | error e =>
    unfold fitOut
    simp [given, set, Changed.of]
  | ok f =>
    rw [← given] at set
    have own := ((setPrefix_part valid rfl).mp set).1
    obtain ⟨rfl, other⟩ := reserved
    exact absurd (own given) other

theorem created_unreserved (valid : ValidPart dom part) (known : KnownPrefix context part)
    {child : Element} (created : childElementNS dom part.localName
      (part.nsPrefix.map (getNamespaceURI context)) = .ok child) :
    child = named context part ∧
      ((fitOut dom part child).2 = none → Unreserved context part) := by
  obtain ⟨name, rfl⟩ := (createElementNS_plain valid.localName known.given).mp created
  refine ⟨rfl, fun fits => ⟨name, fun given => ?_⟩⟩
  by_contra other
  exact fitOut_reserved valid given ⟨rfl, other⟩ fits

theorem childElementNS_unreserved (valid : ValidPart dom part) (known : KnownPrefix context part)
    (free : Unreserved context part) : childElementNS dom part.localName
      (part.nsPrefix.map (getNamespaceURI context)) = .ok (named context part) :=
  (createElementNS_plain valid.localName known.given).mpr ⟨free.name, rfl⟩

end

section
variable (context : NamespaceContext)

def setLast (last : LastPart) (value : Text) (node : Element) : Element :=
  match last with
  | .text => node.setTextContent value
  | .attribute attName => { node with toTag := node.toTag.putAttribute attName value }

/-- What `write` does for an attribute, for both kinds of a last part. -/
def store (last : LastPart) (value : Text) : List PathPart → Element → Element
  | [], node => setLast last value node
  | part :: rest, node =>
    { node with
      children := node.children.modifyFirst (Node.matches context part)
        (mapElement (store last value rest)) (store last value rest (fresh context part)).toNode }

def Unshadowed : List PathPart → Element → Prop
  | [], _ => True
  | part :: rest, node =>
    ¬ Shadowed getLocalName part.localName (part.nsPrefix.map (getNamespaceURI context))
      node.children ∧
    ∀ i child, locate context part node.children 0 = some (i, child) → Unshadowed rest child

def missing : List PathPart → Element → List PathPart
  | [], _ => []
  | part :: rest, node =>
    match locate context part node.children 0 with
    | some (_, child) => missing rest child
    | none => part :: rest

variable {context}

theorem unshadowed_childless {parts : List PathPart} {node : Element}
    (childless : node.children = []) : Unshadowed context parts node := by
  cases parts with
  | nil => trivial
  | cons part rest =>
    unfold Unshadowed
    rw [childless]
    exact ⟨not_shadowed_nil, nofun⟩

theorem mem_missing {parts : List PathPart} {node : Element} {part : PathPart}
    (member : part ∈ missing context parts node) : part ∈ parts := by
  induction parts generalizing node with
  | nil => cases member
  | cons first rest ih =>
    unfold missing at member
    cases found : locate context first node.children 0 with
    | none =>
      rw [found] at member
      exact member
    | some place =>
      rw [found] at member
      exact .tail first (ih member)

theorem missing_childless {parts : List PathPart} {node : Element}
    (childless : node.children = []) : missing context parts node = parts := by
  cases parts with
  | nil => rfl
  | cons part rest =>
    unfold missing
    rw [childless]
    rfl

theorem existingChild_shadowed {part : PathPart} {uri : Option Text} {node : Element}
    (shadowed : Shadowed getLocalName part.localName uri node.children) :
    existingChild node part uri = .error .nullPointer := by
  unfold existingChild getChildrenByLocalNameNS getChildren
  rw [getChildElement_shadowed shadowed]
  rfl

variable {dom : DOMImplementation} {last : LastPart} {value : Text}

theorem descend_store (setable : ∀ a, last = .attribute a → PlainName dom a)
    {parts : List PathPart} {node : Element} (valid : ∀ part ∈ parts, ValidPart dom part)
    (known : ∀ part ∈ parts, KnownPrefix context part) (clear : Unshadowed context parts node)
    (free : ∀ part ∈ missing context parts node, Unreserved context part) :
    descend dom context last value parts node = (store context last value parts node, none) := by
  induction parts generalizing node with
  | nil =>
    match last, setable with
    | .text, _ => rfl
    | .attribute a, setable =>
      have isName := (setable a rfl).valid
      simp [descend, store, setLast, Element.setAttribute, Changed.of, isName]
  | cons part rest ih =>
    have below := fun part member => valid part (.tail _ member)
    have belowKnown := fun part member => known part (.tail _ member)
    have isKnown := known part (.head rest)
    have isValid := valid part (.head rest)
    obtain ⟨visible, inside⟩ := clear
    unfold missing at free
    unfold descend
    rw [partNamespace_known isKnown]
    simp only [existingChild_first context rfl visible]
    cases found : locate context part node.children 0 with
    | some place =>
      obtain ⟨i, child⟩ := place
      rw [found] at free
      obtain ⟨_, _, changed⟩ := locate_some context (store context last value rest)
        (store context last value rest (fresh context part)).toNode found
      simp only [ih below belowKnown (inside i child found) free]
      rw [store, changed, Nat.sub_zero]
    | none =>
      rw [found] at free
      have isFree := free part (.head rest)
      have appended := locate_none context (mapElement (store context last value rest))
        (store context last value rest (fresh context part)).toNode found
      have childless : (fresh context part).children = [] := rfl
      have others : ∀ q ∈ missing context rest (fresh context part), Unreserved context q := by
        rw [missing_childless childless]
        exact fun q member => free q (.tail _ member)
      have deeper := ih below belowKnown (unshadowed_childless childless) others
      simp only [childElementNS_unreserved isValid isKnown isFree,
        fitOut_valid isValid isFree.nsPrefix, deeper]
      rw [store, appended]
      rfl

theorem descend_done {parts : List PathPart} {node : Element} (valid : ∀ part ∈ parts, ValidPart dom part) (known : ∀ part ∈ parts, KnownPrefix context part)
    (done : (descend dom context last value parts node).2 = none) :
    Unshadowed context parts node ∧
      ∀ part ∈ missing context parts node, Unreserved context part := by
  induction parts generalizing node with
  | nil => exact ⟨trivial, nofun⟩
  | cons part rest ih =>
    have below := fun part member => valid part (.tail _ member)
    have belowKnown := fun part member => known part (.tail _ member)
    have isKnown := known part (.head rest)
    have isValid := valid part (.head rest)
    unfold descend at done
    rw [partNamespace_known isKnown] at done
    unfold missing Unshadowed
    by_cases shadowed : Shadowed getLocalName part.localName
        (part.nsPrefix.map (getNamespaceURI context)) node.children
    · simp only [existingChild_shadowed shadowed] at done
      cases done
    · simp only [existingChild_first context rfl shadowed] at done
      cases found : locate context part node.children 0 with
      | some place =>
        obtain ⟨i, child⟩ := place
        rw [found] at done
        obtain ⟨clear, free⟩ := ih below belowKnown done
        refine ⟨⟨shadowed, fun j other same => ?_⟩, free⟩
        cases same
        exact clear
      | none =>
        rw [found] at done
        refine ⟨⟨shadowed, nofun⟩, ?_⟩
        cases created : childElementNS dom part.localName
            (part.nsPrefix.map (getNamespaceURI context)) with
        | error e =>
          simp only [created] at done
          cases done
        | ok child =>
          obtain ⟨rfl, fits⟩ := created_unreserved isValid isKnown created
          simp only [created] at done
          cases outfit : fitOut dom part (named context part) with
          | mk changed thrown =>
            rw [outfit] at done fits
            cases thrown with
            | some e => cases done
            | none =>
              have free := fits rfl
              rw [fitOut_valid isValid free.nsPrefix] at outfit
              cases outfit
              have deeper := (ih below belowKnown done).2
              rw [missing_childless rfl] at deeper
              exact List.forall_mem_cons.mpr ⟨free, deeper⟩

def IsRoot (context : NamespaceContext) (first : PathPart) (root : Element) : Prop :=
  root.localName = first.localName ∧
    root.namespaceURI = first.nsPrefix.map (getNamespaceURI context)

theorem checkRoot_root {first : PathPart} {root : Element} (isRoot : IsRoot context first root) :
    checkRoot root first (first.nsPrefix.map (getNamespaceURI context)) = .ok () := by
  unfold checkRoot
  rw [if_neg (not_not.mpr isRoot.1), if_neg (not_not.mpr isRoot.2)]

theorem newRoot_valid {first : PathPart} (valid : ValidPart dom first)
    (known : KnownPrefix context first) {root : Element} :
    newRoot dom first (first.nsPrefix.map (getNamespaceURI context)) = .ok root ↔
      Unreserved context first ∧ root = { named context first with nsPrefix := first.nsPrefix } := by
  unfold newRoot newDocument
  cases created : createElementNS dom (first.nsPrefix.map (getNamespaceURI context))
      first.localName with
  | error e =>
    refine ⟨nofun, fun made => ?_⟩
    cases created.symm.trans (childElementNS_unreserved valid known made.1)
  | ok element =>
    obtain ⟨name, rfl⟩ := (createElementNS_plain valid.localName known.given).mp created
    have set : (named context first).setPrefix dom first.nsPrefix = .ok root ↔ _ :=
      setPrefix_part valid rfl
    refine Iff.trans set ?_
    exact ⟨fun made => ⟨⟨name, made.1⟩, made.2⟩, fun made => ⟨made.1.nsPrefix, made.2⟩⟩

variable (context) in
def startRoot (document : Option Document) (first : PathPart) : Element :=
  document.getD { named context first with nsPrefix := first.nsPrefix }

variable (context) in
def created (document : Option Document) (first : PathPart) (rest : List PathPart) :
    List PathPart :=
  match document with
  | none => first :: rest
  | some root => missing context rest root

theorem descend_iff (setable : ∀ a, last = .attribute a → PlainName dom a)
    {parts : List PathPart} {node after : Element} (valid : ∀ part ∈ parts, ValidPart dom part)
    (known : ∀ part ∈ parts, KnownPrefix context part) :
    descend dom context last value parts node = (after, none) ↔
      (Unshadowed context parts node ∧
        ∀ part ∈ missing context parts node, Unreserved context part) ∧
      after = store context last value parts node := by
  constructor
  · intro done
    obtain ⟨clear, free⟩ := descend_done valid known (congrArg Prod.snd done)
    have stored : descend dom context last value parts node = _ :=
      descend_store setable valid known clear free
    exact ⟨⟨clear, free⟩, congrArg Prod.fst (done.symm.trans stored)⟩
  · rintro ⟨⟨clear, free⟩, rfl⟩
    exact descend_store setable valid known clear free

theorem returned_new {doc : Document} (result : Changed) :
    (match result with
      | (_, some e) => ((none, .error e) : Option Document × Except Thrown Document)
      | (root, none) => (none, .ok root)).2 = .ok doc ↔ result = (doc, none) := by
  cases result with
  | mk after thrown => cases thrown <;> simp

theorem returned_given {doc : Document} (result : Changed) :
    (match result with
      | (root, some e) => ((some root, .error e) : Option Document × Except Thrown Document)
      | (root, none) => (some root, .ok root)).2 = .ok doc ↔ result = (doc, none) := by
  cases result with
  | mk after thrown => cases thrown <;> simp

theorem xpath2doc_iff {expr : Text} {first : PathPart} {rest : List PathPart}
    (split : splitXPathIntoParts expr = .ok { parts := first :: rest, last := last })
    (setable : ∀ a, last = .attribute a → PlainName dom a)
    (valid : ∀ part ∈ first :: rest, ValidPart dom part)
    (known : ∀ part ∈ first :: rest, KnownPrefix context part) {document : Option Document}
    (isRoot : ∀ root, document = some root → IsRoot context first root) {doc : Document} :
    (xpath2doc dom expr (some value) context document).2 = .ok doc ↔
      (Unshadowed context rest (startRoot context document first) ∧
        ∀ part ∈ created context document first rest, Unreserved context part) ∧
      doc = store context last value rest (startRoot context document first) := by
  obtain ⟨isValid, below⟩ := List.forall_mem_cons.mp valid
  obtain ⟨isKnown, belowKnown⟩ := List.forall_mem_cons.mp known
  unfold xpath2doc
  rw [split]
  dsimp only
  rw [partNamespace_known isKnown]
  dsimp only
  cases document with
  | none =>
    let start : Element := { named context first with nsPrefix := first.nsPrefix }
    have childless : start.children = [] := rfl
    have stored : descend dom context last value rest start = (doc, none) ↔ _ :=
      descend_iff setable below belowKnown
    rw [missing_childless childless] at stored
    change _ ↔ (Unshadowed context rest start ∧ ∀ part ∈ first :: rest, _) ∧ doc = _
    rw [List.forall_mem_cons]
    cases made : newRoot dom first (first.nsPrefix.map (getNamespaceURI context)) with
    | error e =>
      refine ⟨nofun, fun put => ?_⟩
      cases made.symm.trans ((newRoot_valid isValid isKnown).mpr ⟨put.1.2.1, rfl⟩)
    | ok root =>
      obtain ⟨free, rfl⟩ := (newRoot_valid isValid isKnown).mp made
      rw [and_iff_right free]
      exact (returned_new _).trans stored
  | some root =>
    dsimp only
    rw [checkRoot_root (isRoot root rfl)]
    have stored : descend dom context last value rest root = (doc, none) ↔ _ :=
      descend_iff setable below belowKnown
    exact (returned_given _).trans stored

end

end Semaine.Xml
