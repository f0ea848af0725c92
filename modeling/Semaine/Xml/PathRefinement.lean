import Semaine.Xml.PathCreation

/-! `xpath2doc` writes at a path and `evaluate` reads there, in every tree whose elements have a
namespace. -/
namespace Semaine.Xml
open JavaText

/-- Every element of the tree has a namespace, so that comparing it does not fail. -/
inductive Clean : Node → Prop where
  | element {tag : Tag} {children : List Node} (named : tag.namespaceURI.isSome)
      (inside : ∀ n ∈ children, Clean n) : Clean (.element tag children)
  | text (content : Text) : Clean (.text content)
  | other : Clean .other

theorem Clean.children {e : Element} (h : Clean e.toNode) : ∀ n ∈ e.children, Clean n := by
  cases h with
  | element _ children => exact children

theorem Clean.named {e : Element} (h : Clean e.toNode) : e.namespaceURI.isSome := by
  cases h with
  | element named _ => exact named

section
variable (context : NamespaceContext)

def wellFormed (part : PathPart) : Bool :=
  match part.nsPrefix with
  | none => false
  | some p =>
    isAsciiName p && decide (p ≠ "xml".toList) && decide (getNamespaceURI context p ≠ []) &&
      decide (getNamespaceURI context p ≠ xmlnsURI) && isAsciiName part.localName &&
      decide (part.localName ≠ "xmlns".toList) && part.attName.all isAsciiName

theorem wellFormed_cases {part : PathPart} (h : wellFormed context part = true) :
    ∃ p, part.nsPrefix = some p ∧ isAsciiName p = true ∧ p ≠ "xml".toList ∧
      getNamespaceURI context p ≠ [] ∧ getNamespaceURI context p ≠ xmlnsURI ∧
      isAsciiName part.localName = true ∧ part.localName ≠ "xmlns".toList ∧
      part.attName.all isAsciiName = true := by
  unfold wellFormed at h
  cases known : part.nsPrefix with
  | none =>
    rw [known] at h
    cases h
  | some p =>
    rw [known] at h
    simp only [Bool.and_eq_true, decide_eq_true_eq] at h
    obtain ⟨⟨⟨⟨⟨⟨ascii, notXml⟩, uri⟩, notXmlns⟩, name⟩, notXmlnsName⟩, test⟩ := h
    exact ⟨p, rfl, ascii, notXml, uri, notXmlns, name, notXmlnsName, test⟩

section
variable {context} {part : PathPart} (formed : wellFormed context part = true)
include formed

theorem wellFormed_valid (dom : DOMImplementation) : ValidPart dom part := by
  obtain ⟨p, given, ascii, _, _, _, name, _, test⟩ := wellFormed_cases context formed
  refine ⟨.ascii name, fun q other => ?_, fun a tested => ?_⟩
  · cases given.symm.trans other
    exact .ascii ascii
  · rw [tested] at test
    exact .ascii test

theorem wellFormed_known : KnownPrefix context part := by
  obtain ⟨p, given, _, _, known, _⟩ := wellFormed_cases context formed
  intro q other
  cases given.symm.trans other
  exact known

theorem wellFormed_unreserved : Unreserved context part := by
  obtain ⟨p, given, _, notXml, _, notXmlns, _, notXmlnsName, _⟩ := wellFormed_cases context formed
  constructor
  · refine iff_of_false notXmlnsName ?_
    rw [given]
    exact fun same => notXmlns (Option.some.inj same)
  · intro xml
    cases given.symm.trans xml
    exact absurd rfl notXml

theorem clean_fresh : Clean (fresh context part).toNode := by
  obtain ⟨p, known, _⟩ := wellFormed_cases context formed
  apply Clean.element
  · simp [fresh, known]
  · intro n member
    cases member

end

theorem Clean.plain {nameOf : Tag → Text} {name : Text} {uri : Option Text} {ns : List Node}
    (clean : ∀ n ∈ ns, Clean n) : ¬ Shadowed nameOf name uri ns := by
  rintro ⟨before, tag, children, after, rfl, _, noURI, _⟩
  have named := Clean.named (e := { tag with children := children })
    (clean _ (List.mem_append_right _ (.head after)))
  simp only [noURI] at named
  cases named

theorem clean_write {attName value : Text} {parts : List PathPart} {node : Element}
    (formed : ∀ part ∈ parts, wellFormed context part = true) (clean : Clean node.toNode) :
    Clean (write context attName value parts node).toNode := by
  induction parts generalizing node with
  | nil => exact .element clean.named clean.children
  | cons part rest ih =>
    have below := fun part member => formed part (.tail _ member)
    apply Clean.element clean.named
    intro n member
    rcases List.mem_modifyFirst member with old | ⟨old, inside, found, rfl⟩ | rfl
    · exact clean.children n old
    · obtain ⟨e, rfl, _⟩ := matches_element context found
      exact ih below (clean.children _ inside)
    · exact ih below (clean_fresh (formed part (.head rest)))

theorem unshadowed_clean {parts : List PathPart} {node : Element} (clean : Clean node.toNode) :
    Unshadowed context parts node := by
  induction parts generalizing node with
  | nil => trivial
  | cons part rest ih =>
    refine ⟨Clean.plain clean.children, fun i child found => ?_⟩
    obtain ⟨_, member, _⟩ := locate_some context id (Node.text []) found
    exact ih (clean.children _ member)

theorem store_write (attName value : Text) (parts : List PathPart) (node : Element) :
    store context (.attribute attName) value parts node =
      write context attName value parts node := by
  induction parts generalizing node with
  | nil => rfl
  | cons part rest ih =>
    have same : store context (.attribute attName) value rest = write context attName value rest :=
      funext ih
    rw [store, write, same]

theorem select_head (attName : Text) (parts : List PathPart) (node : Element) :
    (select context (.attribute attName) parts node).head? = read context attName parts node := by
  induction parts generalizing node with
  | nil =>
    simp only [select, read]
    cases node.getAttribute? attName <;> rfl
  | cons part rest ih =>
    have inside : (fun e => (select context (.attribute attName) rest e).head?) =
        read context attName rest := funext ih
    rw [select, read, List.head?_flatMap, inside]
    exact findSome_within context part (read context attName rest) node.children

/-- An expression below a given root, without a test of the root, whose names can be created and
which does not end in an attribute that its last element is tested for. -/
structure Writable (first : PathPart) (rest : List PathPart) (attName : Text) : Prop where
  untested : first.attName = none
  deeper : rest ≠ []
  ascii : isAsciiName attName = true
  keeps : keepsTests attName rest = true
  root : wellFormed context first = true
  formed : ∀ part ∈ rest, wellFormed context part = true

def writable (first : PathPart) (xpath : XPath) : Bool :=
  match xpath with
  | { parts := root :: rest, last := .attribute attName } =>
    decide (root = first) && decide (first.attName = none) && !rest.isEmpty &&
      isAsciiName attName && keepsTests attName rest && wellFormed context first &&
      rest.all (wellFormed context)
  | _ => false

theorem writable_cases {first : PathPart} {xpath : XPath}
    (h : writable context first xpath = true) :
    ∃ rest attName, xpath = { parts := first :: rest, last := .attribute attName } ∧
      Writable context first rest attName := by
  unfold writable at h
  split at h
  · rename_i root rest attName
    simp only [Bool.and_eq_true, decide_eq_true_eq, List.all_eq_true] at h
    obtain ⟨⟨⟨⟨⟨⟨rfl, untested⟩, deeper⟩, ascii⟩, keeps⟩, formed⟩, below⟩ := h
    refine ⟨rest, attName, rfl, untested, ?_, ascii, keeps, formed, below⟩
    rintro rfl
    cases deeper
  · cases h

variable {context}

theorem isRoot_fresh (first : PathPart) : IsRoot context first (fresh context first) :=
  ⟨freshTag_localName context first, freshTag_namespaceURI context first⟩

theorem IsRoot.write {first : PathPart} {root : Element} (h : IsRoot context first root)
    (attName value : Text) (parts : List PathPart) :
    IsRoot context first (write context attName value parts root) := by
  obtain ⟨name, uri⟩ := h
  exact ⟨(write_localName ..).trans name, (write_namespaceURI ..).trans uri⟩

variable (dom : DOMImplementation)

theorem xpath2doc_write {first : PathPart} {rest : List PathPart} {attName : Text}
    (h : Writable context first rest attName) {expr : Text}
    (split : splitXPathIntoParts expr =
      .ok { parts := first :: rest, last := .attribute attName }) (value : Text)
    {document : Option Document}
    (isRoot : ∀ root, document = some root → IsRoot context first root)
    (clean : Clean (startRoot context document first).toNode) :
    (xpath2doc dom expr (some value) context document).2 =
      .ok (write context attName value rest (startRoot context document first)) := by
  have formed : ∀ part ∈ first :: rest, wellFormed context part = true :=
    List.forall_mem_cons.mpr ⟨h.root, h.formed⟩
  have setable : ∀ a, LastPart.attribute attName = .attribute a → PlainName dom a := by
    rintro a same
    cases same
    exact .ascii h.ascii
  have free : ∀ part ∈ created context document first rest, Unreserved context part := by
    intro part member
    apply wellFormed_unreserved (formed part _)
    cases document with
    | none => exact member
    | some root => exact .tail first (mem_missing member)
  rw [← store_write]
  exact (xpath2doc_iff split setable (fun part member => wellFormed_valid (formed part member) dom)
    (fun part member => wellFormed_known (formed part member)) isRoot).mpr
    ⟨⟨unshadowed_clean context clean, free⟩, rfl⟩

theorem xpath2doc_new {first : PathPart} {rest : List PathPart} {attName : Text}
    (h : Writable context first rest attName) {expr : Text}
    (split : splitXPathIntoParts expr =
      .ok { parts := first :: rest, last := .attribute attName }) (value : Text) :
    (xpath2doc dom expr (some value) context none).2 =
      .ok (write context attName value rest (fresh context first)) := by
  have start : startRoot context none first = fresh context first := by
    unfold startRoot fresh freshTag
    rw [h.untested]
    rfl
  rw [← start]
  apply xpath2doc_write dom h split value
  · intro root same
    cases same
  · rw [start]
    exact clean_fresh h.root

theorem xpath2doc_given {first : PathPart} {rest : List PathPart} {attName : Text}
    (h : Writable context first rest attName) {expr : Text}
    (split : splitXPathIntoParts expr =
      .ok { parts := first :: rest, last := .attribute attName }) (value : Text)
    {root : Element} (isRoot : IsRoot context first root) (clean : Clean root.toNode) :
    (xpath2doc dom expr (some value) context (some root)).2 =
      .ok (write context attName value rest root) := by
  have same : ∀ other, some root = some other → IsRoot context first other := by
    intro other same
    cases same
    exact isRoot
  exact xpath2doc_write dom h split value same clean

theorem evaluate_read {first : PathPart} {rest : List PathPart} {attName : Text}
    (untested : first.attName = none) {root : Element} (isRoot : IsRoot context first root) :
    evaluate context { parts := first :: rest, last := .attribute attName } root =
      (read context attName rest root).getD [] := by
  have found : matchesPart context first root.toTag = true := by
    simp [matchesPart, isRoot.1, isRoot.2, passes, untested]
  simp only [evaluate, if_pos found]
  rw [← select_head, List.headD_eq_head?_getD]

end

end Semaine.Xml
