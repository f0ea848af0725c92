import Semaine.Library.JavaText

/-! The part of the W3C document object model that the state messages and the function markup
are built with. Documents are values: a change gives a new tree. -/
namespace Semaine.Xml
open JavaText

structure Tag where
  nsPrefix : Option Text := none
  localName : Text
  namespaceURI : Option Text := none
  attributes : AList (fun _ : Text => Text) := ∅

inductive Node where
  | element (tag : Tag) (children : List Node)
  | text (content : Text)
  | other

structure Element extends Tag where
  children : List Node := []

abbrev Document := Element

def Node.asElement : Node → Option Element
  | .element tag children => some { tag with children := children }
  | _ => none

def Element.toNode (e : Element) : Node := .element e.toTag e.children

@[simp] theorem asElement_toNode (e : Element) : e.toNode.asElement = some e := rfl

/-- A name of ASCII letters, digits and `-`, `_`, `.` that starts with a letter or `_`. -/
def isAsciiName : Text → Bool
  | [] => false
  | c :: cs => (c.isAlpha || c = '_') &&
      cs.all (fun d => d.isAlphanum || d = '-' || d = '_' || d = '.')

structure DOMImplementation where
  isXMLName : Text → Bool
  asciiName : ∀ s, isAsciiName s = true → isXMLName s = true

def xmlURI : Text := "http://www.w3.org/XML/1998/namespace".toList
def xmlnsURI : Text := "http://www.w3.org/2000/xmlns/".toList

namespace Tag

def getAttribute? (t : Tag) (name : Text) : Option Text := t.attributes.lookup name

def hasAttribute (t : Tag) (name : Text) : Bool := (t.getAttribute? name).isSome

def getAttribute (t : Tag) (name : Text) : Text := (t.getAttribute? name).getD []

def putAttribute (t : Tag) (name value : Text) : Tag :=
  { t with attributes := t.attributes.insert name value }

@[simp] theorem putAttribute_localName (t : Tag) (name value : Text) :
    (t.putAttribute name value).localName = t.localName := rfl

@[simp] theorem putAttribute_namespaceURI (t : Tag) (name value : Text) :
    (t.putAttribute name value).namespaceURI = t.namespaceURI := rfl

@[simp] theorem getAttribute?_put_same (t : Tag) (name value : Text) :
    (t.putAttribute name value).getAttribute? name = some value :=
  AList.lookup_insert _

theorem getAttribute?_put_other (t : Tag) {name other : Text} (value : Text)
    (h : other ≠ name) : (t.putAttribute name value).getAttribute? other = t.getAttribute? other :=
  AList.lookup_insert_ne h

end Tag

section
variable (dom : DOMImplementation)

/-- `createElementNS`. An empty namespace URI counts as none. -/
def createElementNS (namespaceURI : Option Text) (qualifiedName : Text) :
    Except Thrown Element :=
  let namespaceURI := if namespaceURI = some [] then none else namespaceURI
  match qualifiedName.splitOn ':' with
  | [localName] =>
    if !dom.isXMLName localName then .error .domInvalidCharacter
    else if (localName = "xmlns".toList) ≠ (namespaceURI = some xmlnsURI) then
      .error .domNamespace
    else .ok { localName := localName, namespaceURI := namespaceURI }
  | [nsPrefix, localName] =>
    if nsPrefix = [] ∨ localName = [] ∨ namespaceURI = none ∨
        (nsPrefix = "xml".toList ∧ namespaceURI ≠ some xmlURI) then .error .domNamespace
    else if !(dom.isXMLName nsPrefix && dom.isXMLName localName) then
      .error .domInvalidCharacter
    else if (nsPrefix = "xmlns".toList) ≠ (namespaceURI = some xmlnsURI) then .error .domNamespace
    else .ok { nsPrefix := some nsPrefix, localName := localName, namespaceURI := namespaceURI }
  | _ => .error .domNamespace

/-- `setPrefix`: a null or empty prefix removes the prefix. -/
def Element.setPrefix (e : Element) (nsPrefix : Option Text) : Except Thrown Element :=
  match nsPrefix with
  | none => .ok { e with nsPrefix := none }
  | some p =>
    if p = [] then .ok { e with nsPrefix := none }
    else if !dom.isXMLName p then .error .domInvalidCharacter
    else if e.namespaceURI = none ∨ ':' ∈ p ∨
        (p = "xml".toList ∧ e.namespaceURI ≠ some xmlURI) then .error .domNamespace
    else .ok { e with nsPrefix := some p }

def Element.setAttribute (e : Element) (name value : Text) : Except Thrown Element :=
  if dom.isXMLName name then .ok { e with toTag := e.toTag.putAttribute name value }
  else .error .domInvalidCharacter

end

/-- `setTextContent`: the children are replaced by one text node, if there is any text. -/
def Element.setTextContent (e : Element) (value : Text) : Element :=
  { e with children := if value = [] then [] else [.text value] }

def Element.appendChild (e : Element) (child : Node) : Element :=
  { e with children := e.children ++ [child] }

mutual

def Node.elements : Node → List Element
  | .element tag children => { tag with children := children } :: elementsOf children
  | _ => []

def elementsOf : List Node → List Element
  | [] => []
  | n :: rest => n.elements ++ elementsOf rest

end

mutual

def Node.getTextContent : Node → Text
  | .element _ children => textContentOf children
  | .text content => content
  | .other => []

def textContentOf : List Node → Text
  | [] => []
  | n :: rest => n.getTextContent ++ textContentOf rest

end

def getElementsByTagNameNS (doc : Document) (namespaceURI localName : Text) : List Element :=
  doc.toNode.elements.filter fun e => e.localName = localName && e.namespaceURI = some namespaceURI

theorem mem_elementsOf {e : Element} {ns : List Node} :
    e ∈ elementsOf ns ↔ ∃ n ∈ ns, e ∈ n.elements := by
  induction ns with
  | nil => simp [elementsOf]
  | cons n rest ih => simp [elementsOf, ih]

theorem elementsOf_append (ns ms : List Node) :
    elementsOf (ns ++ ms) = elementsOf ns ++ elementsOf ms := by
  induction ns with
  | nil => rfl
  | cons n rest ih => rw [List.cons_append, elementsOf, elementsOf, ih, List.append_assoc]

theorem mem_elements {e root : Element} :
    e ∈ root.toNode.elements ↔ e = root ∨ ∃ n ∈ root.children, e ∈ n.elements := by
  rw [← mem_elementsOf]
  exact List.mem_cons

end Semaine.Xml
