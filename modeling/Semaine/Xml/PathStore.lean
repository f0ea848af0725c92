import Semaine.Library.ModifyFirst
import Semaine.Xml.XMLTool

/-! Writing an attribute at the end of a path and reading it there, as functions on trees. A
document that is written by `xpath2doc` and read by XPath expressions is such a store. -/
namespace Semaine.Xml
open JavaText

variable (context : NamespaceContext)

def Node.matches (part : PathPart) (n : Node) : Bool :=
  match n.asElement with
  | some e => matchesPart context part e.toTag
  | none => false

def mapElement (f : Element → Element) (n : Node) : Node :=
  match n.asElement with
  | some e => (f e).toNode
  | none => n

def freshTag (part : PathPart) : Tag :=
  let tag : Tag := {
    nsPrefix := part.nsPrefix
    localName := part.localName
    namespaceURI := part.nsPrefix.map (getNamespaceURI context) }
  match part.attName with
  | none => tag
  | some attName => tag.putAttribute attName (part.attValue.getD [])

def fresh (part : PathPart) : Element := { freshTag context part with children := [] }

def write (attName value : Text) : List PathPart → Element → Element
  | [], node => { node with toTag := node.toTag.putAttribute attName value }
  | part :: rest, node =>
    { node with
      children := node.children.modifyFirst (Node.matches context part)
        (mapElement (write attName value rest))
        (write attName value rest (fresh context part)).toNode }

def within (part : PathPart) (search : Element → Option Text) (n : Node) : Option Text :=
  n.asElement.bind fun e => if matchesPart context part e.toTag then search e else none

def read (attName : Text) : List PathPart → Element → Option Text
  | [], node => node.getAttribute? attName
  | part :: rest, node => node.children.findSome? (within context part (read attName rest))

theorem asElement_eq {n : Node} {e : Element} (h : n.asElement = some e) : n = e.toNode := by
  cases n with
  | element tag children =>
    cases h
    rfl
  | text content => cases h
  | other => cases h

@[simp] theorem mapElement_toNode (f : Element → Element) (e : Element) :
    mapElement f e.toNode = (f e).toNode := rfl

@[simp] theorem matches_toNode (part : PathPart) (e : Element) :
    e.toNode.matches context part = matchesPart context part e.toTag := rfl

@[simp] theorem within_toNode (part : PathPart) (search : Element → Option Text) (e : Element) :
    within context part search e.toNode =
      if matchesPart context part e.toTag then search e else none := rfl

theorem findSome_within (part : PathPart) (search : Element → Option Text) (ns : List Node) :
    ((ns.filterMap Node.asElement).filter (matchesPart context part ·.toTag)).findSome? search =
      ns.findSome? (within context part search) := by
  induction ns with
  | nil => rfl
  | cons n ns ih =>
    cases n with
    | element tag children =>
      have element : (Node.element tag children).asElement =
          some { tag with children := children } := rfl
      rw [List.filterMap_cons, element, List.findSome?_cons, within, element, ← ih]
      simp only [List.filter_cons, Option.bind_some]
      split
      · rw [List.findSome?_cons]
      · rfl
    | text content => exact ih
    | other => exact ih

theorem within_fails {part : PathPart} {search : Element → Option Text} {e : Element}
    (h : matchesPart context part e.toTag = false) :
    within context part search e.toNode = none := by
  simp [h]

theorem matches_element {part : PathPart} {n : Node} (h : n.matches context part = true) :
    ∃ e : Element, n = e.toNode ∧ matchesPart context part e.toTag = true := by
  unfold Node.matches at h
  cases found : n.asElement with
  | some e =>
    rw [found] at h
    exact ⟨e, asElement_eq found, h⟩
  | none =>
    rw [found] at h
    cases h

theorem hasAttribute_put_other (t : Tag) {name other : Text} (value : Text) (h : other ≠ name) :
    (t.putAttribute name value).hasAttribute other = t.hasAttribute other := by
  unfold Tag.hasAttribute
  rw [Tag.getAttribute?_put_other t value h]

theorem getAttribute_put_other (t : Tag) {name other : Text} (value : Text) (h : other ≠ name) :
    (t.putAttribute name value).getAttribute other = t.getAttribute other := by
  unfold Tag.getAttribute
  rw [Tag.getAttribute?_put_other t value h]

theorem passes_put {part : PathPart} (t : Tag) {name : Text} (value : Text)
    (h : part.attName ≠ some name) : passes part (t.putAttribute name value) = passes part t := by
  unfold passes
  cases tested : part.attName with
  | none => rfl
  | some attName =>
    have other : attName ≠ name := by
      rintro rfl
      exact h tested
    simp only [hasAttribute_put_other t value other, getAttribute_put_other t value other]

theorem passes_freshTag (part : PathPart) : passes part (freshTag context part) = true := by
  unfold passes freshTag
  cases part.attName with
  | none => rfl
  | some attName =>
    cases part.attValue <;> simp [Tag.hasAttribute, Tag.getAttribute]

@[simp] theorem freshTag_localName (part : PathPart) :
    (freshTag context part).localName = part.localName := by
  unfold freshTag
  cases part.attName <;> rfl

@[simp] theorem freshTag_namespaceURI (part : PathPart) :
    (freshTag context part).namespaceURI = part.nsPrefix.map (getNamespaceURI context) := by
  unfold freshTag
  cases part.attName <;> rfl

theorem matchesPart_freshTag (part : PathPart) :
    matchesPart context part (freshTag context part) = true := by
  simp [matchesPart, passes_freshTag]

@[simp] theorem write_localName (attName value : Text) (parts : List PathPart) (node : Element) :
    (write context attName value parts node).localName = node.localName := by
  cases parts <;> rfl

@[simp] theorem write_namespaceURI (attName value : Text) (parts : List PathPart)
    (node : Element) :
    (write context attName value parts node).namespaceURI = node.namespaceURI := by
  cases parts <;> rfl

theorem matchesPart_write {part : PathPart} {attName : Text} (value : Text)
    {rest : List PathPart} (node : Element)
    (h : (!rest.isEmpty || decide (part.attName ≠ some attName)) = true) :
    matchesPart context part (write context attName value rest node).toTag =
      matchesPart context part node.toTag := by
  cases rest with
  | nil =>
    have other : part.attName ≠ some attName := by simpa using h
    unfold matchesPart
    rw [← passes_put node.toTag value other]
    rfl
  | cons next rest => rfl

/-- The attribute at the end of the path is not one that its last element is tested for. -/
def keepsTests (attName : Text) : List PathPart → Bool
  | [] => true
  | part :: rest =>
    (!rest.isEmpty || decide (part.attName ≠ some attName)) && keepsTests attName rest

theorem read_write_same {attName : Text} (value : Text) {parts : List PathPart}
    (keeps : keepsTests attName parts = true) (node : Element) :
    read context attName parts (write context attName value parts node) = some value := by
  induction parts generalizing node with
  | nil => exact Tag.getAttribute?_put_same node.toTag attName value
  | cons part rest ih =>
    simp only [keepsTests, Bool.and_eq_true] at keeps
    have inside : ∀ e : Element, matchesPart context part e.toTag = true →
        within context part (read context attName rest)
          (write context attName value rest e).toNode = some value := by
      intro e found
      rw [within_toNode, matchesPart_write context value e keeps.1, if_pos found]
      exact ih keeps.2 e
    apply List.findSome?_modifyFirst_of_seen
    · intro n _ found
      obtain ⟨e, rfl, found⟩ := matches_element context found
      exact inside e found
    · exact inside (fresh context part) (matchesPart_freshTag context part)
    · intro n _ fails
      unfold within
      cases element : n.asElement with
      | none => rfl
      | some e =>
        rw [asElement_eq element, matches_toNode] at fails
        simp [fails]

def otherValue (p q : PathPart) : Bool :=
  decide (p.attName = q.attName) && p.attName.isSome && p.attValue.isSome && q.attValue.isSome &&
    decide (p.attValue ≠ q.attValue)

/-- Writing along the first path does not change what is read along the second one: they differ
in a name or in the value of a test, or they end at different attributes and neither tests or
creates an attribute that the other one is about. -/
def apart (written attName : Text) : List PathPart → List PathPart → Bool
  | [], [] => decide (attName ≠ written)
  | [], _ :: _ => true
  | _ :: _, [] => true
  | p :: ps, q :: qs =>
    decide (p.localName ≠ q.localName) ||
    apart written attName ps qs && (!ps.isEmpty || decide (q.attName ≠ some written)) &&
      (!qs.isEmpty || decide (p.attName ≠ some attName)) ||
    otherValue p q && (!ps.isEmpty || decide (p.attName ≠ some written))

theorem apart_cons {written attName : Text} {p q : PathPart} {ps qs : List PathPart}
    (h : apart written attName (p :: ps) (q :: qs) = true) :
    (p.localName ≠ q.localName ∨
      (apart written attName ps qs = true ∧
        (!ps.isEmpty || decide (q.attName ≠ some written)) = true) ∧
      (!qs.isEmpty || decide (p.attName ≠ some attName)) = true) ∨
    otherValue p q = true ∧ (!ps.isEmpty || decide (p.attName ≠ some written)) = true := by
  rw [apart, Bool.or_eq_true, Bool.or_eq_true, Bool.and_eq_true, Bool.and_eq_true,
    Bool.and_eq_true, decide_eq_true_eq] at h
  exact h

theorem matchesPart_localName {p : PathPart} {t : Tag} (h : matchesPart context p t = true) :
    t.localName = p.localName := by
  simp only [matchesPart, Bool.and_eq_true, decide_eq_true_eq] at h
  exact h.1.1

theorem matchesPart_otherName {q : PathPart} {t : Tag} (other : t.localName ≠ q.localName) :
    matchesPart context q t = false := by
  simp [matchesPart, other]

theorem matchesPart_otherValue {p q : PathPart} {t : Tag} (other : otherValue p q = true)
    (h : matchesPart context p t = true) : matchesPart context q t = false := by
  simp only [otherValue, Bool.and_eq_true, decide_eq_true_eq] at other
  obtain ⟨⟨⟨⟨sameTest, hasTest⟩, pValue⟩, qValue⟩, different⟩ := other
  obtain ⟨v, hv⟩ := Option.isSome_iff_exists.mp pValue
  obtain ⟨w, hw⟩ := Option.isSome_iff_exists.mp qValue
  have passed : passes p t = true := (Bool.and_eq_true _ _ ▸ h).2
  have failed : passes q t = false := by
    unfold passes at passed ⊢
    rw [← sameTest]
    cases tested : p.attName with
    | none =>
      rw [tested] at hasTest
      cases hasTest
    | some attName =>
      rw [tested] at passed
      simp only [hv, hw, Bool.and_eq_true, decide_eq_true_eq] at passed ⊢
      have unequal : w ≠ t.getAttribute attName := by
        intro same
        exact different (by rw [hv, hw, passed.2, same])
      simp [unequal]
  simp [matchesPart, failed]

theorem read_fresh {part : PathPart} {attName : Text} {parts : List PathPart}
    (h : (!parts.isEmpty || decide (part.attName ≠ some attName)) = true) :
    read context attName parts (fresh context part) = none := by
  cases parts with
  | cons next rest => rfl
  | nil =>
    have other : part.attName ≠ some attName := by simpa using h
    unfold read fresh freshTag
    cases tested : part.attName with
    | none => rfl
    | some name =>
      have different : attName ≠ name := by
        rintro rfl
        exact other tested
      exact Tag.getAttribute?_put_other _ _ different

theorem read_write_apart {written attName : Text} (value : Text) {ps qs : List PathPart}
    (h : apart written attName ps qs = true) (node : Element) :
    read context attName qs (write context written value ps node) =
      read context attName qs node := by
  induction ps generalizing qs node with
  | nil =>
    cases qs with
    | nil => exact Tag.getAttribute?_put_other node.toTag value (by simpa [apart] using h)
    | cons q qs => rfl
  | cons p ps ih =>
    cases qs with
    | nil => rfl
    | cons q qs =>
      have h := apart_cons h
      have unseen : ∀ e : Element, matchesPart context p e.toTag = true →
          within context q (read context attName qs)
              (write context written value ps e).toNode =
            within context q (read context attName qs) e.toNode := by
        intro e found
        rcases h with (name | ⟨⟨rest, test⟩, _⟩) | ⟨values, test⟩
        · have other : e.localName ≠ q.localName := by
            rw [matchesPart_localName context found]
            exact name
          rw [within_fails context (matchesPart_otherName context other), within_fails context]
          exact matchesPart_otherName context (by rwa [write_localName])
        · rw [within_toNode, within_toNode, matchesPart_write context value e test, ih rest]
        · have kept := found
          rw [← matchesPart_write context value e test] at kept
          rw [within_fails context (matchesPart_otherValue context values found),
            within_fails context (matchesPart_otherValue context values kept)]
      have hidden : within context q (read context attName qs) (fresh context p).toNode = none := by
        rcases h with (name | ⟨_, created⟩) | ⟨values, _⟩
        · have other : (freshTag context p).localName ≠ q.localName := by
            rw [freshTag_localName]
            exact name
          exact within_fails context (matchesPart_otherName context other)
        · rw [within_toNode, read_fresh context created, ite_self]
        · exact within_fails context
            (matchesPart_otherValue context values (matchesPart_freshTag context p))
      apply List.findSome?_modifyFirst_of_unseen
      · intro n _ found
        obtain ⟨e, rfl, found⟩ := matches_element context found
        exact unseen e found
      · exact (unseen (fresh context p) (matchesPart_freshTag context p)).trans hidden

end Semaine.Xml
