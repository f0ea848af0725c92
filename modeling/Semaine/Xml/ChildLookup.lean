import Semaine.Xml.ChildSearch

/-! Looking up child elements: the two loops filter the children in document order, unless one of
the children has no namespace and stands before the first match. -/
namespace Semaine.Xml
open JavaText

section
variable (nameOf : Tag → Text) (name : Text) (uri : Option Text)

def isMatch : Node → Bool
  | .element tag _ => nameOf tag = name && isSameNamespace tag.namespaceURI uri
  | _ => false

def matchingPlaces (ns : List Node) : List Nat :=
  (List.range ns.length).filter fun i => (ns[i]?.map (isMatch nameOf name uri)).getD false

end

variable {nameOf : Tag → Text} {name : Text} {uri : Option Text}

theorem siblings_cons (n : Node) (ns : List Node) (k : Nat) :
    siblings nameOf name uri (n :: ns) k =
      (if isMatch nameOf name uri n then [k] else []) ++ siblings nameOf name uri ns (k + 1) := by
  cases n with
  | element tag children =>
    have own : isMatch nameOf name uri (.element tag children) =
        (isSameNamespace tag.namespaceURI uri && decide (nameOf tag = name)) := Bool.and_comm _ _
    rw [own, siblings]
    split
    · rfl
    · rfl
  | text content => rfl
  | other => rfl

theorem siblings_filter (ns : List Node) (k : Nat) :
    siblings nameOf name uri ns k = (matchingPlaces nameOf name uri ns).map (k + ·) := by
  induction ns generalizing k with
  | nil => rfl
  | cons n ns ih =>
    have shift : (matchingPlaces nameOf name uri ns).map (k + 1 + ·) =
        ((matchingPlaces nameOf name uri ns).map (· + 1)).map (k + ·) := by
      rw [List.map_map]
      apply List.map_congr_left
      intro i _
      exact Nat.add_right_comm k 1 i |>.trans (Nat.add_assoc k i 1)
    have places : matchingPlaces nameOf name uri (n :: ns) =
        (if isMatch nameOf name uri n then [0] else []) ++
          (matchingPlaces nameOf name uri ns).map (· + 1) := by
      unfold matchingPlaces
      have own : ((n :: ns)[0]?.map (isMatch nameOf name uri)).getD false =
          isMatch nameOf name uri n := rfl
      have later : (fun i => ((n :: ns)[i]?.map (isMatch nameOf name uri)).getD false) ∘ Nat.succ =
          fun i => (ns[i]?.map (isMatch nameOf name uri)).getD false := by
        funext i
        simp
      rw [List.length_cons, List.range_succ_eq_map, List.filter_cons, List.filter_map, own, later]
      cases isMatch nameOf name uri n with
      | true => rfl
      | false => rfl
    rw [siblings_cons, ih, shift, places, List.map_append]
    split
    · rfl
    · rfl

theorem siblings_places (ns : List Node) :
    siblings nameOf name uri ns 0 = matchingPlaces nameOf name uri ns := by
  have shifted : siblings nameOf name uri ns 0 =
      (matchingPlaces nameOf name uri ns).map (0 + ·) := siblings_filter ns 0
  simpa using shifted

theorem getChildElement_places {ns : List Node} :
    getChildElement nameOf name uri ns 0 = .ok (matchingPlaces nameOf name uri ns).head? ↔
      ¬ Shadowed nameOf name uri ns := by
  constructor
  · intro found shadowed
    rw [getChildElement_shadowed shadowed] at found
    cases found
  · intro plain
    rw [getChildElement_first plain, siblings_places]

theorem getChildren_places {node : Element} :
    getChildren nameOf node name uri = .ok (matchingPlaces nameOf name uri node.children) ↔
      ¬ Shadowed nameOf name uri node.children := by
  constructor
  · intro found shadowed
    unfold getChildren at found
    rw [getChildElement_shadowed shadowed] at found
    cases found
  · intro plain
    rw [getChildren_first plain, siblings_places]

structure FindsChildren (first : Except Thrown (Option Nat)) (all : Except Thrown (List Nat))
    (places : List Nat) : Prop where
  first : first = .ok places.head?
  all : all = .ok places

theorem findsChildren_iff {node : Element} :
    FindsChildren (getChildElement nameOf name uri node.children 0) (getChildren nameOf node name uri)
      (matchingPlaces nameOf name uri node.children) ↔ ¬ Shadowed nameOf name uri node.children := by
  constructor
  · intro finds
    exact getChildElement_places.mp finds.first
  · intro plain
    exact ⟨getChildElement_places.mpr plain, getChildren_places.mpr plain⟩

/-- The lookups by local name and by tag name each find what they should if and only if no child
with the name but without a namespace stands before the first match. -/
theorem childLookup_iff (node : Element) (childName : Text) (childNamespace : Option Text) :
    (FindsChildren (getChildElementByLocalNameNS node childName childNamespace)
        (getChildrenByLocalNameNS node childName childNamespace)
        (matchingPlaces getLocalName childName childNamespace node.children) ↔
      ¬ Shadowed getLocalName childName childNamespace node.children) ∧
    (FindsChildren (getChildElementByTagNameNS node childName childNamespace)
        (getChildrenByTagNameNS node childName childNamespace)
        (matchingPlaces getNodeName childName childNamespace node.children) ↔
      ¬ Shadowed getNodeName childName childNamespace node.children) :=
  ⟨findsChildren_iff, findsChildren_iff⟩

/-- A child without a namespace, looked up without a namespace. -/
theorem childWithoutNamespace_throws :
    ¬ ∀ (node : Element) (childName : Text) (childNamespace : Option Text),
      FindsChildren (getChildElementByLocalNameNS node childName childNamespace)
        (getChildrenByLocalNameNS node childName childNamespace)
        (matchingPlaces getLocalName childName childNamespace node.children) := by
  intro finds
  have failing := (finds { localName := ['r'], children := [.element { localName := ['x'] } []] }
    ['x'] none).first
  cases failing

end Semaine.Xml
