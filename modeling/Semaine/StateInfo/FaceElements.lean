import Semaine.StateInfo.Faces

/-! The faces of a user state: the children of its one `bml:bml` element that paths about faces
lead to. Writing along such a path is writing an item about faces, and other paths lead
elsewhere. -/
namespace Semaine.StateInfo
open JavaText Semaine.Xml

def bmlPart : PathPart := { nsPrefix := some "bml".toList, localName := "bml".toList }

def facePart : PathPart := { nsPrefix := some "bml".toList, localName := "face".toList }

variable (context : NamespaceContext)

def asPart (part : PathPart) (n : Node) : Option Element :=
  n.asElement.filter (fun e => matchesPart context part e.toTag)

def bmls (root : Element) : List Element := root.children.filterMap (asPart context bmlPart)

def faceTags (bml : Element) : List Tag :=
  (bml.children.filterMap (asPart context facePart)).map (·.toTag)

/-- There is at most one `bml:bml` element, and it contains these faces. -/
inductive HasFaces (root : Element) : List Tag → Prop where
  | none (none : bmls context root = []) : HasFaces root []
  | one {bml : Element} (one : bmls context root = [bml]) : HasFaces root (faceTags context bml)

theorem asPart_toNode (part : PathPart) (e : Element) :
    asPart context part e.toNode = if matchesPart context part e.toTag then some e else none := by
  simp [asPart, Option.filter]

theorem asPart_none {part : PathPart} {n : Node} :
    asPart context part n = none ↔ n.matches context part = false := by
  cases element : n.asElement <;> simp [asPart, Node.matches, element, Option.filter]

theorem asPart_some {part : PathPart} {n : Node} {e : Element}
    (h : asPart context part n = some e) :
    n = e.toNode ∧ matchesPart context part e.toTag = true := by
  simp only [asPart, Option.filter_eq_some_iff] at h
  exact ⟨asElement_eq h.1, h.2⟩

theorem asPart_otherName {part : PathPart} {e : Element} (h : e.localName ≠ part.localName) :
    asPart context part e.toNode = none := by
  rw [asPart_none, matches_toNode]
  exact matchesPart_otherName context h

theorem selected_of_otherName {part p : PathPart} {attName value : Text} {rest : List PathPart}
    (other : p.localName ≠ part.localName) (node : Element) :
    (write context attName value (p :: rest) node).children.filterMap (asPart context part) =
      node.children.filterMap (asPart context part) := by
  have unseen : ∀ e : Element, e.localName = p.localName →
      asPart context part (write context attName value rest e).toNode = none := by
    intro e name
    apply asPart_otherName
    rw [write_localName, name]
    exact other
  apply List.filterMap_modifyFirst_of_unseen
  · intro n _ found
    obtain ⟨e, rfl, found⟩ := matches_element context found
    have name := matchesPart_localName context found
    rw [mapElement_toNode, unseen e name, asPart_otherName]
    rw [name]
    exact other
  · exact unseen _ (freshTag_localName context p)

theorem bmls_write (attName value : Text) (rest : List PathPart) (root : Element)
    (deeper : rest ≠ []) :
    bmls context (write context attName value (bmlPart :: rest) root) =
      (bmls context root).modifyFirst (fun _ => true) (write context attName value rest)
        (write context attName value rest (fresh context bmlPart)) := by
  have kept : ∀ e : Element, matchesPart context bmlPart e.toTag = true →
      asPart context bmlPart (write context attName value rest e).toNode =
        some (write context attName value rest e) := by
    intro e found
    rw [asPart_toNode, matchesPart_write context value e (by simp [deeper]), if_pos found]
  apply List.filterMap_modifyFirst
  · intro n _ skipped
    exact (asPart_none context).mp skipped
  · intro n _ e selected
    obtain ⟨rfl, found⟩ := asPart_some context selected
    exact found
  · intro n _ e selected _
    obtain ⟨rfl, found⟩ := asPart_some context selected
    exact kept e found
  · exact kept _ (matchesPart_freshTag context bmlPart)

theorem matchesPart_face (i : FaceItem) (t : Tag) :
    matchesPart context i.part t = (matchesPart context facePart t && passes i.part t) := by
  have untested : passes facePart t = true := rfl
  unfold matchesPart
  rw [untested, Bool.and_true]
  cases i <;> rfl

theorem freshTag_face (i : FaceItem) :
    matchesPart context facePart (freshTag context i.part) = true := by
  have found := matchesPart_freshTag context i.part
  rw [matchesPart_face, Bool.and_eq_true] at found
  exact found.1

theorem faceTags_write (i : FaceItem) (value : Text) (bml : Element) :
    faceTags context (write context i.attName value [i.part] bml) =
      faceWrite context i value (faceTags context bml) := by
  have faceTag : ∀ e : Element, matchesPart context facePart e.toTag = true →
      (asPart context facePart (write context i.attName value [] e).toNode).map (·.toTag) =
        some (e.toTag.putAttribute i.attName value) := by
    intro e found
    rw [asPart_toNode, matchesPart_write context value e (by simp [facePart]), if_pos found]
    rfl
  simp only [faceTags, List.map_filterMap]
  apply List.filterMap_modifyFirst
  · intro n _ skipped
    have skipped := (asPart_none context).mp (Option.map_eq_none_iff.mp skipped)
    unfold Node.matches at skipped ⊢
    cases element : n.asElement with
    | none => rfl
    | some e =>
      rw [element] at skipped
      simp only at skipped ⊢
      rw [matchesPart_face, skipped, Bool.false_and]
  · intro n _ t selected
    obtain ⟨e, isFace, rfl⟩ := Option.map_eq_some_iff.mp selected
    obtain ⟨rfl, found⟩ := asPart_some context isFace
    rw [matches_toNode, matchesPart_face, found, Bool.true_and]
  · intro n _ t selected _
    obtain ⟨e, isFace, rfl⟩ := Option.map_eq_some_iff.mp selected
    obtain ⟨rfl, found⟩ := asPart_some context isFace
    exact faceTag e found
  · exact faceTag (fresh context i.part) (freshTag_face context i)

def faceRest (i : FaceItem) : List PathPart := [bmlPart, i.part]

def sparesFaces : List PathPart → Bool
  | p :: q :: _ =>
    decide (p.localName ≠ bmlPart.localName) ||
      decide (p = bmlPart) && decide (q.localName ≠ facePart.localName)
  | [p] => decide (p.localName ≠ bmlPart.localName)
  | [] => false

theorem hasFaces_fresh (part : PathPart) : HasFaces context (fresh context part) [] :=
  .none rfl

theorem HasFaces.write {root : Element} {faces : List Tag} (h : HasFaces context root faces)
    (i : FaceItem) (value : Text) :
    HasFaces context (write context i.attName value (faceRest i) root)
      (faceWrite context i value faces) := by
  have written := bmls_write context i.attName value [i.part] root (by simp)
  cases h with
  | none none =>
    rw [none] at written
    have faces := faceTags_write context i value (fresh context bmlPart)
    have now := HasFaces.one written
    rw [faces] at now
    exact now
  | @one bml one =>
    rw [one] at written
    have faces := faceTags_write context i value bml
    have now := HasFaces.one written
    rw [faces] at now
    exact now

theorem HasFaces.spared {root : Element} {faces : List Tag} (h : HasFaces context root faces)
    (attName value : Text) {path : List PathPart} (spares : sparesFaces path = true) :
    HasFaces context (Semaine.Xml.write context attName value path root) faces := by
  have elsewhere : ∀ (p : PathPart) (rest : List PathPart), p.localName ≠ bmlPart.localName →
      HasFaces context (Semaine.Xml.write context attName value (p :: rest) root) faces := by
    intro p rest other
    have kept : bmls context (Semaine.Xml.write context attName value (p :: rest) root) =
        bmls context root := selected_of_otherName context other root
    cases h with
    | none none => exact .none (kept.trans none)
    | one one => exact .one (kept.trans one)
  cases path with
  | nil => cases spares
  | cons p rest =>
    cases rest with
    | nil => exact elsewhere p [] (of_decide_eq_true spares)
    | cons q rest =>
      simp only [sparesFaces, Bool.or_eq_true, Bool.and_eq_true, decide_eq_true_eq] at spares
      rcases spares with other | ⟨rfl, other⟩
      · exact elsewhere p (q :: rest) other
      · have written := bmls_write context attName value (q :: rest) root (by simp)
        have kept : ∀ bml : Element,
            faceTags context (Semaine.Xml.write context attName value (q :: rest) bml) =
              faceTags context bml := by
          intro bml
          unfold faceTags
          rw [selected_of_otherName context other bml]
        cases h with
        | none none =>
          rw [none] at written
          have now := HasFaces.one written
          rw [kept] at now
          exact now
        | @one bml one =>
          rw [one] at written
          have now := HasFaces.one written
          rw [kept] at now
          exact now

theorem findSome?_within (part : PathPart) (search : Element → Option Text) (ns : List Node) :
    ns.findSome? (within context part search) =
      (ns.filterMap (asPart context part)).findSome? search := by
  rw [List.findSome?_filterMap]
  congr 1
  funext n
  unfold within asPart
  cases n.asElement with
  | none => rfl
  | some e =>
    simp only [Option.bind_some, Option.filter]
    split <;> rfl

theorem HasFaces.read {root : Element} {faces : List Tag} (h : HasFaces context root faces)
    (i : FaceItem) :
    Semaine.Xml.read context i.attName (faceRest i) root = faceRead i faces := by
  have ofBml : ∀ bml : Element, Semaine.Xml.read context i.attName [i.part] bml =
      faceRead i (faceTags context bml) := by
    intro bml
    unfold Semaine.Xml.read faceRead faceTags
    rw [List.findSome?_map, List.findSome?_filterMap]
    congr 1
    funext n
    unfold within asPart
    cases n.asElement with
    | none => rfl
    | some e =>
      simp only [Option.bind_some, Option.filter, matchesPart_face, Bool.and_eq_true]
      by_cases face : matchesPart context facePart e.toTag = true
      · simp [face, Semaine.Xml.read]
      · simp [face]
  have ofRoot := findSome?_within context bmlPart
    (Semaine.Xml.read context i.attName [i.part]) root.children
  unfold faceRest
  rw [Semaine.Xml.read, ofRoot]
  cases h with
  | none none =>
    unfold bmls at none
    rw [none]
    rfl
  | one one =>
    unfold bmls at one
    rw [one, ← ofBml]
    simp

end Semaine.StateInfo
