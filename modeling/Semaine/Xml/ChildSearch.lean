import Semaine.Xml.PathStore

/-! The child that `xpath2doc` goes to: the first that matches the part, unless a child without a
namespace is compared before. -/
namespace Semaine.Xml
open JavaText

section
variable (context : NamespaceContext)

def locate (part : PathPart) : List Node → Nat → Option (Nat × Element)
  | [], _ => none
  | n :: ns, i =>
    match n.asElement with
    | some e => if matchesPart context part e.toTag then some (i, e) else locate part ns (i + 1)
    | none => locate part ns (i + 1)

theorem locate_none {part : PathPart} {ns : List Node} {k : Nat} (f : Node → Node) (new : Node)
    (h : locate context part ns k = none) :
    ns.modifyFirst (Node.matches context part) f new = ns ++ [new] := by
  induction ns generalizing k with
  | nil => rfl
  | cons n ns ih =>
    unfold locate at h
    have later : locate context part ns (k + 1) = none → Node.matches context part n = false →
        (n :: ns).modifyFirst (Node.matches context part) f new = n :: ns ++ [new] := by
      intro h fails
      rw [List.modifyFirst, if_neg (by simp [fails]), ih h]
      rfl
    cases element : n.asElement with
    | none =>
      rw [element] at h
      exact later h (by simp [Node.matches, element])
    | some e =>
      rw [element] at h
      simp only at h
      split at h
      · cases h
      · rename_i fails
        exact later h (by simpa [Node.matches, element] using fails)

theorem locate_some {part : PathPart} {ns : List Node} {i k : Nat} {e : Element}
    (f : Element → Element) (new : Node) (h : locate context part ns k = some (i, e)) :
    k ≤ i ∧ e.toNode ∈ ns ∧
      ns.modifyFirst (Node.matches context part) (mapElement f) new =
        ns.set (i - k) (f e).toNode := by
  induction ns generalizing k with
  | nil => cases h
  | cons n ns ih =>
    unfold locate at h
    have later : locate context part ns (k + 1) = some (i, e) →
        Node.matches context part n = false →
        k ≤ i ∧ e.toNode ∈ n :: ns ∧
          (n :: ns).modifyFirst (Node.matches context part) (mapElement f) new =
            (n :: ns).set (i - k) (f e).toNode := by
      intro h fails
      obtain ⟨after, member, changed⟩ := ih h
      have shift : i - k = (i - (k + 1)) + 1 := by omega
      refine ⟨by omega, .tail n member, ?_⟩
      rw [List.modifyFirst, if_neg (by simp [fails]), changed, shift]
      rfl
    cases element : n.asElement with
    | none =>
      rw [element] at h
      exact later h (by simp [Node.matches, element])
    | some e' =>
      rw [element] at h
      simp only at h
      split at h
      · rename_i found
        cases h
        have here := asElement_eq element
        subst here
        refine ⟨Nat.le_refl _, .head ns, ?_⟩
        rw [List.modifyFirst, if_pos (by simpa using found), Nat.sub_self]
        rfl
      · rename_i fails
        exact later h (by simpa [Node.matches, element] using fails)

theorem siblings_tail {nameOf : Tag → Text} {name : Text} {uri : Option Text} {ns : List Node}
    {i k : Nat} {rest : List Nat} (h : siblings nameOf name uri ns k = i :: rest) :
    k ≤ i ∧ rest = siblings nameOf name uri (ns.drop (i + 1 - k)) (i + 1) := by
  induction ns generalizing k with
  | nil => cases h
  | cons n ns ih =>
    have later : siblings nameOf name uri ns (k + 1) = i :: rest →
        k ≤ i ∧ rest = siblings nameOf name uri ((n :: ns).drop (i + 1 - k)) (i + 1) := by
      intro h
      obtain ⟨after, tail⟩ := ih h
      have shift : i + 1 - k = (i + 1 - (k + 1)) + 1 := by omega
      rw [shift, List.drop_succ_cons]
      exact ⟨by omega, tail⟩
    cases n with
    | element tag children =>
      unfold siblings at h
      split at h
      · cases h
        rw [Nat.add_sub_cancel_left]
        exact ⟨Nat.le_refl _, rfl⟩
      · exact later h
    | text content => exact later h
    | other => exact later h

/-- A child that has the name but no namespace comes before any that has the namespace, too. -/
def Shadowed (nameOf : Tag → Text) (name : Text) (uri : Option Text) (ns : List Node) : Prop :=
  ∃ before tag children after, ns = before ++ .element tag children :: after ∧
    nameOf tag = name ∧ tag.namespaceURI = none ∧
    ∀ tag' children', .element tag' children' ∈ before →
      ¬ (nameOf tag' = name ∧ tag'.namespaceURI = uri)

theorem not_shadowed_nil {nameOf : Tag → Text} {name : Text} {uri : Option Text} :
    ¬ Shadowed nameOf name uri [] := by
  rintro ⟨before, _, _, _, split, _⟩
  cases before <;> cases split

theorem shadowed_cons {nameOf : Tag → Text} {name : Text} {uri : Option Text} {n : Node}
    {ns : List Node} :
    Shadowed nameOf name uri (n :: ns) ↔
      (∃ tag children, n = .element tag children ∧ nameOf tag = name ∧ tag.namespaceURI = none) ∨
      ((∀ tag children, n = .element tag children →
        ¬ (nameOf tag = name ∧ tag.namespaceURI = uri)) ∧ Shadowed nameOf name uri ns) := by
  constructor
  · rintro ⟨before, tag, children, after, split, sameName, noURI, others⟩
    cases before with
    | nil =>
      cases split
      exact .inl ⟨tag, children, rfl, sameName, noURI⟩
    | cons first before =>
      obtain ⟨rfl, rest⟩ := List.cons.inj split
      refine .inr ⟨fun tag' children' same => ?_, before, tag, children, after, rest, sameName,
        noURI, fun tag' children' member => others tag' children' (.tail _ member)⟩
      rw [same] at others
      exact others tag' children' (.head before)
  · rintro (⟨tag, children, rfl, sameName, noURI⟩ | ⟨other, before, tag, children, after, rfl,
      sameName, noURI, others⟩)
    · exact ⟨[], tag, children, ns, rfl, sameName, noURI, nofun⟩
    · refine ⟨n :: before, tag, children, after, rfl, sameName, noURI, fun tag' children' member => ?_⟩
      rcases List.mem_cons.mp member with same | later
      · exact other tag' children' same.symm
      · exact others tag' children' later

theorem getChildElement_shadowed {nameOf : Tag → Text} {name : Text} {uri : Option Text}
    {ns : List Node} (shadowed : Shadowed nameOf name uri ns) (k : Nat) :
    getChildElement nameOf name uri ns k = .error .nullPointer := by
  induction ns generalizing k with
  | nil => exact absurd shadowed not_shadowed_nil
  | cons n ns ih =>
    rcases shadowed_cons.mp shadowed with ⟨tag, children, rfl, sameName, noURI⟩ | ⟨other, later⟩
    · unfold getChildElement
      rw [if_pos sameName, noURI]
    · have rest := ih later (k + 1)
      cases n with
      | element tag children =>
        unfold getChildElement
        by_cases sameName : nameOf tag = name
        · rw [if_pos sameName]
          cases own : tag.namespaceURI with
          | none => rfl
          | some u =>
            have differs : some u ≠ uri := fun same =>
              other tag children rfl ⟨sameName, own.trans same⟩
            dsimp only
            rw [if_neg differs]
            exact rest
        · rw [if_neg sameName]
          exact rest
      | text content => exact rest
      | other => exact rest

theorem getChildElement_first {nameOf : Tag → Text} {name : Text} {uri : Option Text}
    {ns : List Node} (plain : ¬ Shadowed nameOf name uri ns) (k : Nat) :
    getChildElement nameOf name uri ns k = .ok (siblings nameOf name uri ns k).head? := by
  induction ns generalizing k with
  | nil => rfl
  | cons n ns ih =>
    rw [shadowed_cons, not_or, not_and] at plain
    obtain ⟨named, later⟩ := plain
    cases n with
    | element tag children =>
      unfold getChildElement siblings
      by_cases sameName : nameOf tag = name
      · cases own : tag.namespaceURI with
        | none => exact absurd ⟨tag, children, rfl, sameName, own⟩ named
        | some u =>
          by_cases sameURI : some u = uri
          · simp [sameName, sameURI, isSameNamespace]
          · have rest := ih (later (by
              rintro _ _ same ⟨_, this⟩
              cases same
              exact sameURI (own.symm.trans this))) (k + 1)
            simp [sameName, sameURI, isSameNamespace, rest]
      · have rest := ih (later (by
          rintro _ _ same ⟨this, _⟩
          cases same
          exact sameName this)) (k + 1)
        simp [sameName, rest]
    | text content => exact ih (later nofun) (k + 1)
    | other => exact ih (later nofun) (k + 1)

theorem getChildren_first {nameOf : Tag → Text} {name : Text} {uri : Option Text} {node : Element}
    (plain : ¬ Shadowed nameOf name uri node.children) :
    getChildren nameOf node name uri = .ok (siblings nameOf name uri node.children 0) := by
  unfold getChildren
  rw [getChildElement_first plain 0]
  cases found : siblings nameOf name uri node.children 0 with
  | nil => rfl
  | cons i rest =>
    have tail := (siblings_tail found).2
    rw [tail]
    rfl

theorem find_locate {part : PathPart} {uri : Option Text} {all ns : List Node} (k : Nat)
    (known : part.nsPrefix.map (getNamespaceURI context) = uri)
    (suffix : ∀ j, all[k + j]? = ns[j]?) :
    ((siblings getLocalName part.localName uri ns k).filterMap
        (fun i => (all[i]?.bind Node.asElement).map (i, ·))).find?
      (fun c => passes part c.2.toTag) = locate context part ns k := by
  induction ns generalizing k with
  | nil => rfl
  | cons n ns ih =>
    have rest := ih (k + 1) (fun j => by
      rw [Nat.add_right_comm, Nat.add_assoc, suffix (j + 1)]
      rfl)
    have here : all[k]? = some n := suffix 0
    cases n with
    | element tag children =>
      let e : Element := { tag with children := children }
      have found : (all[k]?.bind Node.asElement).map (k, ·) = some (k, e) := by rw [here]; rfl
      have head : locate context part (.element tag children :: ns) k =
          if matchesPart context part e.toTag then some (k, e)
          else locate context part ns (k + 1) := rfl
      rw [head]
      unfold siblings
      by_cases same : tag.namespaceURI = uri ∧ tag.localName = part.localName
      · have isSame : (isSameNamespace tag.namespaceURI (uri) &&
            decide (getLocalName tag = part.localName)) = true := by
          simp [isSameNamespace, getLocalName, same]
        have matchesIff : matchesPart context part e.toTag = passes part tag := by
          simp [matchesPart, e, same, known]
        rw [if_pos isSame, List.filterMap_cons, found, matchesIff]
        simp only [List.find?_cons]
        cases passed : passes part tag with
        | true => simp only [e, if_pos]
        | false =>
          simp only [e, Bool.false_eq_true, if_false]
          exact rest
      · have isOther : (isSameNamespace tag.namespaceURI (uri) &&
            decide (getLocalName tag = part.localName)) ≠ true := by
          intro h
          simp only [isSameNamespace, getLocalName, Bool.and_eq_true, decide_eq_true_eq] at h
          exact same ⟨h.1, of_decide_eq_true h.2⟩
        have fails : matchesPart context part e.toTag ≠ true := by
          intro h
          simp only [matchesPart, e, known, Bool.and_eq_true, decide_eq_true_eq] at h
          exact same ⟨h.1.2, h.1.1⟩
        rw [if_neg isOther, if_neg fails]
        exact rest
    | text content => exact rest
    | other => exact rest

theorem existingChild_first {part : PathPart} {uri : Option Text} {node : Element}
    (known : part.nsPrefix.map (getNamespaceURI context) = uri)
    (plain : ¬ Shadowed getLocalName part.localName uri node.children) :
    existingChild node part uri = .ok (locate context part node.children 0) := by
  unfold existingChild getChildrenByLocalNameNS
  rw [getChildren_first plain]
  have found := find_locate context 0 known (fun j => congrArg (node.children[·]?) (Nat.zero_add j))
  exact congrArg Except.ok found

end

end Semaine.Xml
