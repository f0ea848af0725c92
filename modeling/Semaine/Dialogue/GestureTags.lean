import Semaine.Dialogue.SpeechMarks

/-! Which gesture tags a document has, and whether they are anchored at their words. -/
namespace Semaine.Dialogue
open JavaText Semaine.Xml Outcome

theorem tagName_plain {argName name type : Text} (named : tagName argName = some (name, type)) :
    ':' ∉ name := by
  unfold tagName at named
  split at named
  · split at named
    · rename_i first second pieces
      cases named
      apply notMem_split (s := argName)
      rw [pieces]
      exact .head _
    · cases named
  · cases named

theorem tagName_other {argName : Text} {tag : Text × Text} (named : tagName argName = some tag) :
    argName ≠ "response2".toList := by
  unfold tagName at named
  split at named
  · rename_i allowed
    exact allowed.2.1
  · cases named

section
variable {env : Environment} {counter : Nat}

theorem tagElement_ok_iff {parent : Element} (block : IsBlock parent) {name type : Text}
    (plain : ':' ∉ name) {tagCounter : Nat} {marks : Nat × Nat} :
    (∃ node, tagElement env parent counter tagCounter name type marks = .ok node) ↔
      IsElementName env.dom name := by
  have id : isAsciiName "id".toList = true := by decide
  have typed : isAsciiName "type".toList = true := by decide
  have start : isAsciiName "start".toList = true := by decide
  have stop : isAsciiName "end".toList = true := by decide
  have importance : isAsciiName "importance".toList = true := by decide
  constructor
  · rintro ⟨node, made⟩
    obtain ⟨child, created, _⟩ := bind_ok made
    exact ((childElement_ok_iff block plain).mp created).1
  · intro valid
    unfold tagElement
    rw [(childElement_ok_iff block plain).mpr ⟨valid, rfl⟩]
    simp only [bind, Except.bind, setAttribute_ascii _ id, setAttribute_ascii _ typed,
      setAttribute_ascii _ start, setAttribute_ascii _ stop, setAttribute_ascii _ importance]
    exact ⟨_, rfl⟩

theorem tagElement_gesture {parent : Element} (block : IsBlock parent) {name type : Text}
    (plain : ':' ∉ name) {tagCounter : Nat} {marks : Nat × Nat} {node : Node}
    (made : tagElement env parent counter tagCounter name type marks = .ok node) :
    IsGesture name type (markName counter marks.1) (markName counter marks.2) node := by
  obtain ⟨child, created, made⟩ := bind_ok made
  obtain ⟨_, rfl⟩ := (childElement_ok_iff block plain).mp created
  obtain ⟨_, id, made⟩ := bind_ok made
  obtain ⟨_, typed, made⟩ := bind_ok made
  obtain ⟨_, start, made⟩ := bind_ok made
  obtain ⟨_, stop, made⟩ := bind_ok made
  obtain ⟨_, importance, made⟩ := bind_ok made
  cases setAttribute_ok id
  cases setAttribute_ok typed
  cases setAttribute_ok start
  cases setAttribute_ok stop
  cases setAttribute_ok importance
  cases made
  refine ⟨_, rfl, rfl, ?_, ?_, ?_⟩
  · rw [Tag.getAttribute?_put_other _ _ (by decide), Tag.getAttribute?_put_other _ _ (by decide),
      Tag.getAttribute?_put_other _ _ (by decide), Tag.getAttribute?_put_same]
  · rw [Tag.getAttribute?_put_other _ _ (by decide), Tag.getAttribute?_put_other _ _ (by decide),
      Tag.getAttribute?_put_same]
  · rw [Tag.getAttribute?_put_other _ _ (by decide), Tag.getAttribute?_put_same]

def extend (blocks : Element × Element) (pitchAccents tags : List Node) : Element × Element :=
  ({ blocks.1 with children := blocks.1.children ++ pitchAccents },
    { blocks.2 with children := blocks.2.children ++ tags })

def AreBlocks (blocks : Element × Element) : Prop := IsBlock blocks.1 ∧ IsBlock blocks.2

theorem AreBlocks.extend {blocks : Element × Element} (h : AreBlocks blocks)
    (pitchAccents tags : List Node) : AreBlocks (extend blocks pitchAccents tags) := h

theorem extend_extend (blocks : Element × Element) (ps qs ts us : List Node) :
    extend (extend blocks ps ts) qs us = extend blocks (ps ++ qs) (ts ++ us) := by
  simp only [extend, List.append_assoc]

theorem extend_nil (blocks : Element × Element) : extend blocks [] [] = blocks := by
  simp only [extend, List.append_nil]

def place (name : Text) (tag : Node) (blocks : Element × Element) : Element × Element :=
  if name = "pitchaccent".toList then extend blocks [tag] [] else extend blocks [] [tag]

theorem place_cases (name : Text) (tag : Node) (blocks : Element × Element) :
    ∃ ps ts, place name tag blocks = extend blocks ps ts ∧ ps ++ ts = [tag] := by
  unfold place
  split
  · exact ⟨[tag], [], rfl, rfl⟩
  · exact ⟨[], [tag], rfl, rfl⟩

variable {s : Text} {marks : Nat}

/-- An argument that stands for a tag, with the marks that the tag reaches from and to. -/
def Stands (env : Environment) (s : Text) (marks : Nat) (argument : Text × Text)
    (name type : Text) (span : Nat × Nat) : Prop :=
  tagName argument.1 = some (name, type) ∧ tagMarks env s argument.2 marks = .ok (some span)

/-- An argument that does not end the call: its patterns can be compiled, and an element can have
its name, if there is to be one. -/
def Usable (env : Environment) (s : Text) (marks : Nat) (argument : Text × Text) : Prop :=
  ∀ name type, tagName argument.1 = some (name, type) →
    ∃ found, tagMarks env s argument.2 marks = .ok found ∧
      (found ≠ none → IsElementName env.dom name)

theorem addTags_skip {argName argValue : Text} {argNames argValues : List Text}
    {tagCounter : Nat} {blocks : Element × Element}
    (skipped : tagName argName = none ∨ tagMarks env s argValue marks = .ok none) :
    addTags env s counter marks (argName :: argNames) (argValue :: argValues) tagCounter blocks =
      addTags env s counter marks argNames argValues tagCounter blocks := by
  obtain ⟨bml, fml⟩ := blocks
  rw [addTags, List.head?_cons, List.tail_cons]
  cases named : tagName argName with
  | none => rfl
  | some tag =>
    rcases skipped with absent | none
    · rw [named] at absent
      cases absent
    · dsimp only
      rw [none]
      rfl

theorem addTags_found (argNames argValues : List Text) (counter tagCounter : Nat)
    (blocks : Element × Element) {argName argValue name type : Text} {span : Nat × Nat}
    (found : Stands env s marks (argName, argValue) name type span) :
    ∃ parent, (parent = blocks.1 ∨ parent = blocks.2) ∧
      addTags env s counter marks (argName :: argNames) (argValue :: argValues) tagCounter blocks =
        (tagElement env parent counter tagCounter name type span).bind fun tag =>
          addTags env s counter marks argNames argValues (tagCounter + 1)
            (place name tag blocks) := by
  obtain ⟨bml, fml⟩ := blocks
  obtain ⟨named, matched⟩ := found
  rw [addTags, List.head?_cons, List.tail_cons, named]
  dsimp only at matched ⊢
  rw [matched]
  simp only [bind, Except.bind]
  by_cases pitch : name = "pitchaccent".toList
  · refine ⟨bml, .inl rfl, ?_⟩
    simp only [if_pos pitch, place, extend, List.append_nil, Element.appendChild]
  · refine ⟨fml, .inr rfl, ?_⟩
    simp only [if_neg pitch, place, extend, List.append_nil, Element.appendChild]

theorem addTags_noValues {argNames : List Text} {tagCounter : Nat}
    {blocks : Element × Element} :
    addTags env s counter marks argNames [] tagCounter blocks = .ok blocks := by
  obtain ⟨bml, fml⟩ := blocks
  induction argNames with
  | nil => rfl
  | cons argName argNames ih =>
    rw [addTags, List.head?_nil, List.tail_nil]
    cases tagName argName <;> exact ih

theorem addTags_ok_iff {argNames argValues : List Text} {tagCounter : Nat}
    {blocks : Element × Element} (areBlocks : AreBlocks blocks) :
    (∃ blocks', addTags env s counter marks argNames argValues tagCounter blocks = .ok blocks') ↔
      ∀ argument ∈ argNames.zip argValues, Usable env s marks argument := by
  induction argNames generalizing argValues tagCounter blocks with
  | nil => exact ⟨fun _ => nofun, fun _ => ⟨blocks, rfl⟩⟩
  | cons argName argNames ih =>
    cases argValues with
    | nil =>
      rw [addTags_noValues, List.zip_nil_right]
      exact ⟨fun _ => nofun, fun _ => ⟨blocks, rfl⟩⟩
    | cons argValue argValues =>
      rw [List.zip_cons_cons, List.forall_mem_cons]
      cases named : tagName argName with
      | none =>
        rw [addTags_skip (.inl named), ih areBlocks]
        refine (and_iff_right ?_).symm
        intro name type given
        cases named.symm.trans given
      | some tag =>
        obtain ⟨name, type⟩ := tag
        cases matched : tagMarks env s argValue marks with
        | error e =>
          refine ⟨?_, ?_⟩
          · rintro ⟨blocks', done⟩
            rw [addTags, List.head?_cons, List.tail_cons, named] at done
            dsimp only at done
            rw [matched] at done
            cases done
          · rintro ⟨usable, _⟩
            obtain ⟨found, fine, _⟩ := usable name type named
            cases matched.symm.trans fine
        | ok found =>
          cases found with
          | none =>
            rw [addTags_skip (.inr matched), ih areBlocks]
            refine (and_iff_right ?_).symm
            intro name' type' given
            exact ⟨none, matched, fun some => absurd rfl some⟩
          | some span =>
            obtain ⟨parent, among, step⟩ := addTags_found argNames argValues counter tagCounter
              blocks ⟨named, matched⟩
            have block : IsBlock parent := by
              rcases among with rfl | rfl
              · exact areBlocks.1
              · exact areBlocks.2
            have plain := tagName_plain named
            have made : (∃ node, tagElement env parent counter tagCounter name type span =
                .ok node) ↔ IsElementName env.dom name := tagElement_ok_iff block plain
            rw [step]
            constructor
            · rintro ⟨blocks', done⟩
              obtain ⟨tag, first, rest⟩ := bind_ok done
              obtain ⟨ps, ts, placed, _⟩ := place_cases name tag blocks
              rw [placed] at rest
              refine ⟨?_, (ih (areBlocks.extend ps ts)).mp ⟨blocks', rest⟩⟩
              intro name' type' given
              cases named.symm.trans given
              exact ⟨some span, matched, fun _ => made.mp ⟨tag, first⟩⟩
            · rintro ⟨usable, others⟩
              obtain ⟨found, fine, valid⟩ := usable name type named
              cases matched.symm.trans fine
              obtain ⟨tag, first⟩ := made.mpr (valid (Option.some_ne_none span))
              obtain ⟨ps, ts, placed, _⟩ := place_cases name tag blocks
              have left : ∃ blocks', addTags env s counter marks argNames argValues
                  (tagCounter + 1) (extend blocks ps ts) = .ok blocks' :=
                (ih (areBlocks.extend ps ts)).mpr others
              obtain ⟨blocks', rest⟩ := left
              refine ⟨blocks', ?_⟩
              rw [first, ← rest, ← placed]
              rfl

def IsTagOf (env : Environment) (s : Text) (marks counter : Nat) (argument : Text × Text)
    (node : Node) : Prop :=
  ∃ name type span, Stands env s marks argument name type span ∧
    IsGesture name type (markName counter span.1) (markName counter span.2) node

theorem addTags_nodes {argNames argValues : List Text} {tagCounter : Nat}
    {blocks blocks' : Element × Element} (areBlocks : AreBlocks blocks)
    (done : addTags env s counter marks argNames argValues tagCounter blocks = .ok blocks') :
    ∃ ps ts, blocks' = extend blocks ps ts ∧
      (∀ node ∈ ps ++ ts, ∃ argument ∈ argNames.zip argValues,
        IsTagOf env s marks counter argument node) ∧
      ∀ argument ∈ argNames.zip argValues, ∀ name type span,
        Stands env s marks argument name type span → ∃ node ∈ ps ++ ts,
          IsGesture name type (markName counter span.1) (markName counter span.2) node := by
  induction argNames generalizing argValues tagCounter blocks with
  | nil =>
    cases done
    exact ⟨[], [], (extend_nil _).symm, nofun, nofun⟩
  | cons argName argNames ih =>
    cases argValues with
    | nil =>
      rw [addTags_noValues] at done
      cases done
      rw [List.zip_nil_right]
      exact ⟨[], [], (extend_nil _).symm, nofun, nofun⟩
    | cons argValue argValues =>
      rw [List.zip_cons_cons]
      by_cases stands : ∃ name type span, Stands env s marks (argName, argValue) name type span
      · obtain ⟨name, type, span, found⟩ := stands
        obtain ⟨parent, among, step⟩ := addTags_found argNames argValues counter tagCounter blocks
          found
        have block : IsBlock parent := by
          rcases among with rfl | rfl
          · exact areBlocks.1
          · exact areBlocks.2
        rw [step] at done
        obtain ⟨tag, first, rest⟩ := bind_ok done
        have gesture := tagElement_gesture block (tagName_plain found.1) first
        obtain ⟨ps, ts, placed, nodes⟩ := place_cases name tag blocks
        rw [placed] at rest
        obtain ⟨qs, us, shape, ofArguments, hasNode⟩ := ih (areBlocks.extend ps ts) rest
        rw [extend_extend] at shape
        have mem_iff (node : Node) :
            node ∈ (ps ++ qs) ++ (ts ++ us) ↔ node ∈ ps ++ ts ∨ node ∈ qs ++ us := by
          simp only [List.mem_append]
          tauto
        refine ⟨ps ++ qs, ts ++ us, shape, ?_, ?_⟩
        · intro node member
          rcases (mem_iff node).mp member with new | later
          · rw [nodes, List.mem_singleton] at new
            rw [new]
            exact ⟨_, .head _, name, type, span, found, gesture⟩
          · obtain ⟨argument, among', tagOf⟩ := ofArguments node later
            exact ⟨argument, .tail _ among', tagOf⟩
        · intro argument among' name' type' span' found'
          rcases List.mem_cons.mp among' with rfl | later
          · cases found.1.symm.trans found'.1
            cases found.2.symm.trans found'.2
            exact ⟨tag, (mem_iff tag).mpr (.inl (by rw [nodes]; exact .head _)), gesture⟩
          · obtain ⟨node, member, gesture'⟩ := hasNode argument later name' type' span' found'
            exact ⟨node, (mem_iff node).mpr (.inr member), gesture'⟩
      · have skipped : tagName argName = none ∨ tagMarks env s argValue marks = .ok none := by
          cases named : tagName argName with
          | none => exact .inl rfl
          | some tag =>
            obtain ⟨name, type⟩ := tag
            cases matched : tagMarks env s argValue marks with
            | error e =>
              rw [addTags, List.head?_cons, List.tail_cons, named] at done
              dsimp only at done
              rw [matched] at done
              cases done
            | ok found =>
              cases found with
              | none => exact .inr rfl
              | some span => exact absurd ⟨name, type, span, named, matched⟩ stands
        rw [addTags_skip skipped] at done
        obtain ⟨ps, ts, shape, ofArguments, hasNode⟩ := ih areBlocks done
        refine ⟨ps, ts, shape, ?_, ?_⟩
        · intro node member
          obtain ⟨argument, among, tagOf⟩ := ofArguments node member
          exact ⟨argument, .tail _ among, tagOf⟩
        · intro argument among name type span found
          rcases List.mem_cons.mp among with rfl | later
          · exact absurd ⟨name, type, span, found⟩ stands
          · exact hasNode argument later name type span found

section
variable {character : Option Text} {response : Response} {argNames argValues : List Text}
  {doc : Document}

def Response.arguments (response : Response) (argNames argValues : List Text) :
    List (Text × Text) :=
  (argNames ++ response.argNames).zip (argValues ++ response.argValues)

def lastMark (s : Text) : Nat := (split s ' ').length + 1

theorem areBlocks_start (character : Option Text) (counter : Nat) (s : Text) :
    AreBlocks (bmlBlock env character counter s, fmlBlock counter) :=
  ⟨isBlock_bml counter _, isBlock_fml counter _⟩

theorem fmlDocument_ok_iff :
    (∃ doc, fmlDocument env character counter response argNames argValues = .ok doc) ↔
      ∀ argument ∈ response.arguments argNames argValues,
        Usable env response.response (lastMark response.response) argument := by
  unfold Response.arguments lastMark
  rw [fmlDocument_eq, ← addTags_ok_iff (areBlocks_start character counter response.response)]
  constructor
  · rintro ⟨doc, built⟩
    obtain ⟨blocks, done, _⟩ := map_ok built
    exact ⟨blocks, done⟩
  · rintro ⟨blocks, done⟩
    rw [done]
    exact ⟨_, rfl⟩

theorem fmlDocument_nodes
    (built : fmlDocument env character counter response argNames argValues = .ok doc) :
    speechNodes doc = markNodes counter (split response.response ' ') 1 ∧
      (∀ node ∈ tagNodes doc, ∃ argument ∈ response.arguments argNames argValues,
        IsTagOf env response.response (lastMark response.response) counter argument node) ∧
      ∀ argument ∈ response.arguments argNames argValues, ∀ name type span,
        Stands env response.response (lastMark response.response) argument name type span →
          ∃ node ∈ tagNodes doc,
            IsGesture name type (markName counter span.1) (markName counter span.2) node := by
  rw [fmlDocument_eq] at built
  obtain ⟨blocks, done, rfl⟩ := map_ok built
  obtain ⟨ps, ts, rfl, nodes⟩ :=
    addTags_nodes (areBlocks_start character counter response.response) done
  exact ⟨rfl, nodes⟩

end

end

end Semaine.Dialogue
