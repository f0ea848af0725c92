import Semaine.Xml.PathCreation

/-! `xpath2doc` puts a value where the expression that it was given finds it. -/
namespace Semaine.Xml
open JavaText

section
variable (dom : DOMImplementation)

/-- XPath does not count the declaration of a namespace among the attributes. -/
structure AttributeName (name : Text) : Prop extends PlainName dom name where
  noDeclaration : name ≠ "xmlns".toList

structure PlainPart (part : PathPart) : Prop where
  valid : ValidPart dom part
  attName : ∀ a, part.attName = some a → AttributeName dom a
  attValue : ∀ v, part.attValue = some v → '\'' ∉ v

/-- An expression that means the same to XPath as to `xpath2doc`. -/
structure PlainPath (path : XPath) : Prop where
  parts : ∀ part ∈ path.parts, PlainPart dom part
  last : ∀ a, path.last = .attribute a → AttributeName dom a

end

def mergeText : List Node → List Node
  | [] => []
  | .text content :: rest =>
    match mergeText rest with
    | .text more :: rest => .text (content ++ more) :: rest
    | rest => if content = [] then rest else .text content :: rest
  | n :: rest => n :: mergeText rest

mutual

def Node.normalize : Node → Node
  | .element tag children => .element tag (mergeText (normalizeAll children))
  | n => n

def normalizeAll : List Node → List Node
  | [] => []
  | n :: rest => n.normalize :: normalizeAll rest

end

def Element.normalize (e : Element) : Element :=
  { e with children := mergeText (normalizeAll e.children) }

theorem elements_mergeText (ns : List Node) :
    (mergeText ns).filterMap Node.asElement = ns.filterMap Node.asElement := by
  induction ns with
  | nil => rfl
  | cons n rest ih =>
    cases n with
    | element tag children => exact congrArg ({ tag with children := children } :: ·) ih
    | other => exact ih
    | text content =>
      unfold mergeText
      rw [List.filterMap_cons_none rfl, ← ih]
      cases merged : mergeText rest with
      | nil =>
        dsimp only
        split <;> rfl
      | cons first others =>
        cases first with
        | text more => rfl
        | element tag children =>
          dsimp only
          split <;> rfl
        | other =>
          dsimp only
          split <;> rfl

theorem elements_normalizeAll (ns : List Node) :
    (normalizeAll ns).filterMap Node.asElement =
      (ns.filterMap Node.asElement).map Element.normalize := by
  induction ns with
  | nil => rfl
  | cons n rest ih =>
    cases n with
    | element tag children =>
      exact congrArg (Element.normalize { tag with children := children } :: ·) ih
    | text content => exact ih
    | other => exact ih

theorem elements_normalize (e : Element) : e.normalize.children.filterMap Node.asElement =
    (e.children.filterMap Node.asElement).map Element.normalize :=
  (elements_mergeText _).trans (elements_normalizeAll e.children)

/-- The XPath implementation evaluates the text of an expression. On the expressions that mean the
same to it as to `xpath2doc` it finds the first of the selected nodes. -/
structure XPathEngine (dom : DOMImplementation) (context : NamespaceContext) where
  evaluate : Text → Document → Text
  plain : ∀ {expr path}, splitXPathIntoParts expr = .ok path → PlainPath dom path →
    (∀ part ∈ path.parts, KnownPrefix context part) →
    ∀ doc, evaluate expr doc = Xml.evaluate context path doc.normalize

section
variable {context : NamespaceContext} {last : LastPart} {value : Text}

theorem select_cons (part : PathPart) (rest : List PathPart) (node : Element) :
    (select context last (part :: rest) node.normalize).head? =
      node.children.findSome? (within context part fun e =>
        (select context last rest e.normalize).head?) := by
  have sameTest : (matchesPart context part ·.toTag) ∘ Element.normalize =
      (matchesPart context part ·.toTag) := rfl
  rw [select, List.head?_flatMap, elements_normalize, List.filter_map, List.findSome?_map, sameTest]
  exact findSome_within context part _ node.children

def documentNode (doc : Document) : Element where
  localName := []
  children := [doc.toNode]

theorem evaluate_select (first : PathPart) (rest : List PathPart) (doc : Document) :
    evaluate context { parts := first :: rest, last := last } doc =
      (select context last (first :: rest) (documentNode doc)).headD [] := by
  have below : select context last (first :: rest) (documentNode doc) =
      (([doc.toNode].filterMap Node.asElement).filter (matchesPart context first ·.toTag)).flatMap
        (select context last rest) := rfl
  unfold evaluate
  rw [below, List.filterMap_cons_some (asElement_toNode doc), List.filterMap_nil, List.filter_cons]
  dsimp only
  split
  · rw [List.filter_nil, List.flatMap_cons, List.flatMap_nil, List.append_nil]
  · rfl

/-- The last element is tested for another value of the attribute that is set. -/
def Contradicts (last : LastPart) (value : Text) (parts : List PathPart) : Prop :=
  ∃ part a v, parts.getLast? = some part ∧ last = .attribute a ∧ part.attName = some a ∧
    part.attValue = some v ∧ v ≠ value

theorem not_contradicts_nil : ¬ Contradicts last value [] := by
  rintro ⟨part, _, _, isLast, _⟩
  cases isLast

theorem contradicts_cons {part next : PathPart} {rest : List PathPart} :
    Contradicts last value (part :: next :: rest) ↔ Contradicts last value (next :: rest) := by
  unfold Contradicts
  rw [List.getLast?_cons_cons]

theorem select_contradicts {parts : List PathPart} (contradicts : Contradicts last value parts)
    {node : Element} {found : Text} (member : found ∈ select context last parts node) :
    found ≠ value := by
  induction parts generalizing node with
  | nil => exact absurd contradicts not_contradicts_nil
  | cons part rest ih =>
    unfold select at member
    obtain ⟨e, matched, inside⟩ := List.mem_flatMap.mp member
    cases rest with
    | cons next rest => exact ih (contradicts_cons.mp contradicts) inside
    | nil =>
      obtain ⟨_, a, v, isLast, rfl, tested, required, differs⟩ := contradicts
      rw [List.getLast?_singleton, Option.some.injEq] at isLast
      subst isLast
      have matched := (List.mem_filter.mp matched).2
      unfold matchesPart passes at matched
      rw [tested, required] at matched
      simp only [Bool.and_eq_true, decide_eq_true_eq] at matched
      unfold select at inside
      have holds := Option.mem_toList.mp inside
      have same : e.getAttribute a = found := by
        unfold Tag.getAttribute
        rw [holds]
        rfl
      rw [← same, ← matched.2.2]
      exact differs

theorem evaluate_contradicts {first : PathPart} {rest : List PathPart} (given : value ≠ [])
    (contradicts : Contradicts last value (first :: rest)) (doc : Document) :
    evaluate context { parts := first :: rest, last := last } doc ≠ value := by
  rw [evaluate_select]
  cases found : select context last (first :: rest) (documentNode doc) with
  | nil => exact given.symm
  | cons x xs =>
    apply select_contradicts contradicts
    rw [found]
    exact .head xs

/-- The test of a part is of the attribute that is set on the element of that part. -/
def TestsWritten (part : PathPart) (rest : List PathPart) (last : LastPart) : Prop :=
  rest = [] ∧ ∃ a, last = .attribute a ∧ part.attName = some a

theorem passes_store {part : PathPart} {rest : List PathPart}
    (other : ¬ TestsWritten part rest last) (node : Element) :
    passes part (store context last value rest node).toTag = passes part node.toTag := by
  cases rest with
  | cons next rest => rfl
  | nil =>
    match last, other with
    | .text, _ => rfl
    | .attribute a, other =>
      have untested : part.attName ≠ some a := fun tested => other ⟨rfl, a, rfl, tested⟩
      exact passes_put node.toTag value untested

theorem passes_written {part : PathPart} {rest : List PathPart}
    (own : TestsWritten part rest last) (consistent : ¬ Contradicts last value (part :: rest))
    (node : Element) : passes part (store context last value rest node).toTag = true := by
  obtain ⟨rfl, a, rfl, tested⟩ := own
  have set : (store context (.attribute a) value [] node).toTag =
      node.toTag.putAttribute a value := rfl
  rw [set]
  unfold passes
  rw [tested]
  dsimp only
  unfold Tag.hasAttribute Tag.getAttribute
  rw [Tag.getAttribute?_put_same]
  cases required : part.attValue with
  | none => rfl
  | some v =>
    have same : v = value := by
      by_contra differs
      exact consistent ⟨part, a, v, rfl, rfl, tested, required, differs⟩
    simp [same]

theorem matchesPart_passes {part : PathPart} {t : Tag} : matchesPart context part t = true ↔
    (t.localName = part.localName ∧
      t.namespaceURI = part.nsPrefix.map (getNamespaceURI context)) ∧ passes part t = true := by
  unfold matchesPart
  rw [Bool.and_eq_true, Bool.and_eq_true, decide_eq_true_eq, decide_eq_true_eq]

variable (context last value) in
theorem store_names (rest : List PathPart) (node : Element) :
    (store context last value rest node).localName = node.localName ∧
      (store context last value rest node).namespaceURI = node.namespaceURI := by
  cases rest with
  | cons next rest => exact ⟨rfl, rfl⟩
  | nil => cases last <;> exact ⟨rfl, rfl⟩

theorem matchesPart_store {part : PathPart} {rest : List PathPart}
    (consistent : ¬ Contradicts last value (part :: rest)) {node : Element}
    (found : matchesPart context part node.toTag = true) :
    matchesPart context part (store context last value rest node).toTag = true := by
  obtain ⟨names, passed⟩ := matchesPart_passes.mp found
  obtain ⟨sameName, sameURI⟩ := store_names context last value rest node
  rw [matchesPart_passes, sameName, sameURI]
  refine ⟨names, ?_⟩
  by_cases own : TestsWritten part rest last
  · exact passes_written own consistent node
  · rw [passes_store own]
    exact passed

theorem select_store (given : value ≠ []) {parts : List PathPart}
    (consistent : ¬ Contradicts last value parts) (node : Element) :
    (select context last parts (store context last value parts node).normalize).head? =
      some value := by
  induction parts generalizing node with
  | nil =>
    match last with
    | .text =>
      have one : (store context .text value [] node).normalize.children = [.text value] := by
        change mergeText (normalizeAll (if value = [] then [] else [.text value])) = [.text value]
        rw [if_neg given]
        exact if_neg given
      unfold select
      rw [one]
      rfl
    | .attribute a =>
      have set : (store context (.attribute a) value [] node).normalize.getAttribute? a =
          some value := Tag.getAttribute?_put_same node.toTag a value
      exact congrArg (fun found => found.toList.head?) set
  | cons part rest ih =>
    have deeper : ∀ e : Element, (select context last rest
        (store context last value rest e).normalize).head? = some value := by
      intro e
      cases rest with
      | nil => exact ih not_contradicts_nil e
      | cons next rest => exact ih (contradicts_cons.not.mp consistent) e
    have inside : ∀ e : Element, matchesPart context part e.toTag = true →
        within context part (fun e => (select context last rest e.normalize).head?)
          (store context last value rest e).toNode = some value := by
      intro e found
      rw [within_toNode, if_pos (matchesPart_store consistent found)]
      exact deeper e
    rw [select_cons]
    apply List.findSome?_modifyFirst_of_seen
    · intro n _ found
      obtain ⟨e, rfl, found⟩ := matches_element context found
      exact inside e found
    · exact inside (fresh context part) (matchesPart_freshTag context part)
    · intro n _ fails
      unfold within
      cases element : n.asElement with
      | none => rfl
      | some e =>
        rw [asElement_eq element, matches_toNode] at fails
        simp [fails]

variable {dom : DOMImplementation}

/-- The value is found on the returned document by the expression that it was put with. -/
def PutsWhatItGets (engine : XPathEngine dom context) (expr value : Text)
    (document : Option Document) : Prop :=
  ∃ doc, (xpath2doc dom expr (some value) context document).2 = .ok doc ∧
    engine.evaluate expr doc = value

variable (context) in
/-- The root passes the test of the first part, or it is given what is tested. -/
def RootFits (document : Option Document) (first : PathPart) (rest : List PathPart)
    (last : LastPart) : Prop :=
  passes first (startRoot context document first).toTag = true ∨ TestsWritten first rest last

theorem startRoot_root {document : Option Document} {first : PathPart}
    (isRoot : ∀ root, document = some root → IsRoot context first root) :
    IsRoot context first (startRoot context document first) := by
  cases document with
  | none => exact ⟨rfl, rfl⟩
  | some root => exact isRoot root rfl

theorem evaluate_store (given : value ≠ []) {first : PathPart} {rest : List PathPart}
    {document : Option Document}
    (isRoot : ∀ root, document = some root → IsRoot context first root) :
    evaluate context { parts := first :: rest, last := last }
        (store context last value rest (startRoot context document first)).normalize = value ↔
      RootFits context document first rest last ∧ ¬ Contradicts last value (first :: rest) := by
  have names := startRoot_root isRoot
  obtain ⟨sameName, sameURI⟩ := store_names context last value rest
    (startRoot context document first)
  have found : matchesPart context first
      (store context last value rest (startRoot context document first)).normalize.toTag = true ↔
      passes first (store context last value rest (startRoot context document first)).toTag =
        true := by
    have sameTag : (store context last value rest (startRoot context document first)).normalize.toTag
      = (store context last value rest (startRoot context document first)).toTag := rfl
    rw [sameTag, matchesPart_passes, sameName, sameURI]
    exact and_iff_right names
  constructor
  · intro gets
    have consistent : ¬ Contradicts last value (first :: rest) :=
      fun contradicts => evaluate_contradicts given contradicts _ gets
    refine ⟨?_, consistent⟩
    by_contra misfit
    obtain ⟨fails, other⟩ := not_or.mp misfit
    have kept : passes first (store context last value rest
        (startRoot context document first)).toTag = passes first _ := passes_store other _
    rw [← kept, ← found] at fails
    unfold evaluate at gets
    dsimp only at gets
    rw [if_neg fails] at gets
    exact given gets.symm
  · rintro ⟨fits, consistent⟩
    have passed : passes first
        (store context last value rest (startRoot context document first)).toTag = true := by
      by_cases own : TestsWritten first rest last
      · exact passes_written own consistent _
      · rw [passes_store own]
        exact fits.resolve_right own
    have deeper : ¬ Contradicts last value rest := by
      cases rest with
      | nil => exact not_contradicts_nil
      | cons next rest => exact contradicts_cons.not.mp consistent
    unfold evaluate
    dsimp only
    rw [if_pos (found.mpr passed), List.headD_eq_head?_getD, select_store given deeper]
    rfl

theorem puts_iff (engine : XPathEngine dom context) {expr : Text} {first : PathPart}
    {rest : List PathPart}
    (split : splitXPathIntoParts expr = .ok { parts := first :: rest, last := last })
    (plain : PlainPath dom { parts := first :: rest, last := last })
    (known : ∀ part ∈ first :: rest, KnownPrefix context part) (given : value ≠ [])
    {document : Option Document}
    (isRoot : ∀ root, document = some root → IsRoot context first root) :
    PutsWhatItGets engine expr value document ↔
      (Unshadowed context rest (startRoot context document first) ∧
        ∀ part ∈ created context document first rest, Unreserved context part) ∧
      RootFits context document first rest last ∧ ¬ Contradicts last value (first :: rest) := by
  have setable : ∀ a, last = .attribute a → PlainName dom a :=
    fun a same => (plain.last a same).toPlainName
  have valid : ∀ part ∈ first :: rest, ValidPart dom part :=
    fun part member => (plain.parts part member).valid
  rw [← evaluate_store given isRoot]
  unfold PutsWhatItGets
  constructor
  · rintro ⟨doc, done, gets⟩
    obtain ⟨stores, rfl⟩ := (xpath2doc_iff split setable valid known isRoot).mp done
    rw [engine.plain split plain known] at gets
    exact ⟨stores, gets⟩
  · rintro ⟨stores, gets⟩
    refine ⟨_, (xpath2doc_iff split setable valid known isRoot).mpr ⟨stores, rfl⟩, ?_⟩
    rw [engine.plain split plain known]
    exact gets

/-- Where the root is what the expression asks for and no child without a namespace is in the way,
the expression finds the value unless the name of a new element is reserved or the last test asks
for another value. -/
theorem xpath2doc_puts_iff (engine : XPathEngine dom context) {expr : Text} {first : PathPart}
    {rest : List PathPart}
    (split : splitXPathIntoParts expr = .ok { parts := first :: rest, last := last })
    (plain : PlainPath dom { parts := first :: rest, last := last })
    (known : ∀ part ∈ first :: rest, KnownPrefix context part) (given : value ≠ [])
    {document : Option Document}
    (isRoot : ∀ root, document = some root → IsRoot context first root)
    (fits : RootFits context document first rest last)
    (clear : Unshadowed context rest (startRoot context document first)) :
    PutsWhatItGets engine expr value document ↔
      (∀ part ∈ created context document first rest, Unreserved context part) ∧
        ¬ Contradicts last value (first :: rest) := by
  rw [puts_iff engine split plain known given isRoot, and_iff_right clear, and_iff_right fits]

theorem newRoot_untested (engine : XPathEngine dom context) {expr : Text} {first : PathPart}
    {rest : List PathPart}
    (split : splitXPathIntoParts expr = .ok { parts := first :: rest, last := last })
    (plain : PlainPath dom { parts := first :: rest, last := last })
    (known : ∀ part ∈ first :: rest, KnownPrefix context part) (given : value ≠ [])
    (tested : first.attName ≠ none) (other : ¬ TestsWritten first rest last) :
    ¬ PutsWhatItGets engine expr value none := by
  have noRoot : ∀ root, none = some root → IsRoot context first root := by
    intro root same
    cases same
  rw [puts_iff engine split plain known given noRoot]
  rintro ⟨_, fits, _⟩
  have passed := fits.resolve_right other
  unfold passes at passed
  cases test : first.attName with
  | none => exact tested test
  | some a =>
    rw [test] at passed
    cases passed

end

/-- Names are of ASCII letters, and nothing but the expressions of `xpath2doc` is evaluated. -/
def asciiNames : DOMImplementation := { isXMLName := isAsciiName, asciiName := fun _ h => h }

def prefixA : NamespaceContext := AList.insert ['a'] "http://a".toList ∅

def partsEngine : XPathEngine asciiNames prefixA where
  evaluate expr doc :=
    match splitXPathIntoParts expr with
    | .ok path => evaluate prefixA path doc.normalize
    | .error _ => []
  plain split _ _ doc := by rw [split]

def rootPart : PathPart := { nsPrefix := some ['a'], localName := ['r'] }

def testedPart : PathPart where
  nsPrefix := some ['a']
  localName := ['b']
  attName := some ['x']
  attValue := some ['1']

theorem forall_parts {p : PathPart → Prop} (root : p rootPart) (tested : p testedPart) :
    ∀ part ∈ [rootPart, testedPart], p part :=
  List.forall_mem_cons.mpr ⟨root, List.forall_mem_singleton.mpr tested⟩

theorem attributeName_letter {c : Char} (letter : isAsciiName [c] = true) (noColon : ':' ∉ [c]) :
    AttributeName asciiNames [c] where
  given := List.cons_ne_nil c []
  valid := letter
  noColon := noColon
  noDeclaration := by
    intro same
    cases (List.cons.inj same).2

theorem plain_parts : ∀ part ∈ [rootPart, testedPart], PlainPart asciiNames part := by
  have a : AttributeName asciiNames ['a'] := attributeName_letter (by decide) (by decide)
  have b : AttributeName asciiNames ['b'] := attributeName_letter (by decide) (by decide)
  have r : AttributeName asciiNames ['r'] := attributeName_letter (by decide) (by decide)
  have x : AttributeName asciiNames ['x'] := attributeName_letter (by decide) (by decide)
  apply forall_parts
  · refine ⟨⟨r.toPlainName, fun p given => ?_, nofun⟩, nofun, nofun⟩
    cases given
    exact a.toPlainName
  · have attName : ∀ name, testedPart.attName = some name → AttributeName asciiNames name := by
      intro name tested
      cases tested
      exact x
    refine ⟨⟨b.toPlainName, fun p given => ?_, fun name tested =>
      (attName name tested).toPlainName⟩, attName, fun v required => ?_⟩
    · cases given
      exact a.toPlainName
    · cases required
      decide

theorem known_prefixA {part : PathPart} (given : part.nsPrefix = some ['a']) :
    KnownPrefix prefixA part := by
  intro p other
  cases given.symm.trans other
  decide

theorem known_parts : ∀ part ∈ [rootPart, testedPart], KnownPrefix prefixA part :=
  forall_parts (known_prefixA rfl) (known_prefixA rfl)

theorem unreserved_parts : ∀ part ∈ [rootPart, testedPart], Unreserved prefixA part := by
  have noXml : some ['a'] ≠ some "xml".toList := by decide
  apply forall_parts
  · exact ⟨by decide, fun xml => absurd xml noXml⟩
  · exact ⟨by decide, fun xml => absurd xml noXml⟩

theorem isRoot_none {first : PathPart} (root : Document) (same : none = some root) :
    IsRoot prefixA first root := by
  cases same

theorem xpath2doc_puts_text : PutsWhatItGets partsEngine "/a:r/a:b[@x='1']/text()".toList
    "v".toList none := by
  have split : splitXPathIntoParts "/a:r/a:b[@x='1']/text()".toList =
      .ok { parts := [rootPart, testedPart], last := .text } := by
    decide
  have consistent : ¬ Contradicts .text "v".toList [rootPart, testedPart] := by
    rintro ⟨_, a, _, _, text, _⟩
    cases text
  exact (xpath2doc_puts_iff partsEngine split ⟨plain_parts, nofun⟩ known_parts (by decide)
    isRoot_none (.inl rfl) (unshadowed_childless rfl)).mpr ⟨unreserved_parts, consistent⟩

/-- A test of the attribute that is set for another value, and a name that is not one of XML. -/
theorem xpath2doc_unread :
    (splitXPathIntoParts "/a:r/a:b[@x='1']/@x".toList =
        .ok { parts := [rootPart, testedPart], last := .attribute ['x'] } ∧
      (∀ part ∈ [rootPart, testedPart], KnownPrefix prefixA part) ∧
      ¬ PutsWhatItGets partsEngine "/a:r/a:b[@x='1']/@x".toList ['2'] none) ∧
    splitXPathIntoParts "/a:r s/@x".toList =
        .ok { parts := [{ rootPart with localName := "r s".toList }], last := .attribute ['x'] } ∧
      KnownPrefix prefixA { rootPart with localName := "r s".toList } ∧
      ¬ PutsWhatItGets partsEngine "/a:r s/@x".toList ['2'] none := by
  have split : splitXPathIntoParts "/a:r/a:b[@x='1']/@x".toList =
      .ok { parts := [rootPart, testedPart], last := .attribute ['x'] } := by
    decide
  have setable : ∀ a, LastPart.attribute ['x'] = .attribute a → AttributeName asciiNames a := by
    intro a same
    cases same
    exact attributeName_letter (by decide) (by decide)
  refine ⟨⟨split, known_parts, ?_⟩, by decide, known_prefixA rfl, ?_⟩
  · rw [puts_iff partsEngine split ⟨plain_parts, setable⟩ known_parts (by decide) isRoot_none]
    rintro ⟨_, _, consistent⟩
    exact consistent ⟨_, ['x'], ['1'], rfl, rfl, rfl, rfl, by decide⟩
  · rintro ⟨doc, done, _⟩
    cases done

end Semaine.Xml
