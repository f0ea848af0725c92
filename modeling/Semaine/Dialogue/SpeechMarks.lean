import Semaine.Dialogue.GestureMarks
import Semaine.Library.Outcome
import Semaine.Xml.ElementNames

/-! The document of a response: the words between their speech marks, and the tags that the
arguments stand for. -/
namespace Semaine.Dialogue
open JavaText Semaine.Xml Outcome

def speechNodes (doc : Document) : List Node :=
  match doc.children with
  | .element _ (.element _ nodes :: _) :: _ => nodes
  | _ => []

/-- The pitch accents after the speech in the first block, and the tags in the second. -/
def tagNodes (doc : Document) : List Node :=
  match doc.children with
  | [.element _ (_ :: pitchAccents), .element _ tags] => pitchAccents ++ tags
  | _ => []

def textsOf (nodes : List Node) : List Text :=
  nodes.filterMap fun
    | .text content => some content
    | _ => none

def IsMark (name : Text) (node : Node) : Prop :=
  ∃ tag, node = .element tag [] ∧ tag.localName = "mark".toList ∧
    tag.namespaceURI = some ssmlNamespace ∧ tag.getAttribute? "name".toList = some name

/-- A speech mark stands between the first words of a text and the others. -/
def MarkAfter (doc : Document) (words : List Text) (place : Nat) (name : Text) : Prop :=
  place ≤ words.length ∧ ∃ front mark back, speechNodes doc = front ++ mark :: back ∧
    IsMark name mark ∧ textsOf front = words.take place ∧ textsOf back = words.drop place

def IsGesture (name type start stop : Text) (node : Node) : Prop :=
  ∃ tag, node = .element tag [] ∧ tag.localName = name ∧
    tag.getAttribute? "type".toList = some type ∧
    tag.getAttribute? "start".toList = some start ∧ tag.getAttribute? "end".toList = some stop

section
variable {dom : DOMImplementation}

theorem setAttribute_ok {e f : Element} {name value : Text}
    (h : e.setAttribute dom name value = .ok f) :
    f = { e with toTag := e.toTag.putAttribute name value } := by
  unfold Element.setAttribute at h
  split at h
  · exact (Except.ok.inj h).symm
  · cases h

theorem setPrefix_valid {e : Element} {p uri : Text} (ascii : isAsciiName p = true)
    (namespaced : e.namespaceURI = some uri) (noXml : p ≠ "xml".toList) :
    e.setPrefix dom (some p) = .ok { e with nsPrefix := some p } := by
  have isNamed : e.namespaceURI ≠ none := by
    rw [namespaced]
    exact Option.some_ne_none uri
  exact (setPrefix_plain (.ascii ascii) isNamed).mpr ⟨fun xml => absurd xml noXml, rfl⟩

def IsElementName (dom : DOMImplementation) (name : Text) : Prop :=
  dom.isXMLName name = true ∧ name ≠ "xmlns".toList

/-- A namespace of elements: neither empty nor that of the namespace declarations. -/
def IsProper (uri : Text) : Prop := uri ≠ [] ∧ uri ≠ xmlnsURI

theorem createElementNS_ok_iff {name uri : Text} (plain : ':' ∉ name) (proper : IsProper uri)
    {e : Element} : createElementNS dom (some uri) name = .ok e ↔
      IsElementName dom name ∧ e = { localName := name, namespaceURI := some uri } := by
  have given : some uri ≠ some [] := by simpa using proper.1
  have other : some uri ≠ some xmlnsURI := by simpa using proper.2
  have allowed : (name = "xmlns".toList ↔ some uri = some xmlnsURI) ↔ name ≠ "xmlns".toList :=
    iff_false_right other
  rw [createElementNS_iff plain given, allowed]
  rfl

theorem createElementNS_valid {name uri : Text} (ascii : isAsciiName name = true)
    (noXmlns : name ≠ "xmlns".toList) (proper : IsProper uri) :
    createElementNS dom (some uri) name =
      .ok { localName := name, namespaceURI := some uri } :=
  (createElementNS_ok_iff (colon_not_ascii ascii) proper).mpr
    ⟨⟨dom.asciiName name ascii, noXmlns⟩, rfl⟩

end

theorem proper_ssml : IsProper ssmlNamespace := by
  unfold IsProper
  decide

theorem proper_bml : IsProper bmlNamespace := by
  unfold IsProper
  decide

theorem proper_fml : IsProper fmlNamespace := by
  unfold IsProper
  decide

section
variable (env : Environment) (counter : Nat)

def markTag : Tag where
  nsPrefix := some "ssml".toList
  localName := "mark".toList
  namespaceURI := some ssmlNamespace

def markNode (mark : Nat) : Node :=
  .element (markTag.putAttribute "name".toList (markName counter mark)) []

def markNodes : List Text → Nat → List Node
  | [], mark => [markNode counter mark]
  | word :: words, mark => markNode counter mark :: .text word :: markNodes words (mark + 1)

theorem markElement_eq (mark : Nat) :
    markElement env counter mark = .ok (markNode counter mark) := by
  have created : createElementNS env.dom (some ssmlNamespace) "mark".toList =
      .ok { localName := "mark".toList, namespaceURI := some ssmlNamespace } :=
    createElementNS_valid (by decide) (by decide) proper_ssml
  unfold markElement childElementNS
  rw [created]
  simp only [bind, Except.bind]
  rw [setPrefix_valid (by decide) (rfl : _ = some ssmlNamespace) (by decide)]
  dsimp only
  rw [setAttribute_ascii _ (by decide)]
  rfl

theorem markedWords_eq (words : List Text) (mark : Nat) :
    markedWords env counter words mark = .ok (markNodes counter words mark) := by
  induction words generalizing mark with
  | nil =>
    unfold markedWords
    rw [markElement_eq]
    rfl
  | cons word words ih =>
    unfold markedWords
    rw [markElement_eq, ih]
    rfl

variable {counter}

theorem isMark_markNode {mark : Nat} {name : Text} :
    IsMark name (markNode counter mark) ↔ name = markName counter mark := by
  constructor
  · rintro ⟨tag, same, _, _, named⟩
    cases same
    rw [Tag.getAttribute?_put_same] at named
    exact (Option.some.inj named).symm
  · rintro rfl
    exact ⟨_, rfl, rfl, rfl, Tag.getAttribute?_put_same _ _ _⟩

theorem markName_injective {m n : Nat} (same : markName counter m = markName counter n) :
    m = n :=
  ofNat_injective (List.append_cancel_left same)

theorem textsOf_markNodes (words : List Text) (mark : Nat) :
    textsOf (markNodes counter words mark) = words := by
  induction words generalizing mark with
  | nil => rfl
  | cons word words ih => exact congrArg (word :: ·) (ih (mark + 1))

theorem markNodes_cut (counter : Nat) (words : List Text) (mark : Nat) {place : Nat}
    (inside : place ≤ words.length) : ∃ front back,
      markNodes counter words mark = front ++ markNode counter (mark + place) :: back ∧
      textsOf front = words.take place ∧ textsOf back = words.drop place := by
  induction words generalizing mark place with
  | nil =>
    have first : place = 0 := Nat.le_zero.mp inside
    subst first
    exact ⟨[], [], rfl, rfl, rfl⟩
  | cons word words ih =>
    cases place with
    | zero =>
      refine ⟨[], .text word :: markNodes counter words (mark + 1), rfl, rfl, ?_⟩
      exact congrArg (word :: ·) (textsOf_markNodes words (mark + 1))
    | succ place =>
      obtain ⟨front, back, shape, before, after⟩ := ih (mark + 1) (Nat.le_of_succ_le_succ inside)
      refine ⟨markNode counter mark :: .text word :: front, back, ?_, ?_, after⟩
      · rw [markNodes, shape, Nat.add_right_comm, Nat.add_assoc]
        rfl
      · exact congrArg (word :: ·) before

theorem markNodes_element {words : List Text} {mark : Nat} {front back : List Node} {tag : Tag}
    (shape : markNodes counter words mark = front ++ .element tag [] :: back) :
    ∃ place ≤ words.length, Node.element tag [] = markNode counter (mark + place) ∧
      textsOf front = words.take place := by
  induction words generalizing mark front with
  | nil =>
    cases front with
    | nil => exact ⟨0, Nat.le_refl 0, (List.cons.inj shape).1.symm, rfl⟩
    | cons first front =>
      have rest := (List.cons.inj shape).2
      exact absurd rest.symm (List.append_ne_nil_of_right_ne_nil _ (List.cons_ne_nil _ _))
  | cons word words ih =>
    cases front with
    | nil => exact ⟨0, Nat.zero_le _, (List.cons.inj shape).1.symm, rfl⟩
    | cons first front =>
      obtain ⟨rfl, rest⟩ := List.cons.inj shape
      cases front with
      | nil => cases (List.cons.inj rest).1
      | cons second front =>
        obtain ⟨rfl, later⟩ := List.cons.inj rest
        obtain ⟨place, inside, same, before⟩ := ih later
        refine ⟨place + 1, Nat.succ_le_succ inside, ?_, congrArg (word :: ·) before⟩
        rw [same, Nat.add_right_comm, Nat.add_assoc]

theorem markAfter_iff {doc : Document} {words : List Text}
    (spoken : speechNodes doc = markNodes counter words 1) {place mark : Nat} :
    MarkAfter doc words place (markName counter mark) ↔
      place ≤ words.length ∧ mark = place + 1 := by
  unfold MarkAfter
  rw [spoken]
  constructor
  · rintro ⟨inside, front, node, back, shape, ⟨tag, rfl, isMark⟩, before, _⟩
    obtain ⟨place', inside', same, before'⟩ := markNodes_element shape
    have named : IsMark (markName counter mark) (markNode counter (1 + place')) := by
      rw [← same]
      exact ⟨tag, rfl, isMark⟩
    have numbers := markName_injective (isMark_markNode.mp named)
    have lengths := congrArg List.length (before.symm.trans before')
    rw [List.length_take, List.length_take, Nat.min_eq_left inside,
      Nat.min_eq_left inside'] at lengths
    exact ⟨inside, by omega⟩
  · rintro ⟨inside, rfl⟩
    obtain ⟨front, back, shape, before, after⟩ := markNodes_cut counter words 1 inside
    refine ⟨inside, front, _, back, shape, ?_, before, after⟩
    rw [Nat.add_comm place 1]
    exact isMark_markNode.mpr rfl

end

def IsBlock (e : Element) : Prop :=
  ∃ uri p, e.namespaceURI = some uri ∧ IsProper uri ∧ e.nsPrefix = some p ∧
    isAsciiName p = true ∧ ':' ∉ p ∧ p ≠ "xml".toList

theorem childElement_ok_iff {dom : DOMImplementation} {e child : Element} {name : Text}
    (block : IsBlock e) (plain : ':' ∉ name) : childElement dom e name = .ok child ↔
      IsElementName dom name ∧
        child = { nsPrefix := e.nsPrefix, localName := name, namespaceURI := e.namespaceURI } := by
  obtain ⟨uri, p, namespaced, proper, prefixed, ascii, noColon, noXml⟩ := block
  unfold childElement
  rw [namespaced, prefixed]
  dsimp only
  constructor
  · intro h
    obtain ⟨created, made, h⟩ := bind_ok h
    obtain ⟨valid, rfl⟩ := (createElementNS_ok_iff plain proper).mp made
    rw [setPrefix_valid ascii rfl noXml] at h
    exact ⟨valid, (Except.ok.inj h).symm⟩
  · rintro ⟨valid, rfl⟩
    rw [(createElementNS_ok_iff plain proper).mpr ⟨valid, rfl⟩]
    exact setPrefix_valid ascii rfl noXml

section
variable (env : Environment) (character : Option Text) (counter : Nat)

def rootElement : Element where
  localName := "fml-apml".toList
  attributes := AList.insert "version".toList "0.1".toList ∅

def blockTag (name uri : Text) : Tag where
  nsPrefix := some name
  localName := name
  namespaceURI := some uri
  attributes := AList.insert "id".toList (name ++ "_uap_".toList ++ ofNat counter) ∅

def speechTag (responseString : Text) : Tag :=
  let tag : Tag := { blockTag counter "bml".toList bmlNamespace with
    localName := "speech".toList, attributes := ∅ }
  let tag := tag.putAttribute "id".toList (speechID counter)
  let tag := tag.putAttribute "text".toList responseString
  let tag := tag.putAttribute "language".toList (getCharacterLocale env character)
  tag.putAttribute "voice".toList "activemary".toList

def speechNode (responseString : Text) : Node :=
  .element (speechTag env character counter responseString)
    (markNodes counter (split responseString ' ') 1)

def bmlBlock (responseString : Text) : Element where
  toTag := blockTag counter "bml".toList bmlNamespace
  children := [speechNode env character counter responseString]

def fmlBlock : Element where
  toTag := blockTag counter "fml".toList fmlNamespace

theorem isBlock_bml (children : List Node) :
    IsBlock { toTag := blockTag counter "bml".toList bmlNamespace, children := children } :=
  ⟨bmlNamespace, "bml".toList, rfl, proper_bml, rfl, by decide, by decide, by decide⟩

theorem isBlock_fml (children : List Node) :
    IsBlock { toTag := blockTag counter "fml".toList fmlNamespace, children := children } :=
  ⟨fmlNamespace, "fml".toList, rfl, proper_fml, rfl, by decide, by decide, by decide⟩

theorem newDocument_eq (dom : DOMImplementation) :
    newDocumentWithVersion dom "fml-apml".toList none "0.1".toList = .ok rootElement := by
  have created : createElementNS dom none "fml-apml".toList =
      .ok { localName := "fml-apml".toList } := by
    have plain : PlainName dom "fml-apml".toList := .ascii (by decide)
    have given : (none : Option Text) ≠ some [] := by simp
    apply (createElementNS_plain plain given).mpr
    exact ⟨iff_of_false (by decide) (by simp), rfl⟩
  unfold newDocumentWithVersion newDocument
  rw [created]
  exact setAttribute_ascii _ (by decide) _

theorem blockElement_eq {name uri : Text} (ascii : isAsciiName name = true)
    (noXmlns : name ≠ "xmlns".toList) (noXml : name ≠ "xml".toList) (proper : IsProper uri) :
    blockElement env name uri counter = .ok { toTag := blockTag counter name uri } := by
  unfold blockElement childElementNS
  rw [createElementNS_valid ascii noXmlns proper]
  simp only [bind, Except.bind]
  rw [setPrefix_valid ascii rfl noXml]
  exact setAttribute_ascii _ (by decide) _

theorem speechElement_eq (responseString : Text) :
    speechElement env { toTag := blockTag counter "bml".toList bmlNamespace } character counter
        responseString = .ok (speechNode env character counter responseString) := by
  have valid : IsElementName env.dom "speech".toList :=
    ⟨env.dom.asciiName _ (by decide), by decide⟩
  have id : isAsciiName "id".toList = true := by decide
  have text : isAsciiName "text".toList = true := by decide
  have language : isAsciiName "language".toList = true := by decide
  have voice : isAsciiName "voice".toList = true := by decide
  unfold speechElement
  rw [(childElement_ok_iff (isBlock_bml counter []) (by decide)).mpr ⟨valid, rfl⟩]
  simp only [bind, Except.bind, setAttribute_ascii _ id, setAttribute_ascii _ text,
    setAttribute_ascii _ language, setAttribute_ascii _ voice, markedWords_eq]
  rfl

theorem fmlDocument_eq (response : Response) (argNames argValues : List Text) :
    fmlDocument env character counter response argNames argValues =
      (addTags env response.response counter ((split response.response ' ').length + 1)
        (argNames ++ response.argNames) (argValues ++ response.argValues) 1
        (bmlBlock env character counter response.response, fmlBlock counter)).map
        fun blocks => (rootElement.appendChild blocks.1.toNode).appendChild blocks.2.toNode := by
  unfold fmlDocument
  rw [newDocument_eq, blockElement_eq env counter (by decide) (by decide) (by decide) proper_bml,
    blockElement_eq env counter (by decide) (by decide) (by decide) proper_fml]
  simp only [bind, Except.bind]
  rw [speechElement_eq]
  dsimp only
  have bml : Element.appendChild { toTag := blockTag counter "bml".toList bmlNamespace }
      (speechNode env character counter response.response) =
        bmlBlock env character counter response.response := rfl
  have fml : { toTag := blockTag counter "fml".toList fmlNamespace } = fmlBlock counter := rfl
  rw [bml, fml]
  cases addTags env response.response counter ((split response.response ' ').length + 1)
    (argNames ++ response.argNames) (argValues ++ response.argValues) 1
    (bmlBlock env character counter response.response, fmlBlock counter) <;> rfl

end

end Semaine.Dialogue
