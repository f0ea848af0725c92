import Semaine.Xml.Dom

/-! Names that elements and attributes can be given. -/
namespace Semaine.Xml
open JavaText

theorem asciiName_ne_nil {s : Text} (h : isAsciiName s = true) : s ≠ [] := by
  rintro rfl
  cases h

theorem colon_not_ascii {s : Text} (h : isAsciiName s = true) : ':' ∉ s := by
  cases s with
  | nil => cases h
  | cons c cs =>
    simp only [isAsciiName, Bool.and_eq_true, List.all_eq_true] at h
    intro member
    rcases List.mem_cons.mp member with rfl | later
    · exact absurd h.1 (by decide)
    · exact absurd (h.2 ':' later) (by decide)

structure PlainName (dom : DOMImplementation) (name : Text) : Prop where
  given : name ≠ []
  valid : dom.isXMLName name = true
  noColon : ':' ∉ name

section
variable {dom : DOMImplementation}

theorem PlainName.ascii {name : Text} (ascii : isAsciiName name = true) : PlainName dom name where
  given := asciiName_ne_nil ascii
  valid := dom.asciiName name ascii
  noColon := colon_not_ascii ascii

theorem createElementNS_iff {name : Text} {uri : Option Text} (noColon : ':' ∉ name)
    (given : uri ≠ some []) {e : Element} : createElementNS dom uri name = .ok e ↔
      (dom.isXMLName name = true ∧ (name = "xmlns".toList ↔ uri = some xmlnsURI)) ∧
        e = { localName := name, namespaceURI := uri } := by
  have single : name.splitOn ':' = [name] := List.splitOn_eq_singleton noColon
  unfold createElementNS
  rw [if_neg given, single]
  dsimp only
  cases dom.isXMLName name with
  | false => simp
  | true =>
    rw [Bool.not_true, if_neg Bool.false_ne_true, and_iff_right rfl]
    by_cases alike : name = "xmlns".toList ↔ uri = some xmlnsURI
    · have same : ¬ ((name = "xmlns".toList) ≠ (uri = some xmlnsURI)) :=
        fun differ => differ (propext alike)
      rw [if_neg same, Except.ok.injEq]
      exact ⟨fun created => ⟨alike, created.symm⟩, fun created => created.2.symm⟩
    · have other : (name = "xmlns".toList) ≠ (uri = some xmlnsURI) :=
        fun same => alike (iff_of_eq same)
      rw [if_pos other]
      exact ⟨nofun, fun created => absurd created.1 alike⟩

theorem createElementNS_plain {name : Text} {uri : Option Text} (plain : PlainName dom name)
    (given : uri ≠ some []) {e : Element} : createElementNS dom uri name = .ok e ↔
      (name = "xmlns".toList ↔ uri = some xmlnsURI) ∧
        e = { localName := name, namespaceURI := uri } := by
  rw [createElementNS_iff plain.noColon given, and_iff_right plain.valid]

theorem setPrefix_plain {p : Text} (plain : PlainName dom p) {e f : Element}
    (named : e.namespaceURI ≠ none) : e.setPrefix dom (some p) = .ok f ↔
      (p = "xml".toList → e.namespaceURI = some xmlURI) ∧ f = { e with nsPrefix := some p } := by
  unfold Element.setPrefix
  dsimp only
  rw [if_neg plain.given, plain.valid, Bool.not_true, if_neg Bool.false_ne_true]
  by_cases reserved : p = "xml".toList ∧ e.namespaceURI ≠ some xmlURI
  · rw [if_pos (.inr (.inr reserved))]
    exact ⟨nofun, fun set => absurd (set.1 reserved.1) reserved.2⟩
  · have free : ¬ (e.namespaceURI = none ∨ ':' ∈ p ∨
        (p = "xml".toList ∧ e.namespaceURI ≠ some xmlURI)) := by
      rintro (absent | colon | other)
      · exact named absent
      · exact plain.noColon colon
      · exact reserved other
    rw [if_neg free, Except.ok.injEq]
    constructor
    · intro set
      exact ⟨fun xml => not_not.mp (not_and.mp reserved xml), set.symm⟩
    · intro set
      exact set.2.symm

theorem setAttribute_ascii (e : Element) {name : Text} (ascii : isAsciiName name = true)
    (value : Text) :
    e.setAttribute dom name value = .ok { e with toTag := e.toTag.putAttribute name value } := by
  unfold Element.setAttribute
  rw [if_pos (dom.asciiName name ascii)]

end

end Semaine.Xml
