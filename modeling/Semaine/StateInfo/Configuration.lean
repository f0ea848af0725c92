import Semaine.Library.Outcome
import Semaine.StateInfo.FaceElements
import Semaine.StateInfo.StateInfo
import Semaine.Xml.PathRefinement

/-! What is shipped: every expression can be written, and what is written along one expression
is not read along another one, unless both are about faces. -/
namespace Semaine.StateInfo
open JavaText Semaine.Xml Outcome

namespace FaceItem

def shortName : FaceItem → Text
  | main .expression => "facialExpression".toList
  | main .actionUnits => "facialActionUnits".toList
  | time .expression .started => "facialExpressionStarted".toList
  | time .expression .stopped => "facialExpressionStopped".toList
  | time .actionUnits .started => "facialActionUnitsStarted".toList
  | time .actionUnits .stopped => "facialActionUnitsStopped".toList

def values : List FaceItem :=
  [main .expression, main .actionUnits, time .expression .started, time .expression .stopped,
    time .actionUnits .started, time .actionUnits .stopped]

end FaceItem

def faceItem? (name : Text) : Option FaceItem :=
  FaceItem.values.find? (fun i => i.shortName = name)

theorem faceItem?_shortName (i : FaceItem) : faceItem? i.shortName = some i := by
  rcases i with (_ | _) | ⟨_ | _, _ | _⟩ <;> decide

theorem shortName_of_faceItem? {name : Text} {i : FaceItem} (h : faceItem? name = some i) :
    i.shortName = name := by
  have found := List.find?_some h
  exact of_decide_eq_true found

def rootPart (t : StateType) : PathPart :=
  { nsPrefix := some "semaine".toList, localName := t.rootName }

structure Path where
  parts : List PathPart
  attName : Text
  deriving DecidableEq

def pathOf (xpath : XPath) : Path where
  parts := xpath.parts.tail
  attName :=
    match xpath.last with
    | .attribute attName => attName
    | .text => []

def FaceItem.path (i : FaceItem) : Path := { parts := faceRest i, attName := i.attName }

structure Sound (t : StateType) (mapper : XPathInfoMapper) : Prop where
  uri : getNamespaceURI mapper.namespaceContext "semaine".toList = semaineURI
  distinct : (mapper.name2compiledExpression.map Prod.fst).Nodup
  writable : ∀ e ∈ mapper.name2compiledExpression,
    writable mapper.namespaceContext (rootPart t) e.2 = true
  face : ∀ e ∈ mapper.name2compiledExpression, ∀ i, faceItem? e.1 = some i → pathOf e.2 = i.path
  spares : ∀ e ∈ mapper.name2compiledExpression, faceItem? e.1 = none →
    sparesFaces (pathOf e.2).parts = true
  apart : ∀ e ∈ mapper.name2compiledExpression, ∀ e' ∈ mapper.name2compiledExpression,
    e.1 ≠ e'.1 → faceItem? e'.1 = none →
    apart (pathOf e.2).attName (pathOf e'.2).attName (pathOf e.2).parts (pathOf e'.2).parts = true
  allFaces : t = .userState → ∀ i : FaceItem,
    i.shortName ∈ mapper.name2compiledExpression.map Prod.fst
  noFaces : t ≠ .userState → ∀ e ∈ mapper.name2compiledExpression, faceItem? e.1 = none

def entryCheck (t : StateType) (context : NamespaceContext) (e : Text × XPath) : Bool :=
  writable context (rootPart t) e.2 &&
    match faceItem? e.1 with
    | some i => pathOf e.2 = i.path
    | none => sparesFaces (pathOf e.2).parts

def pairCheck (e e' : Text × XPath) : Bool :=
  decide (e.1 = e'.1) || (faceItem? e'.1).isSome ||
    apart (pathOf e.2).attName (pathOf e'.2).attName (pathOf e.2).parts (pathOf e'.2).parts

def facesCheck (t : StateType) (names : List Text) : Bool :=
  if t = .userState then FaceItem.values.all fun i => i.shortName ∈ names
  else names.all fun name => (faceItem? name).isNone

def soundCheck (t : StateType) (mapper : XPathInfoMapper) : Bool :=
  decide (getNamespaceURI mapper.namespaceContext "semaine".toList = semaineURI) &&
    decide (mapper.name2compiledExpression.map Prod.fst).Nodup &&
    mapper.name2compiledExpression.all (entryCheck t mapper.namespaceContext) &&
    (mapper.name2compiledExpression.all
      fun e => mapper.name2compiledExpression.all (pairCheck e)) &&
    facesCheck t (mapper.name2compiledExpression.map Prod.fst)

theorem sound_of_check {t : StateType} {mapper : XPathInfoMapper}
    (h : soundCheck t mapper = true) : Sound t mapper := by
  simp only [soundCheck, Bool.and_eq_true, decide_eq_true_eq, List.all_eq_true] at h
  obtain ⟨⟨⟨⟨uri, distinct⟩, entries⟩, pairs⟩, faces⟩ := h
  constructor
  · exact uri
  · exact distinct
  · intro e member
    have entry := entries e member
    rw [entryCheck, Bool.and_eq_true] at entry
    exact entry.1
  · intro e member i face
    have entry := entries e member
    rw [entryCheck, face, Bool.and_eq_true] at entry
    exact of_decide_eq_true entry.2
  · intro e member noFace
    have entry := entries e member
    rw [entryCheck, noFace, Bool.and_eq_true] at entry
    exact entry.2
  · intro e member e' member' different noFace
    have pair := pairs e member e' member'
    simpa [pairCheck, different, noFace] using pair
  · intro isUser i
    have isItem : i ∈ FaceItem.values := by
      rcases i with (_ | _) | ⟨_ | _, _ | _⟩ <;> decide
    rw [facesCheck, if_pos isUser, List.all_eq_true] at faces
    exact of_decide_eq_true (faces i isItem)
  · intro notUser e member
    rw [facesCheck, if_neg notUser, List.all_eq_true] at faces
    exact Option.isNone_iff_eq_none.mp (faces e.1 (List.mem_map_of_mem member))

def shippedCheck (lines : List Text) : Bool :=
  match getInfosByType lines with
  | .ok infos =>
    decide (infos.map Prod.fst = StateType.values) && infos.all fun e => soundCheck e.1 e.2
  | .error _ => false

theorem cons_chars {s : String} {l : List Char} {ss : List String} {ls : List (List Char)}
    (h : s.toList = l) (t : ss.map String.toList = ls) :
    (s :: ss).map String.toList = l :: ls := by
  rw [List.map_cons, h, t]

set_option maxRecDepth 8000 in
theorem shippedCheck_config : shippedCheck (stateInfoConfig.map String.toList) = true := by
  have evaluated : ∃ lines, stateInfoConfig.map String.toList = lines ∧
      shippedCheck lines = true := by
    apply Exists.intro
    constructor
    · unfold stateInfoConfig
      repeat apply cons_chars String.toList_ofList
      rfl
    · decide +kernel
  obtain ⟨lines, same, checked⟩ := evaluated
  rw [same]
  exact checked

structure Compiled (mapper : XPathInfoMapper) : Prop where
  names : mapper.name2compiledExpression.map Prod.fst = mapper.name2exprString.map Prod.fst
  lookup : ∀ name expr, mapper.name2exprString.lookup name = some expr →
    ∃ xpath, splitXPathIntoParts expr = .ok xpath ∧
      mapper.name2compiledExpression.lookup name = some xpath

theorem exists_source {α β : Type} {R : α → β → Prop} {xs : List α} {ys : List β}
    (h : List.Forall₂ R xs ys) : ∀ y ∈ ys, ∃ x, R x y := by
  induction h with
  | nil => exact nofun
  | @cons x y _ _ first _ ih =>
    rintro z (_ | ⟨_, later⟩)
    · exact ⟨x, first⟩
    · exact ih z later

theorem compile_ok {name : Text} {expr : Text} {e : Text × XPath}
    (h : (asConfiguration expr (splitXPathIntoParts expr)).map (fun xpath => (name, xpath)) =
      .ok e) : e.1 = name ∧ splitXPathIntoParts expr = .ok e.2 := by
  cases split : splitXPathIntoParts expr with
  | ok xpath =>
    rw [split] at h
    cases h
    exact ⟨rfl, rfl⟩
  | error thrown =>
    rw [split] at h
    cases thrown <;> cases h

theorem compiled_of_new {namespacePrefixes : NamespaceContext} {shortNames : List (Text × Text)}
    {mapper : XPathInfoMapper}
    (created : XPathInfoMapper.new namespacePrefixes shortNames = .ok mapper) :
    Compiled mapper := by
  obtain ⟨compiled, each, result⟩ := bind_ok created
  cases result
  have pairs := mapM_ok each
  clear created each
  constructor
  · induction pairs with
    | nil => rfl
    | @cons entry e names compiled first _ ih =>
      simp only [List.map_cons, (compile_ok first).1] at ih ⊢
      rw [ih]
  · intro name expr found
    induction pairs with
    | nil => cases found
    | @cons entry e names compiled first _ ih =>
      obtain ⟨sameName, split⟩ := compile_ok first
      obtain ⟨entryName, entryExpr⟩ := entry
      obtain ⟨eName, xpath⟩ := e
      simp only at sameName split found ih ⊢
      subst sameName
      rw [List.lookup_cons] at found ⊢
      cases here : name == eName with
      | true =>
        rw [here] at found
        cases found
        exact ⟨xpath, split, rfl⟩
      | false =>
        rw [here] at found
        exact ih found

theorem compiled_of_infos {lines : List Text} {infos : List (StateType × XPathInfoMapper)}
    (read : getInfosByType lines = .ok infos) : ∀ e ∈ infos, Compiled e.2 := by
  intro e member
  obtain ⟨t, created⟩ := exists_source (mapM_ok read) e member
  split at created
  · cases created
  · rename_i configSection _
    cases parsed : getXPathExpressions t configSection with
    | error failure =>
      rw [parsed] at created
      cases created
    | ok mapper =>
      rw [parsed] at created
      cases created
      obtain ⟨r, _, new⟩ := bind_ok parsed
      exact compiled_of_new new

theorem infos_of_check {lines : List Text} (checked : shippedCheck lines = true) :
    ∃ infos, getInfosByType lines = .ok infos ∧ infos.map Prod.fst = StateType.values ∧
      ∀ e ∈ infos, Sound e.1 e.2 ∧ Compiled e.2 := by
  unfold shippedCheck at checked
  cases read : getInfosByType lines with
  | error e =>
    rw [read] at checked
    cases checked
  | ok infos =>
    rw [read] at checked
    simp only [Bool.and_eq_true, decide_eq_true_eq, List.all_eq_true] at checked
    obtain ⟨types, sound⟩ := checked
    refine ⟨infos, rfl, types, ?_⟩
    intro e member
    exact ⟨sound_of_check (sound e member), compiled_of_infos read e member⟩

structure Shipped (t : StateType) (mapper : XPathInfoMapper) : Prop where
  found : mapperFor t = some mapper
  sound : Sound t mapper
  compiled : Compiled mapper

theorem exists_shipped (t : StateType) : ∃ mapper, Shipped t mapper := by
  obtain ⟨infos, read, types, sound⟩ := infos_of_check shippedCheck_config
  have isType : t ∈ infos.map Prod.fst := by
    rw [types]
    cases t <;> decide
  obtain ⟨mapper, found⟩ := List.exists_lookup isType
  obtain ⟨sound, compiled⟩ := sound (t, mapper) (List.mem_of_lookup found)
  refine ⟨mapper, ?_, sound, compiled⟩
  unfold mapperFor infosByType
  rw [read]
  exact found

theorem Shipped.getShortNames_eq {t : StateType} {mapper : XPathInfoMapper}
    (h : Shipped t mapper) : getShortNames t = mapper.name2compiledExpression.map Prod.fst := by
  unfold getShortNames
  rw [h.found, h.compiled.names, Option.map_some, Option.getD_some]

end Semaine.StateInfo
