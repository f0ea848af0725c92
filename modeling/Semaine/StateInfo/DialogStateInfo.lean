import Semaine.Library.SortedSet
import Semaine.StateInfo.DocumentCache

/-! `eu.semaine.datatypes.stateinfo.DialogStateInfo`: state information with a history of dialog
acts. -/
namespace Semaine.StateInfo
open JavaText Semaine.Xml

structure DialogAct where
  text : Text
  speaker : Text
  topic : Text
  time : Int64
  deriving DecidableEq

def DialogAct.compareTo (a other : DialogAct) : Int :=
  if a.time = other.time then 0 else if a.time < other.time then 1 else -1

structure DialogStateInfo extends StateInfoObject where
  dialogHistory : List DialogAct := []

def dialogHistoryName : Text := "dialog-history".toList
def dialogActName : Text := "dialog-act".toList

section
variable (dom : DOMImplementation) (mapper : XPathInfoMapper)

namespace DialogStateInfo

/-- The constructor that takes a map; the collection of dialog acts may be null. -/
def new (infoItems : InfoItems) (dialogActs : Option (List DialogAct)) :
    Except Thrown DialogStateInfo := do
  let object ← StateInfoObject.new mapper infoItems
  return { object with
    dialogHistory := SortedSet.addAll DialogAct.compareTo (dialogActs.getD []) [] }

def getDialogHistory (s : DialogStateInfo) : List DialogAct := s.dialogHistory

end DialogStateInfo

def appendAct (dh : Element) (dialogAct : DialogAct) : Except Thrown Element := do
  let da ← childElementNS dom dialogActName (some semaineURI)
  let da ← da.setAttribute dom "speaker".toList dialogAct.speaker
  let da ← da.setAttribute dom "topic".toList dialogAct.topic
  let da ← da.setAttribute dom "time".toList (toString dialogAct.time.toInt).toList
  return dh.appendChild (da.setTextContent dialogAct.text).toNode

def appendHistory (root : Element) (dialogHistory : List DialogAct) : Except Thrown Element := do
  let dh ← childElementNS dom dialogHistoryName (some semaineURI)
  let dh ← dialogHistory.foldlM (appendAct dom) dh
  return root.appendChild dh.toNode

/-- The history is appended to the root of the document of the map, if there is a history. -/
def DialogStateInfo.createDocumentFromInfo (s : DialogStateInfo) :
    DialogStateInfo × Option Failure :=
  match s.toStateInfoObject.createDocumentFromInfo dom mapper with
  | (object, some failure) => ({ s with toStateInfoObject := object }, some failure)
  | (object, none) =>
    if s.dialogHistory.length > 0 then
      match object.doc with
      | none => ({ s with toStateInfoObject := object }, some (.thrown .nullPointer))
      | some root =>
        match appendHistory dom root s.dialogHistory with
        | .ok root => ({ s with toStateInfoObject := { object with doc := some root } }, none)
        | .error thrown => ({ s with toStateInfoObject := object }, some (.thrown thrown))
    else ({ s with toStateInfoObject := object }, none)

def needAttribute (e : Element) (attributeName : Text) : Except Failure Text :=
  if e.hasAttribute attributeName then .ok (e.getAttribute attributeName)
  else .error (.messageFormat ("Element '".toList ++ getNodeName e.toTag ++
    "' in namespace '".toList ++ e.namespaceURI.getD "null".toList ++
    "' needs an attribute '".toList ++ attributeName ++ "'".toList))

section
variable (chars : Characters)

def parseAct (child : Element) : Except Failure DialogAct := do
  let text := child.toNode.getTextContent
  let speaker ← needAttribute child "speaker".toList
  let topic ← needAttribute child "topic".toList
  let timeString ← needAttribute child "time".toList
  match chars.parseLong timeString with
  | some time => return { text, speaker, topic, time := .ofInt time }
  | none => throw (.messageFormat
      ("Cannot parse time '".toList ++ timeString ++ "' as long".toList))

/-- One turn of the loop over the nodes below the history; the field may be null. -/
def analyseAct (dialogHistory : Option (List DialogAct)) (n : Node) :
    Except Failure (Option (List DialogAct)) :=
  match n.asElement with
  | none => .ok dialogHistory
  | some child =>
    match child.namespaceURI with
    | none => .error (.thrown .nullPointer)
    | some uri =>
      if uri = semaineURI ∧ child.localName = dialogActName then do
        let da ← parseAct chars child
        match dialogHistory with
        | none => throw (.thrown .nullPointer)
        | some dialogHistory => return some (SortedSet.add DialogAct.compareTo da dialogHistory)
      else .error (.messageFormat ("Element '".toList ++ dialogHistoryName ++
        "' in namespace '".toList ++ semaineURI ++
        "' should only contain child elements named '".toList ++ dialogActName ++
        "' in the same namespace".toList))

def analyseHistory (doc : Document) (dialogHistory : Option (List DialogAct)) :
    Except Failure (Option (List DialogAct)) :=
  match getElementsByTagNameNS doc semaineURI dialogHistoryName with
  | [] => .ok dialogHistory
  | el :: _ => el.children.foldlM (analyseAct chars) dialogHistory

/-- The constructor that takes a document. The document is analysed by the constructor of the
super class, when the field of the history is null; after that the field is initialised. -/
def DialogStateInfo.ofDocument (doc : Option Document) : Except Failure DialogStateInfo :=
  match doc with
  | none => .error (.thrown .nullPointer)
  | some doc => do
    let info ← analyseDocument mapper StateType.dialogState.rootName (some semaineURI) doc
    let _ ← analyseHistory chars doc none
    return { info := info.map fun item => (item.1, some item.2), doc := some doc }

end

end

end Semaine.StateInfo
