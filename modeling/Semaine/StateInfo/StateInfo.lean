import Semaine.Xml.XMLTool

/-! `eu.semaine.datatypes.stateinfo.StateInfo`: state information as a map from short names to
strings, and as a document. The dialog history, which only a dialog state has and which does not
come from a map, is left out. -/
namespace Semaine.StateInfo
open JavaText Semaine.Xml

inductive StateType where
  | agentState | dialogState | userState | contextState | systemState
  deriving DecidableEq, Repr

namespace StateType

def values : List StateType := [agentState, dialogState, userState, contextState, systemState]

def toText : StateType → Text
  | agentState => "AgentState".toList
  | dialogState => "DialogState".toList
  | userState => "UserState".toList
  | contextState => "ContextState".toList
  | systemState => "SystemState".toList

def rootName : StateType → Text
  | agentState => "agent-state".toList
  | dialogState => "dialog-state".toList
  | userState => "user-state".toList
  | contextState => "situational-context".toList
  | systemState => "setup".toList

end StateType

def semaineURI : Text := "http://www.semaine-project.eu/semaineml".toList

inductive Failure where
  | systemConfiguration (message : Text)
  | messageFormat (message : Text)
  | thrown (t : Thrown)
  deriving DecidableEq

/-- An IllegalArgumentException becomes a SystemConfigurationException with this message. -/
def asConfiguration {α : Type} (message : Text) : Except Thrown α → Except Failure α
  | .ok a => .ok a
  | .error (.illegalArgument _) => .error (.systemConfiguration message)
  | .error e => .error (.thrown e)

/-- `s.split(regex, 2)` where the regular expression is a run of separators. -/
def splitOnce (isSeparator : Char → Bool) (s : Text) : List Text :=
  match s.span (fun c => !isSeparator c) with
  | (first, []) => [first]
  | (first, rest) => [first, rest.dropWhile isSeparator]

structure Sections where
  configSections : AList (fun _ : StateType => List Text) := ∅
  currentType : Option StateType := none
  currentSection : List Text := []

namespace Sections

def close (s : Sections) : Sections :=
  match s.currentType with
  | some t => { s with configSections := s.configSections.insert t s.currentSection }
  | none => s

def readLine (s : Sections) (line : Text) : Sections :=
  let line := trim line
  if line = [] ∨ startsWith line ['#'] then s
  else
    let s :=
      if startsWith line ['['] then
        match StateType.values.find? (fun t => line = '[' :: t.toText ++ [']']) with
        | some t => { s.close with currentType := some t, currentSection := [] }
        | none => s
      else s
    { s with currentSection := s.currentSection ++ [line] }

end Sections

structure XPathInfoMapper where
  namespaceContext : NamespaceContext := ∅
  name2exprString : List (Text × Text) := []
  name2compiledExpression : List (Text × XPath) := []

/-- What `getXPathExpressions` has read. -/
structure Reading where
  readNamespacePrefixes : Bool := false
  readShortNames : Bool := false
  namespacePrefixes : NamespaceContext := ∅
  shortNames : List (Text × Text) := []

def Reading.addShortName (r : Reading) (typeForTable : StateType) (shortName xpathExpr : Text) :
    Except Failure Reading := do
  let _ ← asConfiguration "Problem with xpath expression".toList (splitXPathIntoParts xpathExpr)
  if (r.shortNames.lookup shortName).isSome then
    throw (.systemConfiguration ("In section ".toList ++ typeForTable.toText ++
      ", short name '".toList ++ shortName ++ "' occurs more than once".toList))
  match r.shortNames.find? (fun e => e.2 = xpathExpr) with
  | some (other, _) =>
    throw (.systemConfiguration ("In section ".toList ++ typeForTable.toText ++
      ", short names '".toList ++ shortName ++ "' and '".toList ++ other ++
      "' have the same XPath expression".toList))
  | none => return { r with shortNames := r.shortNames ++ [(shortName, xpathExpr)] }

def Reading.readLine (typeForTable : StateType) (r : Reading) (line : Text) :
    Except Failure Reading :=
  if line = "[namespace prefixes]".toList then .ok { r with readNamespacePrefixes := true }
  else if line = "[short names]".toList then
    if r.namespacePrefixes.keys.isEmpty then
      .error (.systemConfiguration "Namespace prefixes must be defined before short names".toList)
    else .ok { r with readShortNames := true, readNamespacePrefixes := false }
  else if r.readNamespacePrefixes then
    match splitOnce (fun c => c = ' ' || c = '=' || c = ':') line with
    | [nsPrefix, namespaceURI] =>
      .ok { r with
        namespacePrefixes := r.namespacePrefixes.insert (trim nsPrefix) (trim namespaceURI) }
    | _ => .error (.systemConfiguration
        ("Expected namespace prefix definition, got '".toList ++ line ++ "'".toList))
  else if r.readShortNames then
    match splitOnce (fun c => c = '\t' || c = ' ' || c = '=' || c = ':') line with
    | [shortName, xpathExpr] => r.addShortName typeForTable (trim shortName) (trim xpathExpr)
    | _ => .error (.systemConfiguration
        ("Expected short name to XPath definition, got '".toList ++ line ++ "'".toList))
  else .ok r

/-- The constructor of `XPathInfoMapper`. The expressions are of the kind that
`splitXPathIntoParts` takes apart, so that is what compiling one means here. -/
def XPathInfoMapper.new (namespacePrefixes : NamespaceContext) (shortNames : List (Text × Text)) :
    Except Failure XPathInfoMapper := do
  let compiled ← shortNames.mapM fun (shortName, expr) =>
    (asConfiguration expr (splitXPathIntoParts expr)).map fun xpath => (shortName, xpath)
  return {
    namespaceContext := namespacePrefixes
    name2exprString := shortNames
    name2compiledExpression := compiled }

def getXPathExpressions (typeForTable : StateType) (configSection : List Text) :
    Except Failure XPathInfoMapper := do
  let r ← configSection.foldlM (Reading.readLine typeForTable) {}
  XPathInfoMapper.new r.namespacePrefixes r.shortNames

def getInfosByType (lines : List Text) : Except Failure (List (StateType × XPathInfoMapper)) :=
  let configSections := (lines.foldl Sections.readLine {}).close.configSections
  StateType.values.mapM fun t =>
    match configSections.lookup t with
    | none => .error (.systemConfiguration ("No config section for ".toList ++ t.toText))
    | some configSection => (getXPathExpressions t configSection).map fun m => (t, m)

/-- `stateinfo.config` without its comments and blank lines, which are skipped. -/
def stateInfoConfig : List String :=
  [
   "[UserState]",
   "[namespace prefixes]",
   "semaine http://www.semaine-project.eu/semaineml",
   "bml     http://www.mindmakers.org/projects/BML",
   "emotion http://www.w3.org/2009/10/emotionml",
   "[short names]",
   "headGesture \t /semaine:user-state/bml:bml/bml:head/@type",
   "headGestureStarted \t/semaine:user-state/bml:bml/bml:head/@start",
   "headGestureStopped \t/semaine:user-state/bml:bml/bml:head/@end",
   "facialExpression \t/semaine:user-state/bml:bml/bml:face/@shape",
   "facialActionUnits \t/semaine:user-state/bml:bml/bml:face/@au",
   "facialExpressionStarted \t/semaine:user-state/bml:bml/bml:face[@shape]/@start",
   "facialExpressionStopped \t/semaine:user-state/bml:bml/bml:face[@shape]/@end",
   "facialActionUnitsStarted \t/semaine:user-state/bml:bml/bml:face[@au]/@start",
   "facialActionUnitsStopped \t/semaine:user-state/bml:bml/bml:face[@au]/@end",
   "pitchDirection \t/semaine:user-state/semaine:pitch/@direction",
   "speaking \t/semaine:user-state/semaine:speaking/@status",
   "vocalization /semaine:user-state/semaine:vocalization/@name",
   "facePresent /semaine:user-state/semaine:face-present/@status",
   "interest \t/semaine:user-state/emotion:emotion[@dimension-set='http://www.semaine-project.eu/emo/dimension/interest.xml']/emotion:dimension[@name='interest']/@value",
   "valence /semaine:user-state/emotion:emotion[@dimension-set='http://www.example.com/emotion/dimension/FSRE.xml']/emotion:dimension[@name='valence']/@value",
   "arousal /semaine:user-state/emotion:emotion[@dimension-set='http://www.example.com/emotion/dimension/FSRE.xml']/emotion:dimension[@name='arousal']/@value",
   "potency /semaine:user-state/emotion:emotion[@dimension-set='http://www.example.com/emotion/dimension/FSRE.xml']/emotion:dimension[@name='potency']/@value",
   "unpredictability /semaine:user-state/emotion:emotion[@dimension-set='http://www.example.com/emotion/dimension/FSRE.xml']/emotion:dimension[@name='unpredictability']/@value",
   "intensity /semaine:user-state/emotion:emotion/emotion:intensity/@value",
   "emotion-quadrant /semaine:user-state/emotion:emotion[@category-set='http://www.semaine-project.eu/emo/category/four-quadrants.xml']/emotion:category/@name",
   "userUtterance \t/semaine:user-state/semaine:userutterance/@utterance",
   "userUtteranceStartTime \t/semaine:user-state/semaine:userutterance/@starttime",
   "userUtteranceFeatures \t/semaine:user-state/semaine:userutterance/@features",
   "gender \t/semaine:user-state/semaine:gender/@name",
   "buttonEvent /semaine:user-state/semaine:button-event/@name",
   "buttonEventTime /semaine:user-state/semaine:button-event/@time",
   "[AgentState]",
   "[namespace prefixes]",
   "semaine http://www.semaine-project.eu/semaineml",
   "emotion http://www.w3.org/2009/10/emotionml",
   "[short names]",
   "needToSpeak \t  /semaine:agent-state/semaine:needtospeak/@value",
   "turnTakingIntention \t /semaine:agent-state/semaine:turntakingintention/@value",
   "agentUtterance\t\t  /semaine:agent-state/semaine:agentutterance/@utterance",
   "agentUtteranceStartTime  /semaine:agent-state/semaine:agentutterance/@starttime",
   "agentHead\t\t  /semaine:agent-state/semaine:agent-head/@behaviour",
   "agentHeadStartTime  /semaine:agent-state/semaine:agent-head/@starttime",
   "agentFace\t\t  /semaine:agent-state/semaine:agent-face/@behaviour",
   "agentFaceStartTime  /semaine:agent-state/semaine:agent-face/@starttime",
   "agentGaze\t\t  /semaine:agent-state/semaine:agent-gaze/@behaviour",
   "agentGazeStartTime  /semaine:agent-state/semaine:agent-gaze/@starttime",
   "agentGesture\t\t  /semaine:agent-state/semaine:agent-gesture/@behaviour",
   "agentGestureStartTime  /semaine:agent-state/semaine:agent-gesture/@starttime",
   "agentTorso\t\t  /semaine:agent-state/semaine:agent-torso/@behaviour",
   "agentTorsoStartTime  /semaine:agent-state/semaine:agent-torso/@starttime",
   "agreement /semaine:agent-state/emotion:emotion[@dimension-set='http://www.semaine-project.eu/emo/dimension/communicative-functions.xml']/emotion:dimension[@name='agreement']/@value ",
   "acceptance /semaine:agent-state/emotion:emotion[@dimension-set='http://www.semaine-project.eu/emo/dimension/communicative-functions.xml']/emotion:dimension[@name='acceptance']/@value ",
   "belief /semaine:agent-state/emotion:emotion[@dimension-set='http://www.semaine-project.eu/emo/dimension/communicative-functions.xml']/emotion:dimension[@name='belief']/@value ",
   "liking /semaine:agent-state/emotion:emotion[@dimension-set='http://www.semaine-project.eu/emo/dimension/communicative-functions.xml']/emotion:dimension[@name='liking']/@value ",
   "understanding /semaine:agent-state/emotion:emotion[@dimension-set='http://www.semaine-project.eu/emo/dimension/communicative-functions.xml']/emotion:dimension[@name='understanding']/@value ",
   "interest /semaine:agent-state/emotion:emotion[@dimension-set='http://www.semaine-project.eu/emo/dimension/communicative-functions.xml']/emotion:dimension[@name='interest']/@value ",
   "anger /semaine:agent-state/emotion:emotion[@dimension-set='http://www.semaine-project.eu/emo/dimension/listener-meanings.xml']/emotion:dimension[@name='anger']/@value ",
   "sadness /semaine:agent-state/emotion:emotion[@dimension-set='http://www.semaine-project.eu/emo/dimension/listener-meanings.xml']/emotion:dimension[@name='sadness']/@value ",
   "amusement /semaine:agent-state/emotion:emotion[@dimension-set='http://www.semaine-project.eu/emo/dimension/listener-meanings.xml']/emotion:dimension[@name='amusement']/@value ",
   "happiness /semaine:agent-state/emotion:emotion[@dimension-set='http://www.semaine-project.eu/emo/dimension/listener-meanings.xml']/emotion:dimension[@name='happiness']/@value ",
   "contempt /semaine:agent-state/emotion:emotion[@dimension-set='http://www.semaine-project.eu/emo/dimension/listener-meanings.xml']/emotion:dimension[@name='contempt']/@value ",
   "anticipation /semaine:agent-state/emotion:emotion[@dimension-set='http://www.semaine-project.eu/emo/dimension/listener-meanings.xml']/emotion:dimension[@name='anticipation']/@value ",
   "solidarity /semaine:agent-state/emotion:emotion[@dimension-set='http://www.semaine-project.eu/emo/dimension/listener-meanings.xml']/emotion:dimension[@name='solidarity']/@value ",
   "antagonism /semaine:agent-state/emotion:emotion[@dimension-set='http://www.semaine-project.eu/emo/dimension/listener-meanings.xml']/emotion:dimension[@name='antagonism']/@value ",
   "[DialogState]",
   "[namespace prefixes]",
   "semaine http://www.semaine-project.eu/semaineml",
   "[short names]",
   "userTurnState \t /semaine:dialog-state/semaine:user/@believesHasTurn",
   "agentTurnState \t/semaine:dialog-state/semaine:agent/@believesHasTurn",
   "convState \t/semaine:dialog-state/semaine:agent/@convState",
   "[ContextState]",
   "[namespace prefixes]",
   "semaine http://www.semaine-project.eu/semaineml",
   "[short names]",
   "userPresent \t /semaine:situational-context/semaine:user/@status",
   "character \t/semaine:situational-context/semaine:character/@name ",
   "nextCharacter \t/semaine:situational-context/semaine:character/@next",
   "dialogContext \t/semaine:situational-context/semaine:dialog-context/@name ",
   "[SystemState]",
   "[namespace prefixes]",
   "semaine http://www.semaine-project.eu/semaineml",
   "[short names]",
   "cameraPresent \t /semaine:setup/semaine:camera/@status",
   "cameraXResolution \t/semaine:setup/semaine:camera/@xres",
   "cameraYResolution \t/semaine:setup/semaine:camera/@yres",
   "cameraFrameRate \t/semaine:setup/semaine:camera/@framerate",
   "cameraNumChannels \t/semaine:setup/semaine:camera/@numChannels",
   "microphonePresent \t/semaine:setup/semaine:microphone/@status",
   "microphoneFrameRate \t/semaine:setup/semaine:microphone/@framerate",
   "ecaPresent \t/semaine:setup/semaine:eca/@status"
  ]

def infosByType : Except Failure (List (StateType × XPathInfoMapper)) :=
  getInfosByType (stateInfoConfig.map String.toList)

/-- The entry of `infosByType` for a type. -/
def mapperFor (t : StateType) : Option XPathInfoMapper :=
  infosByType.toOption.bind (List.lookup t)

def getShortNames (t : StateType) : List Text :=
  ((mapperFor t).map fun mapper => mapper.name2exprString.map Prod.fst).getD []

def addInfo (dom : DOMImplementation) (mapper : XPathInfoMapper) (doc : Option Document)
    (item : Text × Text) : Except Failure (Option Document) :=
  match mapper.name2exprString.lookup item.1 with
  | none => .error (.systemConfiguration ("No info entry for '".toList ++ item.1 ++
      "' -- something seems to be out of sync".toList))
  | some expr =>
    (asConfiguration ("For shortname '".toList ++ item.1 ++
        "', Problem with xpath expression: ".toList ++ expr)
      (xpath2doc dom expr (some item.2) mapper.namespaceContext doc).2).map some

def createDocumentFromInfo (dom : DOMImplementation) (mapper : XPathInfoMapper)
    (info : List (Text × Text)) : Except Failure (Option Document) :=
  if info.isEmpty then
    .error (.systemConfiguration "Cannot create document from empty info".toList)
  else info.foldlM (addInfo dom mapper) none

/-- The information found in a document, if its root is the expected one. -/
def analyseDocument (mapper : XPathInfoMapper) (rootName : Text) (rootNamespace : Option Text)
    (doc : Document) : Except Failure (List (Text × Text)) :=
  if doc.localName ≠ rootName then
    .error (.messageFormat ("XML document should have root node '".toList ++ rootName ++
      "', but has '".toList ++ doc.localName ++ "'!".toList))
  else if !isSameNamespace doc.namespaceURI rootNamespace then
    .error (.messageFormat ("root node should have namespace '".toList ++
      rootNamespace.getD "null".toList ++ "' but has '".toList ++
      doc.namespaceURI.getD "null".toList ++ "'!".toList))
  else
    .ok (mapper.name2compiledExpression.filterMap fun (shortName, xpathExpr) =>
      let result := evaluate mapper.namespaceContext xpathExpr doc
      if result = [] then none else some (shortName, result))

end Semaine.StateInfo
