import Semaine.Dialogue.UtteranceActionProposer
import Semaine.Dialogue.UserState

/-! The `UtteranceActionProposer` as a component: what its messages and its `act` do to the
information state, in which it keeps whether the agent speaks. -/
namespace Semaine.Dialogue
open JavaText JavaFloat Semaine.Xml

def semaineMLNamespace : Text := "http://www.semaine-project.eu/semaineml".toList

structure XMLMessage where
  text : Text
  datatype : Text
  document : Document

inductive TemplateAction (D : Type) where
  | effect (change : InformationState D → InformationState D)
  | execute (request : Request)
  | prepare (request : Request)

/-- The actions of a check in their order, and whether a template was executed. -/
structure TemplateCheck (D : Type) where
  actions : List (TemplateAction D)
  executed : Bool

structure AgentSpeech (F D : Type) extends UserTurn F D, UtteranceActionProposer where
  detectedFeatures : List (Text × List F) := []
  systemStarted : Bool := false
  queueWaitingCounter : Nat := 0
  dataSendQueue : List (List Text) := []
  sentData : List (Text × Text × Text) := []

/-- The clock is read at the start of `act`, for the next turn, and after that. -/
structure ActTimes where
  start : Int
  prevTime : Int
  now : Int

inductive SpeechEvent (F D : Type) where
  | act (times : ActTimes) (check : TemplateCheck D)
  | features (values : List (Text × F))
  | xml (m : XMLMessage) (time : Int)
  | userState (m : UserStateMessage)
  | contextState (info : List (Text × Text)) (time : Int) (defaultCharacter : Text)
      (check : TemplateCheck D)
  | agentState (info : List (Text × Text))

def inDocument {α : Type} (found : Except Thrown α) : Except Failure α :=
  found.mapError fun _ => .runtime

def childOf (parent : Element) (name : Text) : Except Thrown (Option Element) :=
  (getChildElementByLocalNameNS parent name (some semaineMLNamespace)).map
    (·.bind fun i => parent.children[i]?.bind Node.asElement)

def callbackEvent (m : XMLMessage) : Except Thrown (Option Element) := do
  match ← getChildElement getLocalName "callback".toList (some semaineMLNamespace)
      [m.document.toNode] 0 with
  | none => return none
  | some _ => childOf m.document "event".toList

def hasType (e : Element) (type : String) : Bool :=
  e.toTag.getAttribute? "type".toList = some type.toList

section
variable {F D : Type} (chars : Characters) (floats : FloatNumbers F D) (env : Environment)

namespace AgentSpeech

def onTurn (change : UserTurn F D → Except Failure (UserTurn F D)) (s : AgentSpeech F D) :
    Except Failure (AgentSpeech F D) :=
  (change s.toUserTurn).map fun turn => { s with toUserTurn := turn }

def when (condition : Bool) (change : AgentSpeech F D → Except Failure (AgentSpeech F D))
    (s : AgentSpeech F D) : Except Failure (AgentSpeech F D) :=
  if condition then change s else .ok s

def put (path : String) (value : Item D) (s : AgentSpeech F D) :
    Except Failure (AgentSpeech F D) :=
  s.onTurn (·.write path.toList value)

def putText (path value : String) (s : AgentSpeech F D) : Except Failure (AgentSpeech F D) :=
  s.put path (.string value.toList)

def remove (path : Text) (s : AgentSpeech F D) : Except Failure (AgentSpeech F D) :=
  (InformationState.orThrow (s.is.remove chars path)).map fun is => { s with is := is }

def speakingState (s : AgentSpeech F D) : Except Failure (Option Text) :=
  s.is.getString chars "Agent.speakingState".toList

def sendData (name value channel : Text) (s : AgentSpeech F D) : AgentSpeech F D :=
  if toLowerCase channel = "dialogstate".toList ∨ toLowerCase channel = "contextstate".toList then
    { s with sentData := s.sentData ++ [(name, value, channel)] }
  else s

def sendTurnState (state : String) (s : AgentSpeech F D) : AgentSpeech F D :=
  s.sendData "agentTurnState".toList state.toList "dialogstate".toList

def sendEntry (s : AgentSpeech F D) : List Text → AgentSpeech F D
  | [name, value, channel] => s.sendData name value channel
  | _ => s

def sendQueue (s : AgentSpeech F D) : AgentSpeech F D :=
  { s.dataSendQueue.foldl sendEntry s with dataSendQueue := [], queueWaitingCounter := 5 }

def setSpeakingState (state : String) (time : Int) (s : AgentSpeech F D) :
    Except Failure (AgentSpeech F D) := do
  let s ← s.putText "Agent.speakingState" state
  s.put "Agent.speakingStateTime" (.integer (toInt time))

def listen (time : Int) (s : AgentSpeech F D) : Except Failure (AgentSpeech F D) := do
  let s ← s.setSpeakingState "listening" time
  s.putText "User.speakingState" "waiting"

def isLip (m : XMLMessage) : Bool :=
  containsText m.text "fml_lip".toList || containsText m.text "bml_lip".toList

def speechStarted (s : AgentSpeech F D) (m : XMLMessage) : Except Failure Bool := do
  match ← inDocument (callbackEvent m) with
  | none => return false
  | some event =>
    match ← s.speakingState chars with
    | some state => return hasType event "start" &&
        (state = "preparing".toList || state = "listening".toList)
    | none => return hasType event "start"

def speechReady (s : AgentSpeech F D) (m : XMLMessage) : Except Failure (Option Text) := do
  match ← inDocument (callbackEvent m) with
  | none => return none
  | some event =>
    match ← s.speakingState chars with
    | some state => return if hasType event "end" &&
          (state = "preparing".toList || state = "speaking".toList) then
        event.toTag.getAttribute? "id".toList else none
    | none =>
      return if hasType event "end" then event.toTag.getAttribute? "id".toList else none

def startSpeaking (time : Int) (s : AgentSpeech F D) : Except Failure (AgentSpeech F D) := do
  let s ← s.setSpeakingState "speaking" time
  let s := s.sendTurnState "speaking"
  return { s with
    isStoringFeatures := false
    detectedFeatures := s.detectedFeatures.map fun feature => (feature.1, []) }

def stopSpeaking (time : Int) (s : AgentSpeech F D) : Except Failure (AgentSpeech F D) := do
  let s ← s.listen time
  let s ← s.remove chars "UserTurn".toList
  let s := { s with turnActionUnits := [] }
  return (s.sendTurnState "listening").sendQueue

def onSpeech (m : XMLMessage) (time : Int) (s : AgentSpeech F D) :
    Except Failure (AgentSpeech F D) :=
  if isLip m then .ok s
  else do
    let started ← s.speechStarted chars m
    let s ← s.when started (·.startSpeaking time)
    let ready ← s.speechReady chars m
    s.when (ready = some s.feedbackId) (·.stopSpeaking chars time)

def lookForBackchannel (m : XMLMessage) : Except Thrown Unit :=
  if m.datatype = "FML".toList then do
    match ← getChildElementByTagNameNS m.document "fml".toList (some fmlNamespace) with
    | none => return ()
    | some i =>
      match m.document.children[i]?.bind Node.asElement with
      | none => return ()
      | some fml =>
        let _ ← getChildElementByTagNameNS fml "backchannel".toList (some fmlNamespace)
        return ()
  else .ok ()

def onPreparation (m : XMLMessage) (s : AgentSpeech F D) : Except Failure (AgentSpeech F D) := do
  match ← inDocument (childOf m.document "event".toList) with
  | none => return s
  | some event =>
    match chars.parseLong (event.toTag.getAttribute "time".toList) with
    | none => throw .runtime
    | some _ => return { s with
        toUtteranceActionProposer := s.toUtteranceActionProposer.onCallback
          (event.toTag.getAttribute "type".toList) (event.toTag.getAttribute "id".toList) }

def onXml (m : XMLMessage) (time : Int) (s : AgentSpeech F D) :
    Except Failure (AgentSpeech F D) := do
  let s ← s.onSpeech chars m time
  let () ← inDocument (lookForBackchannel m)
  s.onPreparation chars m

def sendSpeaking (response : Response) (time : Int) (s : AgentSpeech F D) :
    Except Failure (AgentSpeech F D) := do
  let s ← s.putText "Agent.speakingState" "preparing"
  let s ← s.putText "Agent.speakingIntention" "null"
  let s ← s.put "Agent.speakingStateTime" (.integer (toInt time))
  let s ← s.put "ResponseHistory._addlast.id" (.string response.id)
  s.put "ResponseHistory._last.response" (.string response.response)

def withCharacter (s : AgentSpeech F D) : Except Failure (AgentSpeech F D) := do
  let character ← s.is.getString chars "Agent.character".toList
  return { s with character := character }

def runExecute (request : Request) (time : Int) (s : AgentSpeech F D) :
    Except Failure (AgentSpeech F D) := do
  let s ← s.withCharacter chars
  match ← inDocument (s.toUtteranceActionProposer.constructFMLDocument env request) with
  | none => return s
  | some (response, _, _) =>
    let p ← inDocument (s.toUtteranceActionProposer.execute env request)
    { s with toUtteranceActionProposer := p }.sendSpeaking response time

def runPrepare (request : Request) (s : AgentSpeech F D) : Except Failure (AgentSpeech F D) := do
  let s ← s.withCharacter chars
  let p ← inDocument (s.toUtteranceActionProposer.prepare env request)
  return { s with toUtteranceActionProposer := p }

def runActions (time : Int) :
    List (TemplateAction D) → AgentSpeech F D → Except Failure (AgentSpeech F D)
  | [], s => .ok s
  | .effect change :: actions, s => runActions time actions { s with is := change s.is }
  | .execute request :: actions, s => do
    let s ← s.runExecute chars env request time
    runActions time actions s
  | .prepare request :: actions, s => do
    let s ← s.runPrepare chars env request
    runActions time actions s

def featurePath (featureName : Text) (kind : String) : Text :=
  "UserTurn.AudioFeatures.".toList ++ featureName ++ '_' :: kind.toList

def removeFeatures :
    List (Text × List F) → AgentSpeech F D → Except Failure (AgentSpeech F D)
  | [], s => .ok s
  | (featureName, _) :: rest, s => do
    let s ← s.remove chars (featurePath featureName "min")
    let s ← s.remove chars (featurePath featureName "max")
    let s ← s.remove chars (featurePath featureName "avg")
    removeFeatures rest s

def forgetTurn (s : AgentSpeech F D) : AgentSpeech F D :=
  { s with detectedEmotions := [], dActIndex := s.detectedDActs.length }

/-- A check of the templates. The text of the latest response is logged after a template was
executed, so there has to be one. -/
def checkTemplates (check : TemplateCheck D) (time : Int) (s : AgentSpeech F D) :
    Except Failure (AgentSpeech F D) := do
  let s ← s.put "currTime" (.integer (toInt time))
  let s ← s.runActions chars env time check.actions
  if check.executed then
    match s.latestResponse with
    | none => throw .runtime
    | some _ => s.forgetTurn.removeFeatures chars s.detectedFeatures
  else return s

def clockReset (time : Int) (s : AgentSpeech F D) : Except Failure (AgentSpeech F D) := do
  let s ← s.listen time
  let s := s.sendTurnState "listening"
  return { s with toUtteranceActionProposer := s.toUtteranceActionProposer.clearResponses }

def summarizeFeatures :
    List (Text × List F) → AgentSpeech F D → Except Failure (AgentSpeech F D)
  | [], s => .ok s
  | (featureName, features) :: rest, s => do
    if features = [] then summarizeFeatures rest s
    else
      let (low, high, sum) := UserTurn.extremes floats features
        (floats.ofInt 99999, floats.ofInt (-99999), floats.zero)
      let avg := floats.div sum (floats.ofInt features.length)
      let s ← s.onTurn (·.write (featurePath featureName "min") (.double (floats.toDouble low)))
      let s ← s.onTurn (·.write (featurePath featureName "max") (.double (floats.toDouble high)))
      let s ← s.onTurn (·.write (featurePath featureName "avg") (.double (floats.toDouble avg)))
      summarizeFeatures rest s

/-- Eight seconds have gone by since the agent began to prepare or to speak, or the clock is
behind that time. -/
def timedOut (time : Int) (state : Option Text) (stateTime : Option Int) : Bool :=
  match state, stateTime with
  | some state, some stateTime =>
    (state = "speaking".toList || state = "preparing".toList) &&
      (toInt (stateTime + 8000) ≤ time || time < stateTime)
  | _, _ => false

def timeout (time : Int) (s : AgentSpeech F D) : Except Failure (AgentSpeech F D) := do
  let s ← s.listen time
  return (s.sendTurnState "listening").sendQueue

def onAct (times : ActTimes) (check : TemplateCheck D) (s : AgentSpeech F D) :
    Except Failure (AgentSpeech F D) := do
  let s ← s.when (times.start < s.prevTime) (·.clockReset times.start)
  let s := { s with prevTime := times.prevTime }
  let s ← s.summarizeFeatures floats s.detectedFeatures
  let state ← s.speakingState chars
  let stateTime ← s.is.getInteger chars "Agent.speakingStateTime".toList
  let s ← s.when (timedOut times.now state stateTime) (·.timeout times.now)
  let s ← s.when (s.queueWaitingCounter = 0 ∧ s.systemStarted ∧
    (state = none ∨ state = some "listening".toList)) (·.checkTemplates chars env check times.now)
  return { s with queueWaitingCounter := s.queueWaitingCounter - 1 }

def addFeature (values : List (Text × List F)) (name : Text) (value : F) :
    List (Text × List F) :=
  if values.any (·.1 = name) then
    values.map fun e => if e.1 = name then (e.1, e.2 ++ [value]) else e
  else values ++ [(name, [value])]

def onFeatures (values : List (Text × F)) (s : AgentSpeech F D) : AgentSpeech F D :=
  if s.isStoringFeatures then
    { s with detectedFeatures :=
        values.foldl (fun features e => addFeature features e.1 e.2) s.detectedFeatures }
  else s

def becomePresent (defaultCharacter : Text) (s : AgentSpeech F D) :
    Except Failure (AgentSpeech F D) := do
  let s ← s.put "User.present" (.integer 1)
  let s ← s.put "User.presentStateChanged" (.integer 1)
  let agent ← s.is.getString chars "Agent.character".toList
  let s ← s.when (agent = none ∨ agent = some [])
    (·.put "Agent.character" (.string defaultCharacter))
  return { s with systemStarted := true }

def becomeAbsent (time : Int) (check : TemplateCheck D) (s : AgentSpeech F D) :
    Except Failure (AgentSpeech F D) := do
  let s ← s.put "User.present" (.integer 0)
  let s ← s.put "User.presentStateChanged" (.integer 1)
  { s with systemStarted := false }.checkTemplates chars env check time

def onPresence (info : List (Text × Text)) (time : Int) (defaultCharacter : Text)
    (check : TemplateCheck D) (s : AgentSpeech F D) : Except Failure (AgentSpeech F D) :=
  match info.lookup "userPresent".toList with
  | none => .ok s
  | some userPresent => do
    let known ← s.is.getInteger chars "User.present".toList
    let s ← s.when (known = none) (·.put "User.present" (.integer 0))
    let present ← s.is.getInteger chars "User.present".toList
    if userPresent = "present".toList then
      match present with
      | none => throw .runtime
      | some n => if n = 0 then s.becomePresent chars defaultCharacter else return s
    else if userPresent = "absent".toList then
      match present with
      | none => throw .runtime
      | some n => if n = 1 then s.becomeAbsent chars env time check else return s
    else return s

def onCharacterInfo (info : List (Text × Text)) (s : AgentSpeech F D) :
    Except Failure (AgentSpeech F D) :=
  match info.lookup "character".toList with
  | none => .ok s
  | some charInMsg => do
    let character ← s.is.getString chars "Agent.character".toList
    if character = some charInMsg then return s
    else
      let s ← s.put "Agent.character" (.string charInMsg)
      let s ← s.put "Agent.characterChanged" (.integer 1)
      return { s with toUtteranceActionProposer := s.toUtteranceActionProposer.clearResponses }

def storeInfo (info : List (Text × Text)) (name path : String) (s : AgentSpeech F D) :
    Except Failure (AgentSpeech F D) :=
  match info.lookup name.toList with
  | none => .ok s
  | some value => s.put path (.string value)

def onContext (info : List (Text × Text)) (time : Int) (defaultCharacter : Text)
    (check : TemplateCheck D) (s : AgentSpeech F D) : Except Failure (AgentSpeech F D) := do
  let s ← s.onPresence chars env info time defaultCharacter check
  let s ← s.onCharacterInfo chars info
  let s ← s.storeInfo info "nextCharacter" "Agent.nextCharacter"
  s.storeInfo info "dialogContext" "Agent.dialogContext"

def onAgentState (info : List (Text × Text)) (s : AgentSpeech F D) :
    Except Failure (AgentSpeech F D) :=
  if info.lookup "turnTakingIntention".toList = some "startSpeaking".toList then do
    let state ← s.speakingState chars
    if state = none ∨ state = some "speaking".toList ∨ state = some "preparing".toList then
      return s
    else
      let user ← s.is.getString chars "User.speakingState".toList
      s.putText "Agent.speakingIntention"
        (if user = some "waiting".toList then "retake_turn" else "want_turn")
  else .ok s

def addResponses : List (Text × Response) → AgentSpeech F D → Except Failure (AgentSpeech F D)
  | [], s => .ok s
  | (group, r) :: rest, s => do
    let s ← s.onTurn (·.write ("Responses.".toList ++ group ++ "._addlast".toList) (.string r.id))
    addResponses rest s

def new (responseGroups : List (Text × List Response)) (time : Int) :
    Except Failure (AgentSpeech F D) := do
  let s : AgentSpeech F D :=
    { is := [], prevTime := time
      detectedFeatures := [("F0".toList, []), ("pitchDirScore".toList, []),
        ("RMSEnergy".toList, []), ("LOGEnergy".toList, [])] }
  let s ← s.put "User.present" (.integer 0)
  let s ← s.addResponses (responseGroups.flatMap fun (group, rs) => rs.map (group, ·))
  s.onTurn (·.summarizeEmotionEvents floats)

def step (s : AgentSpeech F D) : SpeechEvent F D → Except Failure (AgentSpeech F D)
  | .act times check => s.onAct chars floats env times check
  | .features values => .ok (s.onFeatures values)
  | .xml m time => s.onXml chars m time
  | .userState m => s.onTurn (UserTurn.react chars floats m)
  | .contextState info time defaultCharacter check =>
    s.onContext chars env info time defaultCharacter check
  | .agentState info => s.onAgentState chars info

end AgentSpeech
end

end Semaine.Dialogue
