import Semaine.Dialogue.UserState
import Semaine.Library.JavaDoubles
import Semaine.Library.Transition

/-! `eu.semaine.components.dialogue.interpreters.TurnTakingInterpreter`: when the agent should
speak. Every call of `meta.getTime()` is a reading of its own. -/
namespace Semaine.Interpreters
open JavaText JavaFloat Semaine.Dialogue

inductive TurnState where
  | waiting | silent | speaking
  deriving DecidableEq, Repr

/-- What is sent about the turn: the intention of the agent, and that it listens again. -/
inductive TurnMessage where
  | startSpeaking | stopSpeaking | listening
  deriving DecidableEq, Repr

structure TimedEmotion (F : Type) extends EmotionEvent F where
  time : Int

/-- The calls of `meta.getTime()` whose result is kept or compared. -/
inductive Reading where
  | userState | headGesture | emotion (type : EmotionType) | emotionGap (type : EmotionType)
  | agentTurn | userTurn | check | userReset | agentReset | previous
  | userSilence | agentSilence | agentTime | userTime | timeout
  deriving DecidableEq, Repr

structure TTThresholds where
  poppy : Int
  prudence : Int
  spike : Int
  obadiah : Int

structure TurnTakingInterpreter (F : Type) where
  currTTThreshold : Int := 100
  convState : Text := "listening".toList
  userSpeakingState : TurnState := .waiting
  userSpeakingStateTime : Int := 0
  agentSpeakingState : TurnState := .silent
  agentSpeakingStateTime : Int := 0
  agentSpeakingIntention : TurnState := .waiting
  detectedEmotions : List (TimedEmotion F) := []
  recentEmotionCounter : Int := 0
  backchannelGiven : Bool := false
  previousMetaTime : Int
  sent : List TurnMessage := []

inductive TurnEvent where
  | act (clock : Reading → Int)
  | userState (info : List (Text × Text)) (clock : Reading → Int)
  | dialogState (info : List (Text × Text)) (clock : Reading → Int)
  | agentState (info : List (Text × Text))
  | contextState (info : List (Text × Text))

namespace TurnTakingInterpreter

variable {F D : Type} (lower : Text → Text) (floats : Floats F) (d : Exponentials D)
  (thresholds : TTThresholds) (clock : Reading → Int)

def EXPECTING_ANSWER_TIMEOUT : Int := 8000

def getInfo (info : List (Text × Text)) (name : String) : Option Text := info.lookup name.toList

def hasInfo (info : List (Text × Text)) (name : String) : Bool := (getInfo info name).isSome

def userSilent (time : Int) (s : TurnTakingInterpreter F) : TurnTakingInterpreter F :=
  { s with userSpeakingState := .silent, userSpeakingStateTime := time }

def processHeadMovements (info : List (Text × Text)) (s : TurnTakingInterpreter F) :
    TurnTakingInterpreter F :=
  if hasInfo info "headGesture" && hasInfo info "headGestureStarted" &&
      hasInfo info "headGestureStopped" then
    if getInfo info "headGesture" = some "NOD".toList then userSilent (clock .headGesture) s
    else if getInfo info "headGesture" = some "SHAKE".toList then
      userSilent (clock .headGesture) s
    else s
  else s

/-- The agent has become silent, or waits: a silent user is expected to speak from now on. -/
def agentStops (state : TurnState) (s : TurnTakingInterpreter F) : TurnTakingInterpreter F :=
  let s := { s with
    backchannelGiven := false, agentSpeakingState := state
    agentSpeakingStateTime := clock .agentTurn }
  match s.userSpeakingState with
  | .silent => { s with userSpeakingState := .waiting, userSpeakingStateTime := clock .userTurn }
  | .waiting => { s with userSpeakingStateTime := clock .userTurn }
  | .speaking => s

def setAgentSpeakingState (info : List (Text × Text)) (s : TurnTakingInterpreter F) :
    TurnTakingInterpreter F :=
  match getInfo info "agentTurnState" with
  | none => s
  | some state =>
    if state = "speaking".toList then
      { s with
        backchannelGiven := false, agentSpeakingState := .speaking
        agentSpeakingStateTime := clock .agentTurn
        detectedEmotions := [], recentEmotionCounter := 0 }
    else if state = "listening".toList then agentStops clock .silent s
    else if state = "expectingAnswer".toList then agentStops clock .waiting s
    else s

def setUserSpeakingState (info : List (Text × Text)) (s : TurnTakingInterpreter F) :
    TurnTakingInterpreter F :=
  match getInfo info "speaking" with
  | none => s
  | some speaking =>
    if speaking = "true".toList then
      if s.userSpeakingState ≠ .speaking then
        { s with
          backchannelGiven := false, userSpeakingState := .speaking
          userSpeakingStateTime := clock .userState }
      else s
    else if speaking = "false".toList then
      if s.userSpeakingState ≠ .silent then userSilent (clock .userState) s else s
    else s

def setCharacter (info : List (Text × Text)) (s : TurnTakingInterpreter F) :
    TurnTakingInterpreter F :=
  match getInfo info "character" with
  | none => s
  | some character =>
    let newChar := lower character
    if newChar = "poppy".toList then { s with currTTThreshold := thresholds.poppy }
    else if newChar = "prudence".toList then { s with currTTThreshold := thresholds.prudence }
    else if newChar = "spike".toList then { s with currTTThreshold := thresholds.spike }
    else if newChar = "obadiah".toList then { s with currTTThreshold := thresholds.obadiah }
    else s

def processBackchannel (info : List (Text × Text)) (s : TurnTakingInterpreter F) :
    TurnTakingInterpreter F :=
  if getInfo info "turnTakingIntention" = some "backchannel".toList then
    { s with backchannelGiven := true }
  else s

/-- Emotions that follow each other within half a second are counted once. -/
def addDetectedEmotion (info : List (Text × Text)) (name : String) (type : EmotionType)
    (s : TurnTakingInterpreter F) : Except Failure (TurnTakingInterpreter F) :=
  match getInfo info name with
  | none => .ok s
  | some value =>
    match floats.parseFloat value with
    | none => .error .runtime
    | some intensity =>
      let recent : Bool := match s.detectedEmotions.getLast? with
        | none => false
        | some last => toLong (clock (.emotionGap type) - last.time) ≤ 500
      .ok { s with
        recentEmotionCounter :=
          if recent then s.recentEmotionCounter else toInt (s.recentEmotionCounter + 1)
        detectedEmotions := s.detectedEmotions ++
          [{ type := type, intensity := intensity, time := clock (.emotion type) }] }

def addDetectedEmotions (info : List (Text × Text)) (s : TurnTakingInterpreter F) :
    Except Failure (TurnTakingInterpreter F) := do
  let s ← s.addDetectedEmotion floats clock info "valence" .valence
  let s ← s.addDetectedEmotion floats clock info "arousal" .arousal
  s.addDetectedEmotion floats clock info "interest" .interest

def agentSilent (s : TurnTakingInterpreter F) : Bool :=
  s.agentSpeakingState = .silent || s.agentSpeakingState = .waiting

def seconds (a b : Int) : D := d.div (d.sub (d.ofInt a) (d.ofInt b)) (d.ofInt 1000)

def userSilenceTimeValue (s : TurnTakingInterpreter F) : Int :=
  if s.userSpeakingState = .silent then
    let silence := seconds d (clock .userSilence) s.userSpeakingStateTime
    let silence := if s.backchannelGiven then d.sub silence (d.ofInt 1) else silence
    if d.le (d.ofInt 0) silence then
      let r := if s.convState = "listening".toList then d.ofInt 2 else d.literal (7 / 10)
      let b := d.div (d.ofInt 10) r
      let power := d.mul (d.neg b) (d.sub silence (d.div r (d.ofInt 2)))
      d.intValue (d.div (d.ofInt 100) (d.add (d.ofInt 1) (d.exp power)))
    else 0
  else 0

def emotionValue (s : TurnTakingInterpreter F) : Int := min (toInt (s.recentEmotionCounter * 10)) 30

/-- The factor `4/3` is divided as an integer. -/
def agentSilenceTimeValue (s : TurnTakingInterpreter F) : Int :=
  if s.agentSilent then
    let time := seconds d (clock .agentSilence) s.agentSpeakingStateTime
    d.intValue (d.minimum (d.mul (d.ofInt (4 / 3)) time) (d.ofInt 30))
  else 0

def agentSpeakingTime (s : TurnTakingInterpreter F) : Int :=
  toLong (clock .agentTime - s.agentSpeakingStateTime)

def userSpeakingTime (s : TurnTakingInterpreter F) : Int :=
  toLong (clock .userTime - s.userSpeakingStateTime)

def agentEndWaitValue (s : TurnTakingInterpreter F) : Int :=
  if s.agentSilent && s.agentSpeakingTime clock < 1000 then
    d.intValue (d.sub (d.mul (d.literal (5 / 100)) (d.ofInt (s.agentSpeakingTime clock)))
      (d.ofInt 100))
  else 0

def userNotRespondingValue (s : TurnTakingInterpreter F) : Int :=
  if s.agentSilent && s.userSpeakingState = .waiting &&
      absLong (toLong (s.agentSpeakingTime clock - s.userSpeakingTime clock)) < 30 then
    if s.userSpeakingTime clock < 2000 then 0
    else if 6000 < s.userSpeakingTime clock then 100
    else d.intValue
      (d.mul (d.literal (25 / 1000)) (d.ofInt (toLong (s.agentSpeakingTime clock - 2000))))
  else 0

def updateClock (s : TurnTakingInterpreter F) : TurnTakingInterpreter F :=
  let s := if clock .check < s.previousMetaTime then
      { s with
        userSpeakingStateTime := clock .userReset, agentSpeakingStateTime := clock .agentReset }
    else s
  { s with previousMetaTime := clock .previous }

def speakingIntention (s : TurnTakingInterpreter F) : Int :=
  let userSilence := s.userSilenceTimeValue d clock
  let agentSilence := s.agentSilenceTimeValue d clock
  let agentEndWait := s.agentEndWaitValue d clock
  let userNotResponding := s.userNotRespondingValue d clock
  toInt (toInt (toInt (toInt (userSilence + s.emotionValue) + agentSilence) + agentEndWait) +
    userNotResponding)

def getSpeakingIntentionValue (s : TurnTakingInterpreter F) : Int × TurnTakingInterpreter F :=
  let s := s.updateClock clock
  (s.speakingIntention d clock, s)

def send (m : TurnMessage) (s : TurnTakingInterpreter F) : TurnTakingInterpreter F :=
  { s with sent := s.sent ++ [m] }

def sendAgentTurnState (s : TurnTakingInterpreter F) : TurnTakingInterpreter F :=
  match s.agentSpeakingIntention with
  | .speaking => s.send .startSpeaking
  | .silent => s.send .stopSpeaking
  | .waiting => s

def determineAgentTurn (s : TurnTakingInterpreter F) : TurnTakingInterpreter F :=
  let (speakingIntention, s) := s.getSpeakingIntentionValue d clock
  if s.currTTThreshold ≤ speakingIntention ∧ s.agentSpeakingIntention ≠ .speaking ∧
      s.agentSilent = true then
    sendAgentTurnState { s with agentSpeakingIntention := .speaking }
  else if speakingIntention < s.currTTThreshold ∧ s.agentSpeakingIntention ≠ .silent then
    sendAgentTurnState { s with agentSpeakingIntention := .silent }
  else s

def act (s : TurnTakingInterpreter F) : TurnTakingInterpreter F :=
  let s := s.determineAgentTurn d clock
  if s.agentSpeakingState = .waiting ∧
      toLong (s.agentSpeakingStateTime + EXPECTING_ANSWER_TIMEOUT) < clock .timeout then
    s.send .listening
  else s

def reactUser (info : List (Text × Text)) (s : TurnTakingInterpreter F) :
    Except Failure (TurnTakingInterpreter F) := do
  let s ← (s.setUserSpeakingState clock info).addDetectedEmotions floats clock info
  return (s.processHeadMovements clock info).determineAgentTurn d clock

def reactDialog (info : List (Text × Text)) (s : TurnTakingInterpreter F) :
    TurnTakingInterpreter F :=
  let s := s.setAgentSpeakingState clock info
  { s with convState := (getInfo info "agentTurnState").getD s.convState }

def step (s : TurnTakingInterpreter F) : TurnEvent → Except Failure (TurnTakingInterpreter F)
  | .act clock => .ok (s.act d clock)
  | .userState info clock => s.reactUser floats d clock info
  | .dialogState info clock => .ok (s.reactDialog clock info)
  | .agentState info => .ok (s.processBackchannel info)
  | .contextState info => .ok (s.setCharacter lower thresholds info)

abbrev Turns (started : Int) (events : List TurnEvent) (s : TurnTakingInterpreter F) : Prop :=
  Transition.Run (fun s e t => s.step lower floats d thresholds e = .ok t)
    { previousMetaTime := started } events s

end TurnTakingInterpreter
end Semaine.Interpreters
