import Semaine.Dialogue.InformationState

/-! What `UtteranceActionProposer.react` does with a message about the state of the user. An
exception ends the component, so nothing is kept of a message that raised one. -/
namespace Semaine.Dialogue
open JavaText JavaFloat

/-- More operations on `float`, and the conversion to `double`. -/
structure FloatNumbers (F D : Type) extends Floats F where
  ofInt : Int → F
  toDouble : F → D

inductive EmotionType where
  | valence | arousal | interest | potency | intensity
  deriving DecidableEq, Repr

structure EmotionEvent (F : Type) where
  type : EmotionType
  intensity : F

inductive DialogueAct.Length where
  | short | normal | long
  deriving DecidableEq, Repr

structure DialogueAct where
  utterance : Text
  starttime : Int
  endtime : Int := 0
  positive : Bool := false
  negative : Bool := false
  agree : Bool := false
  disagree : Bool := false
  aboutOtherPeople : Bool := false
  aboutOtherCharacter : Bool := false
  aboutCurrentCharacter : Bool := false
  aboutOwnFeelings : Bool := false
  pragmatic : Bool := false
  talkAboutSelf : Bool := false
  future : Bool := false
  past : Bool := false
  event : Bool := false
  action : Bool := false
  laugh : Bool := false
  changeSpeaker : Bool := false
  length : DialogueAct.Length := .normal
  targetCharacter : Text := []

def SHORT_LENGTH : Int := 5000
def LONG_LENGTH : Int := 15000

def characters : List Text :=
  ["Poppy".toList, "Prudence".toList, "Obadiah".toList, "Spike".toList]

/-- The character that is named, or the first of those that are named most often. -/
def DialogueAct.getTargetCharacter (act : DialogueAct) : Text :=
  match split act.targetCharacter ' ' with
  | [character] => if character ∈ characters then character else "null".toList
  | names =>
    let counters (character : Text) : Nat := names.count character
    let isTarget (character : Text) : Bool :=
      0 < counters character ∧ ∀ other ∈ characters, counters other ≤ counters character
    (characters.find? isTarget).getD "null".toList

def DialogueAct.combine (act1 act2 : DialogueAct) : DialogueAct :=
  let starttime := min act1.starttime act2.starttime
  let endtime := max act1.endtime act2.endtime
  { utterance := act1.utterance ++ [' '] ++ act2.utterance
    starttime := starttime
    endtime := endtime
    positive := act1.positive || act2.positive
    negative := act1.negative || act2.negative
    agree := act1.agree || act2.agree
    disagree := act1.disagree || act2.disagree
    aboutOtherPeople := act1.aboutOtherPeople || act2.aboutOtherPeople
    aboutOtherCharacter := act1.aboutOtherCharacter || act2.aboutOtherCharacter
    aboutCurrentCharacter := act1.aboutCurrentCharacter || act2.aboutCurrentCharacter
    aboutOwnFeelings := act1.aboutOwnFeelings || act2.aboutOwnFeelings
    pragmatic := act1.pragmatic || act2.pragmatic
    talkAboutSelf := act1.talkAboutSelf || act2.talkAboutSelf
    future := act1.future || act2.future
    past := act1.past || act2.past
    event := act1.event || act2.event
    action := act1.action || act2.action
    laugh := act1.laugh || act2.laugh
    changeSpeaker := act1.changeSpeaker || act2.changeSpeaker
    length :=
      if toLong (endtime - starttime) < SHORT_LENGTH then .short
      else if LONG_LENGTH < toLong (endtime - starttime) then .long
      else .normal
    targetCharacter := act1.getTargetCharacter ++ [' '] ++ act2.getTargetCharacter }

/-- The loop of `getCombinedUserDialogueAct`. -/
def DialogueAct.combineAll (first : DialogueAct) (others : List DialogueAct) : DialogueAct :=
  others.foldl combine first

def DialogueAct.features (act : DialogueAct) : List (Bool × String) :=
  [(act.positive, "is_positive"), (act.negative, "is_negative"), (act.agree, "is_agree"),
    (act.disagree, "is_disagree"), (act.aboutOtherPeople, "about_other_people"),
    (act.aboutOtherCharacter, "about_other_character"),
    (act.aboutCurrentCharacter, "about_current_character"),
    (act.aboutOwnFeelings, "about_own_feelings"), (act.talkAboutSelf, "talk_about_self"),
    (act.pragmatic, "pragmatic"), (act.future, "future"), (act.past, "past"),
    (act.action, "action"), (act.event, "event"), (act.laugh, "laugh"),
    (act.changeSpeaker, "change_speaker"), (act.length = .short, "short"),
    (act.length = .long, "long"), (act.length = .normal, "normal")]

/-- The features as they are named in a message, with the target if there is one. -/
def DialogueAct.getFeatures (act : DialogueAct) : Text :=
  (act.features.flatMap fun (has, name) => if has then ' ' :: name.toList else []) ++
    if act.targetCharacter.length ≠ 0 then " target:".toList ++ act.targetCharacter else []

def DialogueAct.getFeatureList (act : DialogueAct) : List Text :=
  act.features.filterMap fun (has, name) => if has then some name.toList else none

/-- A message with a StateInfo about the user, and the time at which it is handled. -/
structure UserStateMessage where
  info : List (Text × Text)
  time : Int

def UserStateMessage.getInfo (m : UserStateMessage) (name : String) : Option Text :=
  m.info.lookup name.toList

def UserStateMessage.hasInfo (m : UserStateMessage) (name : String) : Bool :=
  (m.getInfo name).isSome

structure UserTurn (F D : Type) where
  is : InformationState D
  detectedEmotions : List (EmotionEvent F) := []
  detectedDActs : List DialogueAct := []
  dActIndex : Nat := 0
  turnActionUnits : List (Text × Bool) := []
  isStoringFeatures : Bool := false

section
variable {F D : Type} (chars : Characters) (floats : FloatNumbers F D)

def Item.getString : Item D → Option Text
  | .string value => some value
  | _ => none

def Item.getInteger : Item D → Option Int
  | .integer value => some value
  | _ => none

namespace InformationState

def getString (is : InformationState D) (path : Text) : Except Failure (Option Text) :=
  (is.getValueOfPath chars path).map (·.bind Item.getString)

def getInteger (is : InformationState D) (path : Text) : Except Failure (Option Int) :=
  (is.getValueOfPath chars path).map (·.bind Item.getInteger)

def orThrow (change : InformationState D × Option Failure) : Except Failure (InformationState D) :=
  match change with
  | (is, none) => .ok is
  | (_, some e) => .error e

def write (is : InformationState D) (path : Text) (value : Item D) :
    Except Failure (InformationState D) :=
  orThrow (is.set path value)

end InformationState

namespace UserTurn

def write (path : Text) (value : Item D) (s : UserTurn F D) : Except Failure (UserTurn F D) :=
  (s.is.write path value).map fun is => { s with is := is }

def userStartsSpeaking (time : Int) (s : UserTurn F D) : Except Failure (UserTurn F D) := do
  let state ← s.is.getString chars "User.speakingState".toList
  if state = some "speaking".toList then return s
  let s ← s.write "User.speakingState".toList (.string "speaking".toList)
  let s ← s.write "User.speakingStateTime".toList (.integer (toInt time))
  return { s with isStoringFeatures := true }

def userStopsSpeaking (time : Int) (s : UserTurn F D) : Except Failure (UserTurn F D) := do
  let state ← s.is.getString chars "User.speakingState".toList
  if state = some "listening".toList then return s
  let s ← s.write "User.speakingState".toList (.string "listening".toList)
  s.write "User.speakingStateTime".toList (.integer (toInt time))

def updateSpeaking (m : UserStateMessage) (s : UserTurn F D) : Except Failure (UserTurn F D) :=
  if m.getInfo "speaking" = some "true".toList then s.userStartsSpeaking chars m.time
  else if m.getInfo "speaking" = some "false".toList then s.userStopsSpeaking chars m.time
  else .ok s

def emotionPath (emotion : Text) (name : String) : Text :=
  "UserTurn.".toList ++ emotion ++ '.' :: name.toList

/-- The loops over the intensities: their smallest, their largest and their sum. -/
def extremes (intensities : List F) (start : F × F × F) : F × F × F :=
  intensities.foldl (fun (low, high, sum) fl =>
    (if floats.lt fl low then fl else low, if floats.lt high fl then fl else high,
      floats.add sum fl)) start

def setISEmotions (emotion : Text) (nrLow nrHigh : List F) (s : UserTurn F D) :
    Except Failure (UserTurn F D) := do
  let count : Int := nrLow.length + nrHigh.length
  let (low, high, sum) := extremes floats nrLow
    (extremes floats nrHigh (floats.ofInt 999, floats.ofInt (-999), floats.zero))
  let measured (value : F) : Item D :=
    if count = 0 then .integer 0 else .double (floats.toDouble value)
  let s ← s.write (emotionPath emotion "nrLowEvents") (.integer nrLow.length)
  let s ← s.write (emotionPath emotion "nrHighEvents") (.integer nrHigh.length)
  let s ← s.write (emotionPath emotion "average")
    (measured (floats.div sum (floats.ofInt count)))
  let s ← s.write (emotionPath emotion "min") (measured low)
  s.write (emotionPath emotion "max") (measured high)

def setEmotion (emotion : Text) (type : EmotionType) (s : UserTurn F D) :
    Except Failure (UserTurn F D) :=
  let intensities := (s.detectedEmotions.filter (·.type = type)).map (·.intensity)
  setISEmotions floats emotion (intensities.filter (fun fl => !floats.le floats.zero fl))
    (intensities.filter (floats.le floats.zero)) s

def summarizeEmotionEvents (s : UserTurn F D) : Except Failure (UserTurn F D) := do
  let s ← s.setEmotion floats "Valence".toList .valence
  let s ← s.setEmotion floats "Arousal".toList .arousal
  let s ← s.setEmotion floats "Interest".toList .interest
  let s ← s.setEmotion floats "Potency".toList .potency
  s.setEmotion floats "Intensity".toList .intensity

def emotionOf (m : UserStateMessage) : Option (EmotionType × Text) :=
  [("valence", EmotionType.valence), ("arousal", .arousal), ("interest", .interest),
    ("potency", .potency), ("intensity", .intensity)].findSome? fun (name, type) =>
      (m.getInfo name).map (type, ·)

def updateEmotions (m : UserStateMessage) (s : UserTurn F D) : Except Failure (UserTurn F D) :=
  match emotionOf m with
  | none => .ok s
  | some (type, value) =>
    match floats.parseFloat value with
    | none => .error .runtime
    | some intensity => summarizeEmotionEvents floats
        { s with detectedEmotions := s.detectedEmotions ++ [⟨type, intensity⟩] }

end UserTurn

def DialogueAct.ofFeatures (utterance : Text) (starttime endtime : Int) (f : Text) : DialogueAct :=
  let positive := containsText f "positive".toList
  let negative := containsText f "negative".toList
  let disagree := containsText f "disagree".toList
  let f := if disagree then replaceAll "disagree".toList [] f.length f else f
  let has (name : String) : Bool := containsText f name.toList
  { utterance := utterance
    starttime := starttime
    endtime := endtime
    positive := positive
    negative := negative
    disagree := disagree
    agree := has "agree"
    aboutOtherPeople := has "about_other_people"
    aboutOtherCharacter := has "about_other_character"
    aboutCurrentCharacter := has "about_current_character"
    aboutOwnFeelings := has "about_own_feelings"
    pragmatic := has "pragmatic"
    talkAboutSelf := has "abou_self"
    future := has "future"
    past := has "past"
    event := has "event"
    action := has "action"
    laugh := has "laugh"
    changeSpeaker := has "change_speaker"
    targetCharacter := (textAfter "target:".toList f).getD []
    length := if has "long" then .long else if has "short" then .short else .normal }

namespace UserTurn

def addFeatures : List Text → UserTurn F D → Except Failure (UserTurn F D)
  | [], s => .ok s
  | contentFeature :: rest, s => do
    let s ← s.write "UserTurn.SemanticFeatures._addlast".toList (.string contentFeature)
    addFeatures rest s

def getCombinedUserDialogueAct (s : UserTurn F D) : Except Failure (UserTurn F D) :=
  match s.detectedDActs.drop s.dActIndex with
  | [] => .ok s
  | first :: others => do
    let act := first.combineAll others
    let s ← s.write "UserTurn.utterance".toList (.string act.utterance)
    let s ← s.write "UserTurn.starttime".toList (.integer (toInt act.starttime))
    let s ← s.write "UserTurn.endtime".toList (.integer (toInt act.starttime))
    let s ← s.write "UserTurn.targetCharacter".toList (.string act.getTargetCharacter)
    let is ← InformationState.orThrow (s.is.remove chars "UserTurn.SemanticFeatures".toList)
    addFeatures act.getFeatureList { s with is := is }

/-- An act that starts at the time of the last one replaces it, unless that is the only one. -/
def addAct (act : DialogueAct) (detectedDActs : List DialogueAct) : List DialogueAct :=
  match detectedDActs.getLast? with
  | some last =>
    if 1 < detectedDActs.length ∧ absLong (toLong (last.starttime - act.starttime)) < 10 then
      detectedDActs.dropLast ++ [act]
    else detectedDActs ++ [act]
  | none => [act]

def updateUtterances (m : UserStateMessage) (s : UserTurn F D) : Except Failure (UserTurn F D) :=
  match m.getInfo "userUtterance", m.getInfo "userUtteranceStartTime" with
  | some utterance, some starttime =>
    match chars.parseLong starttime with
    | none => .error .runtime
    | some time => do
      let act := DialogueAct.ofFeatures utterance time m.time
        ((m.getInfo "userUtteranceFeatures").getD [])
      let s ← getCombinedUserDialogueAct chars
        { s with detectedDActs := addAct act s.detectedDActs }
      s.userStartsSpeaking chars m.time
  | _, _ => .ok s

def headPath (gesture : Text) : Text := "UserTurn.Head.nrOf".toList ++ gesture
def pitchPath (pitch : Text) : Text := "UserTurn.Pitch.nrOf".toList ++ pitch
def vocalizationPath (vocalization : Text) : Text :=
  "UserTurn.Vocalization.nrOf".toList ++ vocalization
def actionUnitPath (au : Text) : Text := "UserTurn.AU.nrOfAU".toList ++ au

def nextCounter (path : Text) (s : UserTurn F D) : Except Failure (Item D) :=
  (s.is.getInteger chars path).map fun counter => .integer (toInt (counter.getD 0 + 1))

def headGesture (m : UserStateMessage) : Option Text :=
  if m.hasInfo "headGestureStarted" && m.hasInfo "headGestureStopped" then m.getInfo "headGesture"
  else none

def updateHead (m : UserStateMessage) (s : UserTurn F D) : Except Failure (UserTurn F D) :=
  match headGesture m with
  | none => .ok s
  | some gesture => do
    let counter ← s.nextCounter chars (headPath gesture)
    let s ← s.write (headPath gesture) counter
    s.write "UserTurn.Head.lastGesture".toList (.string gesture)

def updatePitch (m : UserStateMessage) (s : UserTurn F D) : Except Failure (UserTurn F D) :=
  match m.getInfo "pitchDirection" with
  | none => .ok s
  | some pitch => do
    let _counter ← s.nextCounter chars (pitchPath pitch)
    let s ← s.write (pitchPath pitch) (.string pitch)
    s.write "UserTurn.Pitch.lastPitch".toList (.string pitch)

def updateVocalization (m : UserStateMessage) (s : UserTurn F D) :
    Except Failure (UserTurn F D) :=
  match m.getInfo "vocalization" with
  | none => .ok s
  | some vocalization => do
    let _counter ← s.nextCounter chars (vocalizationPath vocalization)
    s.write (vocalizationPath vocalization) (.string vocalization)

def setActionUnit (units : List (Text × Bool)) (au : Text) (b : Bool) : List (Text × Bool) :=
  (au, b) :: units.filter (fun e => e.1 ≠ au)

def countActionUnits : List Text → UserTurn F D → Except Failure (UserTurn F D)
  | [], s => .ok s
  | au :: aus, s =>
    if s.turnActionUnits.lookup au = some true then countActionUnits aus s
    else do
      let s := { s with turnActionUnits := setActionUnit s.turnActionUnits au true }
      let counter ← s.nextCounter chars (actionUnitPath au)
      let s ← s.write (actionUnitPath au) counter
      countActionUnits aus s

def updateActionUnits (m : UserStateMessage) (s : UserTurn F D) :
    Except Failure (UserTurn F D) :=
  match m.getInfo "facialActionUnits" with
  | none => .ok s
  | some facialExpressions => do
    let aus := split facialExpressions ' '
    let s ← s.countActionUnits chars aus
    let units := s.turnActionUnits.map fun (au, b) => (au, b && aus.contains au)
    return { s with turnActionUnits := units }

/-- The case of `react` for a user state. -/
def react (m : UserStateMessage) (s : UserTurn F D) : Except Failure (UserTurn F D) := do
  let s ← s.updateSpeaking chars m
  let s ← s.updateEmotions floats m
  let s ← s.updateUtterances chars m
  let s ← s.updateHead chars m
  let s ← s.updatePitch chars m
  let s ← s.updateVocalization chars m
  s.updateActionUnits chars m

end UserTurn

end

end Semaine.Dialogue
