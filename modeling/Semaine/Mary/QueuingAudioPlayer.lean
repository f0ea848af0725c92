import Semaine.Library.JavaFloat
import Semaine.Library.JavaText

/-! `eu.semaine.components.mary.QueuingAudioPlayer`: an animation is assembled from messages
on four topics and handed to the play loop when it is complete and has been triggered. -/
namespace Semaine.Mary
open JavaText JavaFloat

inductive AnimationState where
  | created | ready | playing | finished | dead
  deriving DecidableEq, Repr

inductive Part where
  | audio | fap | bap
  deriving DecidableEq, Repr

/-- `null` content is `none`; everything is needed until a dataInfo command says otherwise. -/
structure Animation where
  contentID : Option Text
  contentCreationTime : Int
  contentType : Option Text
  startAt : Int := 0
  priority : Number := .val 0
  lifetime : Int := 0
  needsAudio : Bool := true
  needsFAP : Bool := true
  needsBAP : Bool := true
  audioData : Option (List UInt8) := none
  fapData : Option Text := none
  bapData : Option Text := none
  haveReceivedPlayCommand : Bool := false

namespace Animation

def isReady (a : Animation) : Bool :=
  (!a.needsAudio || a.audioData.isSome) && (!a.needsFAP || a.fapData.isSome) &&
    (!a.needsBAP || a.bapData.isSome)

def setDataInfo (a : Animation) (hasAudio hasFAP hasBAP : Bool) : Animation :=
  { a with needsAudio := hasAudio, needsFAP := hasFAP, needsBAP := hasBAP }

def setPlayCommand (a : Animation) (startAt : Int) (priority : Number) (lifetime : Int) : Animation :=
  { a with startAt := startAt, priority := priority, lifetime := lifetime,
           haveReceivedPlayCommand := true }

end Animation

inductive Payload where
  | audio (bytes : Option (List UInt8))
  | fap (text : Option Text)
  | bap (text : Option Text)
  | command (text : Text)

structure Message where
  contentID : Option Text
  contentCreationTime : Int
  contentType : Option Text
  datatype : Text
  payload : Payload

def commandTypeInfo : Text := "dataInfo".toList
def commandTypePlay : Text := "playCommand".toList

inductive CallbackType where
  | ready | start | finish
  deriving DecidableEq, Repr

/-- What the player does towards the outside, in order: callback messages and animations
put into the queue of the play loop. -/
inductive Output where
  | callback (type : CallbackType) (contentID : Option Text) (contentType : Option Text)
  | queued (contentID : Option Text)
  deriving DecidableEq

structure Player where
  availableAnimations : AList (fun _ : Option Text => Animation) := ∅
  animationStates : AList (fun _ : Option Text => AnimationState) := ∅
  playerQueue : List Animation := []
  nowPlaying : Option Animation := none
  output : List Output := []

def isSpace (c : Char) : Bool :=
  c = ' ' || c = '\t' || c = '\n' || c = '\x0b' || c = '\x0c' || c = '\r'

/-- `SEMAINEUtils.string2map(s, true)`. -/
def string2map (s : Text) : AList (fun _ : Text => Text) :=
  ((split s '\n').map trim).foldl
    (fun m l => if l = [] then m
      else m.insert (l.takeWhile (!isSpace ·)) ((l.dropWhile (!isSpace ·)).dropWhile isSpace)) ∅

section
variable (parseFloat : Text → Option Number)

/-- One value of `getFloatValues`; both failures are a MessageFormatException. -/
def getFloatValue (features : AList (fun _ : Text => Text)) (key : Text) : Except Text Number :=
  match features.lookup key with
  | none => .error ("Feature '".toList ++ key ++ "' is missing".toList)
  | some v => match parseFloat v with
    | some x => .ok x
    | none => .error ("Expected float value for feature '".toList ++ key ++ "', but got '".toList
        ++ v ++ "'".toList)

def isNeeded (x : Number) : Bool := Number.lt (.val (1 / 2)) x

def fillAnimFromCommandMessage (a : Animation) (datatype text : Text) : Except Text Animation :=
  let features := string2map text
  if datatype = commandTypeInfo then do
    let hasAudio ← getFloatValue parseFloat features "HASAUDIO".toList
    let hasFAP ← getFloatValue parseFloat features "HASFAP".toList
    let hasBAP ← getFloatValue parseFloat features "HASBAP".toList
    return a.setDataInfo (isNeeded hasAudio) (isNeeded hasFAP) (isNeeded hasBAP)
  else if datatype = commandTypePlay then do
    let startAt ← getFloatValue parseFloat features "STARTAT".toList
    let priority ← getFloatValue parseFloat features "PRIORITY".toList
    let lifetime ← getFloatValue parseFloat features "LIFETIME".toList
    return a.setPlayCommand startAt.round priority lifetime.round
  else return a

def fillAnim (a : Animation) (m : Message) : Except Text Animation :=
  match m.payload with
  | .audio bytes => .ok { a with audioData := bytes }
  | .fap text => .ok { a with fapData := text }
  | .bap text => .ok { a with bapData := text }
  | .command text => fillAnimFromCommandMessage parseFloat a m.datatype text

namespace Player

def sendCallbackMessage (p : Player) (type : CallbackType) (a : Animation) : Player :=
  { p with output := p.output ++ [.callback type a.contentID a.contentType] }

/-- Find the animation that a message belongs to, or start a new one. A message for an id
that has already left the list of available animations gives `none`: it is discarded. -/
def findAnimation (p : Player) (m : Message) : Option (Player × Animation) :=
  match p.availableAnimations.lookup m.contentID with
  | some a =>
    if a.contentType = none then some (p, { a with contentType := m.contentType }) else some (p, a)
  | none =>
    match p.animationStates.lookup m.contentID with
    | some _ => none
    | none =>
      some ({ p with animationStates := p.animationStates.insert m.contentID .created },
        { contentID := m.contentID, contentCreationTime := m.contentCreationTime,
          contentType := m.contentType })

def announceReady (p : Player) (id : Option Text) (a : Animation) : Player :=
  if p.animationStates.lookup id = some .created ∧ a.isReady then
    { p.sendCallbackMessage .ready a with
      animationStates := p.animationStates.insert id .ready }
  else p

def enqueue (p : Player) (id : Option Text) (a : Animation) : Player :=
  if a.isReady ∧ a.haveReceivedPlayCommand then
    { p with playerQueue := p.playerQueue ++ [a]
             output := p.output ++ [.queued a.contentID]
             availableAnimations := p.availableAnimations.erase id }
  else p

/-- A MessageFormatException ends the component, so the state it leaves is not kept. -/
def react (p : Player) (m : Message) : Except Text Player :=
  match p.findAnimation m with
  | none => .ok p
  | some (p, a) => do
    let a ← fillAnim parseFloat a m
    let p := { p with availableAnimations := p.availableAnimations.insert m.contentID a }
    return (p.announceReady m.contentID a).enqueue m.contentID a

/-- One turn of `Playloop.run`. An animation without audio is dropped, and so is one whose
audio cannot be opened. -/
def playNext (p : Player) (playable : Bool) : Player :=
  match p.nowPlaying, p.playerQueue with
  | none, a :: rest =>
    if a.needsAudio && playable then
      { p.sendCallbackMessage .start a with
        playerQueue := rest
        nowPlaying := some a
        animationStates := p.animationStates.insert a.contentID .playing }
    else { p with playerQueue := rest }
  | _, _ => p

def finishPlaying (p : Player) : Player :=
  match p.nowPlaying with
  | some a =>
    { p.sendCallbackMessage .finish a with
      nowPlaying := none
      animationStates := p.animationStates.insert a.contentID .finished }
  | none => p

end Player

inductive PlayerEvent where
  | message (m : Message)
  | playNext (playable : Bool)
  | finishPlaying

/-- The messages are handled by the component thread and the rest by the play loop. -/
def Player.step (p : Player) : PlayerEvent → Except Text Player
  | .message m => p.react parseFloat m
  | .playNext playable => .ok (p.playNext playable)
  | .finishPlaying => .ok p.finishPlaying

def Player.run (events : List PlayerEvent) : Except Text Player :=
  events.foldlM (Player.step parseFloat) {}

end

end Semaine.Mary
