import Semaine.Meta.Statistics
import Semaine.Meta.SystemManager

/-! `eu.semaine.components.meta.MetaMessenger` and the thread of `Component.run` that uses it. The
thread, the delivery of a message and the clock take turns; each of them is one step. -/
namespace Semaine.Meta
open JavaText

structure MetaMessenger where
  componentName : Text
  systemReady : Bool := false
  timeDelta : Int := 0
  lastSeenAlive : Int := 0
  lastSeenState : Option ComponentState := none
  receiveTopics : Option Text := none
  sendTopics : Option Text := none
  isInput : Bool := false
  isOutput : Bool := false
  statistics : Statistics := { memory := 30 }

namespace MetaMessenger

/-- `now` is what `System.currentTimeMillis()` returns. -/
def getTime (m : MetaMessenger) (now : Int) : Int := now + m.timeDelta

def setTime (m : MetaMessenger) (now systemTime : Int) : MetaMessenger :=
  { m with timeDelta := systemTime - now }

def iAmAlive (m : MetaMessenger) (now : Int) : MetaMessenger :=
  { m with
    lastSeenAlive := if m.timeDelta ≠ 0 then m.getTime now else m.lastSeenAlive
    lastSeenState := some .ready }

def topicsMessage (m : MetaMessenger) : ComponentMessage where
  componentName := m.componentName
  receiveTopics := some m.receiveTopics
  sendTopics := some m.sendTopics
  isInput := some m.isInput
  isOutput := some m.isOutput

def reportTopics (m : MetaMessenger) (receiveTopics sendTopics : Text) (isInput isOutput : Bool) :
    MetaMessenger × ComponentMessage :=
  let m := { m with
    receiveTopics := some receiveTopics
    sendTopics := some sendTopics
    isInput := isInput
    isOutput := isOutput }
  (m, m.topicsMessage)

def reportState (m : MetaMessenger) (state : ComponentState) (details : Option Text) :
    MetaMessenger × ComponentMessage :=
  ({ m with lastSeenState := some state },
   { componentName := m.componentName
     componentState := some state.toText
     componentStateDetails := details })

/-- The time of the last sign of life is too old, or from before the clock was reset. -/
def outdated (m : MetaMessenger) (now : Int) : Bool :=
  decide (m.lastSeenAlive > m.getTime now) ||
    decide (m.getTime now - m.lastSeenAlive > timeoutPeriod)

def checkAlive (m : MetaMessenger) (now : Int) : MetaMessenger :=
  if m.lastSeenState = some .ready ∧ m.systemReady then
    if m.outdated now then { m with lastSeenState := some .stalled } else m
  else m

def reported (average : Int) : Option Int := if average ≠ -1 then some average else none

def pingReply (m : MetaMessenger) (state : ComponentState) : ComponentMessage where
  componentName := m.componentName
  componentState := some state.toText
  lastSeenAlive := some m.lastSeenAlive
  averageActTime := reported m.statistics.avgActTime
  averageReactTime := reported m.statistics.avgReactTime
  averageTransmitTime := reported m.statistics.avgTransmitTime
  totalMessagesReceived := some m.statistics.messagesReceived

/-- The messenger after a message, and its answer. No answer is sent to a ping that comes
before the first state. -/
def onMessage (m : MetaMessenger) (now : Int) : ManagerMessage →
    MetaMessenger × Except Thrown (Option ComponentMessage)
  | .systemReady ready time _ =>
    let m := { m with systemReady := ready }
    (time.elim m (m.setTime now), .ok none)
  | .ping =>
    let m := m.checkAlive now
    match m.lastSeenState with
    | none => (m, .error .nullPointer)
    | some state => (m, .ok (some (m.pingReply state)))
  | .reportTopics => (m, .ok (some m.topicsMessage))

end MetaMessenger

inductive Phase where
  /-- In the constructor. -/
  | constructing
  /-- In `startIO`, before the topics are reported. -/
  | starting
  /-- In `startIO`, afterwards. -/
  | connecting
  /-- At the head of the loop of `run`. -/
  | looping
  /-- After `IamAlive`, before the system is found ready or not. -/
  | alive
  /-- In the inner loop, where the thread waits for the system to become ready. -/
  | waiting
  | acting
  /-- Waiting for input. -/
  | polling
  | reacting
  | exited
  deriving DecidableEq, Repr

structure Component where
  messenger : MetaMessenger
  phase : Phase
  currentTimeMillis : Int

inductive Action where
  | deliver (m : ManagerMessage)
  | clock (currentTimeMillis : Int)
  | construct
  | reportTopics (receiveTopics sendTopics : Text) (isInput isOutput : Bool)
  | started (details : Text)
  | iAmAlive
  | enter
  | wakeUp
  | act (millis : Int)
  | noInput
  | receive (timeMessageTravelled : Int)
  | react (millis : Int)
  | fail (details : Text)
  | exit

namespace Component

def new (componentName : Text) (currentTimeMillis : Int) : Component where
  messenger := { componentName := componentName }
  phase := .constructing
  currentTimeMillis := currentTimeMillis

def goto (c : Component) (phase : Phase) : Component := { c with phase := phase }

def record (c : Component) (f : Statistics → Statistics) : Component :=
  { c with messenger := { c.messenger with statistics := f c.messenger.statistics } }

def reportState (c : Component) (state : ComponentState) (details : Option Text) : Component :=
  { c with messenger := (c.messenger.reportState state details).1 }

/-- The test of the inner loop. -/
def awaitReady (c : Component) : Component :=
  c.goto (if c.messenger.systemReady then .acting else .waiting)

/-- A step of the thread is possible only where the thread is; the clock does not go back. -/
def step (c : Component) : Action → Option Component
  | .deliver m =>
    some { c with messenger := (c.messenger.onMessage c.currentTimeMillis m).1 }
  | .clock time =>
    if c.currentTimeMillis ≤ time then some { c with currentTimeMillis := time } else none
  | .construct =>
    if c.phase = .constructing then some ((c.reportState .starting none).goto .starting) else none
  | .reportTopics receiveTopics sendTopics isInput isOutput =>
    if c.phase = .starting then
      let messenger := (c.messenger.reportTopics receiveTopics sendTopics isInput isOutput).1
      some ({ c with messenger := messenger }.goto .connecting)
    else none
  | .started details =>
    if c.phase = .connecting then some ((c.reportState .ready (some details)).goto .looping)
    else none
  | .iAmAlive =>
    if c.phase = .looping then
      some ({ c with messenger := c.messenger.iAmAlive c.currentTimeMillis }.goto .alive)
    else none
  | .enter => if c.phase = .alive then some c.awaitReady else none
  | .wakeUp => if c.phase = .waiting then some c.awaitReady else none
  | .act millis =>
    if c.phase = .acting then some ((c.record (·.actTime millis)).goto .polling) else none
  | .noInput => if c.phase = .polling then some (c.goto .looping) else none
  | .receive travelled =>
    if c.phase = .polling then
      some ((c.record (·.countMessageReceived.transmitTime travelled)).goto .reacting)
    else none
  | .react millis =>
    if c.phase = .reacting then some ((c.record (·.reactTime millis)).goto .looping) else none
  | .fail details =>
    if c.phase ∈ [.starting, .connecting, .acting, .reacting] then
      some ((c.reportState .failure (some details)).goto .exited)
    else none
  | .exit => if c.phase = .looping then some (c.goto .exited) else none

end Component

end Semaine.Meta
