import Semaine.Library.JavaText

/-! `eu.semaine.gui.monitor.ComponentInfo`, without the parts that only the GUI reads. -/
namespace Semaine.Meta
open JavaText

inductive ComponentState where
  | starting | ready | stopped | failure | stalled
  deriving DecidableEq, Repr

def ComponentState.toText : ComponentState → Text
  | .starting => "starting".toList
  | .ready => "ready".toList
  | .stopped => "stopped".toList
  | .failure => "failure".toList
  | .stalled => "stalled".toList

/-- `State.valueOf`, with `none` for the IllegalArgumentException. -/
def ComponentState.valueOf (s : Text) : Option ComponentState :=
  [ComponentState.starting, .ready, .stopped, .failure, .stalled].find? (fun x => x.toText = s)

@[simp] theorem valueOf_toText (x : ComponentState) : ComponentState.valueOf x.toText = some x := by
  cases x <;> decide

/-- The fields with the defaults of the constructor; -1 stands for a figure not reported yet. -/
structure ComponentInfo where
  name : Text
  receiveTopics : Option (List Text) := none
  sendTopics : Option (List Text) := none
  isInput : Bool := false
  isOutput : Bool := false
  state : Option ComponentState := none
  stateDetails : Option Text := none
  topicsChanged : Bool := false
  changed : Bool := true
  lastSeenAlive : Int := 0
  avgActTime : Int := -1
  avgReactTime : Int := -1
  avgTransmitTime : Int := -1
  messagesReceived : Int := -1

namespace ComponentInfo

def setTopicsChanged (ci : ComponentInfo) : ComponentInfo :=
  { ci with topicsChanged := true, changed := true }

def setState (ci : ComponentInfo) (newState : ComponentState) (details : Option Text) :
    ComponentInfo :=
  if ci.state = some newState then ci
  else { ci with state := some newState, stateDetails := details, changed := true }

def setReceiveTopics (ci : ComponentInfo) (topics : Option (List Text)) : ComponentInfo :=
  { ci with receiveTopics := topics }.setTopicsChanged

def setSendTopics (ci : ComponentInfo) (topics : Option (List Text)) : ComponentInfo :=
  { ci with sendTopics := topics }.setTopicsChanged

def setIsInput (ci : ComponentInfo) (b : Bool) : ComponentInfo :=
  { ci with isInput := b }.setTopicsChanged

def setIsOutput (ci : ComponentInfo) (b : Bool) : ComponentInfo :=
  { ci with isOutput := b }.setTopicsChanged

@[simp] theorem setState_state (ci : ComponentInfo) (x : ComponentState) (details : Option Text) :
    (ci.setState x details).state = some x := by
  unfold setState
  split <;> simp_all

@[simp] theorem setTopicsChanged_state (ci : ComponentInfo) :
    ci.setTopicsChanged.state = ci.state := rfl

end ComponentInfo

end Semaine.Meta
