import Semaine.Meta.ComponentInfo

/-! `eu.semaine.components.meta.SystemManager`: the handling of component messages and the
periodic loop. Steps are atomic and sends succeed; every message sent is kept in a log. -/
namespace Semaine.Meta
open JavaText

abbrev ComponentInfos := AList (fun _ : Text => ComponentInfo)

/-- A meta message from a component. A field is `none` when the property does not exist;
a topic property may exist and hold null. -/
structure ComponentMessage where
  componentName : Text
  componentState : Option Text := none
  componentStateDetails : Option Text := none
  receiveTopics : Option (Option Text) := none
  sendTopics : Option (Option Text) := none
  isInput : Option Bool := none
  isOutput : Option Bool := none
  lastSeenAlive : Option Int := none
  averageActTime : Option Int := none
  averageReactTime : Option Int := none
  averageTransmitTime : Option Int := none
  totalMessagesReceived : Option Int := none

/-- What the manager puts on the meta topic. A readiness report also records the component
infos at the moment of sending; no component reads that record. -/
inductive ManagerMessage where
  | systemReady (ready : Bool) (systemReadyTime : Option Int) (infos : ComponentInfos)
  | ping
  | reportTopics

structure SystemManager where
  componentInfos : ComponentInfos := ∅
  lastReportSystemReady : Bool := false
  sent : List ManagerMessage := []

structure Settings where
  hideComponents : List Text := []
  ignoreStalledComponents : List Text := []

def Settings.componentsToHide (c : Settings) : List Text :=
  "SystemManager".toList :: "MessageLogComponent".toList :: c.hideComponents

/-- `MetaMessenger.TIMEOUT_PERIOD`, in milliseconds. -/
def timeoutPeriod : Int := 3000

namespace SystemManager

def reportSystemReady (s : SystemManager) (ready : Bool) (time : Int) : SystemManager :=
  { s with
    sent := s.sent ++ [.systemReady ready (if ready then some time else none) s.componentInfos]
    lastReportSystemReady := ready }

def lacksTopics (ci : ComponentInfo) : Bool := ci.receiveTopics.isNone && ci.sendTopics.isNone

def pingComponents (s : SystemManager) : SystemManager :=
  { s with
    sent := s.sent ++ .ping ::
      (s.componentInfos.entries.filter (fun e => lacksTopics e.2)).map (fun _ => .reportTopics) }

def isStalled (c : Settings) (time : Int) (name : Text) (ci : ComponentInfo) : Bool :=
  decide (timeoutPeriod < time - ci.lastSeenAlive) && !c.ignoreStalledComponents.contains name

def checkAlive (c : Settings) (time : Int) (name : Text) (ci : ComponentInfo) : ComponentInfo :=
  if isStalled c time name ci then
    ci.setState .stalled
      (some ("Component was last seen at time ".toList ++ (toString ci.lastSeenAlive).toList))
  else ci

def mapInfos (f : Text → ComponentInfo → ComponentInfo) (infos : ComponentInfos) :
    ComponentInfos where
  entries := infos.entries.map (fun e => ⟨e.1, f e.1 e.2⟩)
  nodupKeys := by
    have keys : List.keys (β := fun _ : Text => ComponentInfo)
        (infos.entries.map (fun e => ⟨e.1, f e.1 e.2⟩)) = infos.entries.keys := by
      simp [List.keys, Function.comp_def]
    rw [List.NodupKeys, keys]
    exact infos.nodupKeys

def checkComponentsAlive (c : Settings) (s : SystemManager) (time : Int) : SystemManager :=
  { s with componentInfos := mapInfos (checkAlive c time) s.componentInfos }

def allReady (infos : ComponentInfos) : Bool :=
  infos.entries.all (fun e => e.2.state = some .ready)

def parseState (s : Text) : ComponentState := (ComponentState.valueOf s).getD .failure

def parseTopics : Option Text → Option (List Text)
  | some t => if t.length > 0 then some (split t ' ') else none
  | none => none

def ifExists {α : Type} (property : Option α) (set : α → ComponentInfo → ComponentInfo)
    (ci : ComponentInfo) : ComponentInfo :=
  property.elim ci (fun v => set v ci)

/-- The part of `onMessage` after the state has been dealt with: whatever else the message
carries is copied into the component's info. -/
def recordDetails (m : ComponentMessage) (ci : ComponentInfo) : ComponentInfo :=
  ci |> ifExists m.receiveTopics (fun t ci => ci.setReceiveTopics (parseTopics t))
    |> ifExists m.sendTopics (fun t ci => ci.setSendTopics (parseTopics t))
    |> ifExists m.isInput (fun b ci => ci.setIsInput b)
    |> ifExists m.isOutput (fun b ci => ci.setIsOutput b)
    |> ifExists m.lastSeenAlive (fun v ci => { ci with lastSeenAlive := v })
    |> ifExists m.averageActTime (fun v ci => { ci with avgActTime := v })
    |> ifExists m.averageReactTime (fun v ci => { ci with avgReactTime := v })
    |> ifExists m.averageTransmitTime (fun v ci => { ci with avgTransmitTime := v })
    |> ifExists m.totalMessagesReceived (fun v ci => { ci with messagesReceived := v })

def infoFor (infos : ComponentInfos) (name : Text) : ComponentInfo :=
  (infos.lookup name).getD { name := name }

/-- Change the info of one component in place; an unknown component gets a new info first. -/
def updateInfo (s : SystemManager) (name : Text) (f : ComponentInfo → ComponentInfo) :
    SystemManager :=
  { s with componentInfos := s.componentInfos.insert name (f (infoFor s.componentInfos name)) }

/-- The state branch of `onMessage`: a state other than ready withdraws an earlier
readiness report, ready has the state of every component looked at. -/
def recordState (s : SystemManager) (name : Text) (state : ComponentState)
    (details : Option Text) (time : Int) : SystemManager :=
  let s := s.updateInfo name (fun ci => ci.setState state details)
  if state ≠ .ready then
    if s.lastReportSystemReady then s.reportSystemReady false time else s
  else if allReady s.componentInfos ≠ s.lastReportSystemReady then
    s.reportSystemReady (allReady s.componentInfos) time
  else s

def onMessage (c : Settings) (s : SystemManager) (m : ComponentMessage) (time : Int) :
    SystemManager :=
  if m.componentName ∈ c.componentsToHide then s
  else
    let s := s.updateInfo m.componentName id
    let s := match m.componentState with
      | some text => s.recordState m.componentName (parseState text) m.componentStateDetails time
      | none => s
    s.updateInfo m.componentName (recordDetails m)

/-- One round of the loop in `run`: the components are checked only while the manager
believes that the system is ready. -/
def loopRound (c : Settings) (s : SystemManager) (time : Int) : SystemManager :=
  let s := s.pingComponents
  if s.lastReportSystemReady then s.checkComponentsAlive c time else s

end SystemManager

inductive ManagerEvent where
  | message (m : ComponentMessage) (time : Int)
  | tick (time : Int)

def SystemManager.step (c : Settings) (s : SystemManager) : ManagerEvent → SystemManager
  | .message m time => s.onMessage c m time
  | .tick time => s.loopRound c time

def SystemManager.run (c : Settings) (events : List ManagerEvent) : SystemManager :=
  events.foldl (SystemManager.step c) {}

end Semaine.Meta
