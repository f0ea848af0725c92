import Semaine.Library.Transition

/-! `eu.semaine.jms.receiver.Receiver` and the loop of `eu.semaine.components.Component`: the
receivers put themselves into the input queue and keep the message until it is fetched. Each
receiver has a JMS session of its own, which runs its callbacks one after the other. -/
namespace Semaine.Components

/-- Where the thread that runs `onMessage` stands. It holds the monitor of the receiver from
the moment the message is stored until it waits. -/
inductive CallbackPhase where
  | idle | notifying | checking | waiting | notified
  deriving DecidableEq, Repr

structure Receiver (Msg : Type) where
  message : Option Msg := none
  thread : CallbackPhase := .idle

namespace Receiver
variable {Msg : Type}

def notPickedUp (r : Receiver Msg) : Bool := r.message.isSome

def monitorHeld (r : Receiver Msg) : Bool := r.thread = .notifying || r.thread = .checking

/-- The message and the receiver without it, its waiting callback notified. -/
def getMessage (r : Receiver Msg) : Option Msg × Receiver Msg :=
  (r.message, ⟨none, if r.thread = .waiting then .notified else r.thread⟩)

def testPickedUp (r : Receiver Msg) : Receiver Msg :=
  { r with thread := if r.notPickedUp then .waiting else .idle }

end Receiver

inductive ComponentPhase (R Msg : Type) where
  | looping
  | polling
  | polled (r : R)
  | reacting (m : Msg)
  | exited

/-- The receivers of one component and the component. Everything that `getMessage` returned
is recorded in `handed`. -/
structure System (R Msg : Type) where
  receivers : R → Receiver Msg := fun _ => {}
  inputWaiting : List R := []
  component : ComponentPhase R Msg := .looping
  handed : List (R × Option Msg) := []

inductive Action (R Raw : Type) where
  | onMessage (r : R) (m : Option Raw)
  | messageAvailableFrom (r : R)
  | testPickedUp (r : R)
  | act
  | poll
  | getMessage
  | react
  | exit

def Action.isPoll {R Raw : Type} : Action R Raw → Bool
  | .poll => true
  | _ => false

namespace System

section
variable {R Raw Msg : Type} [DecidableEq R]

def setReceiver (s : System R Msg) (r : R) (x : Receiver Msg) : System R Msg :=
  { s with receivers := Function.update s.receivers r x }

/-- One atomic step, where it is possible. `createSEMAINEMessage` gives `none` for a message
with a MessageFormatException, which is logged. A null message from `getMessage` ends the
component, and so may `act` and `react`. -/
def step (createSEMAINEMessage : Raw → Option Msg) (s : System R Msg) :
    Action R Raw → Option (System R Msg)
  | .onMessage r m =>
    if (s.receivers r).thread = .idle then
      match m.bind createSEMAINEMessage with
      | some message => some (s.setReceiver r ⟨some message, .notifying⟩)
      | none => some s
    else none
  | .messageAvailableFrom r =>
    if (s.receivers r).thread = .notifying then
      some { s.setReceiver r { s.receivers r with thread := .checking } with
        inputWaiting := s.inputWaiting ++ [r] }
    else none
  | .testPickedUp r =>
    if (s.receivers r).thread = .idle ∨ (s.receivers r).thread = .notifying then none
    else some (s.setReceiver r (s.receivers r).testPickedUp)
  | .act =>
    match s.component with
    | .looping => some { s with component := .polling }
    | _ => none
  | .poll =>
    match s.component, s.inputWaiting with
    | .polling, [] => some { s with component := .looping }
    | .polling, r :: rest => some { s with component := .polled r, inputWaiting := rest }
    | _, _ => none
  | .getMessage =>
    match s.component with
    | .polled r =>
      if (s.receivers r).monitorHeld then none
      else
        let (m, receiver) := (s.receivers r).getMessage
        some { s.setReceiver r receiver with
          handed := s.handed ++ [(r, m)]
          component := m.elim .exited .reacting }
    | _ => none
  | .react =>
    match s.component with
    | .reacting _ => some { s with component := .looping }
    | _ => none
  | .exit =>
    match s.component with
    | .looping => some { s with component := .exited }
    | .reacting _ => some { s with component := .exited }
    | _ => none

/-- What `getMessage` has returned for one receiver. -/
def handedTo (s : System R Msg) (r : R) : List Msg :=
  s.handed.filterMap fun e => if e.1 = r then e.2 else none

/-- The receivers that have announced a message: the polled one and those in the queue. -/
def announced (s : System R Msg) : List R :=
  match s.component with
  | .polled r => r :: s.inputWaiting
  | _ => s.inputWaiting

def delivered (createSEMAINEMessage : Raw → Option Msg) (r : R) (as : List (Action R Raw)) :
    List Msg :=
  as.filterMap fun
    | .onMessage r' m => if r' = r then m.bind createSEMAINEMessage else none
    | _ => none

def polls (as : List (Action R Raw)) : Nat := as.countP Action.isPoll

variable (create : Raw → Option Msg)

def Next (s : System R Msg) (a : Action R Raw) (t : System R Msg) : Prop :=
  s.step create a = some t

/-- What the steps do, by what the receivers and the component see of them. -/
inductive Effect (s : System R Msg) : Action R Raw → System R Msg → Prop where
  | ignored {r : R} {m : Option Raw} (malformed : m.bind create = none) :
      Effect s (.onMessage r m) s
  | stored {r : R} {m : Option Raw} {message : Msg} (idle : (s.receivers r).thread = .idle)
      (wellFormed : m.bind create = some message) :
      Effect s (.onMessage r m) (s.setReceiver r ⟨some message, .notifying⟩)
  | available {r : R} (notifying : (s.receivers r).thread = .notifying) :
      Effect s (.messageAvailableFrom r)
        { s.setReceiver r { s.receivers r with thread := .checking } with
          inputWaiting := s.inputWaiting ++ [r] }
  | tested {r : R} (busy : (s.receivers r).thread ≠ .idle)
      (announced : (s.receivers r).thread ≠ .notifying) :
      Effect s (.testPickedUp r) (s.setReceiver r (s.receivers r).testPickedUp)
  | polled {r : R} {rest : List R} (polling : s.component = .polling)
      (queue : s.inputWaiting = r :: rest) :
      Effect s .poll { s with component := .polled r, inputWaiting := rest }
  | pickedUp {r : R} (polled : s.component = .polled r)
      (free : (s.receivers r).monitorHeld = false) :
      Effect s .getMessage
        { s.setReceiver r (s.receivers r).getMessage.2 with
          handed := s.handed ++ [(r, (s.receivers r).message)]
          component := (s.receivers r).message.elim .exited .reacting }
  | moved {a : Action R Raw} (next : ComponentPhase R Msg)
      (before : ∀ r, s.component ≠ .polled r) (after : ∀ r, next ≠ .polled r)
      (quiet : ∀ r, delivered create r [a] = [])
      (empty : a = .poll → s.inputWaiting = []) :
      Effect s a { s with component := next }

end
end System
end Semaine.Components
