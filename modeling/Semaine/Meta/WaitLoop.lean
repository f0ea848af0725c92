import Semaine.Library.Transition
import Semaine.Meta.MetaMessenger
import Semaine.Meta.Readiness

/-! Whether a component that waits for the system to become ready can go on telling the manager
that it is stalled, which keeps the system from becoming ready. -/
namespace Semaine.Meta
open JavaText

def Action.readiness : Action → Option Bool
  | .deliver m => m.readiness
  | _ => none

/-- The last `SystemReady` value delivered to the component. -/
def lastReady (actions : List Action) : Option Bool :=
  (actions.filterMap Action.readiness).getLast?

/-- The component waits for a system that is not ready, and is stalled to the manager. -/
structure Wedged (actions : List Action) (c : Component) : Prop where
  waiting : c.phase = .waiting
  notReady : lastReady actions = some false
  stalled : c.messenger.lastSeenState = some .stalled

namespace Component

def Step (c : Component) (a : Action) (d : Component) : Prop := c.step a = some d

/-- The thread has said that it is alive, and has not found the system ready since. -/
def BeforeWork (c : Component) : Prop := c.phase = .alive ∨ c.phase = .waiting

/-- A ping to a component in this place, with the system ready, does not find the time of the
last sign of life outdated. -/
def PingInTime (c : Component) : Action → Prop
  | .deliver .ping =>
    c.BeforeWork → c.messenger.systemReady = true →
      c.messenger.outdated c.currentTimeMillis = false
  | _ => True

theorem goto_awaits {c : Component} {phase : Phase} {P : Prop} (h : (c.goto phase).BeforeWork)
    (other : phase ≠ .alive ∧ phase ≠ .waiting) : P := by
  rcases h with h | h
  · exact absurd h other.1
  · exact absurd h other.2

/-- What is said between a sign of life and the work: the component is ready. -/
def SaysReady (c : Component) : Prop :=
  c.BeforeWork → c.messenger.lastSeenState = some .ready

theorem checkAlive_ready {m : MetaMessenger} {now : Int} (h : m.lastSeenState = some .ready)
    (inTime : m.systemReady = true → m.outdated now = false) :
    (m.checkAlive now).lastSeenState = some .ready := by
  unfold MetaMessenger.checkAlive
  split
  · rename_i checked
    rw [if_neg (by simp [inTime checked.2])]
    exact h
  · exact h

theorem onMessage_ready {c : Component} {m : ManagerMessage}
    (h : c.messenger.lastSeenState = some .ready) (before : c.BeforeWork)
    (inTime : c.PingInTime (.deliver m)) :
    (c.messenger.onMessage c.currentTimeMillis m).1.lastSeenState = some .ready := by
  cases m with
  | systemReady ready time infos =>
    cases time with
    | none => exact h
    | some time => exact h
  | ping =>
    have ready := checkAlive_ready h (inTime before)
    simp only [MetaMessenger.onMessage, ready]
  | reportTopics => exact h

theorem step_saysReady {c d : Component} {a : Action} (h : c.SaysReady)
    (inTime : c.PingInTime a) (step : c.Step a d) : d.SaysReady := by
  intro before
  unfold Step at step
  cases a with
  | deliver m =>
    simp only [Component.step, Option.some.injEq] at step
    subst step
    exact onMessage_ready (h before) before inTime
  | clock time =>
    simp only [Component.step] at step
    split at step
    · cases step
      exact h before
    · cases step
  | iAmAlive =>
    simp only [Component.step] at step
    split at step
    · cases step
      rfl
    · cases step
  | enter =>
    simp only [Component.step] at step
    split at step
    · rename_i place
      cases step
      exact h (.inl place)
    · cases step
  | wakeUp =>
    simp only [Component.step] at step
    split at step
    · rename_i place
      cases step
      exact h (.inr place)
    · cases step
  | construct | reportTopics | started | act | noInput | receive | react | fail | exit =>
    simp only [Component.step] at step
    split at step
    · cases step
      exact goto_awaits before (by simp)
    · cases step

theorem run_saysReady {name : Text} {now : Int} {actions : List Action} {c : Component}
    (run : Transition.Run (Transition.Guarded PingInTime Step) (Component.new name now) actions c) :
    c.SaysReady := by
  apply run.invariant SaysReady
  · rintro c a d before ⟨inTime, step⟩
    exact step_saysReady before inTime step
  · intro before
    rcases before with place | place <;> cases place

/-- What a late ping and the message that the system is not ready make of a component. -/
def stalledAndNotReady (c : Component) : Component :=
  { c with messenger :=
      { c.messenger with systemReady := false, lastSeenState := some .stalled } }

theorem lastReady_not_ready (actions : List Action) (before : List ManagerMessage)
    (after : List Action) (silent : after.filterMap Action.readiness = []) :
    lastReady (actions ++ (before.map Action.deliver ++
      .deliver (.systemReady false none ∅) :: after)) = some false := by
  simp [lastReady, silent, Action.readiness, ManagerMessage.readiness]

theorem late_ping_wedges {c : Component} {actions : List Action} (ready : c.SaysReady)
    (late : ¬ c.PingInTime (.deliver .ping)) :
    ∃ more d, Transition.Run Step c (.deliver .ping :: more) d ∧
      Wedged (actions ++ .deliver .ping :: more) d := by
  simp only [PingInTime, Classical.not_imp, Bool.not_eq_false] at late
  obtain ⟨before, systemReady, outdated⟩ := late
  have checked : c.messenger.checkAlive c.currentTimeMillis =
      { c.messenger with lastSeenState := some .stalled } := by
    unfold MetaMessenger.checkAlive
    rw [if_pos ⟨ready before, systemReady⟩, if_pos outdated]
  have both : [.deliver .ping, .deliver (.systemReady false none ∅)].foldlM Component.step c =
      some c.stalledAndNotReady := by
    simp [Component.step, MetaMessenger.onMessage, checked, stalledAndNotReady]
  have run := Transition.Run.of_foldlM both
  rcases before with place | place
  · have entered : c.stalledAndNotReady.step .enter =
        some (c.stalledAndNotReady.goto .waiting) := by
      simp [Component.step, stalledAndNotReady, place, awaitReady]
    refine ⟨_, _, run.snoc entered, rfl, ?_, rfl⟩
    exact lastReady_not_ready actions [.ping] [.enter] rfl
  · refine ⟨_, _, run, place, ?_, rfl⟩
    exact lastReady_not_ready actions [.ping] [] rfl

/-- If no ping comes late, a waiting component is never wedged; and after every late ping there
is a way to wedge it. -/
theorem wedged_by_late_ping {name : Text} {now : Int} {actions : List Action} {c : Component}
    (run : Transition.Run (Transition.Guarded PingInTime Step) (Component.new name now) actions c) :
    ¬ Wedged actions c ∧
      (¬ c.PingInTime (.deliver .ping) →
        ∃ more d, Transition.Run Step c (.deliver .ping :: more) d ∧
          Wedged (actions ++ .deliver .ping :: more) d) := by
  have ready := run_saysReady run
  constructor
  · intro wedged
    have said := ready (.inr wedged.waiting)
    rw [wedged.stalled] at said
    cases said
  · exact late_ping_wedges ready

/-! A component that starts at time 0 and waits while the manager's clock is at four seconds. -/

def startAndWait : List Action :=
  [.construct, .reportTopics [] [] false false, .started [], .iAmAlive, .enter]

def waitingComponent : Component where
  messenger := {
    componentName := []
    lastSeenState := some .ready
    receiveTopics := some []
    sendTopics := some [] }
  phase := .waiting
  currentTimeMillis := 0

theorem waits_unwedged :
    Transition.Run (Transition.Guarded PingInTime Step) (Component.new [] 0)
        (startAndWait ++ [.deliver .ping]) waitingComponent ∧
      ¬ Wedged (startAndWait ++ [.deliver .ping]) waitingComponent := by
  have started : Transition.Run Step (Component.new [] 0) startAndWait waitingComponent :=
    Transition.Run.of_foldlM rfl
  have silent : ∀ a ∈ startAndWait, ∀ c : Component, c.PingInTime a := by
    simp [startAndWait, PingInTime]
  have inTime : waitingComponent.PingInTime (.deliver .ping) := by
    intro _ ready
    cases ready
  have run := (started.guard silent).snoc (t := waitingComponent) ⟨inTime, rfl⟩
  exact ⟨run, (wedged_by_late_ping run).1⟩

/-- The ping comes after the thread was notified and before it wakes up. -/
theorem woken_too_late :
    ∃ c : Component,
      Transition.Run Step (Component.new [] 0)
        (startAndWait ++ [.deliver (.systemReady true (some 4000) ∅), .deliver .ping,
          .deliver (.systemReady false none ∅), .wakeUp]) c ∧
      Wedged (startAndWait ++ [.deliver (.systemReady true (some 4000) ∅), .deliver .ping,
        .deliver (.systemReady false none ∅), .wakeUp]) c := by
  refine ⟨_, Transition.Run.of_foldlM rfl, ?_⟩
  exact ⟨rfl, rfl, rfl⟩

end Component

end Semaine.Meta
