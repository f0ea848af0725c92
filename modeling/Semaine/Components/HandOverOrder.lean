import Semaine.Components.HandOver

/-! Tokens and messages stay in step: a receiver is announced exactly while it holds a message
that can be fetched, so `getMessage` never returns null and no message is lost or repeated. -/
namespace Semaine.Components
namespace System
open Transition

variable {R Raw Msg : Type} [DecidableEq R] (create : Raw → Option Msg)

theorem step_effect {s t : System R Msg} {a : Action R Raw} (h : Next create s a t) :
    Effect create s a t := by
  cases a with
  | onMessage r m =>
    simp only [Next, step] at h
    split at h
    · rename_i idle
      cases result : m.bind create with
      | some message =>
        simp only [result] at h
        cases h
        exact .stored idle result
      | none =>
        simp only [result] at h
        cases h
        exact .ignored result
    · cases h
  | messageAvailableFrom r =>
    simp only [Next, step] at h
    split at h
    · cases h
      exact .available ‹_›
    · cases h
  | testPickedUp r =>
    simp only [Next, step] at h
    split at h
    · cases h
    · rename_i busy
      rw [not_or] at busy
      cases h
      exact .tested busy.1 busy.2
  | act =>
    cases phase : s.component <;> simp only [Next, step, phase] at h <;> cases h
    exact .moved _ (by simp [phase]) (by simp) (fun _ => rfl) (by simp)
  | poll =>
    simp only [Next, step] at h
    split at h
    · rename_i polling queue
      cases h
      exact .moved _ (by simp [polling]) (by simp) (fun _ => rfl) (fun _ => queue)
    · rename_i polling queue
      cases h
      exact .polled polling queue
    · cases h
  | getMessage =>
    cases phase : s.component <;> simp only [Next, step, phase] at h
    case polled r =>
      split at h
      · cases h
      · rename_i free
        cases h
        exact .pickedUp phase (Bool.eq_false_iff.mpr free)
    all_goals cases h
  | react =>
    cases phase : s.component <;> simp only [Next, step, phase] at h <;> cases h
    exact .moved _ (by simp [phase]) (by simp) (fun _ => rfl) (by simp)
  | exit =>
    cases phase : s.component <;> simp only [Next, step, phase] at h <;> cases h
    all_goals exact .moved _ (by simp [phase]) (by simp) (fun _ => rfl) (by simp)

/-- How the thread of a receiver, its message and its announcements go together. -/
def inStep : CallbackPhase → Bool → Nat → Prop
  | .idle, full, tokens => full = false ∧ tokens = 0
  | .notifying, full, tokens => full = true ∧ tokens = 0
  | .checking, full, tokens => full = true ∧ tokens = 1
  | .waiting, full, tokens => full = true ∧ tokens = 1
  | .notified, full, tokens => full = false ∧ tokens = 0

structure InStep (as : List (Action R Raw)) (s : System R Msg) : Prop where
  tokens : ∀ r, inStep (s.receivers r).thread (s.receivers r).notPickedUp (s.announced.count r)
  history : ∀ r, s.handedTo r ++ (s.receivers r).message.toList = delivered create r as
  handed : ∀ e ∈ s.handed, e.2 ≠ none

theorem delivered_append (r : R) (as : List (Action R Raw)) (a : Action R Raw) :
    delivered create r (as ++ [a]) = delivered create r as ++ delivered create r [a] := by
  simp [delivered]

omit [DecidableEq R] in
theorem announced_of_unpolled {s : System R Msg} (h : ∀ r, s.component ≠ .polled r) :
    s.announced = s.inputWaiting := by
  unfold announced
  split
  · exact absurd ‹_› (h _)
  · rfl

theorem setReceiver_same (s : System R Msg) (r : R) (x : Receiver Msg) :
    (s.setReceiver r x).receivers r = x := by
  simp [setReceiver]

theorem setReceiver_other (s : System R Msg) {r q : R} (x : Receiver Msg) (h : q ≠ r) :
    (s.setReceiver r x).receivers q = s.receivers q := by
  simp [setReceiver, h]

theorem announced_available (s : System R Msg) (r : R) (x : Receiver Msg) :
    announced { s.setReceiver r x with inputWaiting := s.inputWaiting ++ [r] } =
      s.announced ++ [r] := by
  unfold announced setReceiver
  cases s.component <;> simp

theorem handedTo_pickedUp (s : System R Msg) (r q : R) (m : Option Msg) :
    (s.handed ++ [(r, m)]).filterMap (fun e => if e.1 = q then e.2 else none) =
      s.handedTo q ++ if r = q then m.toList else [] := by
  by_cases same : r = q
  · cases m <;> simp [handedTo, same]
  · simp [handedTo, same]

theorem InStep.update {as : List (Action R Raw)} {s t : System R Msg} {a : Action R Raw} {r : R}
    (h : InStep create as s)
    (others : ∀ q, q ≠ r → t.receivers q = s.receivers q ∧
      t.announced.count q = s.announced.count q ∧ t.handedTo q = s.handedTo q ∧
      delivered create q [a] = [])
    (tokens : inStep (t.receivers r).thread (t.receivers r).notPickedUp (t.announced.count r))
    (history : t.handedTo r ++ (t.receivers r).message.toList =
      s.handedTo r ++ (s.receivers r).message.toList ++ delivered create r [a])
    (handed : ∀ e ∈ t.handed, e.2 ≠ none) : InStep create (as ++ [a]) t := by
  refine ⟨fun q => ?_, fun q => ?_, handed⟩
  · by_cases same : q = r
    · rw [same]
      exact tokens
    · obtain ⟨receiver, count, -, -⟩ := others q same
      rw [receiver, count]
      exact h.tokens q
  · rw [delivered_append, ← h.history]
    by_cases same : q = r
    · rw [same]
      exact history
    · obtain ⟨receiver, -, sent, nothing⟩ := others q same
      rw [receiver, sent, nothing, List.append_nil]

theorem InStep.fetchable {as : List (Action R Raw)} {s : System R Msg} {r : R}
    (h : InStep create as s) (polled : s.component = .polled r)
    (free : (s.receivers r).monitorHeld = false) :
    (s.receivers r).thread = .waiting ∧ (∃ m, (s.receivers r).message = some m) ∧
      s.inputWaiting.count r = 0 := by
  have before := h.tokens r
  have queue : s.announced = r :: s.inputWaiting := by simp [announced, polled]
  rw [queue, List.count_cons_self] at before
  cases thread : (s.receivers r).thread with
  | idle =>
    rw [thread] at before
    exact absurd before.2 (by simp)
  | notifying =>
    rw [thread] at before
    exact absurd before.2 (by simp)
  | checking => simp [Receiver.monitorHeld, thread] at free
  | waiting =>
    rw [thread] at before
    exact ⟨rfl, Option.isSome_iff_exists.mp before.1, by simpa using before.2⟩
  | notified =>
    rw [thread] at before
    exact absurd before.2 (by simp)

theorem step_inStep {as : List (Action R Raw)} {s t : System R Msg} {a : Action R Raw}
    (h : InStep create as s) (taken : Next create s a t) : InStep create (as ++ [a]) t := by
  cases step_effect create taken with
  | @ignored r m malformed =>
    have quiet (q : R) : delivered create q [Action.onMessage r m] = [] := by
      simp [delivered, malformed]
    refine h.update create (r := r) (fun q _ => ⟨rfl, rfl, rfl, quiet q⟩) (h.tokens r) ?_ h.handed
    rw [quiet, List.append_nil]
  | @stored r m message idle wellFormed =>
    have before := h.tokens r
    rw [idle] at before
    have empty : (s.receivers r).message = none := by
      simpa [Receiver.notPickedUp] using before.1
    refine h.update create (r := r) (fun q other => ⟨setReceiver_other s _ other, rfl, rfl, ?_⟩)
      ?_ ?_ h.handed
    · simp [delivered, Ne.symm other]
    · rw [setReceiver_same]
      exact ⟨rfl, before.2⟩
    · rw [setReceiver_same, empty]
      simp [delivered, wellFormed, handedTo, setReceiver]
  | @available r notifying =>
    have before := h.tokens r
    rw [notifying] at before
    refine h.update create (r := r) (fun q other => ⟨setReceiver_other s _ other, ?_, rfl, rfl⟩)
      ?_ ?_ h.handed
    · rw [announced_available]
      simp [List.count_append, Ne.symm other]
    · rw [announced_available]
      show inStep ((s.setReceiver r _).receivers r).thread
        ((s.setReceiver r _).receivers r).notPickedUp _
      rw [setReceiver_same]
      exact ⟨before.1, by simp [List.count_append, before.2]⟩
    · show handedTo s r ++ ((s.setReceiver r _).receivers r).message.toList = _
      rw [setReceiver_same]
      simp [delivered]
  | @tested r busy announced =>
    refine h.update create (r := r) (fun q other => ⟨setReceiver_other s _ other, rfl, rfl, rfl⟩)
      ?_ ?_ h.handed
    · rw [setReceiver_same]
      have before := h.tokens r
      cases thread : (s.receivers r).thread with
      | idle => exact absurd thread busy
      | notifying => exact absurd thread announced
      | checking =>
        rw [thread] at before
        simp only [Receiver.testPickedUp, before.1, if_true]
        exact ⟨before.1, before.2⟩
      | waiting =>
        rw [thread] at before
        simp only [Receiver.testPickedUp, before.1, if_true]
        exact ⟨before.1, before.2⟩
      | notified =>
        rw [thread] at before
        simp only [Receiver.testPickedUp, before.1]
        exact ⟨before.1, before.2⟩
    · rw [setReceiver_same]
      simp [delivered, Receiver.testPickedUp, handedTo, setReceiver]
  | @polled r rest polling queue =>
    have same : announced { s with component := .polled r, inputWaiting := rest } =
        s.announced := by
      simp [announced, polling, queue]
    refine h.update create (r := r) (fun q _ => ⟨rfl, by rw [same], rfl, rfl⟩) ?_ ?_ h.handed
    · rw [same]
      exact h.tokens r
    · simp [delivered, handedTo]
  | @pickedUp r polled free =>
    have queue : s.announced = r :: s.inputWaiting := by simp [announced, polled]
    obtain ⟨waiting, ⟨m, message⟩, count⟩ := h.fetchable create polled free
    have after : announced { s.setReceiver r (s.receivers r).getMessage.2 with
        handed := s.handed ++ [(r, (s.receivers r).message)]
        component := (s.receivers r).message.elim .exited .reacting } = s.inputWaiting := by
      rw [message]
      rfl
    refine h.update create (r := r)
      (fun q other => ⟨setReceiver_other s _ other, ?_, ?_, rfl⟩) ?_ ?_ ?_
    · rw [after, queue, List.count_cons_of_ne (Ne.symm other)]
    · refine (handedTo_pickedUp s r q _).trans ?_
      simp [Ne.symm other]
    · rw [after, count]
      show inStep ((s.setReceiver r _).receivers r).thread
        ((s.setReceiver r _).receivers r).notPickedUp 0
      rw [setReceiver_same]
      simp [Receiver.getMessage, waiting, inStep, Receiver.notPickedUp]
    · show List.filterMap _ _ ++ ((s.setReceiver r _).receivers r).message.toList = _
      rw [setReceiver_same, handedTo_pickedUp]
      simp [Receiver.getMessage, message, delivered]
    · intro e he
      rcases List.mem_append.mp he with old | new
      · exact h.handed e old
      · rw [List.mem_singleton.mp new, message]
        simp
  | moved next before after quiet =>
    refine ⟨fun q => ?_, fun q => ?_, h.handed⟩
    · have same : announced { s with component := next } = s.announced := by
        rw [announced_of_unpolled before, announced_of_unpolled after]
      rw [same]
      exact h.tokens q
    · rw [delivered_append, quiet, List.append_nil]
      exact h.history q

theorem run_inStep {as : List (Action R Raw)} {s : System R Msg}
    (run : Run (Next create) {} as s) : InStep create as s :=
  run.history_invariant (InStep create) (fun _ _ _ _ h next => step_inStep create h next)
    ⟨fun _ => ⟨rfl, rfl⟩, fun _ => rfl, fun _ h => by cases h⟩

def holding (s : System R Msg) : Nat :=
  match s.component with
  | .polled _ => 1
  | _ => 0

/-- The message has been fetched, or each poll has brought its receiver closer to the head. -/
inductive Progress (s : System R Msg) (r : R) (m : Msg) (n : Nat) (bs : List (Action R Raw))
    (t : System R Msg) : Prop where
  | fetched (handed : s.handedTo r ++ [m] <+: t.handedTo r)
  | ahead (front back : List R) (announced : t.announced = front ++ r :: back)
      (message : (t.receivers r).message = some m) (handed : t.handedTo r = s.handedTo r)
      (closer : polls bs + front.length ≤ n + t.holding)

omit [DecidableEq R] in
theorem polls_append (as : List (Action R Raw)) (a : Action R Raw) :
    polls (as ++ [a]) = polls as + if a.isPoll then 1 else 0 := by
  simp [polls, List.countP_cons]

omit [DecidableEq R] in
theorem polls_other {a : Action R Raw} (as : List (Action R Raw)) (h : a.isPoll = false) :
    polls (as ++ [a]) = polls as := by
  simp [polls_append, h]

omit [DecidableEq R] in
theorem announced_length (s : System R Msg) :
    s.announced.length = s.inputWaiting.length + s.holding := by
  unfold announced holding
  cases s.component <;> rfl

theorem handedTo_taken {s t : System R Msg} {a : Action R Raw} (taken : Next create s a t)
    (r : R) : s.handedTo r <+: t.handedTo r := by
  cases step_effect create taken with
  | @pickedUp q polled free =>
    refine ⟨_, (handedTo_pickedUp s q r _).symm⟩
  | _ => exact List.prefix_refl _

theorem InStep.unfetched {as : List (Action R Raw)} {s : System R Msg} {r : R}
    (h : InStep create as s) (announced : r ∈ s.announced) :
    (s.receivers r).thread ≠ .idle ∧ (s.receivers r).thread ≠ .notifying := by
  have before := h.tokens r
  have some := List.count_pos_iff.mpr announced
  constructor
  · intro idle
    rw [idle] at before
    have none : s.announced.count r = 0 := before.2
    omega
  · intro notifying
    rw [notifying] at before
    have none : s.announced.count r = 0 := before.2
    omega

theorem step_progress {as bs : List (Action R Raw)} {s t u : System R Msg} {r : R} {m : Msg}
    {n : Nat} {a : Action R Raw} (h : InStep create as t) (progress : Progress s r m n bs t)
    (taken : Next create t a u) : Progress s r m n (bs ++ [a]) u := by
  cases progress with
  | fetched handed => exact .fetched (handed.trans (handedTo_taken create taken r))
  | ahead front back queue message handed closer =>
    have member : r ∈ t.announced := by simp [queue]
    obtain ⟨notIdle, notNotifying⟩ := h.unfetched create member
    cases step_effect create taken with
    | ignored =>
      refine .ahead front back queue message handed ?_
      rw [polls_other bs rfl]
      exact closer
    | @stored q m' message' idle wellFormed =>
      have other : r ≠ q := fun same => notIdle (same ▸ idle)
      refine .ahead front back queue ?_ handed (by rw [polls_other bs rfl]; exact closer)
      rw [setReceiver_other t _ other, message]
    | @available q notifying =>
      have other : r ≠ q := fun same => notNotifying (same ▸ notifying)
      refine .ahead front (back ++ [q]) ?_ ?_ handed (by rw [polls_other bs rfl]; exact closer)
      · rw [announced_available, queue, List.append_assoc, List.cons_append]
      · exact (congrArg _ (setReceiver_other t _ other)).trans message
    | @tested q busy announced =>
      refine .ahead front back queue ?_ handed (by rw [polls_other bs rfl]; exact closer)
      by_cases same : r = q
      · subst same
        rw [setReceiver_same]
        exact message
      · rw [setReceiver_other t _ same, message]
    | @polled q rest polling waiting =>
      refine .ahead front back ?_ message handed ?_
      · simpa [announced, polling, waiting] using queue
      · have before : t.holding = 0 := by simp [holding, polling]
        have one : polls (bs ++ [(.poll : Action R Raw)]) = polls bs + 1 :=
          polls_append bs .poll
        rw [one]
        simp only [holding]
        omega
    | @pickedUp q polled free =>
      have held : t.holding = 1 := by simp [holding, polled]
      have head : q :: t.inputWaiting = front ++ r :: back := by
        simpa [announced, polled] using queue
      cases front with
      | nil =>
        obtain ⟨rfl, -⟩ := List.cons.inj head
        refine .fetched ?_
        show _ <+: List.filterMap _ _
        rw [handedTo_pickedUp, message, handed]
        simp
      | cons q' front =>
        obtain ⟨rfl, rest⟩ := List.cons.inj head
        by_cases same : q = r
        · subst same
          refine .fetched ?_
          show _ <+: List.filterMap _ _
          rw [handedTo_pickedUp, message, handed]
          simp
        · refine .ahead front back ?_ ?_ ?_ ?_
          · cases (t.receivers q).message <;> exact rest
          · exact (congrArg _ (setReceiver_other t _ (Ne.symm same))).trans message
          · refine (handedTo_pickedUp t q r _).trans ?_
            simp [same, handed]
          · rw [polls_other bs rfl]
            rw [List.length_cons] at closer
            omega
    | moved next before after quiet empty =>
      have same : announced { t with component := next } = t.announced := by
        rw [announced_of_unpolled before, announced_of_unpolled after]
      have notPoll : a.isPoll = false := by
        cases a with
        | poll =>
          rw [announced_of_unpolled before, empty rfl] at queue
          simp at queue
        | _ => rfl
      have free (c : ComponentPhase R Msg) (h : ∀ q, c ≠ .polled q) :
          holding { t with component := c } = 0 := by
        unfold holding
        split
        · exact absurd ‹_› (h _)
        · rfl
      refine .ahead front back (same.trans queue) message handed ?_
      have was : t.holding = 0 := free t.component before
      rw [polls_other bs notPoll, free next after, ← was]
      exact closer

theorem run_progress {as bs : List (Action R Raw)} {s t : System R Msg} {r : R} {m : Msg}
    (h : InStep create as s) (announced : r ∈ s.announced)
    (message : (s.receivers r).message = some m) (run : Run (Next create) s bs t) :
    Progress s r m (s.inputWaiting.length) bs t := by
  obtain ⟨front, back, split⟩ := List.append_of_mem announced
  have short : front.length ≤ s.inputWaiting.length + s.holding := by
    have length := s.announced_length
    rw [split, List.length_append, List.length_cons] at length
    omega
  have start : Progress s r m (s.inputWaiting.length) ([] : List (Action R Raw)) s :=
    .ahead front back split message rfl (by simpa [polls] using short)
  have kept := run.history_invariant
    (fun bs t => (∃ as, InStep create as t) ∧ Progress s r m (s.inputWaiting.length) bs t)
    (fun bs t a u ⟨⟨as, inStep⟩, progress⟩ taken =>
      ⟨⟨as ++ [a], step_inStep create inStep taken⟩, step_progress create inStep progress taken⟩)
    ⟨⟨as, h⟩, start⟩
  exact kept.2

theorem fetched_after_polls {as bs : List (Action R Raw)} {s t : System R Msg} {r : R} {m : Msg}
    (h : InStep create as s) (announced : r ∈ s.announced)
    (message : (s.receivers r).message = some m) (run : Run (Next create) s bs t)
    (enough : s.inputWaiting.length + 2 ≤ polls bs) : s.handedTo r ++ [m] <+: t.handedTo r := by
  cases run_progress create h announced message run with
  | fetched handed => exact handed
  | ahead front back _ _ _ closer =>
    have most : t.holding ≤ 1 := by
      unfold holding
      split <;> omega
    omega

theorem run_handedTo {bs : List (Action R Raw)} {s t : System R Msg}
    (run : Run (Next create) s bs t) (r : R) : s.handedTo r <+: t.handedTo r :=
  run.invariant (fun t => s.handedTo r <+: t.handedTo r)
    (fun _ _ _ h taken => h.trans (handedTo_taken create taken r)) (List.prefix_refl _)

/-- Two receivers, `false` and `true`, whose first messages arrive at the same time. -/
def twoArrivals : List (Action Bool Nat) :=
  [.onMessage false (some 1), .onMessage true (some 2), .messageAvailableFrom true, .act,
    .messageAvailableFrom false, .testPickedUp true, .poll, .getMessage, .testPickedUp true,
    .onMessage true (some 3), .react, .act, .testPickedUp false, .poll, .getMessage]

end System
end Semaine.Components
