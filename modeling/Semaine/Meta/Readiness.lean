import Semaine.Meta.SystemManager

/-! What the manager says about the system, compared with what it knows of the components. -/
namespace Semaine.Meta
open JavaText

def ManagerMessage.readiness : ManagerMessage → Option Bool
  | .systemReady ready _ _ => some ready
  | .ping => none
  | .reportTopics => none

/-- The last readiness value broadcast; before the first broadcast the components take the
system not to be ready. -/
def lastBroadcast (sent : List ManagerMessage) : Bool :=
  (sent.filterMap ManagerMessage.readiness).getLast?.getD false

def EveryReady (infos : ComponentInfos) : Prop :=
  ∀ name ci, infos.lookup name = some ci → ci.state = some .ready

/-- No broadcast of true was made while some known component was not ready. -/
def SoundBroadcasts (sent : List ManagerMessage) : Prop :=
  ∀ time infos, .systemReady true time infos ∈ sent → EveryReady infos

theorem allReady_iff (infos : ComponentInfos) :
    SystemManager.allReady infos = true ↔ EveryReady infos := by
  simp only [SystemManager.allReady, List.all_eq_true, decide_eq_true_eq]
  constructor
  · intro h name ci known
    exact h ⟨name, ci⟩ (AList.mem_lookup_iff.mp known)
  · intro h e he
    exact h e.1 e.2 (AList.mem_lookup_iff.mpr he)

instance (infos : ComponentInfos) : Decidable (EveryReady infos) :=
  decidable_of_iff _ (allReady_iff infos)

theorem not_ready_of_lookup {infos : ComponentInfos} {name : Text} {ci : ComponentInfo}
    (known : infos.lookup name = some ci) (h : ci.state ≠ some .ready) :
    SystemManager.allReady infos = false := by
  cases all : SystemManager.allReady infos with
  | false => rfl
  | true => exact absurd ((allReady_iff infos).mp all name ci known) h

/-- The flag of the manager is the last value it broadcast, and what it broadcast was true. -/
structure Consistent (s : SystemManager) : Prop where
  last : s.lastReportSystemReady = lastBroadcast s.sent
  sound : SoundBroadcasts s.sent

namespace SystemManager

theorem report_consistent {s : SystemManager} (h : Consistent s) (ready : Bool) (time : Int)
    (truthful : ready = true → EveryReady s.componentInfos) :
    Consistent (s.reportSystemReady ready time) where
  last := by simp [reportSystemReady, lastBroadcast, ManagerMessage.readiness]
  sound := by
    intro t infos sent
    rcases List.mem_append.mp sent with sent | sent
    · exact h.sound t infos sent
    · simp only [List.mem_singleton, ManagerMessage.systemReady.injEq] at sent
      obtain ⟨eq, _, rfl⟩ := sent
      exact truthful eq.symm

theorem update_consistent {s : SystemManager} (h : Consistent s) (name : Text)
    (f : ComponentInfo → ComponentInfo) : Consistent (s.updateInfo name f) :=
  ⟨h.last, h.sound⟩

@[simp] theorem update_lookup (s : SystemManager) (name : Text)
    (f : ComponentInfo → ComponentInfo) :
    (s.updateInfo name f).componentInfos.lookup name =
      some (f (infoFor s.componentInfos name)) := by
  simp [updateInfo]

theorem update_lookup_ne (s : SystemManager) {name other : Text}
    (f : ComponentInfo → ComponentInfo) (h : other ≠ name) :
    (s.updateInfo name f).componentInfos.lookup other = s.componentInfos.lookup other := by
  simp [updateInfo, AList.lookup_insert_ne h]

theorem update_everyReady (s : SystemManager) (name : Text) (f : ComponentInfo → ComponentInfo)
    (known : ∃ ci, s.componentInfos.lookup name = some ci) (same : ∀ ci, (f ci).state = ci.state) :
    EveryReady (s.updateInfo name f).componentInfos ↔ EveryReady s.componentInfos := by
  obtain ⟨ci, hci⟩ := known
  have now : (s.updateInfo name f).componentInfos.lookup name = some (f ci) := by
    simp [infoFor, hci]
  constructor
  · intro h other x hx
    by_cases eq : other = name
    · subst other
      rw [hci] at hx
      cases hx
      rw [← same ci]
      exact h name (f ci) now
    · exact h other x ((update_lookup_ne s f eq).trans hx)
  · intro h other x hx
    by_cases eq : other = name
    · subst other
      rw [now] at hx
      cases hx
      rw [same ci]
      exact h name ci hci
    · exact h other x ((update_lookup_ne s f eq).symm.trans hx)

theorem ifExists_state {α : Type} (property : Option α) (set : α → ComponentInfo → ComponentInfo)
    (ci : ComponentInfo) (same : ∀ v, (set v ci).state = ci.state) :
    (ifExists property set ci).state = ci.state := by
  cases property with
  | none => rfl
  | some v => exact same v

theorem recordDetails_state (m : ComponentMessage) (ci : ComponentInfo) :
    (recordDetails m ci).state = ci.state := by
  unfold recordDetails
  iterate 9 rw [ifExists_state _ _ _ (fun _ => rfl)]

theorem recordState_spec {s : SystemManager} (h : Consistent s) (name : Text)
    (state : ComponentState) (details : Option Text) (time : Int) :
    Consistent (s.recordState name state details time) ∧
      (s.recordState name state details time).lastReportSystemReady =
        allReady (s.recordState name state details time).componentInfos ∧
      (∃ ci, (s.recordState name state details time).componentInfos.lookup name = some ci) := by
  generalize hu : s.updateInfo name (fun ci => ci.setState state details) = u
  have hc : Consistent u := hu ▸ update_consistent h name _
  have known : u.componentInfos.lookup name =
      some ((infoFor s.componentInfos name).setState state details) := by
    rw [← hu]
    exact update_lookup s name _
  simp only [recordState, hu]
  by_cases notReady : state ≠ .ready
  · have verdict : allReady u.componentInfos = false :=
      not_ready_of_lookup known (by simpa using notReady)
    rw [if_pos notReady]
    cases flag : u.lastReportSystemReady with
    | false => exact ⟨hc, flag.trans verdict.symm, _, known⟩
    | true =>
      refine ⟨report_consistent hc false time (by simp), ?_, _, known⟩
      exact verdict.symm
  · rw [if_neg notReady]
    by_cases change : allReady u.componentInfos ≠ u.lastReportSystemReady
    · rw [if_pos change]
      exact ⟨report_consistent hc _ time (allReady_iff u.componentInfos).mp, rfl, _, known⟩
    · rw [if_neg change]
      exact ⟨hc, (not_not.mp change).symm, _, known⟩

theorem onMessage_consistent {s : SystemManager} (c : Settings) (h : Consistent s)
    (m : ComponentMessage) (time : Int) : Consistent (s.onMessage c m time) := by
  unfold onMessage
  split
  · exact h
  · cases m.componentState with
    | none => exact update_consistent (update_consistent h _ _) _ _
    | some text =>
      exact update_consistent (recordState_spec (update_consistent h _ _) _ _ _ _).1 _ _

theorem onMessage_verdict {s : SystemManager} (c : Settings) (h : Consistent s)
    (m : ComponentMessage) (time : Int) (visible : m.componentName ∉ c.componentsToHide)
    (carries : m.componentState.isSome) :
    (s.onMessage c m time).lastReportSystemReady = true ↔
      EveryReady (s.onMessage c m time).componentInfos := by
  obtain ⟨text, ht⟩ := Option.isSome_iff_exists.mp carries
  have spec := recordState_spec (update_consistent h m.componentName id) m.componentName
    (parseState text) m.componentStateDetails time
  simp only [onMessage, if_neg visible, ht]
  rw [update_everyReady _ _ _ spec.2.2 (recordDetails_state m), ← allReady_iff, ← spec.2.1]
  rfl

theorem recordState_componentInfos (s : SystemManager) (name : Text) (state : ComponentState)
    (details : Option Text) (time : Int) :
    (s.recordState name state details time).componentInfos =
      (s.updateInfo name (fun ci => ci.setState state details)).componentInfos := by
  unfold recordState
  dsimp only
  split
  · split
    · rfl
    · rfl
  · split
    · rfl
    · rfl

/-- The state that a message carries is the one that the table holds afterwards. -/
theorem onMessage_state (c : Settings) (s : SystemManager) {m : ComponentMessage} (time : Int)
    (visible : m.componentName ∉ c.componentsToHide) {text : Text}
    (carries : m.componentState = some text) :
    ∃ ci, (s.onMessage c m time).componentInfos.lookup m.componentName = some ci ∧
      ci.state = some (parseState text) := by
  simp only [onMessage, if_neg visible, carries]
  refine ⟨_, update_lookup _ _ _, ?_⟩
  rw [recordDetails_state, infoFor, recordState_componentInfos, update_lookup, Option.getD_some,
    ComponentInfo.setState_state]

theorem loopRound_consistent {s : SystemManager} (c : Settings) (h : Consistent s) (time : Int) :
    Consistent (s.loopRound c time) := by
  have pinged : Consistent s.pingComponents := by
    have quiet (l : List (Sigma fun _ : Text => ComponentInfo)) :
        (ManagerMessage.ping :: l.map (fun _ => ManagerMessage.reportTopics)).filterMap
          ManagerMessage.readiness = [] := by
      simp [ManagerMessage.readiness]
    constructor
    · simp only [pingComponents, lastBroadcast, List.filterMap_append, quiet, List.append_nil]
      exact h.last
    · intro t infos sent
      rcases List.mem_append.mp sent with sent | sent
      · exact h.sound t infos sent
      · simp at sent
  simp only [loopRound]
  split
  · exact ⟨pinged.last, pinged.sound⟩
  · exact pinged

theorem run_consistent (c : Settings) (events : List ManagerEvent) : Consistent (run c events) := by
  refine List.foldlRecOn events (step c) ⟨rfl, by simp [SoundBroadcasts]⟩ ?_
  intro s h e _
  cases e with
  | message m time => exact onMessage_consistent c h m time
  | tick time => exact loopRound_consistent c h time

end SystemManager

/-- After every state message of a visible component, in every run, the last value broadcast
says whether all known components are ready; and true is only ever broadcast when they are. -/
theorem readiness_invariant (c : Settings) (events : List ManagerEvent) :
    (∀ m time, m.componentName ∉ c.componentsToHide → m.componentState.isSome →
      (lastBroadcast (SystemManager.run c (events ++ [.message m time])).sent = true ↔
        EveryReady (SystemManager.run c (events ++ [.message m time])).componentInfos)) ∧
    SoundBroadcasts (SystemManager.run c events).sent := by
  constructor
  · intro m time visible carries
    rw [← (SystemManager.run_consistent c _).last, SystemManager.run, List.foldl_append]
    exact SystemManager.onMessage_verdict c (SystemManager.run_consistent c events) m time
      visible carries
  · exact (SystemManager.run_consistent c events).sound

def stateMessage (name state : String) : ComponentMessage :=
  { componentName := name.toList, componentState := some state.toList }

theorem readiness_after_stall :
    lastBroadcast (SystemManager.run {} ([.message (stateMessage "A" "ready") 1,
      .message (stateMessage "B" "ready") 2, .tick 5000] ++
        [.message (stateMessage "A" "ready") 5001])).sent = false := by
  have h := (readiness_invariant {} [.message (stateMessage "A" "ready") 1,
    .message (stateMessage "B" "ready") 2, .tick 5000]).1
      (stateMessage "A" "ready") 5001 (by decide) (by decide)
  exact Bool.eq_false_iff.mpr (fun ready => absurd (h.mp ready) (by decide))

end Semaine.Meta
