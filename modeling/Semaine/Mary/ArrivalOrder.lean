import Semaine.Library.Outcome
import Semaine.Mary.QueuingAudioPlayer

/-! What the player does for one content id depends only on which messages for that id have
arrived, not on their order and not on the messages of other ids. -/
namespace Semaine.Mary
open JavaText JavaFloat Outcome

variable (parseFloat : Text → Option Number)

def commandFeatures (datatype : Text) : List Text :=
  if datatype = commandTypeInfo then ["HASAUDIO".toList, "HASFAP".toList, "HASBAP".toList]
  else if datatype = commandTypePlay then ["STARTAT".toList, "PRIORITY".toList, "LIFETIME".toList]
  else []

def Readable (m : Message) : Prop :=
  match m.payload with
  | .command text => ∀ key ∈ commandFeatures m.datatype,
      ((string2map text).lookup key).bind parseFloat ≠ none
  | _ => True

def WellFormed (m : Message) : Prop :=
  Readable parseFloat m ∧
    match m.payload with
    | .audio bytes => bytes.isSome
    | .fap text => text.isSome
    | .bap text => text.isSome
    | .command _ => True

instance (m : Message) : Decidable (Readable parseFloat m) :=
  match m with
  | ⟨_, _, _, datatype, .command text⟩ => inferInstanceAs (Decidable (∀ key ∈
      commandFeatures datatype, ((string2map text).lookup key).bind parseFloat ≠ none))
  | ⟨_, _, _, _, .audio _⟩ => .isTrue trivial
  | ⟨_, _, _, _, .fap _⟩ => .isTrue trivial
  | ⟨_, _, _, _, .bap _⟩ => .isTrue trivial

instance (m : Message) : Decidable (WellFormed parseFloat m) :=
  match m with
  | ⟨i, t, c, d, .command text⟩ => inferInstanceAs
      (Decidable (Readable parseFloat ⟨i, t, c, d, .command text⟩ ∧ True))
  | ⟨i, t, c, d, .audio x⟩ => inferInstanceAs
      (Decidable (Readable parseFloat ⟨i, t, c, d, .audio x⟩ ∧ x.isSome))
  | ⟨i, t, c, d, .fap x⟩ => inferInstanceAs
      (Decidable (Readable parseFloat ⟨i, t, c, d, .fap x⟩ ∧ x.isSome))
  | ⟨i, t, c, d, .bap x⟩ => inferInstanceAs
      (Decidable (Readable parseFloat ⟨i, t, c, d, .bap x⟩ ∧ x.isSome))

def Message.carries (m : Message) : Part → Bool
  | .audio => match m.payload with | .audio _ => true | _ => false
  | .fap => match m.payload with | .fap _ => true | _ => false
  | .bap => match m.payload with | .bap _ => true | _ => false

def feature (text key : Text) : Number :=
  (((string2map text).lookup key).bind parseFloat).getD .nan

def Message.dataInfo (m : Message) : Option (Part → Bool) :=
  match m.payload with
  | .command text =>
    if m.datatype = commandTypeInfo then
      some fun
        | .audio => isNeeded (feature parseFloat text "HASAUDIO".toList)
        | .fap => isNeeded (feature parseFloat text "HASFAP".toList)
        | .bap => isNeeded (feature parseFloat text "HASBAP".toList)
    else none
  | _ => none

def Message.isPlay (m : Message) : Bool :=
  match m.payload with
  | .command _ => m.datatype = commandTypePlay
  | _ => false

/-- All three parts are needed, or those that the dataInfo message names. -/
def needs (ms : List Message) (part : Part) : Bool :=
  ms.all (fun m => (m.dataInfo parseFloat).elim true (· part))

def has (ms : List Message) (part : Part) : Bool := ms.any (·.carries part)

def played (ms : List Message) : Bool := ms.any Message.isPlay

def complete (ms : List Message) : Bool :=
  [Part.audio, .fap, .bap].all (fun part => !needs parseFloat ms part || has ms part)

def messagesFor (id : Option Text) (events : List PlayerEvent) : List Message :=
  events.filterMap fun
    | .message m => if m.contentID = id then some m else none
    | _ => none

def Output.isReady (id : Option Text) : Output → Bool
  | .callback .ready i _ => i = id
  | _ => false

def Output.isQueued (id : Option Text) : Output → Bool
  | .queued i => i = id
  | _ => false

def readyCount (id : Option Text) (out : List Output) : Nat := out.countP (Output.isReady id)
def queuedCount (id : Option Text) (out : List Output) : Nat := out.countP (Output.isQueued id)

def ReadyFirst (id : Option Text) (out : List Output) : Prop :=
  ∀ before after, out = before ++ .queued id :: after → 0 < readyCount id before

theorem needs_append (ms : List Message) (m : Message) (part : Part) :
    needs parseFloat (ms ++ [m]) part =
      (needs parseFloat ms part && (m.dataInfo parseFloat).elim true (· part)) := by
  simp [needs]

theorem has_append (ms : List Message) (m : Message) (part : Part) :
    has (ms ++ [m]) part = (has ms part || m.carries part) := by
  simp [has]

theorem played_append (ms : List Message) (m : Message) :
    played (ms ++ [m]) = (played ms || m.isPlay) := by
  simp [played]

theorem complete_iff (ms : List Message) :
    complete parseFloat ms = true ↔
      ∀ part, needs parseFloat ms part = true → has ms part = true := by
  constructor
  · intro h part need
    have all := List.all_eq_true.mp h part (by cases part <;> simp)
    simpa [need] using all
  · intro h
    refine List.all_eq_true.mpr (fun part _ => ?_)
    cases need : needs parseFloat ms part with
    | false => rfl
    | true => simp [h part need]

theorem complete_append {ms : List Message} (m : Message)
    (h : complete parseFloat ms = true) : complete parseFloat (ms ++ [m]) = true := by
  rw [complete_iff] at h ⊢
  intro part need
  rw [needs_append, Bool.and_eq_true] at need
  rw [has_append, h part need.1, Bool.true_or]

theorem nothing_arrived : complete parseFloat [] = false := rfl

def OneDataInfo (ms : List Message) : Prop :=
  (ms.filterMap (Message.dataInfo parseFloat)).length ≤ 1

instance (ms : List Message) : Decidable (OneDataInfo parseFloat ms) :=
  inferInstanceAs (Decidable (_ ≤ 1))

theorem OneDataInfo.before {ms ms' : List Message}
    (h : OneDataInfo parseFloat (ms ++ ms')) : OneDataInfo parseFloat ms := by
  simp only [OneDataInfo, List.filterMap_append, List.length_append] at h ⊢
  omega

theorem OneDataInfo.first {ms : List Message} {m : Message}
    (h : OneDataInfo parseFloat (ms ++ [m])) {info : Part → Bool}
    (hm : m.dataInfo parseFloat = some info) (part : Part) : needs parseFloat ms part = true := by
  have none : ms.filterMap (Message.dataInfo parseFloat) = [] := by
    simp only [OneDataInfo, List.filterMap_append, List.length_append, List.filterMap_cons, hm,
      List.filterMap_nil, List.length_cons, List.length_nil] at h
    exact List.eq_nil_of_length_eq_zero (by omega)
  refine List.all_eq_true.mpr (fun x hx => ?_)
  rw [List.filterMap_eq_nil_iff.mp none x hx]
  rfl

def Animation.needs (a : Animation) : Part → Bool
  | .audio => a.needsAudio
  | .fap => a.needsFAP
  | .bap => a.needsBAP

def Animation.holds (a : Animation) : Part → Bool
  | .audio => a.audioData.isSome
  | .fap => a.fapData.isSome
  | .bap => a.bapData.isSome

structure Assembled (id : Option Text) (ms : List Message) (a : Animation) : Prop where
  contentID : a.contentID = id
  needs : ∀ part, a.needs part = needs parseFloat ms part
  holds : ∀ part, a.holds part = has ms part
  playCommand : a.haveReceivedPlayCommand = played ms

theorem Assembled.isReady {id : Option Text} {ms : List Message} {a : Animation}
    (h : Assembled parseFloat id ms a) : a.isReady = complete parseFloat ms := by
  simp only [complete, ← h.needs, ← h.holds]
  simp [Animation.isReady, Animation.needs, Animation.holds, Bool.and_assoc]

theorem getFloatValue_ok (text : Text) {key : Text}
    (h : ((string2map text).lookup key).bind parseFloat ≠ none) :
    getFloatValue parseFloat (string2map text) key = .ok (feature parseFloat text key) := by
  unfold getFloatValue feature
  cases hl : (string2map text).lookup key with
  | none => simp [hl] at h
  | some v =>
    cases hv : parseFloat v with
    | none => simp [hl, hv] at h
    | some x => simp [hv]

theorem Assembled.content {id : Option Text} {ms : List Message} {a : Animation}
    (h : Assembled parseFloat id ms a) (m : Message) {a' : Animation}
    (noInfo : m.dataInfo parseFloat = none) (noPlay : m.isPlay = false)
    (same : a'.contentID = a.contentID ∧ a'.needs = a.needs ∧
      a'.haveReceivedPlayCommand = a.haveReceivedPlayCommand)
    (holds : ∀ part, a'.holds part = (a.holds part || m.carries part)) :
    Assembled parseFloat id (ms ++ [m]) a' where
  contentID := same.1.trans h.contentID
  needs part := by rw [same.2.1, h.needs, needs_append, noInfo]; simp
  holds part := by rw [holds, h.holds, has_append]
  playCommand := by rw [same.2.2, h.playCommand, played_append, noPlay, Bool.or_false]

theorem setDataInfo_assembled {id : Option Text} {ms : List Message} {a : Animation}
    (h : Assembled parseFloat id ms a) {m : Message} {info : Part → Bool}
    (hm : m.dataInfo parseFloat = some info) (one : OneDataInfo parseFloat (ms ++ [m]))
    (noPart : ∀ part, m.carries part = false) (noPlay : m.isPlay = false) :
    Assembled parseFloat id (ms ++ [m])
      (a.setDataInfo (info .audio) (info .fap) (info .bap)) where
  contentID := h.contentID
  needs part := by
    rw [needs_append, one.first parseFloat hm part, hm]
    cases part <;> rfl
  holds part := by
    rw [has_append, noPart, Bool.or_false, ← h.holds]
    cases part <;> rfl
  playCommand := by
    rw [played_append, noPlay, Bool.or_false]
    exact h.playCommand

theorem setPlayCommand_assembled {id : Option Text} {ms : List Message} {a : Animation}
    (h : Assembled parseFloat id ms a) {m : Message} (noInfo : m.dataInfo parseFloat = none)
    (noPart : ∀ part, m.carries part = false) (play : m.isPlay = true)
    (startAt : Int) (priority : Number) (lifetime : Int) :
    Assembled parseFloat id (ms ++ [m]) (a.setPlayCommand startAt priority lifetime) where
  contentID := h.contentID
  needs part := by
    rw [needs_append, noInfo, Option.elim_none, Bool.and_true, ← h.needs]
    cases part <;> rfl
  holds part := by
    rw [has_append, noPart, Bool.or_false, ← h.holds]
    cases part <;> rfl
  playCommand := by
    rw [played_append, play, Bool.or_true]
    rfl

theorem fillAnim_assembled {id : Option Text} {ms : List Message} {a : Animation}
    (h : Assembled parseFloat id ms a) (m : Message) (wf : WellFormed parseFloat m)
    (one : OneDataInfo parseFloat (ms ++ [m])) :
    ∃ a', fillAnim parseFloat a m = .ok a' ∧ Assembled parseFloat id (ms ++ [m]) a' := by
  obtain ⟨mid, created, ctype, datatype, payload⟩ := m
  cases payload with
  | audio bytes =>
    refine ⟨_, rfl, h.content parseFloat _ rfl rfl ⟨rfl, rfl, rfl⟩ ?_⟩
    have present : bytes.isSome = true := wf.2
    intro part
    cases part <;> simp [Animation.holds, Message.carries, present]
  | fap text =>
    refine ⟨_, rfl, h.content parseFloat _ rfl rfl ⟨rfl, rfl, rfl⟩ ?_⟩
    have present : text.isSome = true := wf.2
    intro part
    cases part <;> simp [Animation.holds, Message.carries, present]
  | bap text =>
    refine ⟨_, rfl, h.content parseFloat _ rfl rfl ⟨rfl, rfl, rfl⟩ ?_⟩
    have present : text.isSome = true := wf.2
    intro part
    cases part <;> simp [Animation.holds, Message.carries, present]
  | command text =>
    have values (key : Text) (hk : key ∈ commandFeatures datatype) :=
      getFloatValue_ok parseFloat text (wf.1 key hk)
    have noPart (part : Part) :
        Message.carries ⟨mid, created, ctype, datatype, .command text⟩ part = false := by
      cases part <;> rfl
    have differ : commandTypeInfo ≠ commandTypePlay := by decide
    by_cases info : datatype = commandTypeInfo
    · subst info
      simp only [commandFeatures, if_true, List.mem_cons, List.not_mem_nil, or_false,
        forall_eq_or_imp, forall_eq] at values
      refine ⟨_, ?_, setDataInfo_assembled parseFloat h rfl one noPart ?_⟩
      · simp only [fillAnim, fillAnimFromCommandMessage, if_true, values]
        rfl
      · simp [Message.isPlay, differ]
    · by_cases play : datatype = commandTypePlay
      · subst play
        simp only [commandFeatures, if_neg info, if_true, List.mem_cons, List.not_mem_nil,
          or_false, forall_eq_or_imp, forall_eq] at values
        refine ⟨_, ?_, setPlayCommand_assembled parseFloat h ?_ noPart ?_
          (feature parseFloat text "STARTAT".toList).round
          (feature parseFloat text "PRIORITY".toList)
          (feature parseFloat text "LIFETIME".toList).round⟩
        · simp only [fillAnim, fillAnimFromCommandMessage, if_neg info, if_true, values]
          rfl
        · simp only [Message.dataInfo, if_neg info]
        · simp [Message.isPlay]
      · refine ⟨a, ?_, h.content parseFloat _ ?_ ?_ ⟨rfl, rfl, rfl⟩ ?_⟩
        · simp only [fillAnim, fillAnimFromCommandMessage, if_neg info, if_neg play]
          rfl
        · simp only [Message.dataInfo, if_neg info]
        · simp [Message.isPlay, play]
        · intro part
          rw [noPart, Bool.or_false]

theorem readyFirst_append {id : Option Text} {out : List Output} (h : ReadyFirst id out)
    (x : Output) (hx : x = .queued id → 0 < readyCount id out) : ReadyFirst id (out ++ [x]) := by
  intro before after split
  rcases List.eq_nil_or_concat after with rfl | ⟨after', y, rfl⟩
  · obtain ⟨rfl, eq⟩ := List.append_inj' split rfl
    exact hx (List.cons.inj eq).1
  · rw [List.concat_eq_append, ← List.cons_append, ← List.append_assoc] at split
    exact h before after' (List.append_inj' split rfl).1

@[simp] theorem readyCount_append (id : Option Text) (out : List Output) (x : Output) :
    readyCount id (out ++ [x]) = readyCount id out + if x.isReady id then 1 else 0 := by
  simp [readyCount, List.countP_append, List.countP_cons]

@[simp] theorem queuedCount_append (id : Option Text) (out : List Output) (x : Output) :
    queuedCount id (out ++ [x]) = queuedCount id out + if x.isQueued id then 1 else 0 := by
  simp [queuedCount, List.countP_append, List.countP_cons]

/-- The animation has left the list of available ones and will not come back. -/
def Released (p : Player) (id : Option Text) : Prop :=
  p.availableAnimations.lookup id = none ∧ (p.animationStates.lookup id).isSome

/-- The animation is available, and has been announced if it is complete. -/
structure Building (id : Option Text) (ms : List Message) (a : Animation) (p : Player) : Prop where
  animation : p.availableAnimations.lookup id = some a
  assembled : Assembled parseFloat id ms a
  state : p.animationStates.lookup id =
    some (if complete parseFloat ms then .ready else .created)
  ready : readyCount id p.output = if complete parseFloat ms then 1 else 0
  queued : queuedCount id p.output = 0

/-- Where the assembly of one content id stands, and what has been sent out for it. -/
inductive Stage (id : Option Text) (ms : List Message) (p : Player) : Prop where
  | untouched (animation : p.availableAnimations.lookup id = none)
      (state : p.animationStates.lookup id = none) (nothing : ms = [])
      (ready : readyCount id p.output = 0) (queued : queuedCount id p.output = 0)
  | building (a : Animation) (building : Building parseFloat id ms a p)
      (waiting : (complete parseFloat ms && played ms) = false)
  | handedOver (released : Released p id) (done : (complete parseFloat ms && played ms) = true)
      (ready : readyCount id p.output = 1) (queued : queuedCount id p.output = 1)

structure Tracks (id : Option Text) (ms : List Message) (p : Player) : Prop where
  stage : Stage parseFloat id ms p
  first : ReadyFirst id p.output
  queue : ∀ a ∈ p.playerQueue, a.contentID = id → Released p id
  playing : ∀ a, p.nowPlaying = some a → a.contentID = id → Released p id

def Keyed (p : Player) : Prop :=
  ∀ id a, p.availableAnimations.lookup id = some a → a.contentID = id

theorem Stage.released {id : Option Text} {ms : List Message} {p : Player}
    (h : Stage parseFloat id ms p) (released : Released p id) :
    (complete parseFloat ms && played ms) = true ∧
      readyCount id p.output = 1 ∧ queuedCount id p.output = 1 := by
  cases h with
  | untouched _ state =>
    have some := released.2
    rw [state] at some
    cases some
  | building a building =>
    have gone := building.animation
    rw [released.1] at gone
    cases gone
  | handedOver _ done ready queued => exact ⟨done, ready, queued⟩

theorem Stage.counts {id : Option Text} {ms : List Message} {p : Player}
    (h : Stage parseFloat id ms p) :
    readyCount id p.output = (if complete parseFloat ms then 1 else 0) ∧
      queuedCount id p.output = (if complete parseFloat ms && played ms then 1 else 0) := by
  cases h with
  | untouched _ _ nothing ready queued =>
    subst nothing
    simp [nothing_arrived, ready, queued]
  | building a building waiting => exact ⟨building.ready, by simp [building.queued, waiting]⟩
  | handedOver _ done ready queued =>
    rw [Bool.and_eq_true] at done
    simp [done, ready, queued]

structure Agree (id : Option Text) (p q : Player) : Prop where
  animation : q.availableAnimations.lookup id = p.availableAnimations.lookup id
  state : q.animationStates.lookup id = p.animationStates.lookup id
  ready : readyCount id q.output = readyCount id p.output
  queued : queuedCount id q.output = queuedCount id p.output

theorem Agree.trans {id : Option Text} {p q r : Player} (h : Agree id p q) (h' : Agree id q r) :
    Agree id p r :=
  ⟨h'.animation.trans h.animation, h'.state.trans h.state, h'.ready.trans h.ready,
    h'.queued.trans h.queued⟩

theorem Agree.released {id : Option Text} {p q : Player} (h : Agree id p q)
    (released : Released p id) : Released q id :=
  ⟨h.animation.trans released.1, by rw [h.state]; exact released.2⟩

theorem Agree.stage {id : Option Text} {ms : List Message} {p q : Player} (h : Agree id p q)
    (stage : Stage parseFloat id ms p) : Stage parseFloat id ms q := by
  cases stage with
  | untouched animation state nothing ready queued =>
    exact .untouched (h.animation.trans animation) (h.state.trans state) nothing
      (h.ready.trans ready) (h.queued.trans queued)
  | building a building waiting =>
    exact .building a ⟨h.animation.trans building.animation, building.assembled,
      h.state.trans building.state, h.ready.trans building.ready,
      h.queued.trans building.queued⟩ waiting
  | handedOver released done ready queued =>
    exact .handedOver (h.released released) done (h.ready.trans ready) (h.queued.trans queued)

theorem announceReady_building {id : Option Text} {ms : List Message} {a : Animation} {p : Player}
    {before : Bool} (animation : p.availableAnimations.lookup id = some a)
    (assembled : Assembled parseFloat id ms a)
    (state : p.animationStates.lookup id = some (if before then .ready else .created))
    (ready : readyCount id p.output = if before then 1 else 0)
    (queued : queuedCount id p.output = 0)
    (kept : before = true → complete parseFloat ms = true) :
    Building parseFloat id ms a (p.announceReady id a) := by
  unfold Player.announceReady
  rw [assembled.isReady]
  cases before with
  | true =>
    have done := kept rfl
    rw [if_neg (by simp [state])]
    exact ⟨animation, assembled, by simp [state, done], by simp [ready, done], queued⟩
  | false =>
    cases now : complete parseFloat ms with
    | false =>
      rw [if_neg (by simp)]
      exact ⟨animation, assembled, by simp [state, now], by simp [ready, now], queued⟩
    | true =>
      rw [if_pos ⟨by simp [state], rfl⟩]
      refine ⟨animation, assembled, by simp [now], ?_, ?_⟩
      · simp [Player.sendCallbackMessage, ready, Output.isReady, assembled.contentID, now]
      · simp [Player.sendCallbackMessage, queued, Output.isQueued]

theorem announceReady_first {id j : Option Text} {a : Animation} {p : Player}
    (h : ReadyFirst id p.output) : ReadyFirst id (p.announceReady j a).output := by
  unfold Player.announceReady
  split
  · exact readyFirst_append h _ (by simp)
  · exact h

theorem announceReady_agree {id j : Option Text} {a : Animation} (other : j ≠ id)
    (own : a.contentID = j) (p : Player) : Agree id p (p.announceReady j a) := by
  unfold Player.announceReady
  split
  · refine ⟨rfl, AList.lookup_insert_ne (Ne.symm other), ?_, ?_⟩
    · simp [Player.sendCallbackMessage, Output.isReady, own, other]
    · simp [Player.sendCallbackMessage, Output.isQueued]
  · exact ⟨rfl, rfl, rfl, rfl⟩

theorem enqueue_stage {id : Option Text} {ms : List Message} {a : Animation} {p : Player}
    (h : Building parseFloat id ms a p) : Stage parseFloat id ms (p.enqueue id a) := by
  have own := h.assembled.contentID
  unfold Player.enqueue
  rw [h.assembled.isReady, h.assembled.playCommand]
  split
  · rename_i both
    refine .handedOver ⟨AList.lookup_erase _ _, by simp [h.state]⟩ (by simp [both]) ?_ ?_
    · simp [Output.isReady, h.ready, both.1]
    · simp [Output.isQueued, own, h.queued]
  · rename_i notBoth
    exact .building a h (by simpa using notBoth)

theorem enqueue_first {id : Option Text} {ms : List Message} {a : Animation} {p : Player}
    (h : Building parseFloat id ms a p) (first : ReadyFirst id p.output) :
    ReadyFirst id (p.enqueue id a).output := by
  unfold Player.enqueue
  rw [h.assembled.isReady]
  split
  · rename_i both
    exact readyFirst_append first _ (by simp [h.ready, both.1])
  · exact first

theorem enqueue_agree {id j : Option Text} {a : Animation} (other : j ≠ id)
    (own : a.contentID = j) (p : Player) : Agree id p (p.enqueue j a) := by
  unfold Player.enqueue
  split
  · refine ⟨AList.lookup_erase_ne (Ne.symm other), rfl, ?_, ?_⟩
    · simp [Output.isReady]
    · simp [Output.isQueued, own, other]
  · exact ⟨rfl, rfl, rfl, rfl⟩

theorem enqueue_first_other {id j : Option Text} {a : Animation} {p : Player} (other : j ≠ id)
    (own : a.contentID = j) (first : ReadyFirst id p.output) :
    ReadyFirst id (p.enqueue j a).output := by
  unfold Player.enqueue
  split
  · refine readyFirst_append first _ (fun eq => ?_)
    exact absurd (own.symm.trans (Output.queued.inj eq)) other
  · exact first

theorem mem_enqueue {p : Player} {j : Option Text} {a b : Animation}
    (h : b ∈ (p.enqueue j a).playerQueue) :
    b ∈ p.playerQueue ∨ b = a ∧ (p.enqueue j a).availableAnimations.lookup j = none ∧
      (p.enqueue j a).animationStates = p.animationStates := by
  unfold Player.enqueue at h ⊢
  split at h
  · rw [if_pos ‹_›]
    rcases List.mem_append.mp h with old | new
    · exact .inl old
    · exact .inr ⟨List.mem_singleton.mp new, AList.lookup_erase _ _, rfl⟩
  · exact .inl h

@[simp] theorem announceReady_playerQueue (p : Player) (j : Option Text) (a : Animation) :
    (p.announceReady j a).playerQueue = p.playerQueue := by
  unfold Player.announceReady
  split <;> rfl

@[simp] theorem announceReady_nowPlaying (p : Player) (j : Option Text) (a : Animation) :
    (p.announceReady j a).nowPlaying = p.nowPlaying := by
  unfold Player.announceReady
  split <;> rfl

@[simp] theorem announceReady_availableAnimations (p : Player) (j : Option Text) (a : Animation) :
    (p.announceReady j a).availableAnimations = p.availableAnimations := by
  unfold Player.announceReady
  split <;> rfl

@[simp] theorem enqueue_nowPlaying (p : Player) (j : Option Text) (a : Animation) :
    (p.enqueue j a).nowPlaying = p.nowPlaying := by
  unfold Player.enqueue
  split <;> rfl

theorem handle_tracks {id : Option Text} {ms : List Message} {a : Animation} {p : Player}
    (before : Bool) (animation : p.availableAnimations.lookup id = some a)
    (assembled : Assembled parseFloat id ms a)
    (state : p.animationStates.lookup id = some (if before then .ready else .created))
    (ready : readyCount id p.output = if before then 1 else 0)
    (queued : queuedCount id p.output = 0)
    (kept : before = true → complete parseFloat ms = true)
    (first : ReadyFirst id p.output) (notQueued : ∀ b ∈ p.playerQueue, b.contentID ≠ id)
    (notPlaying : ∀ b, p.nowPlaying = some b → b.contentID ≠ id) :
    Tracks parseFloat id ms ((p.announceReady id a).enqueue id a) := by
  have building :=
    announceReady_building parseFloat animation assembled state ready queued kept
  refine ⟨enqueue_stage parseFloat building,
    enqueue_first parseFloat building (announceReady_first first), ?_, ?_⟩
  · intro b hb own
    rcases mem_enqueue hb with old | ⟨rfl, gone, states⟩
    · rw [announceReady_playerQueue] at old
      exact absurd own (notQueued b old)
    · exact ⟨gone, by rw [states, building.state]; rfl⟩
  · intro b hb own
    rw [enqueue_nowPlaying, announceReady_nowPlaying] at hb
    exact absurd own (notPlaying b hb)

theorem findAnimation_cases (p : Player) (m : Message) :
    (p.findAnimation m = none ∧ Released p m.contentID) ∨
    (∃ a type, p.availableAnimations.lookup m.contentID = some a ∧
      p.findAnimation m = some (p, { a with contentType := type })) ∨
    (p.availableAnimations.lookup m.contentID = none ∧
      p.animationStates.lookup m.contentID = none ∧
      p.findAnimation m =
        some ({ p with animationStates := p.animationStates.insert m.contentID .created },
          { contentID := m.contentID, contentCreationTime := m.contentCreationTime,
            contentType := m.contentType })) := by
  unfold Player.findAnimation
  cases animation : p.availableAnimations.lookup m.contentID with
  | some a =>
    refine .inr (.inl ?_)
    by_cases named : a.contentType = none
    · exact ⟨a, m.contentType, rfl, by simp only [if_pos named]⟩
    · exact ⟨a, a.contentType, rfl, by simp only [if_neg named]⟩
  | none =>
    cases state : p.animationStates.lookup m.contentID with
    | some s => exact .inl ⟨rfl, animation, by rw [state]; rfl⟩
    | none => exact .inr (.inr ⟨rfl, rfl, rfl⟩)

theorem fillAnim_contentID {a a' : Animation} {m : Message}
    (h : fillAnim parseFloat a m = .ok a') : a'.contentID = a.contentID := by
  obtain ⟨mid, created, ctype, datatype, payload⟩ := m
  cases payload with
  | audio bytes => cases h; rfl
  | fap text => cases h; rfl
  | bap text => cases h; rfl
  | command text =>
    simp only [fillAnim, fillAnimFromCommandMessage] at h
    split at h
    · obtain ⟨_, _, h⟩ := bind_ok h
      obtain ⟨_, _, h⟩ := bind_ok h
      obtain ⟨_, _, h⟩ := bind_ok h
      cases h
      rfl
    · split at h
      · obtain ⟨_, _, h⟩ := bind_ok h
        obtain ⟨_, _, h⟩ := bind_ok h
        obtain ⟨_, _, h⟩ := bind_ok h
        cases h
        rfl
      · cases h
        rfl

theorem fillAnim_readable (a : Animation) {m : Message} (h : Readable parseFloat m) :
    ∃ a', fillAnim parseFloat a m = .ok a' := by
  obtain ⟨mid, created, ctype, datatype, payload⟩ := m
  cases payload with
  | audio bytes => exact ⟨_, rfl⟩
  | fap text => exact ⟨_, rfl⟩
  | bap text => exact ⟨_, rfl⟩
  | command text =>
    have values (key : Text) (hk : key ∈ commandFeatures datatype) :=
      getFloatValue_ok parseFloat text (h key hk)
    simp only [fillAnim, fillAnimFromCommandMessage]
    by_cases info : datatype = commandTypeInfo
    · subst info
      simp only [commandFeatures, if_true, List.mem_cons, List.not_mem_nil, or_false,
        forall_eq_or_imp, forall_eq] at values
      exact ⟨_, by simp only [if_true, values]; rfl⟩
    · by_cases play : datatype = commandTypePlay
      · subst play
        simp only [commandFeatures, if_neg info, if_true, List.mem_cons, List.not_mem_nil,
          or_false, forall_eq_or_imp, forall_eq] at values
        exact ⟨_, by simp only [if_neg info, if_true, values]; rfl⟩
      · exact ⟨a, by simp only [if_neg info, if_neg play]; rfl⟩

theorem fresh_assembled (m : Message) : Assembled parseFloat m.contentID []
    { contentID := m.contentID, contentCreationTime := m.contentCreationTime,
      contentType := m.contentType } where
  contentID := rfl
  needs part := by cases part <;> rfl
  holds part := by cases part <;> rfl
  playCommand := rfl

theorem react_own {ms : List Message} {p : Player} {m : Message}
    (h : Tracks parseFloat m.contentID ms p) (wf : WellFormed parseFloat m)
    (one : OneDataInfo parseFloat (ms ++ [m])) :
    ∃ q, p.react parseFloat m = .ok q ∧ Tracks parseFloat m.contentID (ms ++ [m]) q := by
  have held (present : ¬ Released p m.contentID) :
      (∀ b ∈ p.playerQueue, b.contentID ≠ m.contentID) ∧
        (∀ b, p.nowPlaying = some b → b.contentID ≠ m.contentID) :=
    ⟨fun b hb own => present (h.queue b hb own), fun b hb own => present (h.playing b hb own)⟩
  unfold Player.react
  rcases findAnimation_cases p m with ⟨found, released⟩ | ⟨a, type, animation, found⟩ |
    ⟨animation, state, found⟩
  · obtain ⟨done, ready, queued⟩ := h.stage.released parseFloat released
    rw [Bool.and_eq_true] at done
    refine ⟨p, by rw [found], .handedOver released ?_ ready queued, h.first, h.queue, h.playing⟩
    rw [complete_append parseFloat m done.1, played_append, done.2]
    rfl
  · have present : ¬ Released p m.contentID := fun released => by
      rw [released.1] at animation
      cases animation
    obtain ⟨notQueued, notPlaying⟩ := held present
    cases h.stage with
    | untouched none => rw [none] at animation; cases animation
    | handedOver released => exact absurd released present
    | building a₀ building =>
      obtain rfl : a₀ = a := Option.some.inj (building.animation.symm.trans animation)
      have typed : Assembled parseFloat m.contentID ms { a₀ with contentType := type } :=
        ⟨building.assembled.contentID, fun part => (building.assembled.needs part) ▸ by
          cases part <;> rfl, fun part => (building.assembled.holds part) ▸ by
          cases part <;> rfl, building.assembled.playCommand⟩
      obtain ⟨a', filled, assembled⟩ := fillAnim_assembled parseFloat typed m wf one
      refine ⟨_, by simp only [found, filled]; rfl, ?_⟩
      exact handle_tracks parseFloat _ (AList.lookup_insert _) assembled building.state
        building.ready building.queued (complete_append parseFloat m) h.first notQueued notPlaying
  · have present : ¬ Released p m.contentID := fun released => by
      have some := released.2
      rw [state] at some
      cases some
    obtain ⟨notQueued, notPlaying⟩ := held present
    cases h.stage with
    | building _ building => rw [building.animation] at animation; cases animation
    | handedOver released => exact absurd released present
    | untouched _ _ nothing ready queued =>
      subst nothing
      obtain ⟨a', filled, assembled⟩ :=
        fillAnim_assembled parseFloat (fresh_assembled parseFloat m) m wf one
      refine ⟨_, by simp only [found, filled]; rfl, ?_⟩
      exact handle_tracks parseFloat false (AList.lookup_insert _) assembled
        (AList.lookup_insert _) ready queued (fun no => by cases no) h.first notQueued notPlaying

theorem handle_other {id j : Option Text} {ms : List Message} {a : Animation} {p q : Player}
    (h : Tracks parseFloat id ms p) (other : j ≠ id) (own : a.contentID = j)
    (agree : Agree id p q) (output : q.output = p.output)
    (queue : q.playerQueue = p.playerQueue) (playing : q.nowPlaying = p.nowPlaying) :
    Tracks parseFloat id ms ((q.announceReady j a).enqueue j a) := by
  have all : Agree id p ((q.announceReady j a).enqueue j a) :=
    (agree.trans (announceReady_agree other own q)).trans (enqueue_agree other own _)
  refine ⟨all.stage parseFloat h.stage, ?_, ?_, ?_⟩
  · exact enqueue_first_other other own (announceReady_first (output ▸ h.first))
  · intro b hb mine
    rcases mem_enqueue hb with old | ⟨rfl, -⟩
    · rw [announceReady_playerQueue, queue] at old
      exact all.released (h.queue b old mine)
    · exact absurd (own.symm.trans mine) other
  · intro b hb mine
    rw [enqueue_nowPlaying, announceReady_nowPlaying, playing] at hb
    exact all.released (h.playing b hb mine)

theorem react_other {id : Option Text} {ms : List Message} {p : Player} {m : Message}
    (h : Tracks parseFloat id ms p) (keyed : Keyed p) (other : m.contentID ≠ id)
    (readable : Readable parseFloat m) :
    ∃ q, p.react parseFloat m = .ok q ∧ Tracks parseFloat id ms q := by
  unfold Player.react
  rcases findAnimation_cases p m with ⟨found, -⟩ | ⟨a, type, animation, found⟩ | ⟨-, -, found⟩
  · exact ⟨p, by rw [found], h⟩
  · obtain ⟨a', filled⟩ := fillAnim_readable parseFloat { a with contentType := type } readable
    refine ⟨_, by simp only [found, filled]; rfl, ?_⟩
    have own : a'.contentID = m.contentID :=
      (fillAnim_contentID parseFloat filled).trans (show a.contentID = _ from keyed _ _ animation)
    exact handle_other parseFloat h other own
      ⟨AList.lookup_insert_ne (Ne.symm other), rfl, rfl, rfl⟩ rfl rfl rfl
  · obtain ⟨a', filled⟩ := fillAnim_readable parseFloat
      { contentID := m.contentID, contentCreationTime := m.contentCreationTime,
        contentType := m.contentType } readable
    refine ⟨_, by simp only [found, filled]; rfl, ?_⟩
    have own : a'.contentID = m.contentID := fillAnim_contentID parseFloat filled
    exact handle_other parseFloat h other own
      ⟨AList.lookup_insert_ne (Ne.symm other), AList.lookup_insert_ne (Ne.symm other), rfl, rfl⟩
      rfl rfl rfl

theorem Keyed.insert {p q : Player} (keyed : Keyed p) {j : Option Text} {a : Animation}
    (own : a.contentID = j) (h : q.availableAnimations = p.availableAnimations.insert j a) :
    Keyed q := by
  intro id b hb
  rw [h] at hb
  by_cases same : id = j
  · subst same
    rw [AList.lookup_insert] at hb
    cases hb
    exact own
  · rw [AList.lookup_insert_ne same] at hb
    exact keyed id b hb

theorem Keyed.enqueue {p : Player} (keyed : Keyed p) (j : Option Text) (a : Animation) :
    Keyed (p.enqueue j a) := by
  unfold Player.enqueue
  split
  · intro id b hb
    by_cases same : id = j
    · subst same
      simp only [AList.lookup_erase] at hb
      cases hb
    · simp only [AList.lookup_erase_ne same] at hb
      exact keyed id b hb
  · exact keyed

theorem react_keyed {p q : Player} {m : Message} (keyed : Keyed p)
    (h : p.react parseFloat m = .ok q) : Keyed q := by
  unfold Player.react at h
  have handled {p' : Player} {a a' : Animation} (own : a.contentID = m.contentID)
      (filled : fillAnim parseFloat a m = .ok a')
      (same : p'.availableAnimations = p.availableAnimations.insert m.contentID a') :
      Keyed ((p'.announceReady m.contentID a').enqueue m.contentID a') := by
    refine Keyed.enqueue (keyed.insert ((fillAnim_contentID parseFloat filled).trans own) ?_) _ _
    rw [announceReady_availableAnimations, same]
  rcases findAnimation_cases p m with ⟨found, -⟩ | ⟨a, type, animation, found⟩ | ⟨-, -, found⟩
  · rw [found] at h
    cases h
    exact keyed
  · rw [found] at h
    obtain ⟨a', filled, h⟩ := bind_ok h
    cases h
    have own : ({ a with contentType := type } : Animation).contentID = m.contentID :=
      keyed m.contentID a animation
    exact handled own filled rfl
  · rw [found] at h
    obtain ⟨a', filled, h⟩ := bind_ok h
    cases h
    exact handled rfl filled rfl

theorem Tracks.reported {id : Option Text} {ms : List Message} {p q : Player}
    (h : Tracks parseFloat id ms p) (type : CallbackType) (notReady : type ≠ .ready)
    (a : Animation) (s : AnimationState) (held : a.contentID = id → Released p id)
    (available : q.availableAnimations = p.availableAnimations)
    (states : q.animationStates = p.animationStates.insert a.contentID s)
    (output : q.output = (p.sendCallbackMessage type a).output)
    (queue : ∀ b ∈ q.playerQueue, b ∈ p.playerQueue)
    (playing : ∀ b, q.nowPlaying = some b → b = a) : Tracks parseFloat id ms q := by
  have first : ReadyFirst id q.output := by
    rw [output]
    exact readyFirst_append h.first _ (fun eq => by cases eq)
  have ready : readyCount id q.output = readyCount id p.output := by
    rw [output]
    cases type <;> simp_all [Player.sendCallbackMessage, Output.isReady]
  have queued : queuedCount id q.output = queuedCount id p.output := by
    rw [output]
    simp [Player.sendCallbackMessage, Output.isQueued]
  by_cases own : a.contentID = id
  · have released : Released q id := by
      refine ⟨by rw [available]; exact (held own).1, ?_⟩
      rw [states, own, AList.lookup_insert]
      rfl
    obtain ⟨done, announced, handed⟩ := h.stage.released parseFloat (held own)
    exact ⟨.handedOver released done (ready.trans announced) (queued.trans handed), first,
      fun _ _ _ => released, fun _ _ _ => released⟩
  · have agree : Agree id p q :=
      ⟨by rw [available], by rw [states, AList.lookup_insert_ne (Ne.symm own)], ready, queued⟩
    refine ⟨agree.stage parseFloat h.stage, first, ?_, ?_⟩
    · exact fun b hb mine => agree.released (h.queue b (queue b hb) mine)
    · intro b hb mine
      rw [playing b hb] at mine
      exact absurd mine own

theorem playNext_tracks {id : Option Text} {ms : List Message} {p : Player}
    (h : Tracks parseFloat id ms p) (playable : Bool) :
    Tracks parseFloat id ms (p.playNext playable) := by
  unfold Player.playNext
  split
  · rename_i a rest idle queue
    have held : a.contentID = id → Released p id := h.queue a (by rw [queue]; exact .head _)
    have shorter (b : Animation) (hb : b ∈ rest) : b ∈ p.playerQueue := by
      rw [queue]
      exact .tail _ hb
    split
    · exact h.reported parseFloat .start (by decide) a .playing held rfl rfl rfl shorter
        (fun b hb => (Option.some.inj hb).symm)
    · have agree : Agree id p { p with playerQueue := rest } := ⟨rfl, rfl, rfl, rfl⟩
      exact ⟨agree.stage parseFloat h.stage, h.first, fun b hb => h.queue b (shorter b hb),
        h.playing⟩
  · exact h

theorem finishPlaying_tracks {id : Option Text} {ms : List Message} {p : Player}
    (h : Tracks parseFloat id ms p) : Tracks parseFloat id ms p.finishPlaying := by
  unfold Player.finishPlaying
  split
  · rename_i a playing
    exact h.reported parseFloat .finish (by decide) a .finished (h.playing a playing) rfl rfl rfl
      (fun b hb => hb) (fun b hb => by cases hb)
  · exact h

theorem messagesFor_append (id : Option Text) (events : List PlayerEvent) (e : PlayerEvent) :
    messagesFor id (events ++ [e]) = messagesFor id events ++ messagesFor id [e] := by
  simp [messagesFor]

theorem nothing_tracks (id : Option Text) : Tracks parseFloat id [] ({} : Player) where
  stage := .untouched rfl rfl rfl rfl rfl
  first before after h := by simp at h
  queue a h := by cases h
  playing a h := by cases h

theorem step_tracks {id : Option Text} {ms : List Message} {p : Player} {e : PlayerEvent}
    (h : Tracks parseFloat id ms p) (keyed : Keyed p)
    (readable : ∀ m, e = .message m → Readable parseFloat m)
    (wf : ∀ m ∈ messagesFor id [e], WellFormed parseFloat m)
    (one : OneDataInfo parseFloat (ms ++ messagesFor id [e])) :
    ∃ q, p.step parseFloat e = .ok q ∧ Keyed q ∧
      Tracks parseFloat id (ms ++ messagesFor id [e]) q := by
  cases e with
  | message m =>
    by_cases own : m.contentID = id
    · have only : messagesFor id [.message m] = [m] := by simp [messagesFor, own]
      rw [only] at wf one ⊢
      subst own
      obtain ⟨q, done, tracks⟩ := react_own parseFloat h (wf m (.head _)) one
      exact ⟨q, done, react_keyed parseFloat keyed done, tracks⟩
    · have nothing : messagesFor id [.message m] = [] := by simp [messagesFor, own]
      rw [nothing, List.append_nil]
      obtain ⟨q, done, tracks⟩ := react_other parseFloat h keyed own (readable m rfl)
      exact ⟨q, done, react_keyed parseFloat keyed done, tracks⟩
  | playNext playable =>
    have tracks := playNext_tracks parseFloat h playable
    refine ⟨_, rfl, ?_, by simpa [messagesFor] using tracks⟩
    unfold Player.playNext
    split
    · split <;> exact keyed
    · exact keyed
  | finishPlaying =>
    have tracks := finishPlaying_tracks parseFloat h
    refine ⟨_, rfl, ?_, by simpa [messagesFor] using tracks⟩
    unfold Player.finishPlaying
    split <;> exact keyed

theorem run_tracks (events : List PlayerEvent) (id : Option Text)
    (readable : ∀ m, .message m ∈ events → Readable parseFloat m)
    (wf : ∀ m ∈ messagesFor id events, WellFormed parseFloat m)
    (one : OneDataInfo parseFloat (messagesFor id events)) :
    ∃ p, Player.run parseFloat events = .ok p ∧ Keyed p ∧
      Tracks parseFloat id (messagesFor id events) p := by
  induction events using List.reverseRecOn with
  | nil =>
    have keyed : Keyed {} := by
      intro i a h
      cases h
    exact ⟨{}, rfl, keyed, nothing_tracks parseFloat id⟩
  | append_singleton events e ih =>
    rw [messagesFor_append] at wf one ⊢
    obtain ⟨p, ran, keyed, tracks⟩ :=
      ih (fun m hm => readable m (List.mem_append_left _ hm))
        (fun m hm => wf m (List.mem_append_left _ hm)) one.before
    obtain ⟨q, stepped, keyed', tracks'⟩ := step_tracks parseFloat tracks keyed
      (fun m eq => readable m (by simp [eq])) (fun m hm => wf m (List.mem_append_right _ hm)) one
    refine ⟨q, ?_, keyed', tracks'⟩
    have before : events.foldlM (Player.step parseFloat) {} = .ok p := ran
    simp only [Player.run, List.foldlM_append, before]
    exact (bind_pure _).trans stepped

/-- The numbers of a schedule in which the play command comes first and only audio is needed. -/
def tenths : Text → Option Number
  | ['1', '.', '0'] => some (.val 1)
  | ['0', '.', '0'] => some (.val 0)
  | _ => none

def playFirst : List PlayerEvent :=
  let play := "STARTAT 0.0\nPRIORITY 1.0\nLIFETIME 0.0\n".toList
  let info := "HASAUDIO 1.0\nHASFAP 0.0\nHASBAP 0.0\n".toList
  let message (id : Text) (datatype : Text) (payload : Payload) : PlayerEvent :=
    .message ⟨some id, 0, none, datatype, payload⟩
  [message "a".toList commandTypePlay (.command play), message "b".toList [] (.fap (some [])),
    message "a".toList [] (.audio (some [1, 2])),
    message "a".toList commandTypeInfo (.command info),
    .playNext true, message "a".toList [] (.audio (some [3]))]

end Semaine.Mary
