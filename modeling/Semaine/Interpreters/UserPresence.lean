import Semaine.Emotion.EmotionFusion
import Semaine.Library.Outcome
import Semaine.StateInfo.StateInfo

/-! `eu.semaine.components.dialogue.interpreters.UserPresenceInterpreter`: whether the user is
there, from what is said about a face, a voice and the speech of the system. -/
namespace Semaine.Interpreters
open JavaText Semaine.Xml Semaine.Emotion Semaine.StateInfo

namespace UserPresence

variable (chars : Characters)

inductive PresenceMessage where
  | state (info : List (Text × Text))
  | emma (document : Document)
  | xml (document : Document)
  | other

/-- The first child of the interpretation with this name, and the interpretation. -/
def nonverbalElement (document : Document) (name : Text) :
    Except Thrown (Option (Element × Element)) := do
  match ← getTopLevelInterpretation document with
  | none => return none
  | some tli =>
    let positions ← getChildrenByLocalNameNS tli name (some semaineURI)
    return (elementsAt tli positions).head?.map fun e => (tli, e)

def statusChange (document : Document) (name : Text) : Except Thrown Text := do
  return ((← nonverbalElement document name).map fun e =>
    e.2.getAttribute "statusChange".toList).getD []

def getFaceStatusChange (document : Document) : Except Thrown Text :=
  statusChange document "face-present".toList

def getVoiceStatusChange (document : Document) : Except Thrown Text :=
  statusChange document "speaking".toList

def string2long (s : Text) : Int := if s = [] then -1 else (chars.parseLong s).getD (-1)

def getFaceChangeTime (document : Document) : Except Thrown Int := do
  return ((← nonverbalElement document "face-present".toList).map fun e =>
    string2long chars (e.2.getAttribute "start".toList)).getD (-1)

def getVoiceChangeTime (document : Document) : Except Thrown Int := do
  return ((← nonverbalElement document "speaking".toList).map fun e =>
    string2long chars (e.1.getAttribute "emma:offset-to-start".toList)).getD (-1)

def needChildElementByLocalNameNS (node : Element) (childName : Text)
    (childNamespace : Option Text) : Except Failure Element := do
  let position ←
    (getChildElementByLocalNameNS node childName childNamespace).mapError Failure.thrown
  match (elementsAt node position.toList).head? with
  | some e => return e
  | none =>
    throw (.messageFormat ("Node '".toList ++ getNodeName node.toTag ++
      "' in namespace '".toList ++ orNull node.namespaceURI ++
      " needs to have a child '".toList ++ childName ++ "' in ".toList ++
      (if childNamespace = node.namespaceURI then "the same namespace".toList
        else "namespace '".toList ++ orNull childNamespace ++ "'".toList)))

def getEventElement (document : Document) : Except Failure Element :=
  let expected := "Expected root element 'callback' in namespace '".toList ++ semaineURI
  if document.localName = "callback".toList then
    match document.namespaceURI with
    | none => .error (.thrown .nullPointer)
    | some namespaceURI =>
      if namespaceURI = semaineURI then
        needChildElementByLocalNameNS document "event".toList (some semaineURI)
      else
        .error (.messageFormat (expected ++ "' but got '".toList ++ document.localName ++
          "' in namespace '".toList ++ namespaceURI ++ "'".toList))
  else
    .error (.messageFormat (expected ++ "' but got '".toList ++ document.localName ++
      "' in namespace '".toList ++ orNull document.namespaceURI ++ "'".toList))

def isUtteranceEvent (event : Element) (type : Text) : Bool :=
  event.getAttribute "contentType".toList = "utterance".toList &&
    event.getAttribute "type".toList = type

structure Thresholds where
  faceAppeared : Int := 0
  faceDisappeared : Int := 3000
  voiceAppeared : Int := 1000
  voiceDisappeared : Int := 10000
  systemStoppedSpeaking : Int := 5000
  externalUserPresence : Int := 60000

structure UserPresenceInterpreter where
  isFacePresent : Bool := false
  timeFaceAppeared : Int := -1
  timeFaceDisappeared : Int := -1
  isVoicePresent : Bool := false
  timeVoiceAppeared : Int := -1
  timeVoiceDisappeared : Int := -1
  isSystemSpeaking : Bool := false
  timeSystemStoppedSpeaking : Int := -1
  timeExternalUserPresence : Int := -1
  userPresent : Bool := false
  deriving DecidableEq

variable (threshold : Thresholds)

namespace UserPresenceInterpreter

/-- A voice or a face that is there for long enough, or that has gone a short time ago. -/
def isPresent (present : Bool) (timeAppeared timeDisappeared thresholdAppeared
    thresholdDisappeared currentTime : Int) : Bool :=
  present && thresholdAppeared ≤ toLong (currentTime - timeAppeared) ||
    toLong (currentTime - timeDisappeared) ≤ thresholdDisappeared

def voicePresent (s : UserPresenceInterpreter) (currentTime : Int) : Bool :=
  isPresent s.isVoicePresent s.timeVoiceAppeared s.timeVoiceDisappeared
    threshold.voiceAppeared threshold.voiceDisappeared currentTime

def facePresent (s : UserPresenceInterpreter) (currentTime : Int) : Bool :=
  isPresent s.isFacePresent s.timeFaceAppeared s.timeFaceDisappeared
    threshold.faceAppeared threshold.faceDisappeared currentTime

def systemSpeaking (s : UserPresenceInterpreter) (currentTime : Int) : Bool :=
  s.isSystemSpeaking ||
    toLong (currentTime - s.timeSystemStoppedSpeaking) ≤ threshold.systemStoppedSpeaking

def isExternalUserPresenceInForce (s : UserPresenceInterpreter) (currentTime : Int) : Bool :=
  0 ≤ s.timeExternalUserPresence &&
    toLong (currentTime - s.timeExternalUserPresence) ≤ threshold.externalUserPresence

def reactFace (document : Document) (s : UserPresenceInterpreter) :
    Except Thrown UserPresenceInterpreter := do
  let change ← getFaceStatusChange document
  if change = "start".toList then
    return { s with
      isFacePresent := true
      timeFaceAppeared := ← getFaceChangeTime chars document }
  else if change = "stop".toList then
    return { s with
      isFacePresent := false
      timeFaceDisappeared := ← getFaceChangeTime chars document }
  else return s

def reactVoice (document : Document) (s : UserPresenceInterpreter) :
    Except Thrown UserPresenceInterpreter := do
  let change ← getVoiceStatusChange document
  if change = "start".toList then
    return { s with
      isVoicePresent := true
      timeVoiceAppeared := ← getVoiceChangeTime chars document }
  else if change = "stop".toList then
    return { s with
      isVoicePresent := false
      timeVoiceDisappeared := ← getVoiceChangeTime chars document }
  else return s

def reactCallback (document : Document) (s : UserPresenceInterpreter) :
    Except Failure UserPresenceInterpreter := do
  let event ← getEventElement document
  if isUtteranceEvent event "start".toList then return { s with isSystemSpeaking := true }
  else if isUtteranceEvent event "end".toList then
    return { s with
      isSystemSpeaking := false
      timeSystemStoppedSpeaking := string2long chars (event.getAttribute "time".toList) }
  else return s

def reactState (time : Int) (info : List (Text × Text)) (s : UserPresenceInterpreter) :
    UserPresenceInterpreter :=
  match info.lookup "userPresent".toList with
  | none => s
  | some value =>
    { s with
      timeExternalUserPresence := time
      userPresent := decide (value = "present".toList) }

/-- `time` is what `meta.getTime()` returns when a state message comes in. -/
def react (time : Int) (m : PresenceMessage) (s : UserPresenceInterpreter) :
    Except Failure UserPresenceInterpreter :=
  match m with
  | .state info => .ok (s.reactState time info)
  | .emma document =>
    ((s.reactFace chars document).bind fun s => s.reactVoice chars document).mapError .thrown
  | .xml document => s.reactCallback chars document
  | .other => .ok s

structure Readings where
  external : Int
  face : Int
  voice : Int
  system : Int

def updateUserPresence (t : Readings) (s : UserPresenceInterpreter) :
    UserPresenceInterpreter × Bool :=
  if s.isExternalUserPresenceInForce threshold t.external then (s, false)
  else
    let observed := s.facePresent threshold t.face || s.voicePresent threshold t.voice
    if s.userPresent && !(observed || s.systemSpeaking threshold t.system) then
      ({ s with userPresent := false }, true)
    else if !s.userPresent && observed then ({ s with userPresent := true }, true)
    else (s, false)

/-- The state after `act`, and the presence that is announced, if any. -/
def act (t : Readings) (s : UserPresenceInterpreter) : UserPresenceInterpreter × Option Bool :=
  let (s, changed) := s.updateUserPresence threshold t
  (s, if changed then some s.userPresent else none)

end UserPresenceInterpreter

open UserPresenceInterpreter

inductive Event where
  | receive (time : Int) (m : PresenceMessage)
  | act (t : Readings)

def Event.times : Event → List Int
  | .receive time _ => [time]
  | .act t => [t.external, t.face, t.voice, t.system]

def step (s : UserPresenceInterpreter) (e : Event) :
    Except Failure (UserPresenceInterpreter × Option Bool) :=
  match e with
  | .receive time m => (s.react chars time m).map fun s => (s, none)
  | .act t => .ok (s.act threshold t)

def runAll (es : List Event) : Except Failure UserPresenceInterpreter :=
  es.foldlM (fun s e => (step chars threshold s e).map Prod.fst) {}

/-- The clock of a run: its readings never go back, and one more millisecond is still a long. -/
structure Clock (es : List Event) : Prop where
  forward : (es.flatMap Event.times).Pairwise (· ≤ ·)
  range : ∀ t ∈ es.flatMap Event.times, 0 ≤ t ∧ t < 2 ^ 63 - 1

/-- The message says that a face or a voice is there, or was there until then. -/
def PresenceMessage.reports : PresenceMessage → Bool
  | .emma document =>
    [getFaceStatusChange document, getVoiceStatusChange document].any fun change =>
      match change with
      | .ok change => change = "start".toList || change = "stop".toList
      | .error _ => false
  | _ => false

def Event.evidence : Event → Bool
  | .receive _ m => m.reports
  | .act _ => false

def NeedsEvidence (es : List Event) : Prop :=
  ∀ before t s s', before ++ [.act t] <+: es → runAll chars threshold before = .ok s →
    s.act threshold t = (s', some true) → ∃ e ∈ before, e.evidence = true

def external? : Event → Option (Int × Bool)
  | .receive time (.state info) =>
    (info.lookup "userPresent".toList).map fun value => (time, decide (value = "present".toList))
  | _ => none

/-- The last time that somebody else has said whether the user is there, and what was said. -/
def lastExternal (es : List Event) : Option (Int × Bool) :=
  es.foldl (fun last e => (external? e).or last) none

/-- The system has been running for a shorter time than a face or a voice may be gone, and nobody
else says that the user is there, or has said recently that he is not. -/
def Early (before : List Event) (t : Readings) : Prop :=
  (t.face < threshold.faceDisappeared ∨ t.voice < threshold.voiceDisappeared) ∧
    match lastExternal before with
    | none => True
    | some (time, present) =>
      present = false ∧ threshold.externalUserPresence < t.external - time

def NeverEarly (es : List Event) : Prop :=
  ∀ before t s, before ++ [.act t] <+: es → runAll chars threshold before = .ok s →
    (∀ e ∈ before, e.evidence = false) → ¬ Early threshold before t

theorem lastExternal_concat (es : List Event) (e : Event) :
    lastExternal (es ++ [e]) = (external? e).or (lastExternal es) := by
  simp [lastExternal]

structure Unseen (before : List Event) (s : UserPresenceInterpreter) : Prop where
  face : s.isFacePresent = false
  faceGone : s.timeFaceDisappeared = -1
  voice : s.isVoicePresent = false
  voiceGone : s.timeVoiceDisappeared = -1
  external : s.timeExternalUserPresence = ((lastExternal before).map Prod.fst).getD (-1)
  externalTime : ∀ time present, lastExternal before = some (time, present) →
    time ∈ before.flatMap Event.times
  absent : ∀ time, lastExternal before = some (time, true) → s.userPresent = false →
    ∃ y ∈ before.flatMap Event.times,
      threshold.faceDisappeared ≤ y ∧ threshold.voiceDisappeared ≤ y

theorem unseen_start : Unseen threshold [] {} where
  face := rfl
  faceGone := rfl
  voice := rfl
  voiceGone := rfl
  external := rfl
  externalTime := nofun
  absent := nofun

theorem toLong_since_start {t : Int} (low : 0 ≤ t) (high : t < 2 ^ 63 - 1) :
    toLong (t - -1) = t + 1 := by
  have shifted : t - -1 = t + 1 := by omega
  rw [shifted]
  apply toLong_eq_self
  unfold IsLong
  omega

theorem Unseen.facePresent {before : List Event} {s : UserPresenceInterpreter}
    (unseen : Unseen threshold before s) {t : Int} (low : 0 ≤ t) (high : t < 2 ^ 63 - 1) :
    s.facePresent threshold t = decide (t < threshold.faceDisappeared) := by
  rw [UserPresenceInterpreter.facePresent, isPresent, unseen.face, unseen.faceGone,
    toLong_since_start low high, Bool.false_and, Bool.false_or]
  exact decide_eq_decide.mpr Int.add_one_le_iff

theorem Unseen.voicePresent {before : List Event} {s : UserPresenceInterpreter}
    (unseen : Unseen threshold before s) {t : Int} (low : 0 ≤ t) (high : t < 2 ^ 63 - 1) :
    s.voicePresent threshold t = decide (t < threshold.voiceDisappeared) := by
  rw [UserPresenceInterpreter.voicePresent, isPresent, unseen.voice, unseen.voiceGone,
    toLong_since_start low high, Bool.false_and, Bool.false_or]
  exact decide_eq_decide.mpr Int.add_one_le_iff

theorem quiet_change {changes : List (Except Thrown Text)}
    (quiet : (changes.any fun change =>
      match change with
      | .ok change => change = "start".toList || change = "stop".toList
      | .error _ => false) = false) (change : Text) (member : .ok change ∈ changes) :
    change ≠ "start".toList ∧ change ≠ "stop".toList := by
  have neither := List.any_eq_false.mp quiet _ member
  simp only [Bool.or_eq_true, decide_eq_true_eq, not_or] at neither
  exact neither

theorem react_cases {s s' : UserPresenceInterpreter} {time : Int} {m : PresenceMessage}
    (quiet : m.reports = false) (done : s.react chars time m = .ok s') :
    (∃ info, m = .state info ∧ s' = s.reactState time info) ∨
    ((∀ info, m ≠ .state info) ∧
      s'.isFacePresent = s.isFacePresent ∧ s'.timeFaceDisappeared = s.timeFaceDisappeared ∧
      s'.isVoicePresent = s.isVoicePresent ∧ s'.timeVoiceDisappeared = s.timeVoiceDisappeared ∧
      s'.timeExternalUserPresence = s.timeExternalUserPresence ∧
      s'.userPresent = s.userPresent) := by
  cases m with
  | state info =>
    cases done
    exact Or.inl ⟨info, rfl, rfl⟩
  | other =>
    cases done
    exact Or.inr ⟨nofun, rfl, rfl, rfl, rfl, rfl, rfl⟩
  | xml document =>
    apply Or.inr
    obtain ⟨event, _, done⟩ := Outcome.bind_ok done
    split at done
    · cases done
      exact ⟨nofun, rfl, rfl, rfl, rfl, rfl, rfl⟩
    · split at done
      · cases done
        exact ⟨nofun, rfl, rfl, rfl, rfl, rfl, rfl⟩
      · cases done
        exact ⟨nofun, rfl, rfl, rfl, rfl, rfl, rfl⟩
  | emma document =>
    apply Or.inr
    obtain ⟨s1, first, second⟩ := Outcome.bind_ok (Outcome.mapError_ok done)
    obtain ⟨face, faceRead, first⟩ := Outcome.bind_ok first
    obtain ⟨voice, voiceRead, second⟩ := Outcome.bind_ok second
    obtain ⟨noStart, noStop⟩ := quiet_change quiet face (by simp [faceRead])
    obtain ⟨noVoiceStart, noVoiceStop⟩ := quiet_change quiet voice (by simp [voiceRead])
    rw [if_neg noStart, if_neg noStop] at first
    rw [if_neg noVoiceStart, if_neg noVoiceStop] at second
    cases first
    cases second
    exact ⟨nofun, rfl, rfl, rfl, rfl, rfl, rfl⟩

theorem act_cases {s s' : UserPresenceInterpreter} {t : Readings} {announced : Option Bool}
    (done : s.act threshold t = (s', announced)) :
    (s' = s ∧ announced = none) ∨
    (s.isExternalUserPresenceInForce threshold t.external = false ∧ s.userPresent = true ∧
      s.facePresent threshold t.face = false ∧ s.voicePresent threshold t.voice = false ∧
      s' = { s with userPresent := false } ∧ announced = some false) ∨
    (s.isExternalUserPresenceInForce threshold t.external = false ∧ s.userPresent = false ∧
      (s.facePresent threshold t.face = true ∨ s.voicePresent threshold t.voice = true) ∧
      s' = { s with userPresent := true } ∧ announced = some true) := by
  unfold UserPresenceInterpreter.act updateUserPresence at done
  cases inForce : s.isExternalUserPresenceInForce threshold t.external with
  | true =>
    rw [inForce] at done
    cases done
    exact Or.inl ⟨rfl, rfl⟩
  | false =>
    rw [inForce] at done
    cases observed : s.facePresent threshold t.face || s.voicePresent threshold t.voice with
    | false =>
      obtain ⟨face, voice⟩ := Bool.or_eq_false_iff.mp observed
      cases present : s.userPresent with
      | false =>
        simp only [observed, present] at done
        cases done
        exact Or.inl ⟨rfl, rfl⟩
      | true =>
        cases speaking : s.systemSpeaking threshold t.system with
        | true =>
          simp only [observed, present, speaking] at done
          cases done
          exact Or.inl ⟨rfl, rfl⟩
        | false =>
          simp only [observed, present, speaking] at done
          cases done
          exact Or.inr (Or.inl ⟨rfl, rfl, face, voice, rfl, rfl⟩)
    | true =>
      have either := Bool.or_eq_true_iff.mp observed
      cases present : s.userPresent with
      | false =>
        simp only [observed, present] at done
        cases done
        exact Or.inr (Or.inr ⟨rfl, rfl, either, rfl, rfl⟩)
      | true =>
        simp only [observed, present] at done
        cases done
        exact Or.inl ⟨rfl, rfl⟩

theorem act_announces {s : UserPresenceInterpreter} {t : Readings}
    (free : s.isExternalUserPresenceInForce threshold t.external = false)
    (absent : s.userPresent = false)
    (observed : s.facePresent threshold t.face = true ∨ s.voicePresent threshold t.voice = true) :
    s.act threshold t = ({ s with userPresent := true }, some true) := by
  have either := Bool.or_eq_true_iff.mpr observed
  unfold UserPresenceInterpreter.act updateUserPresence
  simp [free, absent, either]

theorem Clock.before {es before : List Event} (clock : Clock es) (isBefore : before <+: es) :
    Clock before := by
  obtain ⟨rest, rfl⟩ := isBefore
  have forward := clock.forward
  have range := clock.range
  rw [List.flatMap_append] at forward range
  exact ⟨(List.pairwise_append.mp forward).1, fun t ht => range t (List.mem_append_left _ ht)⟩

theorem Clock.act {before : List Event} {t : Readings} (clock : Clock (before ++ [.act t])) :
    (∀ y ∈ before.flatMap Event.times, y ≤ t.external) ∧
    t.external ≤ t.face ∧ t.face ≤ t.voice ∧ 0 ≤ t.external ∧ t.voice < 2 ^ 63 - 1 := by
  have forward := clock.forward
  have range := clock.range
  rw [List.flatMap_append] at forward range
  obtain ⟨_, own, across⟩ := List.pairwise_append.mp forward
  simp only [List.flatMap_cons, List.flatMap_nil, List.append_nil, Event.times] at own across range
  have first := range t.external (by simp)
  have third := range t.voice (by simp)
  have next := (List.pairwise_cons.mp own).1 t.face (by simp)
  have after := (List.pairwise_cons.mp (List.pairwise_cons.mp own).2).1 t.voice (by simp)
  exact ⟨fun y hy => across y hy t.external (by simp), next, after, first.1, third.2⟩

theorem times_append_left {before : List Event} {e : Event} {y : Int}
    (member : y ∈ before.flatMap Event.times) : y ∈ (before ++ [e]).flatMap Event.times := by
  rw [List.flatMap_append]
  exact List.mem_append_left _ member

theorem times_append_right {before : List Event} {e : Event} {y : Int} (member : y ∈ e.times) :
    y ∈ (before ++ [e]).flatMap Event.times := by
  rw [List.flatMap_append, List.flatMap_cons, List.flatMap_nil, List.append_nil]
  exact List.mem_append_right _ member

theorem Unseen.free_iff {before : List Event} {s : UserPresenceInterpreter} {t : Readings}
    (unseen : Unseen threshold before s) (clock : Clock (before ++ [.act t])) :
    s.isExternalUserPresenceInForce threshold t.external = false ↔
      match lastExternal before with
      | none => True
      | some (time, _) => threshold.externalUserPresence < t.external - time := by
  obtain ⟨earlier, _, _, start, end_⟩ := clock.act
  have external := unseen.external
  unfold isExternalUserPresenceInForce
  cases last : lastExternal before with
  | none =>
    rw [last] at external
    have never : s.timeExternalUserPresence = -1 := external
    simp [never]
  | some said =>
    obtain ⟨time, present⟩ := said
    rw [last] at external
    have at_ : s.timeExternalUserPresence = time := external
    have member := unseen.externalTime time present last
    have low := (clock.range time (times_append_left member)).1
    have le := earlier time member
    have exact : toLong (t.external - time) = t.external - time := by
      apply toLong_eq_self
      unfold IsLong
      omega
    simp only [at_, exact, low, decide_true, Bool.true_and, decide_eq_false_iff_not, not_le]

theorem Unseen.step {before : List Event} {s s' : UserPresenceInterpreter} {e : Event}
    {announced : Option Bool} (unseen : Unseen threshold before s)
    (clock : Clock (before ++ [e])) (quiet : e.evidence = false)
    (done : step chars threshold s e = .ok (s', announced)) :
    Unseen threshold (before ++ [e]) s' := by
  cases e with
  | receive time m =>
    obtain ⟨s1, reacted, same⟩ := Outcome.map_ok done
    cases same
    rcases react_cases chars quiet reacted with ⟨info, rfl, rfl⟩ |
      ⟨notState, face, faceGone, voice, voiceGone, external, present⟩
    · unfold reactState
      cases said : info.lookup "userPresent".toList with
      | none =>
        have last : lastExternal (before ++ [.receive time (.state info)]) =
            lastExternal before := by
          rw [lastExternal_concat, external?, said]
          rfl
        refine ⟨unseen.face, unseen.faceGone, unseen.voice, unseen.voiceGone, ?_, ?_, ?_⟩
        · rw [last]
          exact unseen.external
        · intro time' present given
          rw [last] at given
          exact times_append_left (unseen.externalTime time' present given)
        · intro time' given gone
          rw [last] at given
          obtain ⟨y, member, bounds⟩ := unseen.absent time' given gone
          exact ⟨y, times_append_left member, bounds⟩
      | some value =>
        have last : lastExternal (before ++ [.receive time (.state info)]) =
            some (time, decide (value = "present".toList)) := by
          rw [lastExternal_concat, external?, said]
          rfl
        refine ⟨unseen.face, unseen.faceGone, unseen.voice, unseen.voiceGone, ?_, ?_, ?_⟩
        · rw [last]
          rfl
        · intro time' present given
          rw [last] at given
          cases given
          exact times_append_right (List.mem_singleton.mpr rfl)
        · intro time' given gone
          rw [last] at given
          have yes := (Prod.mk.inj (Option.some.inj given)).2
          have no : decide (value = "present".toList) = false := gone
          rw [no] at yes
          cases yes
    · have last : lastExternal (before ++ [.receive time m]) = lastExternal before := by
        cases m with
        | state info => exact absurd rfl (notState info)
        | emma document => simp [lastExternal_concat, external?]
        | xml document => simp [lastExternal_concat, external?]
        | other => simp [lastExternal_concat, external?]
      refine ⟨face.trans unseen.face, faceGone.trans unseen.faceGone, voice.trans unseen.voice,
        voiceGone.trans unseen.voiceGone, ?_, ?_, ?_⟩
      · rw [last, external]
        exact unseen.external
      · intro time' present given
        rw [last] at given
        exact times_append_left (unseen.externalTime time' present given)
      · intro time' given gone
        rw [last] at given
        rw [present] at gone
        obtain ⟨y, member, bounds⟩ := unseen.absent time' given gone
        exact ⟨y, times_append_left member, bounds⟩
  | act t =>
    have last : lastExternal (before ++ [.act t]) = lastExternal before := by
      simp [lastExternal_concat, external?]
    have acted := Except.ok.inj done
    obtain ⟨earlier, first, second, start, end_⟩ := clock.act
    have same : s'.isFacePresent = s.isFacePresent ∧
        s'.timeFaceDisappeared = s.timeFaceDisappeared ∧
        s'.isVoicePresent = s.isVoicePresent ∧
        s'.timeVoiceDisappeared = s.timeVoiceDisappeared ∧
        s'.timeExternalUserPresence = s.timeExternalUserPresence := by
      rcases act_cases threshold acted with ⟨rfl, _⟩ | ⟨_, _, _, _, rfl, _⟩ | ⟨_, _, _, rfl, _⟩
      · exact ⟨rfl, rfl, rfl, rfl, rfl⟩
      · exact ⟨rfl, rfl, rfl, rfl, rfl⟩
      · exact ⟨rfl, rfl, rfl, rfl, rfl⟩
    obtain ⟨face, faceGone, voice, voiceGone, external⟩ := same
    refine ⟨face.trans unseen.face, faceGone.trans unseen.faceGone, voice.trans unseen.voice,
      voiceGone.trans unseen.voiceGone, ?_, ?_, ?_⟩
    · rw [last, external]
      exact unseen.external
    · intro time present given
      rw [last] at given
      exact times_append_left (unseen.externalTime time present given)
    · intro time given gone
      rw [last] at given
      rcases act_cases threshold acted with ⟨rfl, _⟩ | ⟨_, _, noFace, noVoice, rfl, _⟩ |
        ⟨_, _, _, rfl, _⟩
      · obtain ⟨y, member, bounds⟩ := unseen.absent time given gone
        exact ⟨y, times_append_left member, bounds⟩
      · rw [unseen.facePresent threshold (by omega) (by omega), decide_eq_false_iff_not] at noFace
        rw [unseen.voicePresent threshold (by omega) (by omega), decide_eq_false_iff_not] at noVoice
        refine ⟨t.voice, times_append_right (by simp [Event.times]), ?_⟩
        omega
      · cases gone

theorem runAll_concat {es : List Event} {e : Event} {s' : UserPresenceInterpreter}
    (done : runAll chars threshold (es ++ [e]) = .ok s') :
    ∃ s announced, runAll chars threshold es = .ok s ∧
      step chars threshold s e = .ok (s', announced) := by
  rw [runAll, List.foldlM_append] at done
  obtain ⟨s, before, done⟩ := Outcome.bind_ok done
  rw [List.foldlM_cons] at done
  obtain ⟨s2, last, done⟩ := Outcome.bind_ok done
  cases done
  obtain ⟨⟨s3, announced⟩, taken, same⟩ := Outcome.map_ok last
  cases same
  exact ⟨s, announced, before, taken⟩

theorem unseen_runAll {es : List Event} {s : UserPresenceInterpreter} (clock : Clock es)
    (quiet : ∀ e ∈ es, e.evidence = false) (done : runAll chars threshold es = .ok s) :
    Unseen threshold es s := by
  induction es using List.reverseRecOn generalizing s with
  | nil =>
    cases done
    exact unseen_start threshold
  | append_singleton es e ih =>
    obtain ⟨before, announced, first, last⟩ := runAll_concat chars threshold done
    have unseen := ih (clock.before (List.prefix_append _ _))
      (fun e' h => quiet e' (List.mem_append_left _ h)) first
    exact unseen.step chars threshold clock (quiet e (by simp)) last

theorem present_runAll {es before : List Event} {s : UserPresenceInterpreter}
    (needs : NeedsEvidence chars threshold es) (isBefore : before <+: es)
    (quiet : ∀ e ∈ before, e.evidence = false) (done : runAll chars threshold before = .ok s)
    (present : s.userPresent = true) : ∃ time, lastExternal before = some (time, true) := by
  induction before using List.reverseRecOn generalizing s with
  | nil =>
    cases done
    cases present
  | append_singleton before e ih =>
    obtain ⟨s0, announced, first, last⟩ := runAll_concat chars threshold done
    have shorter := (List.prefix_append before [e]).trans isBefore
    have quietBefore : ∀ e' ∈ before, e'.evidence = false := fun e' h =>
      quiet e' (List.mem_append_left _ h)
    have earlier := ih shorter quietBefore first
    cases e with
    | receive time m =>
      obtain ⟨s1, reacted, same⟩ := Outcome.map_ok last
      cases same
      have silent : m.reports = false := quiet (.receive time m) (by simp)
      rcases react_cases chars silent reacted with ⟨info, rfl, rfl⟩ |
        ⟨notState, _, _, _, _, _, still⟩
      · rw [lastExternal_concat, external?]
        unfold reactState at present
        cases said : info.lookup "userPresent".toList with
        | none =>
          rw [said] at present
          exact earlier present
        | some value =>
          rw [said] at present
          have yes : decide (value = "present".toList) = true := present
          exact ⟨time, by rw [Option.map_some, yes]; rfl⟩
      · have same : external? (.receive time m) = none := by
          cases m with
          | state info => exact absurd rfl (notState info)
          | emma document => rfl
          | xml document => rfl
          | other => rfl
        rw [lastExternal_concat, same]
        exact earlier (still ▸ present)
    | act t =>
      have acted := Except.ok.inj last
      have same : external? (.act t) = none := rfl
      rw [lastExternal_concat, same]
      rcases act_cases threshold acted with ⟨rfl, _⟩ | ⟨_, _, _, _, rfl, _⟩ | ⟨_, _, _, rfl, rfl⟩
      · exact earlier present
      · cases present
      · obtain ⟨e', member, evidence⟩ := needs before t s0 _ isBefore first acted
        rw [quietBefore e' member] at evidence
        cases evidence

theorem needsEvidence_iff (es : List Event) (clock : Clock es) :
    NeedsEvidence chars threshold es ↔ NeverEarly chars threshold es := by
  constructor
  · intro needs before t s isBefore done quiet early
    have clockHere := clock.before isBefore
    have shorter := (List.prefix_append before [.act t]).trans isBefore
    have unseen := unseen_runAll chars threshold (clock.before shorter) quiet done
    obtain ⟨_, first, second, start, end_⟩ := clockHere.act
    obtain ⟨soon, others⟩ := early
    have absent : s.userPresent = false := by
      cases present : s.userPresent with
      | false => rfl
      | true =>
        obtain ⟨time, last⟩ := present_runAll chars threshold needs shorter quiet done present
        rw [last] at others
        cases others.1
    have free : s.isExternalUserPresenceInForce threshold t.external = false := by
      rw [unseen.free_iff threshold clockHere]
      cases last : lastExternal before with
      | none => trivial
      | some said =>
        rw [last] at others
        exact others.2
    have observed : s.facePresent threshold t.face = true ∨
        s.voicePresent threshold t.voice = true := by
      rw [unseen.facePresent threshold (by omega) (by omega),
        unseen.voicePresent threshold (by omega) (by omega)]
      simpa using soon
    obtain ⟨e, member, evidence⟩ := needs before t s _ isBefore done
      (act_announces threshold free absent observed)
    rw [quiet e member] at evidence
    cases evidence
  · intro never before t s s' isBefore done announced
    by_contra noEvidence
    have quiet : ∀ e ∈ before, e.evidence = false := by
      intro e member
      cases evidence : e.evidence with
      | false => rfl
      | true => exact absurd ⟨e, member, evidence⟩ noEvidence
    have clockHere := clock.before isBefore
    have shorter := (List.prefix_append before [.act t]).trans isBefore
    have unseen := unseen_runAll chars threshold (clock.before shorter) quiet done
    obtain ⟨earlier, first, second, start, end_⟩ := clockHere.act
    rcases act_cases threshold announced with ⟨_, none⟩ | ⟨_, _, _, _, _, gone⟩ |
      ⟨free, absent, observed, _, _⟩
    · cases none
    · cases gone
    · rw [unseen.facePresent threshold (by omega) (by omega),
        unseen.voicePresent threshold (by omega) (by omega)] at observed
      simp only [decide_eq_true_eq] at observed
      rw [unseen.free_iff threshold clockHere] at free
      apply never before t s isBefore done quiet
      refine ⟨observed, ?_⟩
      cases last : lastExternal before with
      | none => trivial
      | some said =>
        obtain ⟨time, present⟩ := said
        rw [last] at free
        cases present with
        | false => exact ⟨rfl, free⟩
        | true =>
          obtain ⟨y, member, face, voice⟩ := unseen.absent time last absent
          have le := earlier y member
          omega

def firstAct : List Event := [.act ⟨1000, 1000, 1000, 1000⟩]

theorem firstAct_clock : Clock firstAct where
  forward := by decide
  range := by decide

def userComes : List Event :=
  [.act ⟨9000, 9000, 9000, 9001⟩,
    .receive 9500 (.state [("userPresent".toList, "present".toList)]),
    .act ⟨10000, 10000, 10001, 10001⟩,
    .receive 30000 (.state [("userPresent".toList, "absent".toList)]),
    .act ⟨30500, 30500, 30500, 30500⟩]

theorem userComes_clock : Clock userComes where
  forward := by decide
  range := by decide

theorem needsEvidence_iff_userComes :
    NeedsEvidence ascii {} userComes ↔ NeverEarly ascii {} userComes :=
  needsEvidence_iff ascii {} userComes userComes_clock

theorem firstAct_announces : Clock firstAct ∧ ¬ NeedsEvidence ascii {} firstAct := by
  refine ⟨firstAct_clock, ?_⟩
  intro needs
  obtain ⟨e, member, _⟩ := needs [] ⟨1000, 1000, 1000, 1000⟩ {} { userPresent := true }
    (List.prefix_refl _) rfl (by decide)
  cases member

end UserPresence

end Semaine.Interpreters
