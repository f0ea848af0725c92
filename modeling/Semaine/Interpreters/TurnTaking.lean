import Semaine.Interpreters.TurnTakingInterpreter
import Semaine.Library.Outcome

/-! What the messages about the turn are like in every run: they alternate, they do not interrupt,
and the agent takes the turn again when nobody answers. -/
namespace Semaine.Interpreters
open JavaText JavaFloat Semaine.Dialogue

namespace TurnEvent

def readings : TurnEvent → Option (Reading → Int)
  | .act clock => some clock
  | .userState _ clock => some clock
  | .dialogState _ clock => some clock
  | .agentState _ => none
  | .contextState _ => none

/-- The readings made for one event are less than 15 milliseconds apart. -/
def Brisk (e : TurnEvent) : Prop := ∀ clock ∈ e.readings, ∀ r r', clock r - clock r' < 15

def During (now later : Int) (e : TurnEvent) : Prop :=
  now ≤ later ∧ ∀ clock ∈ e.readings, ∀ r, now ≤ clock r ∧ clock r ≤ later

theorem Brisk.apart {e : TurnEvent} {clock : Reading → Int} (brisk : e.Brisk)
    (reads : clock ∈ e.readings) (r r' : Reading) : |clock r - clock r'| < 15 := by
  have forward := brisk clock reads r r'
  have back := brisk clock reads r' r
  rw [abs_lt]
  omega

end TurnEvent

abbrev Clocks (started : Int) (events : List TurnEvent) (now : Int) : Prop :=
  Transition.Run (fun now (e : TurnEvent) later => e.During now later) started events now

/-- The clock starts at a time that is not negative, and from event to event it does not go back. -/
def Steady (started : Int) (events : List TurnEvent) : Prop :=
  0 ≤ started ∧ ∃ now < 2 ^ 63, Clocks started events now

namespace TurnTakingInterpreter

variable {F D : Type} {lower : Text → Text} {floats : Floats F} {d : Exponentials D}
  {thresholds : TTThresholds} {clock : Reading → Int} {s t : TurnTakingInterpreter F}

def started (s : TurnTakingInterpreter F) : TurnTakingInterpreter F :=
  { s with agentSpeakingIntention := .speaking, sent := s.sent ++ [.startSpeaking] }

def stopped (s : TurnTakingInterpreter F) : TurnTakingInterpreter F :=
  { s with agentSpeakingIntention := .silent, sent := s.sent ++ [.stopSpeaking] }

inductive Decides (d : Exponentials D) (clock : Reading → Int) (s : TurnTakingInterpreter F) :
    TurnTakingInterpreter F → Prop where
  | starts : s.currTTThreshold ≤ s.speakingIntention d clock →
      s.agentSpeakingIntention ≠ .speaking → s.agentSilent = true → Decides d clock s s.started
  | stops : s.speakingIntention d clock < s.currTTThreshold → s.agentSpeakingIntention ≠ .silent →
      Decides d clock s s.stopped
  | rests : (s.currTTThreshold ≤ s.speakingIntention d clock → s.agentSilent = true →
        s.agentSpeakingIntention = .speaking) → Decides d clock s s

theorem determineAgentTurn_decides (d : Exponentials D) (clock : Reading → Int)
    (s : TurnTakingInterpreter F) :
    Decides d clock (s.updateClock clock) (s.determineAgentTurn d clock) := by
  generalize updated : s.updateClock clock = u
  unfold determineAgentTurn getSpeakingIntentionValue
  simp only [updated]
  split
  · rename_i starts
    exact .starts starts.1 starts.2.1 starts.2.2
  · rename_i notStarts
    split
    · rename_i stops
      exact .stops stops.1 stops.2
    · apply Decides.rests
      intro enough silent
      by_contra notSpeaking
      exact notStarts ⟨enough, notSpeaking, silent⟩

def headMoves (info : List (Text × Text)) : Bool :=
  hasInfo info "headGesture" && hasInfo info "headGestureStarted" &&
    hasInfo info "headGestureStopped" && (getInfo info "headGesture" = some "NOD".toList ||
      getInfo info "headGesture" = some "SHAKE".toList)

def agentHeard (speaks : Bool) : TurnEvent → Bool
  | .dialogState info _ =>
    match getInfo info "agentTurnState" with
    | none => speaks
    | some state =>
      if state = "speaking".toList then true
      else if state = "listening".toList then false
      else if state = "expectingAnswer".toList then false
      else speaks
  | _ => speaks

def agentSpeaks (events : List TurnEvent) : Bool := events.foldl agentHeard false

def voiceHeard (speaks : Bool) (info : List (Text × Text)) : Bool :=
  match getInfo info "speaking" with
  | none => speaks
  | some speaking =>
    if speaking = "true".toList then true
    else if speaking = "false".toList then false
    else speaks

/-- Whether the user speaks, by the last message about the voice or the head. -/
def userHeard (speaks : Bool) : TurnEvent → Bool
  | .userState info _ => if headMoves info then false else voiceHeard speaks info
  | _ => speaks

def userSpeaks (events : List TurnEvent) : Bool := events.foldl userHeard false

def agentSpeaking (s : TurnTakingInterpreter F) : Bool := s.agentSpeakingState = .speaking
def userSpeaking (s : TurnTakingInterpreter F) : Bool := s.userSpeakingState = .speaking

theorem agentSilent_eq (s : TurnTakingInterpreter F) : s.agentSilent = !s.agentSpeaking := by
  unfold agentSilent agentSpeaking
  cases s.agentSpeakingState with
  | waiting => rfl
  | silent => rfl
  | speaking => rfl

/-- The silences of the agent and of a user who is expected to speak began at about one time. -/
def Together (s : TurnTakingInterpreter F) : Prop :=
  s.userSpeakingState = .waiting → s.agentSpeaking = false →
    |s.userSpeakingStateTime - s.agentSpeakingStateTime| < 15

structure Counted (n : Int) (s : TurnTakingInterpreter F) : Prop where
  least : 0 ≤ s.recentEmotionCounter
  most : s.recentEmotionCounter ≤ n

structure Stamped (now : Int) (s : TurnTakingInterpreter F) : Prop where
  agent : 0 ≤ s.agentSpeakingStateTime ∧ s.agentSpeakingStateTime ≤ now
  user : 0 ≤ s.userSpeakingStateTime ∧ s.userSpeakingStateTime ≤ now
  previous : s.previousMetaTime ≤ now

structure OfUser (clock : Reading → Int) (s t : TurnTakingInterpreter F) : Prop where
  sent : t.sent = s.sent
  intention : t.agentSpeakingIntention = s.agentSpeakingIntention
  agent : t.agentSpeakingState = s.agentSpeakingState
  since : t.agentSpeakingStateTime = s.agentSpeakingStateTime
  previous : t.previousMetaTime = s.previousMetaTime
  stamp : t.userSpeakingStateTime = s.userSpeakingStateTime ∨
    ∃ r, t.userSpeakingStateTime = clock r
  waits : t.userSpeakingState = .waiting →
    s.userSpeakingState = .waiting ∧ t.userSpeakingStateTime = s.userSpeakingStateTime

theorem OfUser.refl (s : TurnTakingInterpreter F) : OfUser clock s s :=
  ⟨rfl, rfl, rfl, rfl, rfl, .inl rfl, fun waits => ⟨waits, rfl⟩⟩

theorem OfUser.trans {u : TurnTakingInterpreter F} (first : OfUser clock s t)
    (second : OfUser clock t u) : OfUser clock s u where
  sent := second.sent.trans first.sent
  intention := second.intention.trans first.intention
  agent := second.agent.trans first.agent
  since := second.since.trans first.since
  previous := second.previous.trans first.previous
  stamp := by
    rcases second.stamp with same | read
    · rcases first.stamp with same' | ⟨r, read⟩
      · exact .inl (same.trans same')
      · exact .inr ⟨r, same.trans read⟩
    · exact .inr read
  waits later := by
    obtain ⟨waits, same⟩ := second.waits later
    obtain ⟨before, same'⟩ := first.waits waits
    exact ⟨before, same.trans same'⟩

theorem OfUser.together (user : OfUser clock s t) (together : Together s) : Together t := by
  intro waits silent
  obtain ⟨before, same⟩ := user.waits waits
  have agent : s.agentSpeaking = false := by
    unfold agentSpeaking at silent ⊢
    rw [← user.agent]
    exact silent
  rw [same, user.since]
  exact together before agent

theorem OfUser.stamped {now later : Int} (user : OfUser clock s t) (order : now ≤ later)
    (readings : ∀ r, now ≤ clock r ∧ clock r ≤ later) (before : Stamped now s) :
    Stamped later t := by
  obtain ⟨⟨least, most⟩, ⟨least', most'⟩, previous⟩ := before
  refine ⟨?_, ?_, ?_⟩
  · rw [user.since]
    exact ⟨least, by omega⟩
  · rcases user.stamp with same | ⟨r, read⟩
    · rw [same]
      exact ⟨least', by omega⟩
    · have read' := readings r
      rw [read]
      omega
  · rw [user.previous]
    omega

theorem userSilent_ofUser (r : Reading) (s : TurnTakingInterpreter F) :
    OfUser clock s (s.userSilent (clock r)) :=
  ⟨rfl, rfl, rfl, rfl, rfl, .inr ⟨r, rfl⟩, nofun⟩

theorem setUserSpeakingState_ofUser (clock : Reading → Int) (info : List (Text × Text))
    (s : TurnTakingInterpreter F) :
    OfUser clock s (s.setUserSpeakingState clock info) ∧
      (s.setUserSpeakingState clock info).userSpeaking = voiceHeard s.userSpeaking info ∧
      (s.setUserSpeakingState clock info).recentEmotionCounter = s.recentEmotionCounter := by
  unfold setUserSpeakingState voiceHeard
  cases getInfo info "speaking" with
  | none => exact ⟨.refl s, rfl, rfl⟩
  | some speaking =>
    dsimp only
    split
    · split
      · exact ⟨⟨rfl, rfl, rfl, rfl, rfl, .inr ⟨_, rfl⟩, nofun⟩, rfl, rfl⟩
      · rename_i already
        exact ⟨.refl s, decide_eq_true (not_not.mp already), rfl⟩
    · split
      · split
        · exact ⟨userSilent_ofUser .userState s, rfl, rfl⟩
        · rename_i already
          refine ⟨.refl s, ?_, rfl⟩
          unfold userSpeaking
          rw [not_not.mp already]
          rfl
      · exact ⟨.refl s, rfl, rfl⟩

theorem Counted.more {n : Int} (counted : Counted n s) (room : n + 1 < 2 ^ 31) {again : Bool}
    (same : t.recentEmotionCounter =
      if again then s.recentEmotionCounter else toInt (s.recentEmotionCounter + 1)) :
    Counted (n + 1) t := by
  obtain ⟨least, most⟩ := counted
  have whole : toInt (s.recentEmotionCounter + 1) = s.recentEmotionCounter + 1 :=
    (toInt_eq_self_iff _).mpr (by omega)
  rw [whole] at same
  cases again with
  | true => exact ⟨by rw [same]; exact least, by rw [same]; simp only [if_true]; omega⟩
  | false =>
    simp only [Bool.false_eq_true, if_false] at same
    exact ⟨by omega, by omega⟩

theorem addDetectedEmotion_ofUser {info : List (Text × Text)} {name : String}
    {type : EmotionType} (done : s.addDetectedEmotion floats clock info name type = .ok t) :
    OfUser clock s t ∧ t.userSpeaking = s.userSpeaking ∧
      ∀ n, n + 1 < 2 ^ 31 → Counted n s → Counted (n + 1) t := by
  unfold addDetectedEmotion at done
  split at done
  · obtain rfl := Except.ok.inj done
    refine ⟨.refl s, rfl, fun n _ counted => ?_⟩
    exact ⟨counted.least, le_trans counted.most (by omega)⟩
  · split at done
    · cases done
    · obtain rfl := Except.ok.inj done
      refine ⟨⟨rfl, rfl, rfl, rfl, rfl, .inl rfl, fun waits => ⟨waits, rfl⟩⟩, rfl, ?_⟩
      intro n room counted
      exact counted.more room rfl

theorem addDetectedEmotions_ofUser {info : List (Text × Text)}
    (done : s.addDetectedEmotions floats clock info = .ok t) :
    OfUser clock s t ∧ t.userSpeaking = s.userSpeaking ∧
      ∀ n, n + 3 < 2 ^ 31 → Counted n s → Counted (n + 3) t := by
  obtain ⟨u, valence, done⟩ := Outcome.bind_ok done
  obtain ⟨v, arousal, interest⟩ := Outcome.bind_ok done
  obtain ⟨first, same, one⟩ := addDetectedEmotion_ofUser valence
  obtain ⟨second, same', two⟩ := addDetectedEmotion_ofUser arousal
  obtain ⟨third, same'', three⟩ := addDetectedEmotion_ofUser interest
  refine ⟨(first.trans second).trans third, same''.trans (same'.trans same), ?_⟩
  intro n room counted
  have counted' := two _ (by omega) (one n (by omega) counted)
  have counted'' := three _ (by omega) counted'
  rwa [add_assoc, add_assoc] at counted''

theorem processHeadMovements_eq (clock : Reading → Int) (info : List (Text × Text))
    (s : TurnTakingInterpreter F) :
    s.processHeadMovements clock info =
      if headMoves info then userSilent (clock .headGesture) s else s := by
  unfold processHeadMovements headMoves
  split
  · rename_i given
    simp only [given, Bool.true_and, Bool.or_eq_true, decide_eq_true_eq]
    split
    · rename_i nod
      rw [if_pos (.inl nod)]
    · rename_i nod
      split
      · rename_i shake
        rw [if_pos (.inr shake)]
      · rename_i shake
        rw [if_neg (not_or.mpr ⟨nod, shake⟩)]
  · rename_i none
    rw [Bool.eq_false_iff.mpr none]
    rfl

structure Heeds (s : TurnTakingInterpreter F) (e : TurnEvent) (t : TurnTakingInterpreter F) :
    Prop where
  sent : t.sent = s.sent
  intention : t.agentSpeakingIntention = s.agentSpeakingIntention
  agent : t.agentSpeaking = agentHeard s.agentSpeaking e
  user : t.userSpeaking = userHeard s.userSpeaking e
  together : e.Brisk → Together s → Together t
  counted : ∀ n, n + 3 < 2 ^ 31 → Counted n s → Counted (n + 3) t
  stamped : ∀ now later, e.During now later → Stamped now s → Stamped later t

/-- What is heard before the turn is determined: unless the clock went back, the agent is in its
state since the same time. -/
structure Considers (s : TurnTakingInterpreter F) (e : TurnEvent) (clock : Reading → Int)
    (t : TurnTakingInterpreter F) : Prop extends Heeds s e t where
  reads : clock ∈ e.readings
  since : s.previousMetaTime ≤ clock .check → t.agentSpeakingStateTime = s.agentSpeakingStateTime

/-- What is published after the decision: nothing else, or that the agent listens. -/
inductive Publishes (d : Exponentials D) (s : TurnTakingInterpreter F) :
    TurnEvent → TurnTakingInterpreter F → Prop where
  | quiet {e : TurnEvent} {t : TurnTakingInterpreter F} : Heeds s e t → Publishes d s e t
  | decides {e : TurnEvent} {clock : Reading → Int} {u t : TurnTakingInterpreter F} :
      Considers s e clock u → Decides d clock u t → Publishes d s e t
  | listens {e : TurnEvent} {clock : Reading → Int} {u t : TurnTakingInterpreter F} :
      Considers s e clock u → Decides d clock u t → Publishes d s e (t.send .listening)

theorem Counted.congr {n : Int} (counted : Counted n s)
    (same : t.recentEmotionCounter = s.recentEmotionCounter) : Counted n t := by
  obtain ⟨least, most⟩ := counted
  exact ⟨by omega, by omega⟩

theorem Counted.later {n : Int} (counted : Counted n s)
    (same : t.recentEmotionCounter = s.recentEmotionCounter) : Counted (n + 3) t := by
  obtain ⟨least, most⟩ := counted
  exact ⟨by omega, by omega⟩

theorem Stamped.later {now later : Int} (stamped : Stamped now s) (order : now ≤ later)
    (agent : t.agentSpeakingStateTime = s.agentSpeakingStateTime)
    (user : t.userSpeakingStateTime = s.userSpeakingStateTime)
    (previous : t.previousMetaTime = s.previousMetaTime) : Stamped later t := by
  obtain ⟨⟨least, most⟩, ⟨least', most'⟩, before⟩ := stamped
  exact ⟨⟨by omega, by omega⟩, ⟨by omega, by omega⟩, by omega⟩

theorem updateClock_since (clock : Reading → Int) (s : TurnTakingInterpreter F)
    (steady : s.previousMetaTime ≤ clock .check) :
    s.updateClock clock = { s with previousMetaTime := clock .previous } := by
  unfold updateClock
  rw [if_neg (by omega)]

theorem updateClock_considers {e : TurnEvent} (reads : clock ∈ e.readings) (heeds : Heeds s e t)
    (previous : t.previousMetaTime = s.previousMetaTime)
    (since : t.agentSpeakingStateTime = s.agentSpeakingStateTime) :
    Considers s e clock (t.updateClock clock) := by
  refine ⟨?_, reads, ?_⟩
  · unfold updateClock
    split
    · refine ⟨heeds.sent, heeds.intention, heeds.agent, heeds.user, ?_, ?_, ?_⟩
      · intro brisk _ _ _
        exact TurnEvent.Brisk.apart brisk reads .userReset .agentReset
      · intro n room before
        exact (heeds.counted n room before).congr rfl
      · intro now later during before
        have least := before.agent
        have readings := during.2 clock reads
        exact ⟨⟨by have := readings .agentReset; dsimp only; omega, (readings .agentReset).2⟩,
          ⟨by have := readings .userReset; dsimp only; omega, (readings .userReset).2⟩,
          (readings .previous).2⟩
    · refine ⟨heeds.sent, heeds.intention, heeds.agent, heeds.user, heeds.together, ?_, ?_⟩
      · intro n room before
        exact (heeds.counted n room before).congr rfl
      · intro now later during before
        have after := heeds.stamped now later during before
        exact ⟨after.agent, after.user, (during.2 clock reads .previous).2⟩
  · intro steady
    rw [updateClock_since clock t (by omega)]
    exact since

theorem agentStops_eq (clock : Reading → Int) (state : TurnState) (s : TurnTakingInterpreter F) :
    s.agentStops clock state = { s with
      backchannelGiven := false, agentSpeakingState := state
      agentSpeakingStateTime := clock .agentTurn
      userSpeakingState := if s.userSpeaking then .speaking else .waiting
      userSpeakingStateTime :=
        if s.userSpeaking then s.userSpeakingStateTime else clock .userTurn } := by
  unfold agentStops userSpeaking
  cases user : s.userSpeakingState with
  | silent => simp
  | waiting => simp
  | speaking => simp

theorem agentStops_heeds {state : TurnState} {info : List (Text × Text)}
    {s : TurnTakingInterpreter F} (given : state ≠ .speaking)
    (heard : agentHeard s.agentSpeaking (.dialogState info clock) = false) :
    Heeds s (.dialogState info clock) (s.agentStops clock state) := by
  have silent : decide (state = .speaking) = false := decide_eq_false given
  rw [agentStops_eq]
  refine ⟨rfl, rfl, silent.trans heard.symm, ?_, ?_, fun n _ counted => counted.later rfl, ?_⟩
  · show decide ((if s.userSpeaking then TurnState.speaking else .waiting) = .speaking) = _
    cases user : s.userSpeaking with
    | true => rfl
    | false => rfl
  · intro brisk _ waits _
    dsimp only at waits ⊢
    split at waits
    · cases waits
    · rename_i voice
      rw [if_neg voice]
      exact TurnEvent.Brisk.apart brisk rfl .userTurn .agentTurn
  · intro now later during before
    obtain ⟨⟨least, most⟩, ⟨least', most'⟩, previous⟩ := before
    have order := during.1
    have agent := during.2 clock rfl .agentTurn
    have user := during.2 clock rfl .userTurn
    refine ⟨?_, ?_, ?_⟩
    · dsimp only
      omega
    · dsimp only
      split
      · omega
      · omega
    · dsimp only
      omega

theorem setAgentSpeakingState_heeds (clock : Reading → Int) (info : List (Text × Text))
    (s : TurnTakingInterpreter F) :
    Heeds s (.dialogState info clock) (s.setAgentSpeakingState clock info) := by
  unfold setAgentSpeakingState
  cases heard : getInfo info "agentTurnState" with
  | none =>
    exact ⟨rfl, rfl, by simp only [agentHeard, heard], rfl, fun _ => id,
      fun n _ counted => counted.later rfl,
      fun now later during before => before.later during.1 rfl rfl rfl⟩
  | some state =>
    dsimp only
    split
    · rename_i speaking
      refine ⟨rfl, rfl, ?_, rfl, nofun, ?_, ?_⟩
      · simp only [agentHeard, heard, if_pos speaking, agentSpeaking, decide_true]
      · intro n _ counted
        have enough := le_trans counted.least counted.most
        exact ⟨Int.le_refl 0, by dsimp only; omega⟩
      · intro now later during before
        obtain ⟨⟨least, most⟩, ⟨least', most'⟩, previous⟩ := before
        have order := during.1
        have agent := during.2 clock rfl .agentTurn
        refine ⟨?_, ?_, ?_⟩
        · dsimp only
          omega
        · dsimp only
          omega
        · dsimp only
          omega
    · rename_i notSpeaking
      split
      · rename_i listening
        have given : TurnState.silent ≠ .speaking := nofun
        apply agentStops_heeds given
        simp only [agentHeard, heard, if_neg notSpeaking, if_pos listening]
      · rename_i notListening
        split
        · rename_i waiting
          have given : TurnState.waiting ≠ .speaking := nofun
          apply agentStops_heeds given
          simp only [agentHeard, heard, if_neg notSpeaking, if_neg notListening, if_pos waiting]
        · rename_i notWaiting
          refine ⟨rfl, rfl, ?_, rfl, fun _ => id, fun n _ counted => counted.later rfl,
            fun now later during before => before.later during.1 rfl rfl rfl⟩
          simp only [agentHeard, heard, if_neg notSpeaking, if_neg notListening, if_neg notWaiting]

theorem reactDialog_heeds (clock : Reading → Int) (info : List (Text × Text))
    (s : TurnTakingInterpreter F) :
    Heeds s (.dialogState info clock) (s.reactDialog clock info) := by
  have heeds := setAgentSpeakingState_heeds clock info s
  refine ⟨heeds.sent, heeds.intention, heeds.agent, heeds.user, heeds.together, ?_, ?_⟩
  · intro n room counted
    exact (heeds.counted n room counted).congr rfl
  · intro now later during before
    have after := heeds.stamped now later during before
    exact ⟨after.agent, after.user, after.previous⟩

theorem Heeds.of_same {e : TurnEvent} (sent : t.sent = s.sent)
    (intention : t.agentSpeakingIntention = s.agentSpeakingIntention)
    (agent : t.agentSpeakingState = s.agentSpeakingState)
    (user : t.userSpeakingState = s.userSpeakingState)
    (counter : t.recentEmotionCounter = s.recentEmotionCounter)
    (since : t.agentSpeakingStateTime = s.agentSpeakingStateTime)
    (since' : t.userSpeakingStateTime = s.userSpeakingStateTime)
    (previous : t.previousMetaTime = s.previousMetaTime)
    (heard : agentHeard s.agentSpeaking e = s.agentSpeaking)
    (heard' : userHeard s.userSpeaking e = s.userSpeaking) : Heeds s e t := by
  have speaks : t.agentSpeaking = s.agentSpeaking := by
    unfold agentSpeaking
    rw [agent]
  have voice : t.userSpeaking = s.userSpeaking := by
    unfold userSpeaking
    rw [user]
  refine ⟨sent, intention, speaks.trans heard.symm, voice.trans heard'.symm, ?_,
    fun n _ counted => counted.later counter,
    fun now later during before => before.later during.1 since since' previous⟩
  intro _ together waits silent
  rw [since, since']
  exact together (user ▸ waits) (speaks ▸ silent)

theorem processBackchannel_heeds (info : List (Text × Text)) (s : TurnTakingInterpreter F) :
    Heeds s (.agentState info) (s.processBackchannel info) := by
  unfold processBackchannel
  split
  · exact .of_same rfl rfl rfl rfl rfl rfl rfl rfl rfl rfl
  · exact .of_same rfl rfl rfl rfl rfl rfl rfl rfl rfl rfl

theorem setCharacter_heeds (info : List (Text × Text)) (s : TurnTakingInterpreter F) :
    Heeds s (.contextState info) (s.setCharacter lower thresholds info) := by
  unfold setCharacter
  split
  · exact .of_same rfl rfl rfl rfl rfl rfl rfl rfl rfl rfl
  · dsimp only
    repeat' split
    all_goals exact .of_same rfl rfl rfl rfl rfl rfl rfl rfl rfl rfl

theorem reactUser_considers {info : List (Text × Text)} {u : TurnTakingInterpreter F}
    (done : (s.setUserSpeakingState clock info).addDetectedEmotions floats clock info = .ok u) :
    Considers s (.userState info clock) clock
      ((u.processHeadMovements clock info).updateClock clock) := by
  obtain ⟨first, voice, kept⟩ := setUserSpeakingState_ofUser clock info s
  obtain ⟨second, same, counted⟩ := addDetectedEmotions_ofUser done
  have both := first.trans second
  have moved : OfUser clock s (u.processHeadMovements clock info) ∧
      (u.processHeadMovements clock info).recentEmotionCounter = u.recentEmotionCounter := by
    rw [processHeadMovements_eq]
    split
    · exact ⟨both.trans (userSilent_ofUser .headGesture u), rfl⟩
    · exact ⟨both, rfl⟩
  obtain ⟨user, count⟩ := moved
  refine updateClock_considers rfl ⟨user.sent, user.intention, ?_, ?_, fun _ => user.together, ?_,
    ?_⟩ user.previous user.since
  · unfold agentSpeaking
    rw [user.agent]
    rfl
  · rw [processHeadMovements_eq]
    split
    · rename_i moves
      simp [userHeard, moves, userSpeaking, userSilent]
    · rename_i moves
      rw [same, voice]
      simp [userHeard, moves]
  · intro n room before
    exact (counted n room (before.congr kept)).congr count
  · intro now later during before
    exact user.stamped during.1 (during.2 clock rfl) before

theorem act_considers (clock : Reading → Int) (s : TurnTakingInterpreter F) :
    Considers s (.act clock) clock (s.updateClock clock) := by
  have heeds : Heeds s (.act clock) s := .of_same rfl rfl rfl rfl rfl rfl rfl rfl rfl rfl
  exact updateClock_considers rfl heeds rfl rfl

theorem step_publishes {e : TurnEvent} (done : s.step lower floats d thresholds e = .ok t) :
    Publishes d s e t := by
  cases e with
  | act clock =>
    obtain rfl := Except.ok.inj done
    have considers := act_considers clock s
    have decides := determineAgentTurn_decides d clock s
    unfold act
    dsimp only
    split
    · exact .listens considers decides
    · exact .decides considers decides
  | userState info clock =>
    obtain ⟨u, emotions, done⟩ := Outcome.bind_ok done
    obtain rfl := Except.ok.inj done
    exact .decides (reactUser_considers emotions) (determineAgentTurn_decides d clock _)
  | dialogState info clock =>
    obtain rfl := Except.ok.inj done
    exact .quiet (reactDialog_heeds clock info s)
  | agentState info =>
    obtain rfl := Except.ok.inj done
    exact .quiet (processBackchannel_heeds info s)
  | contextState info =>
    obtain rfl := Except.ok.inj done
    exact .quiet (setCharacter_heeds info s)

def intentions (s : TurnTakingInterpreter F) : List TurnMessage :=
  s.sent.filter (· ≠ .listening)

def lastIntention : TurnState → Option TurnMessage
  | .waiting => none
  | .silent => some .stopSpeaking
  | .speaking => some .startSpeaking

theorem lastIntention_inj {a b : TurnState} {m : TurnMessage} (first : lastIntention a = some m)
    (second : lastIntention b = some m) : a = b := by
  cases a with
  | waiting => cases first
  | silent =>
    cases first
    cases b with
    | waiting => cases second
    | silent => rfl
    | speaking => cases second
  | speaking =>
    cases first
    cases b with
    | waiting => cases second
    | silent => cases second
    | speaking => rfl

structure Alternate (s : TurnTakingInterpreter F) : Prop where
  chain : s.intentions.IsChain (· ≠ ·)
  last : s.intentions.getLast? = lastIntention s.agentSpeakingIntention

theorem Alternate.add {m : TurnMessage} {state : TurnState} (before : Alternate s)
    (sent : t.intentions = s.intentions ++ [m]) (intention : t.agentSpeakingIntention = state)
    (published : lastIntention state = some m) (new : s.agentSpeakingIntention ≠ state) :
    Alternate t := by
  constructor
  · rw [sent]
    apply before.chain.append (List.isChain_singleton m)
    intro x last y first same
    rw [before.last] at last
    obtain rfl : m = y := by simpa using first
    rw [same] at last
    exact new (lastIntention_inj last published)
  · rw [sent, List.getLast?_concat, intention, published]

theorem Decides.alternate (decides : Decides d clock s t) (before : Alternate s) :
    Alternate t := by
  cases decides with
  | starts _ new _ =>
    exact before.add (by simp [intentions, started]) rfl rfl new
  | stops _ new =>
    exact before.add (by simp [intentions, stopped]) rfl rfl new
  | rests _ => exact before

theorem Heeds.alternate {e : TurnEvent} (heeds : Heeds s e t) (before : Alternate s) :
    Alternate t := by
  have sent : t.intentions = s.intentions := by
    unfold intentions
    rw [heeds.sent]
  exact ⟨sent ▸ before.chain, by rw [sent, heeds.intention]; exact before.last⟩

theorem Publishes.alternate {e : TurnEvent} (publishes : Publishes d s e t)
    (before : Alternate s) : Alternate t := by
  cases publishes with
  | quiet heeds => exact heeds.alternate before
  | decides considers decides => exact decides.alternate (considers.alternate before)
  | listens considers decides =>
    have after := decides.alternate (considers.alternate before)
    have sent : ∀ u : TurnTakingInterpreter F, (u.send .listening).intentions = u.intentions := by
      intro u
      simp [intentions, send]
    constructor
    · rw [sent]
      exact after.chain
    · rw [sent]
      exact after.last

theorem turns_alternates {started : Int} {events : List TurnEvent}
    (run : Turns lower floats d thresholds started events s) : Alternate s := by
  apply run.invariant Alternate
  · intro s e t before next
    exact (step_publishes next).alternate before
  · exact ⟨.nil, rfl⟩

/-- In every run the agent wants to speak and wants to stop in turns, beginning with either. -/
theorem turns_alternate {started : Int} {events : List TurnEvent}
    (run : Turns lower floats d thresholds started events s) :
    s.intentions.IsChain (· ≠ ·) ∧
      s.intentions.getLast? = lastIntention s.agentSpeakingIntention := by
  have alternate := turns_alternates run
  exact ⟨alternate.chain, alternate.last⟩

def fresh : TurnTakingInterpreter Number := { previousMetaTime := 0 }

/-- `Math.exp` near -45 and at 5, as far as a quotient by it shows in an `int`. -/
def roughly : Exponentials Rat := exactExponentials fun power => if power < 0 then 0 else 148

def demo : TTThresholds := ⟨70, 70, 85, 60⟩

abbrev DemoTurns (events : List TurnEvent) (s : TurnTakingInterpreter Number) : Prop :=
  Turns toLowerCase (exactFloats fun _ => none) roughly demo 0 events s

def spike : List (Text × Text) := [("character".toList, "Spike".toList)]

def voice (speaking : String) : List (Text × Text) := [("speaking".toList, speaking.toList)]

/-- Spike is chosen, and the user speaks for a while and stops. -/
def talk : List TurnEvent :=
  [.contextState spike, .userState (voice "true") fun _ => 1000,
    .userState (voice "false") fun _ => 40000]

def heardVoice (time : Int) (speaking : String) (s : TurnTakingInterpreter Number) :
    TurnTakingInterpreter Number :=
  (s.setUserSpeakingState (fun _ => time) (voice speaking)).determineAgentTurn roughly
    fun _ => time

theorem step_voice (time : Int) (speaking : String) (s : TurnTakingInterpreter Number) :
    s.step toLowerCase (exactFloats fun _ => none) roughly demo
      (.userState (voice speaking) fun _ => time) = .ok (s.heardVoice time speaking) := rfl

def talked : TurnTakingInterpreter Number :=
  ((fresh.setCharacter toLowerCase demo spike).heardVoice 1000 "true").heardVoice 40000 "false"

theorem talk_turns : DemoTurns talk talked := by
  have chosen : DemoTurns [.contextState spike] (fresh.setCharacter toLowerCase demo spike) :=
    .snoc .nil rfl
  exact (chosen.snoc (step_voice 1000 "true" _)).snoc (step_voice 40000 "false" _)

theorem talk_act : talked.step toLowerCase (exactFloats fun _ => none) roughly demo
    (.act fun _ => 50000) = .ok (talked.act roughly fun _ => 50000) := rfl

theorem turns_alternate_talk :
    let s := talked.act roughly fun _ => 50000
    s.intentions.IsChain (· ≠ ·) ∧
      s.intentions.getLast? = lastIntention s.agentSpeakingIntention :=
  turns_alternate (talk_turns.snoc talk_act)

theorem Decides.heard (decides : Decides d clock s t) :
    t.agentSpeaking = s.agentSpeaking ∧ t.userSpeaking = s.userSpeaking ∧
      (Together s → Together t) ∧ (∀ n, Counted n s → Counted n t) ∧
      ∀ now, Stamped now s → Stamped now t := by
  cases decides with
  | starts _ _ _ =>
    exact ⟨rfl, rfl, id, fun _ h => h.congr rfl, fun _ h => ⟨h.agent, h.user, h.previous⟩⟩
  | stops _ _ =>
    exact ⟨rfl, rfl, id, fun _ h => h.congr rfl, fun _ h => ⟨h.agent, h.user, h.previous⟩⟩
  | rests _ => exact ⟨rfl, rfl, id, fun _ h => h, fun _ h => h⟩

theorem Considers.heard {e : TurnEvent} {u : TurnTakingInterpreter F}
    (considers : Considers s e clock u) (decides : Decides d clock u t) :
    t.agentSpeaking = agentHeard s.agentSpeaking e ∧ t.userSpeaking = userHeard s.userSpeaking e ∧
      (e.Brisk → Together s → Together t) ∧
      (∀ n, n + 3 < 2 ^ 31 → Counted n s → Counted (n + 3) t) ∧
      ∀ now later, e.During now later → Stamped now s → Stamped later t := by
  obtain ⟨agent, user, together, counted, stamped⟩ := decides.heard
  exact ⟨agent.trans considers.agent, user.trans considers.user,
    fun brisk before => together (considers.together brisk before),
    fun n room before => counted _ (considers.counted n room before),
    fun now later during before => stamped _ (considers.stamped now later during before)⟩

theorem Publishes.heard {e : TurnEvent} (publishes : Publishes d s e t) :
    t.agentSpeaking = agentHeard s.agentSpeaking e ∧ t.userSpeaking = userHeard s.userSpeaking e ∧
      (e.Brisk → Together s → Together t) ∧
      (∀ n, n + 3 < 2 ^ 31 → Counted n s → Counted (n + 3) t) ∧
      ∀ now later, e.During now later → Stamped now s → Stamped later t := by
  cases publishes with
  | quiet heeds =>
    exact ⟨heeds.agent, heeds.user, heeds.together, heeds.counted, heeds.stamped⟩
  | decides considers decides => exact considers.heard decides
  | listens considers decides =>
    obtain ⟨agent, user, together, counted, stamped⟩ := considers.heard decides
    refine ⟨agent, user, together, ?_, ?_⟩
    · intro n room before
      exact (counted n room before).congr rfl
    · intro now later during before
      have after := stamped now later during before
      exact ⟨after.agent, after.user, after.previous⟩

theorem turns_heard {started : Int} {events : List TurnEvent}
    (run : Turns lower floats d thresholds started events s) :
    s.agentSpeaking = agentSpeaks events ∧ s.userSpeaking = userSpeaks events := by
  apply run.history_invariant fun events s =>
    s.agentSpeaking = agentSpeaks events ∧ s.userSpeaking = userSpeaks events
  · rintro events s e t ⟨agent, user⟩ next
    obtain ⟨agent', user', _⟩ := (step_publishes next).heard
    constructor
    · rw [agent', agent, agentSpeaks, agentSpeaks, List.foldl_append]
      rfl
    · rw [user', user, userSpeaks, userSpeaks, List.foldl_append]
      rfl
  · exact ⟨rfl, rfl⟩

theorem turns_together {started : Int} {events : List TurnEvent}
    (run : Turns lower floats d thresholds started events s)
    (brisk : ∀ e ∈ events, e.Brisk) : Together s := by
  have before : Transition.Run (Transition.Guarded (fun _ e => e.Brisk) _) _ events s :=
    run.guard fun e member _ => brisk e member
  apply before.invariant Together
  · rintro s e t together ⟨brisk, next⟩
    exact (step_publishes next).heard.2.2.1 brisk together
  · intro _ _
    show |(0 : Int) - 0| < 15
    decide

theorem turns_counted {started : Int} {events : List TurnEvent}
    (run : Turns lower floats d thresholds started events s) (few : events.length ≤ 2 ^ 26) :
    Counted (3 * events.length) s := by
  have counted : events.length ≤ 2 ^ 26 → Counted (3 * events.length) s := by
    apply run.history_invariant fun events s =>
      events.length ≤ 2 ^ 26 → Counted (3 * events.length) s
    · intro events s e t ih next few
      rw [List.length_append, List.length_singleton] at few ⊢
      obtain ⟨_, _, _, counted, _⟩ := (step_publishes next).heard
      have after := counted _ (by omega) (ih (by omega))
      exact ⟨after.least, by have := after.most; push_cast; omega⟩
    · intro _
      exact ⟨Int.le_refl 0, Int.le_refl 0⟩
  exact counted few

theorem turns_stamped {started now : Int} {events : List TurnEvent}
    (run : Turns lower floats d thresholds started events s) (start : 0 ≤ started)
    (clocks : Clocks started events now) : Stamped now s := by
  induction run generalizing now with
  | nil =>
    rw [clocks.of_nil]
    exact ⟨⟨Int.le_refl 0, start⟩, ⟨Int.le_refl 0, start⟩, Int.le_refl started⟩
  | snoc _ next ih =>
    obtain ⟨before, clocks, during⟩ := clocks.last
    exact (step_publishes next).heard.2.2.2.2 _ _ during (ih clocks)

def news (s t : TurnTakingInterpreter F) : List TurnMessage := t.sent.drop s.sent.length

theorem Publishes.starts {e : TurnEvent} (publishes : Publishes d s e t)
    (speaks : .startSpeaking ∈ news s t) :
    ∃ clock u, Considers s e clock u ∧ u.currTTThreshold = t.currTTThreshold ∧
      u.currTTThreshold ≤ u.speakingIntention d clock ∧ u.agentSilent = true := by
  have decided : ∀ {clock : Reading → Int} {u v : TurnTakingInterpreter F}, Heeds s e u →
      Decides d clock u v → .startSpeaking ∈ v.sent.drop s.sent.length →
      v.currTTThreshold = u.currTTThreshold ∧ u.currTTThreshold ≤ u.speakingIntention d clock ∧
        u.agentSilent = true := by
    intro clock u v heeds decides member
    rw [← heeds.sent] at member
    cases decides with
    | starts enough _ silent => exact ⟨rfl, enough, silent⟩
    | stops _ _ => simp [stopped] at member
    | rests _ => simp at member
  unfold news at speaks
  cases publishes with
  | quiet heeds =>
    rw [heeds.sent] at speaks
    simp at speaks
  | decides considers decides =>
    obtain ⟨same, enough, silent⟩ := decided considers.toHeeds decides speaks
    exact ⟨_, _, considers, same.symm, enough, silent⟩
  | listens considers decides =>
    rename_i v
    have member : TurnMessage.startSpeaking ∈ v.sent.drop s.sent.length := by
      unfold send at speaks
      rw [List.drop_append] at speaks
      rcases List.mem_append.mp speaks with before | after
      · exact before
      · have listening := List.mem_of_mem_drop after
        simp at listening
    obtain ⟨same, enough, silent⟩ := decided considers.toHeeds decides member
    exact ⟨_, _, considers, same.symm, enough, silent⟩

/-- In the second after the end of a turn the wait is subtracted from the value, by at most 100. -/
structure WaitLaw (d : Exponentials D) : Prop where
  below {n : Int} : n < 1000 → d.le (d.mul (d.literal (5 / 100)) (d.ofInt n)) (d.ofInt 100) = true
  above {n : Int} : 0 ≤ n → n < 1000 →
    -100 ≤ d.intValue (d.sub (d.mul (d.literal (5 / 100)) (d.ofInt n)) (d.ofInt 100))

theorem toInt_add (a b : Int) : toInt (toInt a + b) = toInt (a + b) := by
  unfold toInt
  exact Int.bmod_add_bmod

theorem speakingIntention_sum (d : Exponentials D) (clock : Reading → Int)
    (s : TurnTakingInterpreter F) :
    s.speakingIntention d clock =
      toInt (s.userSilenceTimeValue d clock + s.emotionValue + s.agentSilenceTimeValue d clock +
        s.agentEndWaitValue d clock + s.userNotRespondingValue d clock) := by
  unfold speakingIntention
  simp only [toInt_add]

theorem emotionValue_range {n : Int} (counted : Counted n s) (few : n * 10 < 2 ^ 31) :
    0 ≤ s.emotionValue ∧ s.emotionValue ≤ 30 := by
  obtain ⟨least, most⟩ := counted
  have whole : toInt (s.recentEmotionCounter * 10) = s.recentEmotionCounter * 10 :=
    (toInt_eq_self_iff _).mpr (by omega)
  unfold emotionValue
  rw [whole]
  exact ⟨le_min (by omega) (by decide), min_le_right _ _⟩

theorem agentSilenceTimeValue_range (laws : d.Laws)
    (since : s.agentSpeakingStateTime ≤ clock .agentSilence) :
    0 ≤ s.agentSilenceTimeValue d clock ∧ s.agentSilenceTimeValue d clock ≤ 30 := by
  unfold agentSilenceTimeValue
  split
  · constructor
    · apply laws.intValue_nonneg
      apply laws.minimum_nonneg (by decide)
      apply laws.mul_nonneg (by decide)
      exact laws.div_nonneg (by decide) (laws.sub_nonneg since)
    · exact laws.intValue_minimum (by decide) (by decide) _
  · decide

theorem speakingTime_eq {since now : Int} (past : 0 ≤ since) (order : since ≤ now)
    (range : now < 2 ^ 63) : toLong (now - since) = now - since :=
  toLong_eq_self ⟨by omega, by omega⟩

theorem agentEndWaitValue_range (laws : d.Laws) (wait : WaitLaw d)
    (past : 0 ≤ s.agentSpeakingTime clock) :
    -100 ≤ s.agentEndWaitValue d clock ∧ s.agentEndWaitValue d clock ≤ 0 := by
  unfold agentEndWaitValue
  split
  · rename_i early
    rw [Bool.and_eq_true, decide_eq_true_eq] at early
    exact ⟨wait.above past early.2, laws.intValue_sub (wait.below early.2)⟩
  · decide

theorem speakingIntention_userSpeaking (laws : d.Laws) (wait : WaitLaw d) {n : Int}
    (counted : Counted n s) (few : n * 10 < 2 ^ 31)
    (since : s.agentSpeakingStateTime ≤ clock .agentSilence)
    (past : 0 ≤ s.agentSpeakingTime clock) (speaks : s.userSpeaking = true) :
    s.speakingIntention d clock ≤ 60 := by
  have user : s.userSpeakingState = .speaking := of_decide_eq_true speaks
  have silence : s.userSilenceTimeValue d clock = 0 := by
    unfold userSilenceTimeValue
    rw [user]
    rfl
  have emotion := emotionValue_range counted few
  have agent := agentSilenceTimeValue_range laws since
  have endWait := agentEndWaitValue_range laws wait past
  have responding : s.userNotRespondingValue d clock = 0 := by
    unfold userNotRespondingValue
    rw [user]
    simp
  rw [speakingIntention_sum, (toInt_eq_self_iff _).mpr (by omega)]
  omega

/-- The agent never starts to speak while it speaks; and in a run of at most `2 ^ 26` messages whose
clock does not go back, while the user speaks it does so only if its character has a threshold of
at most 60. -/
theorem startSpeaking_polite (laws : d.Laws) (wait : WaitLaw d) {started : Int}
    {events : List TurnEvent} {e : TurnEvent}
    (run : Turns lower floats d thresholds started events s)
    (next : s.step lower floats d thresholds e = .ok t) (speaks : .startSpeaking ∈ news s t) :
    agentSpeaks (events ++ [e]) = false ∧
      (Steady started (events ++ [e]) → events.length < 2 ^ 26 → 60 < t.currTTThreshold →
        userSpeaks (events ++ [e]) = false) := by
  obtain ⟨agent, user⟩ := turns_heard run
  obtain ⟨clock, u, considers, threshold, enough, silent⟩ := (step_publishes next).starts speaks
  have heard : agentSpeaks (events ++ [e]) = u.agentSpeaking := by
    rw [considers.agent, agent, agentSpeaks, agentSpeaks, List.foldl_append]
    rfl
  have heard' : userSpeaks (events ++ [e]) = u.userSpeaking := by
    rw [considers.user, user, userSpeaks, userSpeaks, List.foldl_append]
    rfl
  rw [heard, heard']
  constructor
  · rw [agentSilent_eq] at silent
    simpa using silent
  · rintro ⟨start, later, range, clocks⟩ few high
    rw [Bool.eq_false_iff]
    intro interrupts
    obtain ⟨now, clocks, during⟩ := clocks.last
    have stamped := turns_stamped run start clocks
    have counted := considers.counted _ (by omega) (turns_counted run (by omega))
    have readings := during.2 clock considers.reads
    have since := considers.since (le_trans stamped.previous (readings .check).1)
    have least := stamped.agent.1
    have order := stamped.agent.2
    have silence := readings .agentSilence
    have time := readings .agentTime
    have past : 0 ≤ u.agentSpeakingTime clock := by
      unfold agentSpeakingTime
      rw [speakingTime_eq (by omega) (by omega) (by omega)]
      omega
    have low := speakingIntention_userSpeaking laws wait counted (by omega) (by omega) past
      interrupts
    omega

theorem exact_wait (exp : Rat → Rat) : WaitLaw (exactExponentials exp) where
  below {n} early := by
    simp only [exactExponentials, exactArithmetic, exact, id, decide_eq_true_eq]
    have cast : (n : Rat) < 1000 := by exact_mod_cast early
    push_cast
    linarith
  above {n} past early := by
    simp only [exactExponentials, exactArithmetic, exact, id]
    have least : (0 : Rat) ≤ n := by exact_mod_cast past
    have most : (n : Rat) < 1000 := by exact_mod_cast early
    rw [if_neg (by push_cast; linarith)]
    have below : (-(5 / 100 * (n : Rat) - (100 : Int))).floor ≤ 100 := by
      apply Int.cast_le (R := Rat).mp
      apply le_trans (Rat.floor_le _)
      push_cast
      linarith
    omega

theorem during_at {e : TurnEvent} {now : Int} (later : Int) (order : now ≤ later)
    (reads : e.readings = some fun _ => later) : e.During now later := by
  refine ⟨order, fun clock reads' r => ?_⟩
  obtain rfl := Option.some.inj (reads.symm.trans reads')
  exact ⟨order, Int.le_refl later⟩

theorem brisk_at {e : TurnEvent} {time : Int} (reads : e.readings = some fun _ => time) :
    e.Brisk := by
  intro clock reads' r r'
  obtain rfl := Option.some.inj (reads.symm.trans reads')
  show time - time < 15
  omega

theorem talk_steady : Steady 0 (talk ++ [.act fun _ => 50000]) := by
  refine ⟨Int.le_refl 0, 50000, by decide, ?_⟩
  have chosen : Clocks 0 (talk.take 1) 0 := .snoc .nil ⟨Int.le_refl 0, nofun⟩
  have spoken : Clocks 0 (talk.take 2) 1000 := chosen.snoc (during_at 1000 (by decide) rfl)
  have silent : Clocks 0 talk 40000 := spoken.snoc (during_at 40000 (by decide) rfl)
  exact silent.snoc (during_at _ (by decide) rfl)

theorem startSpeaking_polite_talk :
    agentSpeaks (talk ++ [.act fun _ => 50000]) = false ∧
      userSpeaks (talk ++ [.act fun _ => 50000]) = false := by
  have polite := startSpeaking_polite (exact_laws _) (exact_wait _) talk_turns talk_act
    (by decide +kernel)
  exact ⟨polite.1, polite.2 talk_steady (by decide) (by decide +kernel)⟩

theorem speakingIntention_notResponding (laws : d.Laws) {n now : Int} (counted : Counted n s)
    (few : n * 10 < 2 ^ 31)
    (agentPast : 0 ≤ s.agentSpeakingStateTime ∧ s.agentSpeakingStateTime ≤ now)
    (userPast : 0 ≤ s.userSpeakingStateTime ∧ s.userSpeakingStateTime ≤ now)
    (readings : ∀ r, now ≤ clock r) (range : ∀ r, clock r < 2 ^ 63)
    (brisk : ∀ r r', clock r - clock r' < 15) (together : Together s)
    (waits : s.userSpeakingState = .waiting)
    (silent : s.agentSpeaking = false)
    (late : 6000 < clock .userTime - s.userSpeakingStateTime) :
    100 ≤ s.speakingIntention d clock := by
  have near := abs_lt.mp (together waits silent)
  have forward := brisk .agentTime .userTime
  have back := brisk .userTime .agentTime
  have quiet : s.agentSilent = true := by
    rw [agentSilent_eq, silent]
    rfl
  obtain ⟨least, most⟩ := agentPast
  obtain ⟨least', most'⟩ := userPast
  have agentTime : s.agentSpeakingTime clock = clock .agentTime - s.agentSpeakingStateTime :=
    speakingTime_eq least (le_trans most (readings .agentTime)) (range .agentTime)
  have userTime : s.userSpeakingTime clock = clock .userTime - s.userSpeakingStateTime :=
    speakingTime_eq least' (le_trans most' (readings .userTime)) (range .userTime)
  have silence : s.userSilenceTimeValue d clock = 0 := by
    unfold userSilenceTimeValue
    rw [waits]
    rfl
  have emotion := emotionValue_range counted few
  have agent := agentSilenceTimeValue_range laws (le_trans most (readings .agentSilence))
  have endWait : s.agentEndWaitValue d clock = 0 := by
    unfold agentEndWaitValue
    rw [if_neg]
    simp only [Bool.and_eq_true, decide_eq_true_eq, not_and]
    omega
  have responding : s.userNotRespondingValue d clock = 100 := by
    have difference : |s.agentSpeakingTime clock - s.userSpeakingTime clock| < 30 := by
      rw [abs_lt]
      omega
    have range' : IsLong (s.agentSpeakingTime clock - s.userSpeakingTime clock) := by
      unfold IsLong
      omega
    have same : absLong (toLong (s.agentSpeakingTime clock - s.userSpeakingTime clock)) < 30 := by
      rw [toLong_eq_self range']
      unfold absLong
      rw [if_neg (by omega)]
      exact difference
    unfold userNotRespondingValue
    rw [quiet, waits, if_pos (by simpa using same), if_neg (by omega), if_pos (by omega)]
  rw [speakingIntention_sum, (toInt_eq_self_iff _).mpr (by omega)]
  omega

theorem Decides.wants (decides : Decides d clock s t)
    (enough : s.currTTThreshold ≤ s.speakingIntention d clock) (silent : s.agentSilent = true) :
    t.agentSpeakingIntention = .speaking := by
  cases decides with
  | starts _ _ _ => rfl
  | stops below _ => omega
  | rests always => exact always enough silent

/-- When a silent user is expected to speak for more than six seconds, the agent wants to speak: if
the clock does not go back and the readings of an event are close to each other. -/
theorem notResponding_startSpeaking (laws : d.Laws) {started : Int} {events : List TurnEvent}
    (run : Turns lower floats d thresholds started events s) {clock : Reading → Int}
    (steady : Steady started (events ++ [.act clock])) (few : events.length < 2 ^ 26)
    (brisk : ∀ e ∈ events ++ [.act clock], e.Brisk) (waits : s.userSpeakingState = .waiting)
    (silent : agentSpeaks events = false)
    (late : 6000 < clock .userTime - s.userSpeakingStateTime)
    (threshold : s.currTTThreshold ≤ 100) :
    (s.act d clock).intentions.getLast? = some .startSpeaking := by
  obtain ⟨start, later, range, clocks⟩ := steady
  obtain ⟨now, clocks, during⟩ := clocks.last
  have readings := during.2 clock rfl
  have stamped := turns_stamped run start clocks
  have counted := turns_counted run (by omega)
  have together := turns_together run fun e member => brisk e (List.mem_append_left _ member)
  have close := brisk (.act clock) (List.mem_append_right _ (.head [])) clock rfl
  rw [← (turns_heard run).1] at silent
  have next : s.step lower floats d thresholds (.act clock) = .ok (s.act d clock) := rfl
  rw [(turns_alternates (run.snoc next)).last]
  have decides := determineAgentTurn_decides d clock s
  rw [updateClock_since clock s (le_trans stamped.previous (readings .check).1)] at decides
  generalize updated : { s with previousMetaTime := clock .previous } = u at decides
  have high : 100 ≤ u.speakingIntention d clock := by
    subst updated
    exact speakingIntention_notResponding laws (counted.congr rfl) (by omega) stamped.agent
      stamped.user (fun r => (readings r).1) (fun r => lt_of_le_of_lt (readings r).2 range) close
      together waits silent late
  have quiet : u.agentSilent = true := by
    rw [agentSilent_eq, ← updated]
    unfold agentSpeaking at silent ⊢
    simpa using silent
  have wants := decides.wants (by rw [← updated] at high ⊢; exact le_trans threshold high) quiet
  have kept : (s.act d clock).agentSpeakingIntention =
      (s.determineAgentTurn d clock).agentSpeakingIntention := by
    unfold act
    dsimp only
    split
    · rfl
    · rfl
  rw [kept, wants]
  rfl

def agentTurn (state : String) : List (Text × Text) := [("agentTurnState".toList, state.toList)]

/-- The agent speaks, and listens to a user who remains silent. -/
def question : List TurnEvent :=
  [.dialogState (agentTurn "speaking") fun _ => 1000, .userState (voice "false") fun _ => 2000,
    .dialogState (agentTurn "listening") fun _ => 5000]

def asked : TurnTakingInterpreter Number :=
  ((fresh.reactDialog (fun _ => 1000) (agentTurn "speaking")).heardVoice 2000 "false").reactDialog
    (fun _ => 5000) (agentTurn "listening")

theorem question_turns : DemoTurns question asked := by
  have speaking : DemoTurns [.dialogState (agentTurn "speaking") fun _ => 1000]
      (fresh.reactDialog (fun _ => 1000) (agentTurn "speaking")) := .snoc .nil rfl
  exact (speaking.snoc (step_voice 2000 "false" _)).snoc rfl

theorem question_steady : Steady 0 (question ++ [.act fun _ => 12000]) := by
  refine ⟨Int.le_refl 0, 12000, by decide, ?_⟩
  have speaking : Clocks 0 (question.take 1) 1000 := .snoc .nil (during_at _ (by decide) rfl)
  have silent : Clocks 0 (question.take 2) 2000 := speaking.snoc (during_at _ (by decide) rfl)
  have listening : Clocks 0 question 5000 := silent.snoc (during_at _ (by decide) rfl)
  exact listening.snoc (during_at _ (by decide) rfl)

theorem question_brisk : ∀ e ∈ question ++ [.act fun _ => 12000], e.Brisk := by
  intro e member
  simp only [question, List.cons_append, List.nil_append, List.mem_cons, List.not_mem_nil,
    or_false] at member
  obtain rfl | rfl | rfl | rfl := member
  · exact brisk_at rfl
  · exact brisk_at rfl
  · exact brisk_at rfl
  · exact brisk_at rfl

theorem notResponding_startSpeaking_question :
    (asked.act roughly fun _ => 12000).intentions.getLast? = some .startSpeaking :=
  notResponding_startSpeaking (exact_laws _) question_turns question_steady (by decide)
    question_brisk (by decide +kernel) rfl (by decide +kernel) (by decide +kernel)

end TurnTakingInterpreter
end Semaine.Interpreters
