import Semaine.Dialogue.PreparedResponses

/-! Whether the animation that is triggered was prepared for the utterance that is asked for: the
proposer goes by the hash, and a hash can stand for several utterances. -/
namespace Semaine.Dialogue
open JavaText Semaine.Xml

namespace UtteranceActionProposer

def Event.Paired : Event → Prop
  | .prepare request => request.argNames.length = request.argValues.length
  | .execute request => request.argNames.length = request.argValues.length
  | _ => True

theorem prepare_sent {env : Environment} {p q : UtteranceActionProposer} {request : Request}
    (h : p.prepare env request = .ok q) :
    q.sent = p.sent ∨ ∃ d : Sent, q.sent = p.sent ++ [d] ∧
      d.contentID = contentID p.output_counter ∧ ∃ response, d.call = request.call response := by
  unfold prepare at h
  split at h
  · cases h
    exact .inl rfl
  · obtain ⟨result, built, h⟩ := Outcome.bind_ok h
    cases result with
    | none =>
      cases h
      exact .inl rfl
    | some found =>
      obtain ⟨response, hash, doc⟩ := found
      dsimp only at h
      split at h
      · cases h
        exact .inl rfl
      · cases h
        exact .inr ⟨_, rfl, rfl, response, rfl⟩

theorem execute_sent {env : Environment} {p q : UtteranceActionProposer} {request : Request}
    (h : p.execute env request = .ok q) :
    q.sent = p.sent ∨ ∃ d : Sent, q.sent = p.sent ++ [d] ∧
      ∃ response, d.call = request.call response := by
  obtain ⟨result, built, h⟩ := Outcome.bind_ok h
  cases result with
  | none =>
    cases h
    exact .inl rfl
  | some found =>
    obtain ⟨response, hash, doc⟩ := found
    dsimp only [setCurrent] at h
    split at h
    · cases h
      exact .inr ⟨_, rfl, response, rfl⟩
    · cases h
      exact .inr ⟨_, rfl, response, rfl⟩

theorem onCallback_sent (p : UtteranceActionProposer) (type id : Text) :
    (p.onCallback type id).sent = p.sent := by
  unfold onCallback
  split
  · split
    · rfl
    · rfl
  · split
    · rfl
    · rfl

theorem onCharacter_sent (p : UtteranceActionProposer) (name : Text) :
    (p.onCharacter name).sent = p.sent := by
  unfold onCharacter
  split
  · rfl
  · rfl

theorem act_sent (p : UtteranceActionProposer) (time prevTime : Int) :
    (p.act time prevTime).sent = p.sent := by
  unfold act
  split
  · rfl
  · rfl

theorem step_paired {env : Environment} {p q : UtteranceActionProposer} {e : Event}
    (paired : e.Paired) (sent : ∀ s ∈ p.sent, s.call.Paired) (h : p.step env e = .ok q) :
    ∀ s ∈ q.sent, s.call.Paired := by
  have append {d : Sent} (new : d.call.Paired) (grown : q.sent = p.sent ++ [d]) :
      ∀ s ∈ q.sent, s.call.Paired := by
    intro s member
    rw [grown] at member
    rcases List.mem_append.mp member with old | last
    · exact sent s old
    · rw [List.mem_singleton.mp last]
      exact new
  cases e with
  | prepare request =>
    rcases prepare_sent h with same | ⟨d, grown, -, response, call⟩
    · rwa [same]
    · exact append (call ▸ paired) grown
  | execute request =>
    rcases execute_sent h with same | ⟨d, grown, response, call⟩
    · rwa [same]
    · exact append (call ▸ paired) grown
  | callback type id =>
    cases h
    rwa [onCallback_sent]
  | character name =>
    cases h
    rwa [onCharacter_sent]
  | act time prevTime =>
    cases h
    rwa [act_sent]

theorem run_paired {env : Environment} {prevTime : Int} {events : List Event}
    {p : UtteranceActionProposer} (paired : ∀ e ∈ events, e.Paired)
    (h : run env prevTime events = .ok p) : ∀ s ∈ p.sent, s.call.Paired := by
  induction events using List.reverseRecOn generalizing p with
  | nil =>
    cases h
    exact nofun
  | append_singleton events e ih =>
    obtain ⟨q, before, last⟩ := run_snoc h
    have earlier := ih (fun e member => paired e (List.mem_append_left _ member)) before
    exact step_paired (paired e (by simp)) earlier last

/-- No utterance that is kept as prepared is another one with the same hash: the values of its
arguments exchanged, or the same characters cut into other pieces. -/
def Distinguished (p : UtteranceActionProposer) (call : Call) : Prop :=
  ∀ e ∈ p.preparedResponses.entries, ∀ d ∈ p.sent, d.isTrigger = false → d.contentID = e.2 →
    ¬ (Exchanged d.call call ∨ Recut d.call call)

theorem distinguished_iff {p : UtteranceActionProposer} {call : Call} {hash : Text}
    (consistent : Consistent p.books) (sent : ∀ s ∈ p.sent, s.call.Paired) (paired : call.Paired)
    (hashed : call.hash = .ok hash) :
    p.Distinguished call ↔ ∀ id, p.preparedResponses.lookup hash = some id →
      ∀ d ∈ p.sent, d.isTrigger = false → d.contentID = id → d.call.Same call := by
  have stands {key id : Text} (entry : p.preparedResponses.lookup key = some id) {d : Sent}
      (hd : d ∈ p.sent) (same : d.contentID = id) : d.call.hash = .ok key := by
    obtain ⟨d', hd', -, same', key'⟩ := consistent.prepared_document entry
    rw [consistent.hashes d hd, consistent.same_hash hd hd' (same.trans same'.symm), key']
  constructor
  · intro apart id prepared d hd document same
    have entry := lookup_entries.mp prepared
    apply (equalHash_iff (sent d hd) paired).mpr (apart _ entry d hd document same)
    rw [stands prepared hd same, hashed]
  · rintro same ⟨key, id⟩ entry d hd document (equal : d.contentID = id)
    rw [← equalHash_iff (sent d hd) paired]
    have prepared := lookup_entries.mpr entry
    intro equalHash
    rw [stands prepared hd equal, hashed, Except.ok.injEq] at equalHash
    rw [equalHash] at prepared
    exact same id prepared d hd document equal

def Meets (env : Environment) (p : UtteranceActionProposer) : Event → Prop
  | .execute request => ∀ response,
      getResponse env.table p.history request.draws request.argNames request.argValues =
        .ok (some response) → p.Distinguished (request.call response)
  | _ => True

theorem execute_oneUtterance {env : Environment} {p q : UtteranceActionProposer}
    {request : Request} (consistent : Consistent p.books) (sent : ∀ s ∈ p.sent, s.call.Paired)
    (paired : (Event.execute request).Paired) (h : p.execute env request = .ok q) :
    OneUtterance q.sent ↔ OneUtterance p.sent ∧ Meets env p (.execute request) := by
  obtain ⟨result, built, h⟩ := Outcome.bind_ok h
  cases result with
  | none =>
    cases h
    have chosen := constructFMLDocument_none built
    have meets : Meets env p (.execute request) := by
      intro response other
      rw [chosen] at other
      cases other
    exact (and_iff_left meets).symm
  | some found =>
    obtain ⟨response, hash, doc⟩ := found
    obtain ⟨chosen, hashed⟩ := constructFMLDocument_some built
    have callPaired : (request.call response).Paired := paired
    have meets : Meets env p (.execute request) ↔
        ∀ id, p.preparedResponses.lookup hash = some id → ∀ d ∈ p.sent, d.isTrigger = false →
          d.contentID = id → d.call.Same (request.call response) := by
      rw [← distinguished_iff consistent sent callPaired hashed]
      constructor
      · intro all
        exact all response chosen
      · intro apart response' other
        rw [chosen] at other
        cases other
        exact apart
    rw [meets]
    dsimp only [setCurrent] at h
    cases prepared : p.preparedResponses.lookup hash with
    | none =>
      rw [prepared] at h
      cases h
      rw [and_iff_left (nofun)]
      exact consistent.oneUtterance_document rfl
    | some id =>
      rw [prepared] at h
      cases h
      simp only [Option.some.injEq, forall_eq']
      exact consistent.oneUtterance_trigger (request.call response) prepared

theorem step_oneUtterance {env : Environment} {p q : UtteranceActionProposer} {e : Event}
    (consistent : Consistent p.books) (sent : ∀ s ∈ p.sent, s.call.Paired) (paired : e.Paired)
    (h : p.step env e = .ok q) : OneUtterance q.sent ↔ OneUtterance p.sent ∧ Meets env p e := by
  cases e with
  | execute request => exact execute_oneUtterance consistent sent paired h
  | prepare request =>
    rcases prepare_sent h with same | ⟨d, grown, next, -⟩
    · rw [same]
      exact (and_iff_left trivial).symm
    · rw [grown]
      exact (consistent.oneUtterance_document next).trans (and_iff_left trivial).symm
  | callback type id =>
    cases h
    rw [onCallback_sent]
    exact (and_iff_left trivial).symm
  | character name =>
    cases h
    rw [onCharacter_sent]
    exact (and_iff_left trivial).symm
  | act time prevTime =>
    cases h
    rw [act_sent]
    exact (and_iff_left trivial).symm

/-- Every step of a run finds nothing prepared that it takes for something else. -/
def Unmistaken (env : Environment) (prevTime : Int) (events : List Event) : Prop :=
  ∀ before e after, events = before ++ e :: after →
    ∀ q, run env prevTime before = .ok q → Meets env q e

theorem unmistaken_snoc {env : Environment} {prevTime : Int} {events : List Event} {e : Event}
    {q : UtteranceActionProposer} (ran : run env prevTime events = .ok q) :
    Unmistaken env prevTime (events ++ [e]) ↔ Unmistaken env prevTime events ∧ Meets env q e := by
  constructor
  · intro all
    constructor
    · rintro before e' after rfl
      exact all before e' (after ++ [e]) (by simp)
    · exact all events e [] rfl q ran
  · rintro ⟨earlier, last⟩ before e' after split q' ran'
    rcases List.eq_nil_or_concat after with rfl | ⟨after, e'', rfl⟩
    · obtain ⟨rfl, same⟩ := List.append_inj' split rfl
      cases same
      rw [ran] at ran'
      cases ran'
      exact last
    · rw [List.concat_eq_append, ← List.cons_append, ← List.append_assoc] at split
      obtain ⟨rfl, _⟩ := List.append_inj' split rfl
      exact earlier before e' after rfl q' ran'

theorem run_oneUtterance {env : Environment} {prevTime : Int} {events : List Event}
    {p : UtteranceActionProposer} (paired : ∀ e ∈ events, e.Paired)
    (h : run env prevTime events = .ok p) :
    OneUtterance p.sent ↔ Unmistaken env prevTime events := by
  induction events using List.reverseRecOn generalizing p with
  | nil =>
    cases h
    constructor
    · rintro _ (_ | _) e after split
      · cases split
      · cases split
    · rintro _ s ⟨⟩
  | append_singleton events e ih =>
    obtain ⟨q, before, last⟩ := run_snoc h
    have earlier : ∀ e ∈ events, e.Paired := fun e member =>
      paired e (List.mem_append_left _ member)
    rw [step_oneUtterance (run_consistent before) (run_paired earlier before)
      (paired e (by simp)) last, ih earlier before, unmistaken_snoc before]

end UtteranceActionProposer

def hello : Response := { object := some 0, id := ['r'], response := "hello".toList }

def greeting : Environment where
  dom := ⟨isAsciiName, fun _ h => h⟩
  compile _ := .ok (fun _ => none)
  table := { responses := AList.singleton ['r'] hello, responseGroups := ∅ }
  voiceLocale _ := none

def nodAndSmile (nod smile : Text) : Request where
  argNames := ["response".toList, "head:nod".toList, "face:smile".toList]
  argValues := [['r'], nod, smile]

/-- An utterance is prepared, its animation is ready, and an utterance is executed. -/
def preparedFor (prepared executed : Request) : List UtteranceActionProposer.Event :=
  [.prepare prepared, .callback "ready".toList (contentID 1), .act 0 5, .execute executed]

/-- Calls with equal hashes say the same, and no animation that was prepared for one of them is
triggered for the other unless they do. -/
def Identified (c d : Call) : Prop :=
  (c.hash = d.hash → c.Same d) ∧
    ∀ env prevTime events p, UtteranceActionProposer.run env prevTime events = .ok p →
      ∀ s ∈ p.sent, ∀ t ∈ p.sent, s.isTrigger = false → t.isTrigger = true →
        s.contentID = t.contentID → s.call = c → t.call = d → c.Same d

end Semaine.Dialogue
