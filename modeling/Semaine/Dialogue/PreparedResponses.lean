import Semaine.Dialogue.ResponseHash
import Semaine.Library.Outcome

/-! The protocol of preparing and triggering utterances, kept apart from how an utterance is
built: which content ids are in preparation, prepared, issued and sent. -/
namespace Semaine.Dialogue
open JavaText Semaine.Xml

abbrev Responses := AList (fun _ : Text => Text)

namespace Sent

def contentID : Sent → Text
  | direct id _ _ _ => id
  | prepare id _ _ _ => id
  | playCommand id _ _ => id

def hash : Sent → Text
  | direct _ h _ _ => h
  | prepare _ h _ _ => h
  | playCommand _ h _ => h

def call : Sent → Call
  | direct _ _ c _ => c
  | prepare _ _ c _ => c
  | playCommand _ _ c => c

def isTrigger : Sent → Bool
  | playCommand _ _ _ => true
  | _ => false

end Sent

def documentIDs (sent : List Sent) : List Text :=
  (sent.filter (!·.isTrigger)).map Sent.contentID

def triggeredIDs (sent : List Sent) : List Text := (sent.filter (·.isTrigger)).map Sent.contentID

/-- What is sent with one content id is for one utterance. -/
def OneUtterance (sent : List Sent) : Prop :=
  ∀ s ∈ sent, ∀ t ∈ sent, s.contentID = t.contentID → s.call.Same t.call

structure Books where
  preparing : Responses
  prepared : Responses
  counter : Nat
  sent : List Sent

def Books.held (b : Books) : List Text :=
  (b.preparing.entries ++ b.prepared.entries).map Sigma.snd

def Books.Issued (b : Books) (id : Text) : Prop :=
  ∃ k, 1 ≤ k ∧ k < b.counter ∧ id = Semaine.Dialogue.contentID k

inductive Move (b : Books) : Books → Prop where
  | stay : Move b b
  | direct (hash : Text) (call : Call) (doc : Document) (hashed : call.hash = .ok hash) :
      Move b { b with
        counter := b.counter + 1
        sent := b.sent ++ [.direct (contentID b.counter) hash call doc] }
  | prepare (hash : Text) (call : Call) (doc : Document) (hashed : call.hash = .ok hash)
      (idle : b.preparing.entries = []) (unprepared : b.prepared.lookup hash = none) :
      Move b { b with
        preparing := b.preparing.insert hash (contentID b.counter)
        counter := b.counter + 1
        sent := b.sent ++ [.prepare (contentID b.counter) hash call doc] }
  | trigger (hash id : Text) (call : Call) (hashed : call.hash = .ok hash)
      (prepared : b.prepared.lookup hash = some id) :
      Move b { b with
        prepared := b.prepared.erase hash
        sent := b.sent ++ [.playCommand id hash call] }
  | ready (key id : Text) (found : keyOf b.preparing id = some key) :
      Move b { b with
        preparing := b.preparing.erase key
        prepared := b.prepared.insert key id }
  | deleted (id : Text) :
      Move b { b with
        preparing := removeId b.preparing id
        prepared := removeId b.prepared id }
  | cleared : Move b { b with preparing := ∅, prepared := ∅ }

namespace UtteranceActionProposer

def books (p : UtteranceActionProposer) : Books where
  preparing := p.preparingResponses
  prepared := p.preparedResponses
  counter := p.output_counter
  sent := p.sent

theorem constructFMLDocument_some {env : Environment} {p : UtteranceActionProposer}
    {request : Request} {response : Response} {hash : Text} {doc : Document}
    (built : p.constructFMLDocument env request = .ok (some (response, hash, doc))) :
    getResponse env.table p.history request.draws request.argNames request.argValues =
      .ok (some response) ∧ (request.call response).hash = .ok hash := by
  obtain ⟨found, chosen, rest⟩ := Outcome.bind_ok built
  cases found with
  | none => cases rest
  | some response' =>
    obtain ⟨hash', hashed, rest⟩ := Outcome.bind_ok rest
    obtain ⟨doc', made, rest⟩ := Outcome.bind_ok rest
    cases rest
    exact ⟨chosen, hashed⟩

theorem constructFMLDocument_none {env : Environment} {p : UtteranceActionProposer}
    {request : Request} (built : p.constructFMLDocument env request = .ok none) :
    getResponse env.table p.history request.draws request.argNames request.argValues =
      .ok none := by
  obtain ⟨found, chosen, rest⟩ := Outcome.bind_ok built
  cases found with
  | none => exact chosen
  | some response' =>
    obtain ⟨hash', hashed, rest⟩ := Outcome.bind_ok rest
    obtain ⟨doc', made, rest⟩ := Outcome.bind_ok rest
    cases rest

theorem prepare_move {env : Environment} {p q : UtteranceActionProposer} {request : Request}
    (h : p.prepare env request = .ok q) : Move p.books q.books := by
  unfold prepare at h
  split at h
  · cases h
    exact .stay
  · rename_i idle
    cases built : p.constructFMLDocument env request with
    | error e =>
      rw [built] at h
      cases h
    | ok result =>
      rw [built] at h
      cases result with
      | none =>
        cases h
        exact .stay
      | some found =>
        obtain ⟨response, hash, doc⟩ := found
        simp only [bind, Except.bind] at h
        split at h
        · cases h
          exact .stay
        · rename_i unknown
          rw [not_or] at unknown
          cases h
          refine .prepare hash (request.call response) doc (constructFMLDocument_some built).2 ?_ ?_
          · exact List.eq_nil_of_length_eq_zero (not_not.mp idle)
          · exact Option.not_isSome_iff_eq_none.mp unknown.2

theorem execute_move {env : Environment} {p q : UtteranceActionProposer} {request : Request}
    (h : p.execute env request = .ok q) : Move p.books q.books := by
  unfold execute at h
  cases built : p.constructFMLDocument env request with
  | error e =>
    rw [built] at h
    cases h
  | ok result =>
    rw [built] at h
    cases result with
    | none =>
      cases h
      exact .stay
    | some found =>
      obtain ⟨response, hash, doc⟩ := found
      simp only [bind, Except.bind] at h
      split at h
      · cases h
        exact .trigger hash _ (request.call response) (constructFMLDocument_some built).2 ‹_›
      · cases h
        exact .direct hash (request.call response) doc (constructFMLDocument_some built).2

theorem onCallback_move (p : UtteranceActionProposer) (type id : Text) :
    Move p.books (p.onCallback type id).books := by
  unfold onCallback
  split
  · split
    · exact .ready _ id ‹_›
    · exact .stay
  · split
    · exact .deleted id
    · exact .stay

theorem step_move {env : Environment} {p q : UtteranceActionProposer} {e : Event}
    (h : p.step env e = .ok q) : Move p.books q.books := by
  cases e with
  | prepare request => exact prepare_move h
  | execute request => exact execute_move h
  | callback type id =>
    cases h
    exact onCallback_move p type id
  | character name =>
    cases h
    unfold onCharacter
    split
    · exact .stay
    · exact .cleared
  | act time prevTime =>
    cases h
    unfold act
    split
    · exact .cleared
    · exact .stay

end UtteranceActionProposer

theorem contentID_injective {m n : Nat} (h : contentID m = contentID n) : m = n :=
  ofNat_injective (List.append_cancel_left h)

structure Consistent (b : Books) : Prop where
  positive : 1 ≤ b.counter
  one : b.preparing.entries.length ≤ 1
  distinct : b.held.Nodup
  issued : ∀ id ∈ b.held, b.Issued id
  apart : ∀ hash, b.preparing.lookup hash ≠ none → b.prepared.lookup hash = none
  documents : (documentIDs b.sent).Nodup
  documentsIssued : ∀ id ∈ documentIDs b.sent, b.Issued id
  triggers : (triggeredIDs b.sent).Nodup
  spent : ∀ id ∈ triggeredIDs b.sent, id ∉ b.held
  origin : ∀ e ∈ b.preparing.entries ++ b.prepared.entries,
    ∃ d ∈ b.sent, d.isTrigger = false ∧ d.contentID = e.2 ∧ d.hash = e.1
  triggered : ∀ s ∈ b.sent, s.isTrigger = true →
    ∃ d ∈ b.sent, d.isTrigger = false ∧ d.contentID = s.contentID ∧ d.hash = s.hash
  hashes : ∀ s ∈ b.sent, s.call.hash = .ok s.hash

theorem mem_documentIDs {sent : List Sent} {id : Text} :
    id ∈ documentIDs sent ↔ ∃ d ∈ sent, d.isTrigger = false ∧ d.contentID = id := by
  simp [documentIDs, and_assoc]

theorem mem_triggeredIDs {sent : List Sent} {id : Text} :
    id ∈ triggeredIDs sent ↔ ∃ s ∈ sent, s.isTrigger = true ∧ s.contentID = id := by
  simp [triggeredIDs, and_assoc]

theorem documentIDs_append (sent : List Sent) (s : Sent) :
    documentIDs (sent ++ [s]) =
      documentIDs sent ++ if s.isTrigger then [] else [s.contentID] := by
  cases s <;> simp [documentIDs, Sent.isTrigger]

theorem triggeredIDs_append (sent : List Sent) (s : Sent) :
    triggeredIDs (sent ++ [s]) =
      triggeredIDs sent ++ if s.isTrigger then [s.contentID] else [] := by
  cases s <;> simp [triggeredIDs, Sent.isTrigger]

theorem lookup_entries {m : Responses} {hash id : Text} :
    m.lookup hash = some id ↔ (⟨hash, id⟩ : Sigma fun _ : Text => Text) ∈ m.entries :=
  AList.mem_lookup_iff

theorem mem_held {b : Books} {id : Text} :
    id ∈ b.held ↔ ∃ e ∈ b.preparing.entries ++ b.prepared.entries, e.2 = id :=
  List.mem_map

namespace Consistent
variable {b : Books}

theorem held_unsent (h : Consistent b) : contentID b.counter ∉ b.held := by
  intro member
  obtain ⟨k, -, below, same⟩ := h.issued _ member
  rw [contentID_injective same] at below
  exact Nat.lt_irrefl _ below

theorem counter_unsent (h : Consistent b) : contentID b.counter ∉ documentIDs b.sent := by
  intro member
  obtain ⟨k, -, below, same⟩ := h.documentsIssued _ member
  rw [contentID_injective same] at below
  exact Nat.lt_irrefl _ below

theorem triggered_document (h : Consistent b) {id : Text} (member : id ∈ triggeredIDs b.sent) :
    id ∈ documentIDs b.sent := by
  obtain ⟨s, sent, trigger, rfl⟩ := mem_triggeredIDs.mp member
  obtain ⟨d, dsent, document, same, -⟩ := h.triggered s sent trigger
  exact mem_documentIDs.mpr ⟨d, dsent, document, same⟩

theorem forget (h : Consistent b) (preparing prepared : Responses)
    (fewer : preparing.entries.Sublist b.preparing.entries)
    (fewer' : prepared.entries.Sublist b.prepared.entries) :
    Consistent { b with preparing := preparing, prepared := prepared } where
  positive := h.positive
  one := fewer.length_le.trans h.one
  distinct := h.distinct.sublist ((fewer.append fewer').map _)
  issued id member := h.issued id (((fewer.append fewer').map _).subset member)
  apart hash some := by
    have key : hash ∈ b.preparing :=
      (fewer.map Sigma.fst).subset (AList.lookup_isSome.mp (Option.isSome_iff_ne_none.mpr some))
    have none := h.apart hash (Option.isSome_iff_ne_none.mp (AList.lookup_isSome.mpr key))
    rw [AList.lookup_eq_none] at none ⊢
    exact fun member => none ((fewer'.map Sigma.fst).subset member)
  documents := h.documents
  documentsIssued := h.documentsIssued
  triggers := h.triggers
  spent id member held := h.spent id member (((fewer.append fewer').map _).subset held)
  origin e member := h.origin e ((fewer.append fewer').subset member)
  triggered := h.triggered
  hashes := h.hashes

theorem hashes_append (h : Consistent b) {d : Sent} (hashed : d.call.hash = .ok d.hash) :
    ∀ s ∈ b.sent ++ [d], s.call.hash = .ok s.hash := by
  intro s member
  rcases List.mem_append.mp member with old | new
  · exact h.hashes s old
  · rw [List.mem_singleton.mp new]
    exact hashed

theorem send (h : Consistent b) (d : Sent) (document : d.isTrigger = false)
    (next : d.contentID = contentID b.counter) (hashed : d.call.hash = .ok d.hash) :
    Consistent { b with counter := b.counter + 1, sent := b.sent ++ [d] } where
  positive := Nat.le_succ_of_le h.positive
  one := h.one
  distinct := h.distinct
  issued id member := by
    obtain ⟨k, positive, below, same⟩ := h.issued id member
    exact ⟨k, positive, by show k < b.counter + 1; omega, same⟩
  apart := h.apart
  documents := by
    simp only [documentIDs_append, document, next]
    exact List.nodup_append.mpr ⟨h.documents, List.nodup_singleton _, fun x hx y hy => by
      rw [List.mem_singleton.mp hy]
      exact fun same => h.counter_unsent (same ▸ hx)⟩
  documentsIssued id member := by
    simp only [documentIDs_append, document, next] at member
    rcases List.mem_append.mp member with old | new
    · obtain ⟨k, positive, below, same⟩ := h.documentsIssued id old
      exact ⟨k, positive, by show k < b.counter + 1; omega, same⟩
    · exact ⟨b.counter, h.positive, Nat.lt_succ_self _, List.mem_singleton.mp new⟩
  triggers := by
    simp only [triggeredIDs_append, document]
    simpa using h.triggers
  spent id member := by
    simp only [triggeredIDs_append, document] at member
    exact h.spent id (by simpa using member)
  origin e member := by
    obtain ⟨d', sent, rest⟩ := h.origin e member
    exact ⟨d', List.mem_append_left _ sent, rest⟩
  triggered s member trigger := by
    rcases List.mem_append.mp member with old | new
    · obtain ⟨d', sent, rest⟩ := h.triggered s old trigger
      exact ⟨d', List.mem_append_left _ sent, rest⟩
    · rw [List.mem_singleton.mp new, document] at trigger
      cases trigger
  hashes := h.hashes_append hashed

theorem addPreparing (h : Consistent b) {hash id : Text} (idle : b.preparing.entries = [])
    (unprepared : b.prepared.lookup hash = none) (unheld : id ∉ b.held)
    (unspent : id ∉ triggeredIDs b.sent)
    (sent : ∃ d ∈ b.sent, d.isTrigger = false ∧ d.contentID = id ∧ d.hash = hash) :
    Consistent { b with preparing := b.preparing.insert hash id } := by
  have absent : hash ∉ b.preparing := by
    simp [AList.mem_keys, AList.keys, idle]
  have entries : (b.preparing.insert hash id).entries = [⟨hash, id⟩] := by
    rw [AList.entries_insert_of_notMem absent, idle]
  have held : Books.held { b with preparing := b.preparing.insert hash id } = id :: b.held := by
    simp [Books.held, idle]
  refine ⟨h.positive, ?_, ?_, ?_, ?_, h.documents, h.documentsIssued, h.triggers, ?_, ?_,
    h.triggered, h.hashes⟩
  · exact (congrArg List.length entries).le
  · rw [held]
    exact List.nodup_cons.mpr ⟨unheld, h.distinct⟩
  · intro i member
    rw [held] at member
    rcases List.mem_cons.mp member with rfl | old
    · obtain ⟨d, dsent, document, rfl, -⟩ := sent
      exact h.documentsIssued _ (mem_documentIDs.mpr ⟨d, dsent, document, rfl⟩)
    · exact h.issued i old
  · intro other some
    by_cases same : other = hash
    · rw [same]
      exact unprepared
    · rw [AList.lookup_insert_ne same] at some
      exact h.apart other some
  · intro i member
    rw [held, List.mem_cons, not_or]
    exact ⟨fun same => unspent (same ▸ member), h.spent i member⟩
  · intro e member
    simp only [entries, List.cons_append, List.nil_append, List.mem_cons] at member
    rcases member with rfl | old
    · exact sent
    · exact h.origin e (List.mem_append_right _ old)

theorem prepared_document (h : Consistent b) {hash id : Text}
    (prepared : b.prepared.lookup hash = some id) :
    ∃ d ∈ b.sent, d.isTrigger = false ∧ d.contentID = id ∧ d.hash = hash :=
  h.origin ⟨hash, id⟩ (List.mem_append_right _ (lookup_entries.mp prepared))

theorem trigger (h : Consistent b) {hash id : Text} {call : Call}
    (hashed : call.hash = .ok hash) (prepared : b.prepared.lookup hash = some id) :
    Consistent { b with
      prepared := b.prepared.erase hash
      sent := b.sent ++ [.playCommand id hash call] } := by
  have rest := h.forget b.preparing (b.prepared.erase hash)
    (List.Sublist.refl _) (List.kerase_sublist hash _)
  have entry := lookup_entries.mp prepared
  have gone : id ∉ Books.held { b with prepared := b.prepared.erase hash } := by
    obtain ⟨id', front, back, -, split, erased⟩ :=
      List.exists_of_kerase (List.mem_keys_of_mem entry)
    have same : id' = id := by
      have there : (⟨hash, id'⟩ : Sigma fun _ : Text => Text) ∈ b.prepared.entries := by
        rw [split]
        simp
      exact Option.some.inj ((lookup_entries.mpr there).symm.trans prepared)
    subst same
    have distinct := h.distinct
    have after : (b.prepared.erase hash).entries = front ++ back := erased
    simp only [Books.held, split, after] at distinct ⊢
    have moved : (id' :: (b.preparing.entries ++ (front ++ back)).map Sigma.snd).Nodup := by
      refine distinct.perm ?_
      simp only [← List.append_assoc, List.map_append, List.map_cons]
      exact List.perm_middle
    exact (List.nodup_cons.mp moved).1
  obtain ⟨d, dsent, document, dID, dHash⟩ := h.prepared_document prepared
  have unspent : id ∉ triggeredIDs b.sent := fun spent =>
    h.spent id spent (mem_held.mpr ⟨⟨hash, id⟩, List.mem_append_right _ entry, rfl⟩)
  refine ⟨h.positive, h.one, rest.distinct, rest.issued, rest.apart, ?_, ?_, ?_, ?_, ?_, ?_,
    h.hashes_append hashed⟩
  · simpa [documentIDs_append, Sent.isTrigger] using h.documents
  · intro i member
    exact h.documentsIssued i (by simpa [documentIDs_append, Sent.isTrigger] using member)
  · simp only [triggeredIDs_append, Sent.isTrigger, if_true, Sent.contentID]
    exact List.nodup_append.mpr ⟨h.triggers, List.nodup_singleton _, fun x hx y hy => by
      rw [List.mem_singleton.mp hy]
      exact fun same => unspent (same ▸ hx)⟩
  · intro i member
    simp only [triggeredIDs_append, Sent.isTrigger, if_true, Sent.contentID] at member
    rcases List.mem_append.mp member with old | new
    · exact rest.spent i old
    · rw [List.mem_singleton.mp new]
      exact gone
  · intro e member
    obtain ⟨d', sent, more⟩ := rest.origin e member
    exact ⟨d', List.mem_append_left _ sent, more⟩
  · intro s member isTrigger
    rcases List.mem_append.mp member with old | new
    · obtain ⟨d', sent, more⟩ := h.triggered s old isTrigger
      exact ⟨d', List.mem_append_left _ sent, more⟩
    · rw [List.mem_singleton.mp new]
      exact ⟨d, List.mem_append_left _ dsent, document, dID, dHash⟩

theorem keyOf_some {m : Responses} {id key : Text} (found : keyOf m id = some key) :
    (⟨key, id⟩ : Sigma fun _ : Text => Text) ∈ m.entries := by
  obtain ⟨e, first, rfl⟩ := Option.map_eq_some_iff.mp found
  have same : e.2 = id := by simpa using List.find?_some first
  rw [← same]
  exact List.mem_of_find?_eq_some first

theorem ready (h : Consistent b) {key id : Text} (found : keyOf b.preparing id = some key) :
    Consistent { b with
      preparing := b.preparing.erase key
      prepared := b.prepared.insert key id } := by
  have entry := keyOf_some found
  have only : b.preparing.entries = [⟨key, id⟩] := by
    cases entries : b.preparing.entries with
    | nil => simp [entries] at entry
    | cons e rest =>
      have length := h.one
      rw [entries, List.length_cons] at length
      have none : rest = [] := List.eq_nil_of_length_eq_zero (by omega)
      rw [entries, none, List.mem_singleton] at entry
      rw [none, entry]
  have unprepared : key ∉ b.prepared := by
    rw [← AList.lookup_eq_none]
    refine h.apart key ?_
    rw [lookup_entries.mpr entry]
    simp
  have empty : (b.preparing.erase key).entries = [] := by
    show List.kerase key b.preparing.entries = []
    rw [only]
    simp
  have full : (b.prepared.insert key id).entries = ⟨key, id⟩ :: b.prepared.entries :=
    AList.entries_insert_of_notMem unprepared
  have all : (b.preparing.erase key).entries ++ (b.prepared.insert key id).entries =
      b.preparing.entries ++ b.prepared.entries := by
    rw [empty, full, only]
    rfl
  have held : Books.held { b with
      preparing := b.preparing.erase key
      prepared := b.prepared.insert key id } = b.held := by
    simp only [Books.held, all]
  refine ⟨h.positive, by simp [empty], held ▸ h.distinct, held ▸ h.issued, ?_, h.documents,
    h.documentsIssued, h.triggers, held ▸ h.spent, all ▸ h.origin, h.triggered, h.hashes⟩
  intro hash some
  exfalso
  apply some
  rw [AList.lookup_eq_none]
  simp [AList.mem_keys, AList.keys, empty]

theorem removeId_sublist (m : Responses) (id : Text) :
    (removeId m id).entries.Sublist m.entries := by
  unfold removeId
  split
  · exact List.kerase_sublist _ _
  · exact List.Sublist.refl _

theorem move {b' : Books} (h : Consistent b) (moved : Move b b') : Consistent b' := by
  cases moved with
  | stay => exact h
  | direct hash call doc hashed => exact h.send _ rfl rfl hashed
  | prepare hash call doc hashed idle unprepared =>
    have sent := h.send (.prepare (contentID b.counter) hash call doc) rfl rfl hashed
    refine sent.addPreparing idle unprepared h.held_unsent ?_
      ⟨_, List.mem_append_right _ (.head _), rfl, rfl, rfl⟩
    intro spent
    rw [triggeredIDs_append] at spent
    have earlier : contentID b.counter ∈ triggeredIDs b.sent := by
      simpa [Sent.isTrigger] using spent
    exact h.counter_unsent (h.triggered_document earlier)
  | trigger hash id call hashed prepared => exact h.trigger hashed prepared
  | ready key id found => exact h.ready found
  | deleted id => exact h.forget _ _ (removeId_sublist _ _) (removeId_sublist _ _)
  | cleared => exact h.forget _ _ (List.nil_sublist _) (List.nil_sublist _)

theorem sent_document (h : Consistent b) {s : Sent} (sent : s ∈ b.sent) :
    s.contentID ∈ documentIDs b.sent := by
  cases trigger : s.isTrigger with
  | false => exact mem_documentIDs.mpr ⟨s, sent, trigger, rfl⟩
  | true => exact h.triggered_document (mem_triggeredIDs.mpr ⟨s, sent, trigger, rfl⟩)

theorem same_hash (h : Consistent b) {s t : Sent} (hs : s ∈ b.sent) (ht : t ∈ b.sent)
    (same : s.contentID = t.contentID) : s.hash = t.hash := by
  have document (s : Sent) (hs : s ∈ b.sent) :
      ∃ d ∈ b.sent, d.isTrigger = false ∧ d.contentID = s.contentID ∧ d.hash = s.hash := by
    cases trigger : s.isTrigger with
    | false => exact ⟨s, hs, trigger, rfl, rfl⟩
    | true => exact h.triggered s hs trigger
  obtain ⟨d, hd, isDocument, dID, dHash⟩ := document s hs
  obtain ⟨d', hd', isDocument', dID', dHash'⟩ := document t ht
  have unique : d = d' := by
    refine List.inj_on_of_nodup_map h.documents ?_ ?_ ?_
    · simp [hd, isDocument]
    · simp [hd', isDocument']
    · rw [dID, dID', same]
  rw [← dHash, ← dHash', unique]

theorem oneUtterance_document (h : Consistent b) {d : Sent}
    (next : d.contentID = contentID b.counter) :
    OneUtterance (b.sent ++ [d]) ↔ OneUtterance b.sent := by
  constructor
  · intro one s hs t ht
    exact one s (List.mem_append_left _ hs) t (List.mem_append_left _ ht)
  · intro one s hs t ht same
    have new {u : Sent} (hu : u ∈ b.sent) : u.contentID ≠ d.contentID := by
      intro equal
      rw [next] at equal
      exact h.counter_unsent (equal ▸ h.sent_document hu)
    rcases List.mem_append.mp hs with hs | hs
    · rcases List.mem_append.mp ht with ht | ht
      · exact one s hs t ht same
      · rw [List.mem_singleton.mp ht] at same
        exact absurd same (new hs)
    · rw [List.mem_singleton.mp hs] at same ⊢
      rcases List.mem_append.mp ht with ht | ht
      · exact absurd same.symm (new ht)
      · rw [List.mem_singleton.mp ht]
        exact .refl _

theorem oneUtterance_trigger (h : Consistent b) {hash id : Text} (call : Call)
    (prepared : b.prepared.lookup hash = some id) :
    OneUtterance (b.sent ++ [.playCommand id hash call]) ↔ OneUtterance b.sent ∧
      ∀ d ∈ b.sent, d.isTrigger = false → d.contentID = id → d.call.Same call := by
  have last : Sent.playCommand id hash call ∈ b.sent ++ [.playCommand id hash call] :=
    List.mem_append_right _ (.head _)
  constructor
  · intro one
    constructor
    · intro s hs t ht
      exact one s (List.mem_append_left _ hs) t (List.mem_append_left _ ht)
    · intro d hd _ same
      exact one d (List.mem_append_left _ hd) _ last same
  · rintro ⟨one, fits⟩ s hs t ht same
    obtain ⟨d, hd, document, dID, _⟩ := h.prepared_document prepared
    have prepared := fits d hd document dID
    have old {u : Sent} (hu : u ∈ b.sent) (equal : u.contentID = id) : u.call.Same call :=
      (one u hu d hd (equal.trans dID.symm)).trans prepared
    rcases List.mem_append.mp hs with hs | hs
    · rcases List.mem_append.mp ht with ht | ht
      · exact one s hs t ht same
      · rw [List.mem_singleton.mp ht] at same ⊢
        exact old hs same
    · rw [List.mem_singleton.mp hs] at same ⊢
      rcases List.mem_append.mp ht with ht | ht
      · exact (old ht same.symm).symm
      · rw [List.mem_singleton.mp ht]
        exact .refl _

end Consistent

namespace UtteranceActionProposer

def run (env : Environment) (prevTime : Int) (events : List Event) :
    Except Thrown UtteranceActionProposer :=
  events.foldlM (step env) { prevTime := prevTime }

theorem start_consistent (prevTime : Int) :
    Consistent (books { prevTime := prevTime }) := by
  constructor <;> simp [books, Books.held, documentIDs, triggeredIDs]

theorem run_snoc {env : Environment} {prevTime : Int} {events : List Event} {e : Event}
    {p : UtteranceActionProposer} (h : run env prevTime (events ++ [e]) = .ok p) :
    ∃ q, run env prevTime events = .ok q ∧ q.step env e = .ok p := by
  unfold run at h
  rw [List.foldlM_append] at h
  obtain ⟨q, before, last⟩ := Outcome.bind_ok h
  exact ⟨q, before, (bind_pure _).symm.trans last⟩

theorem run_consistent {env : Environment} {prevTime : Int} {events : List Event}
    {p : UtteranceActionProposer} (h : run env prevTime events = .ok p) :
    Consistent p.books := by
  induction events using List.reverseRecOn generalizing p with
  | nil =>
    cases h
    exact start_consistent prevTime
  | append_singleton events e ih =>
    obtain ⟨q, before, last⟩ := run_snoc h
    exact (ih before).move (step_move last)

end UtteranceActionProposer

end Semaine.Dialogue
