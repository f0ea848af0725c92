import Semaine.Dialogue.TemplateController

/-! How the runs that the controller remembers decide between templates of the same quality. -/
namespace Semaine.Dialogue
open JavaText JavaFloat

variable {IS D : Type} (doubles : Doubles D)

def remembered (runs : List (TemplateState IS D)) : List Text :=
  runs.foldl addRecentBehaviour []

def runsSince (runs : List (TemplateState IS D)) (id : Text) : Nat :=
  (runs.reverse.map (·.template.id)).idxOf id

/-- What `modifyQualityBasedOnHistory` subtracts from the quality of a template. -/
def penalty (recents : List Text) (id : Text) : D :=
  match recents.findIdx? (· = id) with
  | some index => doubles.mul (doubles.ofInt (index + 1)) doubles.tenth
  | none => doubles.ofInt 0

/-- A template that was last run later has no smaller penalty. -/
def PenaltyMonotone (runs states : List (TemplateState IS D)) : Prop :=
  ∀ s ∈ states, ∀ t ∈ states, runsSince runs t.template.id ≤ runsSince runs s.template.id →
    doubles.lt (penalty doubles (remembered runs) t.template.id)
      (penalty doubles (remembered runs) s.template.id) = false

/-- A remembered template is the best one only if every candidate is remembered and none was
last run earlier. -/
def NeverRecent (runs states : List (TemplateState IS D)) : Prop :=
  ∀ best,
    getBestTemplate doubles (modifyQualityBasedOnHistory doubles (remembered runs) states) =
      some best →
    best.template.id ∈ remembered runs → ∀ s ∈ states,
      s.template.id ∈ remembered runs ∧
        runsSince runs s.template.id ≤ runsSince runs best.template.id

/-- Of two remembered candidates, the one that was first run later was also last run later. -/
def SameOrder (runs states : List (TemplateState IS D)) : Prop :=
  ∀ s ∈ states, ∀ t ∈ states, s.template.id ∈ remembered runs → t.template.id ∈ remembered runs →
    (remembered runs).idxOf s.template.id < (remembered runs).idxOf t.template.id →
      runsSince runs t.template.id < runsSince runs s.template.id

theorem addRecentBehaviour_reverse {recents ids : List Text} (s : TemplateState IS D)
    (h : recents.reverse = ids.take 5) :
    (addRecentBehaviour recents s).reverse = (s.template.id :: ids).take 5 := by
  have length := congrArg List.length h
  rw [List.length_reverse, List.length_take] at length
  unfold addRecentBehaviour
  rw [List.take_succ_cons]
  by_cases full : (recents ++ [s.template.id]).length > 5
  · rw [if_pos full, ← List.dropLast_reverse, List.reverse_append, h, List.dropLast_eq_take]
    simp only [List.length_append, List.length_cons, List.length_nil] at full
    have five : ([s.template.id].reverse ++ ids.take 5).length - 1 = 5 := by
      simp only [List.length_append, List.length_reverse, List.length_cons, List.length_nil,
        List.length_take]
      omega
    rw [five, List.reverse_singleton, List.singleton_append, List.take_succ_cons, List.take_take]
    rfl
  · rw [if_neg full, List.reverse_append, h]
    simp only [List.length_append, List.length_cons, List.length_nil] at full
    have short : ids.length ≤ 4 := by omega
    rw [List.take_of_length_le short, List.take_of_length_le (by omega)]
    rfl

theorem remembered_reverse (runs : List (TemplateState IS D)) :
    (remembered runs).reverse = (runs.reverse.map (·.template.id)).take 5 := by
  induction runs using List.reverseRecOn with
  | nil => rfl
  | append_singleton runs s ih =>
    have next := addRecentBehaviour_reverse s ih
    rw [remembered, List.foldl_append, List.reverse_append]
    exact next

theorem mem_remembered {runs : List (TemplateState IS D)} {id : Text} :
    id ∈ remembered runs ↔
      id ∈ runs.reverse.map (·.template.id) ∧ runsSince runs id < 5 := by
  rw [← List.mem_reverse, remembered_reverse]
  constructor
  · intro member
    have ran := List.mem_of_mem_take member
    exact ⟨ran, (List.mem_take_iff_idxOf_lt ran).mp member⟩
  · rintro ⟨ran, recent⟩
    exact (List.mem_take_iff_idxOf_lt ran).mpr recent

theorem remembered_of_later {runs : List (TemplateState IS D)} {id id' : Text}
    (recent : id ∈ remembered runs) (later : runsSince runs id' ≤ runsSince runs id) :
    id' ∈ remembered runs := by
  obtain ⟨ran, few⟩ := mem_remembered.mp recent
  have inside := List.idxOf_lt_length_iff.mpr ran
  have ran' := List.idxOf_lt_length_iff.mp (Nat.lt_of_le_of_lt later inside)
  exact mem_remembered.mpr ⟨ran', by omega⟩

theorem runsSince_of_older {runs : List (TemplateState IS D)} {id id' : Text}
    (recent : id ∈ remembered runs)
    (older : ¬ (id' ∈ remembered runs ∧ runsSince runs id' ≤ runsSince runs id)) :
    runsSince runs id < runsSince runs id' := by
  apply Nat.lt_of_not_le
  intro later
  exact older ⟨remembered_of_later recent later, later⟩

/-- The place of a remembered template in the history, counted from 1; 0 for the others. -/
def rank (recents : List Text) (id : Text) : Nat :=
  if id ∈ recents then recents.idxOf id + 1 else 0

variable {doubles}

theorem penalty_eq (law : doubles.Lawful) (recents : List Text) (id : Text) :
    penalty doubles recents id = doubles.mul (doubles.ofInt (rank recents id)) doubles.tenth := by
  unfold penalty rank
  cases found : recents.findIdx? (· = id) with
  | none =>
    have absent : id ∉ recents := by
      intro member
      have fails := List.findIdx?_eq_none_iff.mp found _ member
      simp at fails
    rw [if_neg absent]
    exact law.noTenth.symm
  | some index =>
    obtain ⟨inside, first⟩ := List.findIdx?_eq_some_iff_findIdx_eq.mp found
    have place : recents.idxOf id = index := by
      rw [← first, List.idxOf]
      congr 1
      funext other
      rw [Bool.eq_iff_iff, beq_iff_eq, decide_eq_true_eq]
    have member := List.idxOf_lt_length_iff.mp (place ▸ inside)
    rw [if_pos member, place]
    rfl

def penalized (doubles : Doubles D) (recents : List Text) (s : TemplateState IS D) :
    TemplateState IS D :=
  { s with quality := doubles.sub s.quality (penalty doubles recents s.template.id) }

theorem modifyQualityBasedOnHistory_eq (law : doubles.Lawful) (recents : List Text)
    (states : List (TemplateState IS D)) :
    modifyQualityBasedOnHistory doubles recents states =
      states.map (penalized doubles recents) := by
  apply List.map_congr_left
  intro s _
  unfold penalized penalty
  cases recents.findIdx? (· = s.template.id) with
  | none =>
    dsimp only
    rw [law.sub_zero]
  | some index => rfl

theorem rank_le_five (runs : List (TemplateState IS D)) (id : Text) :
    rank (remembered runs) id ≤ 5 := by
  unfold rank
  split
  · rename_i member
    have inside := List.idxOf_lt_length_iff.mpr member
    have length := congrArg List.length (remembered_reverse runs)
    rw [List.length_reverse, List.length_take] at length
    omega
  · exact Nat.zero_le 5

theorem penalty_lt (law : doubles.Lawful) (runs : List (TemplateState IS D)) (id id' : Text) :
    doubles.lt (penalty doubles (remembered runs) id) (penalty doubles (remembered runs) id') =
      true ↔ rank (remembered runs) id < rank (remembered runs) id' := by
  have small := rank_le_five runs id
  have small' := rank_le_five runs id'
  rw [penalty_eq law, penalty_eq law]
  rcases Nat.lt_trichotomy (rank (remembered runs) id) (rank (remembered runs) id') with
    less | same | more
  · exact iff_of_true (law.tenths (by omega) (by omega) (by omega)) less
  · rw [same, law.irrefl]
    exact iff_of_false Bool.false_ne_true (Nat.lt_irrefl _)
  · have above : doubles.lt (doubles.mul (doubles.ofInt (rank (remembered runs) id'))
        doubles.tenth) (doubles.mul (doubles.ofInt (rank (remembered runs) id)) doubles.tenth) =
          true := law.tenths (by omega) (by omega) (by omega)
    refine iff_of_false ?_ (Nat.not_lt_of_gt more)
    intro below
    have cycle := law.trans above below
    rw [law.irrefl] at cycle
    cases cycle

theorem bestOf_spec (law : doubles.Lawful) {qualityOf : TemplateState IS D → D}
    {states : List (TemplateState IS D)} {quality : D} {best : Option (TemplateState IS D)}
    {s : TemplateState IS D} (h : bestOf doubles qualityOf states quality best = some s) :
    (s ∈ states ∧ doubles.lt quality (qualityOf s) = true ∧
        ∀ t ∈ states, doubles.lt (qualityOf s) (qualityOf t) = false) ∨
      best = some s ∧ ∀ t ∈ states, doubles.lt quality (qualityOf t) = false := by
  induction states generalizing quality best with
  | nil => exact .inr ⟨h, nofun⟩
  | cons t rest ih =>
    unfold bestOf at h
    split at h
    · rename_i better
      rcases ih h with ⟨member, above, max⟩ | ⟨same, max⟩
      · refine .inl ⟨.tail t member, law.trans better above, ?_⟩
        rintro u (_ | ⟨_, later⟩)
        · apply Bool.eq_false_iff.mpr
          intro below
          have cycle := law.trans above below
          rw [law.irrefl] at cycle
          cases cycle
        · exact max u later
      · cases same
        refine .inl ⟨.head rest, better, ?_⟩
        rintro u (_ | ⟨_, later⟩)
        · exact law.irrefl _
        · exact max u later
    · rename_i worse
      have worse := Bool.eq_false_iff.mpr worse
      rcases ih h with ⟨member, above, max⟩ | ⟨same, max⟩
      · refine .inl ⟨.tail t member, above, ?_⟩
        rintro u (_ | ⟨_, later⟩)
        · apply Bool.eq_false_iff.mpr
          intro below
          rw [law.trans above below] at worse
          cases worse
        · exact max u later
      · refine .inr ⟨same, ?_⟩
        rintro u (_ | ⟨_, later⟩)
        · exact worse
        · exact max u later

theorem bestOf_stays {qualityOf : TemplateState IS D → D} {s : TemplateState IS D}
    {states : List (TemplateState IS D)}
    (max : ∀ t ∈ states, doubles.lt (qualityOf s) (qualityOf t) = false) :
    bestOf doubles qualityOf states (qualityOf s) (some s) = some s := by
  induction states with
  | nil => rfl
  | cons t rest ih =>
    unfold bestOf
    rw [max t (.head rest), if_neg Bool.false_ne_true]
    exact ih fun u later => max u (.tail t later)

theorem getBestTemplate_first {s : TemplateState IS D} {rest : List (TemplateState IS D)}
    (above : doubles.lt (doubles.ofInt (-9999)) s.quality = true)
    (max : ∀ t ∈ rest, doubles.lt s.quality t.quality = false) :
    getBestTemplate doubles (s :: rest) = some s := by
  unfold getBestTemplate bestOf
  rw [above, if_pos rfl]
  exact bestOf_stays max

section
variable {runs states : List (TemplateState IS D)}

theorem sameOrder_rank (h : SameOrder runs states) {s t : TemplateState IS D}
    (hs : s ∈ states) (ht : t ∈ states)
    (recent : runsSince runs t.template.id ≤ runsSince runs s.template.id) :
    rank (remembered runs) s.template.id ≤ rank (remembered runs) t.template.id := by
  unfold rank
  by_cases known : s.template.id ∈ remembered runs
  · have known' := remembered_of_later known recent
    rw [if_pos known, if_pos known']
    apply Nat.succ_le_succ
    apply Nat.le_of_not_lt
    intro order
    have later := h t ht s hs known' known order
    omega
  · rw [if_neg known]
    exact Nat.zero_le _

theorem penaltyMonotone_iff (law : doubles.Lawful) :
    PenaltyMonotone doubles runs states ↔ SameOrder runs states := by
  constructor
  · intro monotone s hs t ht known known' order
    apply Nat.lt_of_not_le
    intro recent
    have smaller := monotone t ht s hs recent
    have larger : rank (remembered runs) s.template.id < rank (remembered runs) t.template.id := by
      unfold rank
      rw [if_pos known, if_pos known']
      exact Nat.succ_lt_succ order
    rw [(penalty_lt law runs _ _).mpr larger] at smaller
    cases smaller
  · intro order s hs t ht recent
    apply Bool.eq_false_iff.mpr
    rw [Ne, penalty_lt law]
    exact Nat.not_lt_of_le (sameOrder_rank order hs ht recent)

/-- Rounding does not make the reduced quality of a remembered candidate as good as that of one
whose last run is the earliest, unless it is too low to be chosen. -/
def Separated (doubles : Doubles D) (runs states : List (TemplateState IS D)) (quality : D) :
    Prop :=
  ∀ s ∈ states, s.template.id ∈ remembered runs →
    doubles.lt (doubles.ofInt (-9999))
      (doubles.sub quality (penalty doubles (remembered runs) s.template.id)) = true →
    ∀ w ∈ states, (∀ t ∈ states, runsSince runs t.template.id ≤ runsSince runs w.template.id) →
      runsSince runs s.template.id < runsSince runs w.template.id →
      doubles.lt (doubles.sub quality (penalty doubles (remembered runs) s.template.id))
        (doubles.sub quality (penalty doubles (remembered runs) w.template.id)) = true

theorem exists_earliest {s : TemplateState IS D} (member : s ∈ states) :
    ∃ w ∈ states, ∀ t ∈ states, runsSince runs t.template.id ≤ runsSince runs w.template.id := by
  cases found : states.argmax fun t => runsSince runs t.template.id with
  | none =>
    rw [List.argmax_eq_none.mp found] at member
    cases member
  | some w =>
    refine ⟨w, List.argmax_mem found, fun t there => ?_⟩
    exact List.le_of_mem_argmax (f := fun t => runsSince runs t.template.id) there found

theorem neverRecent_of_separated (law : doubles.Lawful) {quality : D}
    (equal : ∀ s ∈ states, s.quality = quality)
    (separated : Separated doubles runs states quality) : NeverRecent doubles runs states := by
  intro best found known s hs
  rw [modifyQualityBasedOnHistory_eq law] at found
  rcases bestOf_spec law found with ⟨member, above, max⟩ | ⟨none, _⟩
  · obtain ⟨b, hb, rfl⟩ := List.mem_map.mp member
    by_contra older
    have older := runsSince_of_older known older
    obtain ⟨w, hw, earliest⟩ := exists_earliest hs
    have below := max _ (List.mem_map_of_mem hw)
    simp only [penalized, equal b hb, equal w hw] at above below
    rw [separated b hb known above w hw earliest (older.trans_le (earliest s hs))] at below
    cases below
  · cases none

theorem separated_of_neverRecent (law : doubles.Lawful) {quality : D}
    (equal : ∀ s ∈ states, s.quality = quality) (order : SameOrder runs states)
    (never : ∀ candidates, candidates.Perm states → NeverRecent doubles runs candidates) :
    Separated doubles runs states quality := by
  intro s hs known above w hw earliest older
  by_contra tied
  have max (t : TemplateState IS D) (ht : t ∈ states) :
      doubles.lt (penalized doubles (remembered runs) s).quality
        (penalized doubles (remembered runs) t).quality = false := by
    apply Bool.eq_false_iff.mpr
    intro below
    simp only [penalized, equal s hs, equal t ht] at below
    apply tied
    rcases (sameOrder_rank order hw ht (earliest t ht)).lt_or_eq with less | same
    · exact law.sub_lt _ _ ((penalty_lt law runs _ _).mpr less) below
    · rwa [penalty_eq law, penalty_eq law, same, ← penalty_eq law, ← penalty_eq law]
  obtain ⟨front, back, split⟩ := List.append_of_mem hs
  have perm : (s :: (front ++ back)).Perm states := by
    rw [split]
    exact List.perm_middle.symm
  have found : getBestTemplate doubles (modifyQualityBasedOnHistory doubles (remembered runs)
      (s :: (front ++ back))) = some (penalized doubles (remembered runs) s) := by
    rw [modifyQualityBasedOnHistory_eq law, List.map_cons]
    apply getBestTemplate_first
    · simp only [penalized, equal s hs]
      exact above
    · intro t there
      obtain ⟨u, hu, rfl⟩ := List.mem_map.mp there
      exact max u (perm.subset (.tail s hu))
  have later := (never _ perm _ found known w (perm.symm.subset hw)).2
  exact absurd later (Nat.not_le_of_gt older)

theorem Separated.of_perm {candidates : List (TemplateState IS D)} {quality : D}
    (separated : Separated doubles runs states quality) (perm : candidates.Perm states) :
    Separated doubles runs candidates quality := by
  intro s hs known above w hw earliest older
  refine separated s (perm.subset hs) known above w (perm.subset hw) ?_ older
  exact fun t ht => earliest t (perm.symm.subset ht)

/-- The penalty follows recency, and in every order of the candidates recency the choice, exactly
if the candidates were first run in the order in which they were last run, and their reduced
qualities are told apart. -/
theorem recency_decides (law : doubles.Lawful) {quality : D}
    (equal : ∀ s ∈ states, s.quality = quality) :
    (PenaltyMonotone doubles runs states ∧
        ∀ candidates, candidates.Perm states → NeverRecent doubles runs candidates) ↔
      SameOrder runs states ∧ Separated doubles runs states quality := by
  rw [penaltyMonotone_iff law]
  constructor
  · rintro ⟨order, never⟩
    exact ⟨order, separated_of_neverRecent law equal order never⟩
  · rintro ⟨order, separated⟩
    refine ⟨order, fun candidates perm => ?_⟩
    exact neverRecent_of_separated law (fun s hs => equal s (perm.subset hs))
      (separated.of_perm perm)

end

def runnable (id : String) : TemplateState Unit Rat where
  place := 0
  template := { id := id.toList }
  comparesSatisfied := true
  indicatorsSatisfied := true
  triggersSatisfied := true
  totalNrOfPreconditions := 0
  nrOfMissingPreconditions := 0
  effects := []
  behaviour := some
    { quality := 1, execute := fun is => (is, none), prepare := fun is => (is, none) }
  quality := 1

/-- The template that was run last is run again. -/
theorem greeting_repeated :
    ¬ (PenaltyMonotone exact [runnable "greet", runnable "ask", runnable "greet"]
        [runnable "greet", runnable "ask"] ∧
      ∀ candidates, candidates.Perm [runnable "greet", runnable "ask"] →
        NeverRecent exact [runnable "greet", runnable "ask", runnable "greet"] candidates) := by
  rintro ⟨_, never⟩
  have chosen : (getBestTemplate exact (modifyQualityBasedOnHistory exact
      (remembered [runnable "greet", runnable "ask", runnable "greet"])
      [runnable "greet", runnable "ask"])).map (·.template.id) = some "greet".toList := by
    decide +kernel
  obtain ⟨best, found, isGreet⟩ := Option.map_eq_some_iff.mp chosen
  have known : best.template.id ∈
      remembered [runnable "greet", runnable "ask", runnable "greet"] := by
    rw [isGreet]
    decide
  have recent := (never _ (.refl _) best found known (runnable "ask") (.tail _ (.head _))).2
  rw [isGreet] at recent
  exact absurd recent (by decide)

theorem recency_decides_greeting :
    (PenaltyMonotone exact [runnable "greet", runnable "ask", runnable "ask"]
        [runnable "greet", runnable "ask"] ∧
      ∀ candidates, candidates.Perm [runnable "greet", runnable "ask"] →
        NeverRecent exact [runnable "greet", runnable "ask", runnable "ask"] candidates) ↔
      SameOrder [runnable "greet", runnable "ask", runnable "ask"]
          [runnable "greet", runnable "ask"] ∧
        Separated exact [runnable "greet", runnable "ask", runnable "ask"]
          [runnable "greet", runnable "ask"] 1 := by
  apply recency_decides exact_lawful
  intro s member
  simp only [List.mem_cons, List.not_mem_nil, or_false] at member
  rcases member with rfl | rfl <;> rfl

end Semaine.Dialogue
