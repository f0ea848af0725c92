import Semaine.Dialogue.TemplateController

/-! Which effects and behaviours one check of the templates evaluates, and in which order. -/
namespace Semaine.Dialogue
open JavaText JavaFloat

variable {IS D : Type} (doubles : Doubles D)

def Template.holds (t : Template IS D) (is : IS) : Bool :=
  (t.compares ++ t.indicators ++ t.triggers).all (fun c => c.isValid is = some true)

def Template.firedEffects (t : Template IS D) (draws : Nat → D) : List (Effect IS) :=
  t.currEffects (choices doubles draws t.optional)

def Template.firedBehaviour (t : Template IS D) (draws : Nat → D) : Option (Behaviour IS D) :=
  t.currBehaviour (choices doubles draws t.optional)

def effectsOf (place count : Nat) : List Evaluated := (List.range count).map (.effect place)

/-- The effects of a template that holds and has effects but no behaviour. -/
def updateOf (draws : Nat → D) (is : IS) (t : Template IS D) (place : Nat) : List Evaluated :=
  if t.holds is &&
      (!(t.firedEffects doubles draws).isEmpty && (t.firedBehaviour doubles draws).isNone)
  then effectsOf place (t.firedEffects doubles draws).length else []

def updatesOf (draws : Nat → Nat → D) (is : IS) : List (Template IS D) → Nat → List Evaluated
  | [], _ => []
  | t :: rest, place =>
    updateOf doubles (draws place) is t place ++ updatesOf draws is rest (place + 1)

def meaning (templates : List (Template IS D)) (draws : Nat → Nat → D) :
    Evaluated → Option (Evaluation IS)
  | .effect place index => do
    let t ← templates[place]?
    let e ← (t.firedEffects doubles (draws place))[index]?
    return e.apply
  | .execute place => do
    let t ← templates[place]?
    let b ← t.firedBehaviour doubles (draws place)
    return b.execute
  | .prepare place => do
    let t ← templates[place]?
    let b ← t.currBehaviour []
    return b.prepare

def replay (means : Evaluated → Option (Evaluation IS)) : List Evaluated → IS → IS
  | [], is => is
  | e :: rest, is => replay means rest (((means e).map (fun f => (f is).1)).getD is)

theorem replay_append (means : Evaluated → Option (Evaluation IS)) (xs ys : List Evaluated)
    (is : IS) : replay means (xs ++ ys) is = replay means ys (replay means xs is) := by
  induction xs generalizing is with
  | nil => rfl
  | cons e rest ih => exact ih _

structure Course.Clean (c : Course IS) : Prop where
  thrown : c.thrown = none
  trace : ∀ e ∈ c.trace, e.2 = none

structure Course.Goes (means : Evaluated → Option (Evaluation IS)) (c : Course IS)
    (entries : List Evaluated) (c' : Course IS) : Prop where
  before : c.Clean
  trace : c'.trace = c.trace ++ entries.map (·, none)
  is : c'.is = replay means entries c.is

theorem Course.Goes.refl (means : Evaluated → Option (Evaluation IS)) {c : Course IS}
    (h : c.Clean) : c.Goes means [] c :=
  ⟨h, by simp, rfl⟩

theorem Course.Goes.trans {means : Evaluated → Option (Evaluation IS)} {c d e : Course IS}
    {xs ys : List Evaluated} (h : c.Goes means xs d) (h' : d.Goes means ys e) :
    c.Goes means (xs ++ ys) e where
  before := h.before
  trace := by rw [h'.trace, h.trace, List.map_append, List.append_assoc]
  is := by rw [h'.is, h.is, replay_append]

theorem Course.evaluate_goes {means : Evaluated → Option (Evaluation IS)} {c : Course IS}
    {what : Evaluated} {evaluation : Evaluation IS} (known : means what = some evaluation)
    (clean : (c.evaluate what evaluation).Clean) :
    c.Goes means [what] (c.evaluate what evaluation) := by
  unfold Course.evaluate at clean ⊢
  split at clean
  · rename_i thrown
    rw [clean.thrown] at thrown
    cases thrown
  · rename_i going
    have ok : (evaluation c.is).2 = none :=
      clean.trace (what, (evaluation c.is).2) (List.mem_append_right _ (.head _))
    rw [if_neg going]
    refine ⟨⟨by simpa using going, fun e he => clean.trace e (List.mem_append_left _ he)⟩, ?_, ?_⟩
    · simp [ok]
    · simp [replay, known]

theorem Course.fold_goes (means : Evaluated → Option (Evaluation IS)) {α : Type}
    (step : Course IS → α → Course IS) (entries : α → List Evaluated) (xs : List α)
    (goes : ∀ x ∈ xs, ∀ c, (step c x).Clean → c.Goes means (entries x) (step c x))
    {c : Course IS} (clean : (xs.foldl step c).Clean) :
    c.Goes means (xs.flatMap entries) (xs.foldl step c) := by
  induction xs generalizing c with
  | nil => exact .refl means clean
  | cons x rest ih =>
    have later := ih (fun y hy => goes y (.tail _ hy)) clean
    have first := goes x (.head _) c later.before
    exact first.trans later

structure Known (means : Evaluated → Option (Evaluation IS)) (s : TemplateState IS D) : Prop where
  effects : ∀ i e, s.effects[i]? = some e → means (.effect s.place i) = some e.apply

theorem Course.applyEffects_goes {means : Evaluated → Option (Evaluation IS)}
    {s : TemplateState IS D} (known : Known means s) {c : Course IS}
    (clean : (c.applyEffects s).Clean) :
    c.Goes means (effectsOf s.place s.effects.length) (c.applyEffects s) := by
  have goes := Course.fold_goes means
    (fun (c : Course IS) (e : Effect IS × Nat) => c.evaluate (.effect s.place e.2) e.1.apply)
    (fun e => [.effect s.place e.2]) s.effects.zipIdx
    (fun e he c clean => by
      have at' : s.effects[e.2]? = some e.1 := List.mem_zipIdx_iff_getElem?.mp he
      exact c.evaluate_goes (known.effects e.2 e.1 at') clean) clean
  have entries : s.effects.zipIdx.flatMap (fun e => [Evaluated.effect s.place e.2]) =
      effectsOf s.place s.effects.length := by
    rw [effectsOf, List.range_eq_range', ← List.zipIdx_map_snd, List.map_map]
    exact List.map_eq_flatMap.symm
  rw [← entries]
  exact goes

/-- The state of a template, with what it holds if the template holds and if it does not. -/
structure Checks (draws : Nat → D) (place : Nat) (is : IS) (t : Template IS D)
    (s : TemplateState IS D) : Prop where
  place : s.place = place
  satisfied : (s.comparesSatisfied && s.indicatorsSatisfied && s.triggersSatisfied) = t.holds is
  effects : t.holds is = true → s.effects = t.firedEffects doubles draws
  behaviour : t.holds is = true → s.behaviour = t.firedBehaviour doubles draws
  unchosen : t.holds is = false → s.behaviour = t.currBehaviour []

theorem missing_eq_zero {is : IS} {ps : List (Precondition IS)} {n : Nat}
    (h : missing is ps = some n) : (n = 0) ↔ ps.all (fun c => c.isValid is = some true) = true := by
  induction ps generalizing n with
  | nil =>
    cases h
    simp
  | cons c rest ih =>
    obtain ⟨result, valid, h⟩ := Option.bind_eq_some_iff.mp h
    obtain ⟨others, found, h⟩ := Option.bind_eq_some_iff.mp h
    cases h
    cases result with
    | true =>
      simp only [if_true, List.all_cons, valid, decide_true, Bool.true_and]
      exact ih found
    | false => simp [valid]

theorem checkTemplate_checks {t : Template IS D} {draws : Nat → D} {place : Nat} {is : IS}
    {s : TemplateState IS D} (h : t.checkTemplate doubles draws place is = some s) :
    Checks doubles draws place is t s := by
  obtain ⟨compares, hc, h⟩ := Option.bind_eq_some_iff.mp h
  obtain ⟨indicators, hi, h⟩ := Option.bind_eq_some_iff.mp h
  obtain ⟨triggers, ht, h⟩ := Option.bind_eq_some_iff.mp h
  cases h
  have all : (compares = 0 ∧ indicators = 0 ∧ triggers = 0) ↔ t.holds is = true := by
    rw [missing_eq_zero hc, missing_eq_zero hi, missing_eq_zero ht]
    simp only [Template.holds, List.all_append, Bool.and_eq_true, and_assoc]
  have none : compares + indicators + triggers = 0 ↔ t.holds is = true := by
    rw [← all]
    omega
  refine ⟨rfl, ?_, ?_, ?_, ?_⟩
  · rw [Bool.eq_iff_iff, ← all]
    simp [and_assoc]
  · intro holds
    simp only [if_pos (none.mpr holds)]
    rfl
  · intro holds
    simp only [if_pos (none.mpr holds)]
    rfl
  · intro fails
    have some : ¬ (compares + indicators + triggers = 0) := by
      rw [none, fails]
      simp
    simp only [if_neg some]

theorem checkAll_checks {draws : Nat → Nat → D} {is : IS} {templates : List (Template IS D)}
    {place : Nat} {states : List (TemplateState IS D)}
    (h : checkAll doubles draws is templates place = some states) :
    ∀ s ∈ states, ∃ i t, templates[i]? = some t ∧
      Checks doubles (draws (place + i)) (place + i) is t s := by
  induction templates generalizing place states with
  | nil =>
    cases h
    simp
  | cons t rest ih =>
    obtain ⟨state, checked, h⟩ := Option.bind_eq_some_iff.mp h
    obtain ⟨others, checkedRest, h⟩ := Option.bind_eq_some_iff.mp h
    cases h
    intro s member
    rcases List.mem_cons.mp member with rfl | later
    · exact ⟨0, t, rfl, checkTemplate_checks doubles checked⟩
    · obtain ⟨i, t', found, checks⟩ := ih checkedRest s later
      refine ⟨i + 1, t', by simpa using found, ?_⟩
      rw [show place + (i + 1) = place + 1 + i by omega]
      exact checks

theorem isISUpdate_eq {draws : Nat → D} {place : Nat} {is : IS} {t : Template IS D}
    {s : TemplateState IS D} (h : Checks doubles draws place is t s) :
    isISUpdate s = (t.holds is && (!(t.firedEffects doubles draws).isEmpty &&
      (t.firedBehaviour doubles draws).isNone)) := by
  unfold isISUpdate
  rw [h.satisfied]
  cases holds : t.holds is with
  | false => rfl
  | true => rw [h.effects holds, h.behaviour holds]

theorem updates_entries {draws : Nat → Nat → D} {is : IS} {templates : List (Template IS D)}
    {place : Nat} {states : List (TemplateState IS D)}
    (h : checkAll doubles draws is templates place = some states) :
    (states.filter isISUpdate).flatMap (fun s => effectsOf s.place s.effects.length) =
      updatesOf doubles draws is templates place := by
  induction templates generalizing place states with
  | nil =>
    cases h
    rfl
  | cons t rest ih =>
    obtain ⟨state, checked, h⟩ := Option.bind_eq_some_iff.mp h
    obtain ⟨others, checkedRest, h⟩ := Option.bind_eq_some_iff.mp h
    cases h
    have checks := checkTemplate_checks doubles checked
    rw [updatesOf, ← ih checkedRest, updateOf, ← isISUpdate_eq doubles checks]
    cases update : isISUpdate state with
    | false => simp [update]
    | true =>
      have holds : t.holds is = true := by
        rw [isISUpdate_eq doubles checks, Bool.and_eq_true] at update
        exact update.1
      rw [List.filter_cons_of_pos update, List.flatMap_cons, checks.effects holds, checks.place]
      rfl

structure Alike (s s' : TemplateState IS D) : Prop where
  place : s'.place = s.place
  effects : s'.effects = s.effects
  behaviour : s'.behaviour = s.behaviour

theorem bestOf_mem {qualityOf : TemplateState IS D → D} {states : List (TemplateState IS D)}
    {quality : D} {best : Option (TemplateState IS D)} {s : TemplateState IS D}
    (h : bestOf doubles qualityOf states quality best = some s) : s ∈ states ∨ best = some s := by
  induction states generalizing quality best with
  | nil => exact .inr h
  | cons first rest ih =>
    unfold bestOf at h
    split at h
    · rcases ih h with later | here
      · exact .inl (.tail _ later)
      · cases here
        exact .inl (.head _)
    · rcases ih h with later | before
      · exact .inl (.tail _ later)
      · exact .inr before

theorem selectTemplate_mem {recent : List Text} {states : List (TemplateState IS D)}
    {s' : TemplateState IS D} (h : selectTemplate doubles recent states = some s') :
    ∃ s ∈ states, Alike s s' := by
  unfold selectTemplate at h
  split at h
  · cases h
    exact ⟨s', .head _, rfl, rfl, rfl⟩
  · rcases bestOf_mem doubles h with member | none
    · obtain ⟨s, there, rfl⟩ := List.mem_map.mp member
      refine ⟨s, there, ?_⟩
      split
      · exact ⟨rfl, rfl, rfl⟩
      · exact ⟨rfl, rfl, rfl⟩
    · cases none

theorem known_of_checks {templates : List (Template IS D)} {draws : Nat → Nat → D} {is : IS}
    {i : Nat} {t : Template IS D} {s : TemplateState IS D} (found : templates[i]? = some t)
    (checks : Checks doubles (draws i) i is t s) (holds : t.holds is = true) :
    Known (meaning doubles templates draws) s where
  effects j e at' := by
    rw [checks.effects holds] at at'
    simp [meaning, checks.place, found, at']

theorem known_alike {means : Evaluated → Option (Evaluation IS)} {s s' : TemplateState IS D}
    (known : Known means s) (alike : Alike s s') : Known means s' where
  effects i e at' := by
    rw [alike.place]
    exact known.effects i e (alike.effects ▸ at')

theorem Course.executeBehaviour_goes {means : Evaluated → Option (Evaluation IS)}
    {s : TemplateState IS D} {c : Course IS}
    (known : ∀ b, s.behaviour = some b → means (.execute s.place) = some b.execute)
    (clean : (c.executeBehaviour s).Clean) :
    s.behaviour.isSome ∧ c.Goes means [.execute s.place] (c.executeBehaviour s) := by
  unfold Course.executeBehaviour at clean ⊢
  cases behaviour : s.behaviour with
  | some b =>
    simp only [behaviour] at clean ⊢
    exact ⟨rfl, c.evaluate_goes (known b behaviour) clean⟩
  | none =>
    simp only [behaviour] at clean
    have thrown := clean.thrown
    split at thrown
    · rename_i before
      rw [thrown] at before
      cases before
    · cases thrown

/-- What comes before the updates: nothing, one preparation, or the effects and the behaviour of
one template that holds. -/
inductive Front (templates : List (Template IS D)) (draws : Nat → Nat → D) (is : IS) :
    List Evaluated → Prop where
  | idle : Front templates draws is []
  | prepared (place : Nat) : Front templates draws is [.prepare place]
  | executed (place : Nat) (t : Template IS D) (found : templates[place]? = some t)
      (holds : t.holds is = true)
      (behaviour : (t.firedBehaviour doubles (draws place)).isSome = true) :
      Front templates draws is
        (effectsOf place (t.firedEffects doubles (draws place)).length ++ [.execute place])

theorem runOrPrepare_front {templates : List (Template IS D)} {draws : Nat → Nat → D} {is : IS}
    {states : List (TemplateState IS D)} {recent : List Text}
    (checked : checkAll doubles draws is templates 0 = some states)
    (clean : (runOrPrepare doubles recent is states).course.Clean) :
    ∃ front, Front doubles templates draws is front ∧
      Course.Goes (meaning doubles templates draws) { is := is } front
        (runOrPrepare doubles recent is states).course := by
  have fresh : Course.Clean { is := is } := ⟨rfl, fun e he => by cases he⟩
  have places (s : TemplateState IS D) (hs : s ∈ states) : ∃ i t, templates[i]? = some t ∧
      Checks doubles (draws i) i is t s := by
    simpa using checkAll_checks doubles checked s hs
  simp only [runOrPrepare] at clean ⊢
  split at clean
  · rename_i runnable
    rw [if_pos runnable]
    cases selected : selectTemplate doubles recent (states.filter isToRun) with
    | none =>
      rw [selected] at clean
      cases clean.thrown
    | some s' =>
      rw [selected] at clean
      obtain ⟨s, member, alike⟩ := selectTemplate_mem doubles selected
      obtain ⟨there, toRun⟩ := List.mem_filter.mp member
      obtain ⟨i, t, found, checks⟩ := places s there
      have holds : t.holds is = true := by
        rw [← checks.satisfied]
        simp only [isToRun, Bool.and_eq_true] at toRun ⊢
        exact toRun.1
      have behaviour : s'.behaviour = t.firedBehaviour doubles (draws i) :=
        alike.behaviour.trans (checks.behaviour holds)
      have place : s'.place = i := alike.place.trans checks.place
      have effects : s'.effects = t.firedEffects doubles (draws i) :=
        alike.effects.trans (checks.effects holds)
      have execute (b : Behaviour IS D) (hb : s'.behaviour = some b) :
          meaning doubles templates draws (.execute s'.place) = some b.execute := by
        rw [behaviour] at hb
        simp [meaning, place, found, hb]
      obtain ⟨present, executed⟩ := Course.executeBehaviour_goes execute clean
      have applied := Course.applyEffects_goes
        (known_alike (known_of_checks doubles found checks holds) alike) executed.before
      rw [behaviour] at present
      rw [place, effects] at applied
      rw [place] at executed
      exact ⟨_, .executed i t found holds present, applied.trans executed⟩
  · rename_i nothing
    rw [if_neg nothing]
    simp only [prepareBest] at clean ⊢
    cases best : bestToPrepare doubles (states.filter isToPrepare) with
    | none => exact ⟨_, .idle, .refl _ fresh⟩
    | some s =>
      have member : s ∈ states.filter isToPrepare := by
        rcases bestOf_mem doubles best with member | head
        · exact member
        · exact List.mem_of_mem_head? head
      obtain ⟨there, toPrepare⟩ := List.mem_filter.mp member
      obtain ⟨i, t, found, checks⟩ := places s there
      have fails : t.holds is = false := by
        rw [← checks.satisfied]
        simp only [isToPrepare, Bool.and_eq_true, Bool.not_eq_true'] at toPrepare
        simp [toPrepare.1.2]
      simp only [best] at clean ⊢
      cases behaviour : s.behaviour with
      | none => exact ⟨_, .idle, .refl _ fresh⟩
      | some b =>
        simp only [behaviour] at clean ⊢
        rw [checks.unchosen fails] at behaviour
        have known : meaning doubles templates draws (.prepare s.place) = some b.prepare := by
          simp [meaning, checks.place, found, behaviour]
        exact ⟨_, .prepared s.place, Course.evaluate_goes known clean⟩

theorem checkTemplates_trace {c : TemplateController IS D} {draws : Nat → Nat → D} {is : IS}
    {checked : Checked IS D} (h : c.checkTemplates doubles draws is = some checked)
    (clean : checked.course.Clean) :
    ∃ front, Front doubles c.templates draws is front ∧
      Course.Goes (meaning doubles c.templates draws) { is := is }
        (front ++ updatesOf doubles draws is c.templates 0) checked.course := by
  obtain ⟨states, all, h⟩ := Option.bind_eq_some_iff.mp h
  cases h
  have known (s : TemplateState IS D) (hs : s ∈ states.filter isISUpdate) :
      Known (meaning doubles c.templates draws) s := by
    obtain ⟨there, update⟩ := List.mem_filter.mp hs
    obtain ⟨i, t, found, checks⟩ := checkAll_checks doubles all s there
    rw [Nat.zero_add] at checks
    refine known_of_checks doubles found checks ?_
    rw [isISUpdate_eq doubles checks, Bool.and_eq_true] at update
    exact update.1
  have updated := Course.fold_goes (meaning doubles c.templates draws)
    (fun (c : Course IS) (s : TemplateState IS D) => c.applyEffects s)
    (fun s => effectsOf s.place s.effects.length) (states.filter isISUpdate)
    (fun s hs c clean => Course.applyEffects_goes (known s hs) clean) clean
  rw [updates_entries doubles all] at updated
  obtain ⟨front, isFront, run⟩ := runOrPrepare_front doubles all updated.before
  exact ⟨front, isFront, run.trans updated⟩

def Evaluated.isExecute : Evaluated → Bool
  | .execute _ => true
  | _ => false

def Checked.evaluated (checked : Checked IS D) : List Evaluated :=
  checked.course.trace.map Prod.fst

theorem effectsOf_isExecute {place count : Nat} :
    ∀ e ∈ effectsOf place count, e.isExecute = false := by
  intro e he
  obtain ⟨i, -, rfl⟩ := List.mem_map.mp he
  rfl

theorem updatesOf_isExecute {draws : Nat → Nat → D} {is : IS} {templates : List (Template IS D)}
    {place : Nat} : ∀ e ∈ updatesOf doubles draws is templates place, e.isExecute = false := by
  induction templates generalizing place with
  | nil => simp [updatesOf]
  | cons t rest ih =>
    intro e he
    rcases List.mem_append.mp he with here | later
    · unfold updateOf at here
      split at here
      · exact effectsOf_isExecute e here
      · cases here
    · exact ih e later

/-- At most one behaviour is executed; it belongs to a template that held at the start, whose
effects come right before it; the effects of the templates that held and have no behaviour come
after it; and there is nothing else that changes the information state. -/
def FiresRight (c : TemplateController IS D) (draws : Nat → Nat → D) (is : IS)
    (checked : Checked IS D) : Prop :=
  checked.evaluated.countP Evaluated.isExecute ≤ 1 ∧
  (∀ place, .execute place ∈ checked.evaluated → ∃ t, c.templates[place]? = some t ∧
    t.holds is = true ∧ checked.evaluated =
      effectsOf place (t.firedEffects doubles (draws place)).length ++
        .execute place :: updatesOf doubles draws is c.templates 0) ∧
  ((∀ place, .execute place ∉ checked.evaluated) →
    checked.evaluated = updatesOf doubles draws is c.templates 0 ∨
    ∃ place, checked.evaluated = .prepare place :: updatesOf doubles draws is c.templates 0) ∧
  checked.course.is = replay (meaning doubles c.templates draws) checked.evaluated is

theorem clean_fires {c : TemplateController IS D} {draws : Nat → Nat → D} {is : IS}
    {checked : Checked IS D} (h : c.checkTemplates doubles draws is = some checked)
    (clean : checked.course.Clean) : FiresRight doubles c draws is checked := by
  obtain ⟨front, isFront, goes⟩ := checkTemplates_trace doubles h clean
  have all : checked.evaluated = front ++ updatesOf doubles draws is c.templates 0 := by
    rw [Checked.evaluated, goes.trace]
    simp [Function.comp_def]
  have quiet (place : Nat) : .execute place ∉ updatesOf doubles draws is c.templates 0 := by
    intro member
    cases updatesOf_isExecute doubles _ member
  have none : (updatesOf doubles draws is c.templates 0).countP Evaluated.isExecute = 0 := by
    rw [List.countP_eq_zero]
    intro e he
    simp [updatesOf_isExecute doubles e he]
  unfold FiresRight
  rw [goes.is, all]
  cases isFront with
  | idle =>
    refine ⟨by simp [none], ?_, fun _ => .inl rfl, rfl⟩
    intro place member
    exact absurd member (quiet place)
  | prepared place =>
    refine ⟨by simp [none, Evaluated.isExecute], ?_, fun _ => .inr ⟨place, rfl⟩, rfl⟩
    intro place' member
    rcases List.mem_cons.mp member with eq | later
    · cases eq
    · exact absurd later (quiet place')
  | executed place t found holds behaviour =>
    have effects : (effectsOf place (t.firedEffects doubles (draws place)).length).countP
        Evaluated.isExecute = 0 := by
      rw [List.countP_eq_zero]
      intro e he
      simp [effectsOf_isExecute e he]
    refine ⟨?_, ?_, ?_, rfl⟩
    · simp [List.countP_append, List.countP_cons, none, effects, Evaluated.isExecute]
    · intro place' member
      simp only [List.append_assoc, List.cons_append, List.nil_append, List.mem_append,
        List.mem_cons] at member
      rcases member with inEffects | here | later
      · cases effectsOf_isExecute _ inEffects
      · cases here
        exact ⟨t, found, holds, by simp⟩
      · exact absurd later (quiet place')
    · intro never
      exact absurd (by simp) (never place)

/-- What has ended the course is the failure of an evaluation. -/
def Course.Explained (c : Course IS) : Prop := c.thrown ≠ none → ∃ e ∈ c.trace, e.2 ≠ none

namespace Course

theorem evaluate_explained {c : Course IS} (what : Evaluated) (evaluation : Evaluation IS)
    (h : c.Explained) : (c.evaluate what evaluation).Explained := by
  unfold evaluate
  split
  · exact h
  · intro thrown
    refine ⟨(what, (evaluation c.is).2), List.mem_append_right _ (.head _), ?_⟩
    rintro (ok : (evaluation c.is).2 = none)
    simp only [ok] at thrown
    exact thrown rfl

theorem applyEffects_explained (s : TemplateState IS D) {c : Course IS} (h : c.Explained) :
    (c.applyEffects s).Explained := by
  unfold applyEffects
  induction s.effects.zipIdx generalizing c with
  | nil => exact h
  | cons e rest ih => exact ih (evaluate_explained _ _ h)

theorem applyUpdates_explained (updates : List (TemplateState IS D)) {c : Course IS}
    (h : c.Explained) : (applyUpdates c updates).Explained := by
  unfold applyUpdates
  induction updates generalizing c with
  | nil => exact h
  | cons s rest ih => exact ih (applyEffects_explained s h)

theorem applyEffects_stays (s : TemplateState IS D) {c : Course IS}
    (thrown : c.thrown.isSome = true) : c.applyEffects s = c := by
  unfold applyEffects
  induction s.effects.zipIdx with
  | nil => rfl
  | cons e rest ih =>
    rw [List.foldl_cons, evaluate, if_pos thrown]
    exact ih

theorem applyUpdates_stays (updates : List (TemplateState IS D)) {c : Course IS}
    (thrown : c.thrown.isSome = true) : applyUpdates c updates = c := by
  unfold applyUpdates
  induction updates with
  | nil => rfl
  | cons s rest ih =>
    rw [List.foldl_cons, applyEffects_stays s thrown]
    exact ih

end Course

/-- If there is anything to run, the template that is selected has a behaviour. -/
def SelectsBehaviour (recent : List Text) (states : List (TemplateState IS D)) : Prop :=
  states.filter isToRun = [] ∨
    ∃ s, selectTemplate doubles recent (states.filter isToRun) = some s ∧ s.behaviour.isSome = true

theorem runOrPrepare_explained (is : IS) {recent : List Text}
    {states : List (TemplateState IS D)} (selects : SelectsBehaviour doubles recent states) :
    (runOrPrepare doubles recent is states).course.Explained := by
  have fresh : Course.Explained { is := is } := fun thrown => absurd rfl thrown
  unfold runOrPrepare
  rcases selects with nothing | ⟨s, selected, present⟩
  · simp only [nothing, List.length_nil, Nat.lt_irrefl, gt_iff_lt, if_false]
    unfold prepareBest
    split
    · exact fresh
    · split
      · exact Course.evaluate_explained _ _ fresh
      · exact fresh
  · have runnable : (states.filter isToRun).length > 0 := by
      apply List.length_pos_iff.mpr
      intro nothing
      simp [nothing, selectTemplate, modifyQualityBasedOnHistory, getBestTemplate, bestOf]
        at selected
    obtain ⟨b, behaviour⟩ := Option.isSome_iff_exists.mp present
    simp only [if_pos runnable, selected, runSelected, Course.executeBehaviour, behaviour]
    exact Course.evaluate_explained _ _ (Course.applyEffects_explained s fresh)

theorem runOrPrepare_nullPointer (is : IS) {recent : List Text}
    {states : List (TemplateState IS D)} (selects : ¬ SelectsBehaviour doubles recent states) :
    (runOrPrepare doubles recent is states).course = { is := is, thrown := some .runtime } := by
  rw [SelectsBehaviour, not_or] at selects
  have runnable : (states.filter isToRun).length > 0 := List.length_pos_iff.mpr selects.1
  unfold runOrPrepare
  dsimp only
  rw [if_pos runnable]
  cases selected : selectTemplate doubles recent (states.filter isToRun) with
  | none => rfl
  | some s =>
    have behaviour : s.behaviour = none := by
      by_contra present
      exact selects.2 ⟨s, selected, Option.isSome_iff_ne_none.mpr present⟩
    obtain ⟨s', member, alike⟩ := selectTemplate_mem doubles selected
    have toRun := (List.mem_filter.mp member).2
    have effects : s.effects = [] := by
      rw [isToRun, ← alike.behaviour, ← alike.effects, behaviour] at toRun
      simpa using (Bool.and_eq_true_iff.mp toRun).2
    simp [runSelected, Course.applyEffects, Course.executeBehaviour, behaviour, effects,
      Course.throwRuntime]

/-- If no evaluation fails, the right effects and behaviours are evaluated exactly if the selected
template has a behaviour or there is no update to apply after it. -/
theorem checkTemplates_fires {c : TemplateController IS D} {draws : Nat → Nat → D} {is : IS}
    {checked : Checked IS D} (h : c.checkTemplates doubles draws is = some checked)
    (quiet : ∀ e ∈ checked.course.trace, e.2 = none) :
    FiresRight doubles c draws is checked ↔
      (∀ states, checkAll doubles draws is c.templates 0 = some states →
        SelectsBehaviour doubles c.recentRunTemplates states) ∨
      updatesOf doubles draws is c.templates 0 = [] := by
  obtain ⟨states, all, result⟩ := Option.bind_eq_some_iff.mp h
  by_cases selects : SelectsBehaviour doubles c.recentRunTemplates states
  · have explained : checked.course.Explained := by
      cases result
      exact Course.applyUpdates_explained _ (runOrPrepare_explained doubles is selects)
    have thrown : checked.course.thrown = none := by
      by_contra thrown
      obtain ⟨e, member, failed⟩ := explained thrown
      exact failed (quiet e member)
    refine iff_of_true (clean_fires doubles h ⟨thrown, quiet⟩) (.inl fun states' all' => ?_)
    rw [all] at all'
    cases all'
    exact selects
  · have course : checked.course = { is := is, thrown := some .runtime } := by
      cases result
      rw [← runOrPrepare_nullPointer doubles is selects]
      apply Course.applyUpdates_stays
      rw [runOrPrepare_nullPointer doubles is selects]
      rfl
    have nothing : checked.evaluated = [] := by
      rw [Checked.evaluated, course]
      rfl
    rw [or_iff_right fun always => selects (always states all)]
    unfold FiresRight
    rw [nothing, course]
    constructor
    · rintro ⟨-, -, updates, -⟩
      rcases updates nofun with same | ⟨place, same⟩
      · exact same.symm
      · cases same
    · intro none
      rw [none]
      exact ⟨Nat.zero_le _, nofun, fun _ => .inl rfl, rfl⟩

def note (n : Nat) : Evaluation (List Nat) := fun is => (is ++ [n], none)

def threeTemplates : TemplateController (List Nat) Rat where
  templates :=
    [{ id := "update".toList, effects := [⟨note 4⟩] },
      { id := "greeting".toList, compares := [⟨fun is => some is.isEmpty⟩]
        effects := [⟨note 1⟩, ⟨note 2⟩]
        behaviour := some { quality := 1, execute := note 3, prepare := note 0 } },
      { id := "other".toList, triggers := [⟨fun is => some !is.isEmpty⟩], effects := [⟨note 5⟩] }]

theorem threeTemplates_fire : ∃ checked,
    threeTemplates.checkTemplates exact (fun _ _ => 0) [] = some checked ∧
      checked.course.is = [1, 2, 3, 4] ∧
      (FiresRight exact threeTemplates (fun _ _ => 0) [] checked ↔
        (∀ states, checkAll exact (fun _ _ => 0) [] threeTemplates.templates 0 = some states →
          SelectsBehaviour exact threeTemplates.recentRunTemplates states) ∨
        updatesOf exact (fun _ _ => 0) [] threeTemplates.templates 0 = []) := by
  obtain ⟨checked, h, quiet, is⟩ : ∃ checked,
      threeTemplates.checkTemplates exact (fun _ _ => 0) [] = some checked ∧
        (∀ e ∈ checked.course.trace, e.2 = none) ∧ checked.course.is = [1, 2, 3, 4] := by
    refine ⟨_, rfl, ?_, rfl⟩
    decide
  exact ⟨checked, h, is, checkTemplates_fires exact h quiet⟩

def emptyAndUpdate : TemplateController (List Nat) Rat where
  templates := [{ id := "empty".toList }, { id := "update".toList, effects := [⟨note 1⟩] }]

/-- The template without effects and behaviour is the one to run: its behaviour is null, and the
update is not applied. -/
theorem emptyAndUpdate_notApplied : ∃ checked,
    emptyAndUpdate.checkTemplates exact (fun _ _ => 0) [] = some checked ∧
      (∀ e ∈ checked.course.trace, e.2 = none) ∧ checked.course.thrown = some .runtime ∧
      (∀ t ∈ emptyAndUpdate.templates, t.holds [] = true) ∧ checked.evaluated = [] ∧
      ¬ FiresRight exact emptyAndUpdate (fun _ _ => 0) [] checked := by
  refine ⟨_, rfl, nofun, rfl, by decide, rfl, ?_⟩
  rintro ⟨-, -, updates, -⟩
  rcases updates nofun with same | ⟨place, same⟩
  · revert same
    decide
  · cases same

end Semaine.Dialogue
