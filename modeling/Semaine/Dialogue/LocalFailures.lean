import Semaine.Dialogue.TemplateEffects

/-! When a check of the templates returns normally: what it evaluates must raise no exception
other than a TemplateRunException, in the states in which it is evaluated. -/
namespace Semaine.Dialogue
open JavaText JavaFloat

variable {IS D : Type} (doubles : Doubles D)

/-- No entry raises an exception that is not caught, in the state that those before it leave. -/
def Quiet (means : Evaluated → Option (Evaluation IS)) (endures : Evaluated → IS → Prop) :
    List Evaluated → IS → Prop
  | [], _ => True
  | e :: rest, is =>
    endures e is ∧ Quiet means endures rest (((means e).map (fun f => (f is).1)).getD is)

theorem quiet_append (means : Evaluated → Option (Evaluation IS))
    (endures : Evaluated → IS → Prop) (xs ys : List Evaluated) (is : IS) :
    Quiet means endures (xs ++ ys) is ↔
      Quiet means endures xs is ∧ Quiet means endures ys (replay means xs is) := by
  induction xs generalizing is with
  | nil => exact ⟨fun h => ⟨trivial, h⟩, fun h => h.2⟩
  | cons e rest ih =>
    simp only [List.cons_append, Quiet, replay, ih]
    exact and_assoc.symm

/-- The evaluation that an entry means ends normally or in a TemplateRunException. -/
def Caught (means : Evaluated → Option (Evaluation IS)) (e : Evaluated) (is : IS) : Prop :=
  ∀ f, means e = some f → (f is).2 ≠ some .runtime

structure Course.Proceeds (means : Evaluated → Option (Evaluation IS)) (c : Course IS)
    (entries : List Evaluated) (c' : Course IS) : Prop where
  goes : c.thrown = none → (c'.thrown = none ↔ Quiet means (Caught means) entries c.is)
  stays : c.thrown ≠ none → c'.thrown ≠ none
  is : c'.thrown = none → c'.is = replay means entries c.is
  trace : c'.thrown = none → c'.trace.map Prod.fst = c.trace.map Prod.fst ++ entries

namespace Course

variable {means : Evaluated → Option (Evaluation IS)} {c d e : Course IS}
  {xs ys : List Evaluated}

theorem Proceeds.before (h : c.Proceeds means xs d) (going : d.thrown = none) :
    c.thrown = none := by
  by_contra thrown
  exact h.stays thrown going

theorem Proceeds.refl (means : Evaluated → Option (Evaluation IS)) (c : Course IS) :
    c.Proceeds means [] c where
  goes going := ⟨fun _ => trivial, fun _ => going⟩
  stays h := h
  is _ := rfl
  trace _ := by rw [List.append_nil]

theorem Proceeds.trans (h : c.Proceeds means xs d) (h' : d.Proceeds means ys e) :
    c.Proceeds means (xs ++ ys) e where
  goes going := by
    rw [quiet_append]
    constructor
    · intro ended
      have middle := h'.before ended
      have quiet := (h'.goes middle).mp ended
      rw [h.is middle] at quiet
      exact ⟨(h.goes going).mp middle, quiet⟩
    · rintro ⟨first, second⟩
      have middle := (h.goes going).mpr first
      rw [← h.is middle] at second
      exact (h'.goes middle).mpr second
  stays thrown := h'.stays (h.stays thrown)
  is ended := by rw [h'.is ended, h.is (h'.before ended), replay_append]
  trace ended := by
    rw [h'.trace ended, h.trace (h'.before ended), List.append_assoc]

theorem evaluate_proceeds {what : Evaluated} {evaluation : Evaluation IS}
    (known : means what = some evaluation) :
    c.Proceeds means [what] (c.evaluate what evaluation) := by
  unfold evaluate
  cases before : c.thrown with
  | some failure =>
    rw [if_pos Option.isSome_some]
    refine ⟨fun going => ?_, fun _ => ?_, fun ended => ?_, fun ended => ?_⟩
    · rw [before] at going
      cases going
    · rw [before]
      exact nofun
    · rw [before] at ended
      cases ended
    · rw [before] at ended
      cases ended
  | none =>
    rw [if_neg (by simp)]
    refine ⟨fun _ => ?_, fun thrown => absurd before thrown, fun _ => ?_, fun _ => ?_⟩
    · have caught : Caught means what c.is ↔ (evaluation c.is).2 ≠ some .runtime := by
        unfold Caught
        rw [known]
        simp
      simp only [Quiet, caught, and_true]
      split <;> simp_all
    · simp [replay, known]
    · simp

theorem fold_proceeds {α : Type} (step : Course IS → α → Course IS)
    (entries : α → List Evaluated) (xs : List α)
    (proceeds : ∀ x ∈ xs, ∀ c : Course IS, c.Proceeds means (entries x) (step c x))
    (c : Course IS) : c.Proceeds means (xs.flatMap entries) (xs.foldl step c) := by
  induction xs generalizing c with
  | nil => exact .refl means c
  | cons x rest ih =>
    have first := proceeds x (.head _) c
    exact first.trans (ih (fun y member => proceeds y (.tail _ member)) _)

theorem applyEffects_proceeds {s : TemplateState IS D} (known : Known means s) (c : Course IS) :
    c.Proceeds means (effectsOf s.place s.effects.length) (c.applyEffects s) := by
  have entries : s.effects.zipIdx.flatMap (fun e => [Evaluated.effect s.place e.2]) =
      effectsOf s.place s.effects.length := by
    rw [effectsOf, List.range_eq_range', ← List.zipIdx_map_snd, List.map_map]
    exact List.map_eq_flatMap.symm
  rw [← entries]
  apply fold_proceeds
  intro e member c
  exact c.evaluate_proceeds (known.effects e.2 e.1 (List.mem_zipIdx_iff_getElem?.mp member))

theorem executeBehaviour_proceeds {s : TemplateState IS D} {b : Behaviour IS D}
    (behaviour : s.behaviour = some b) (known : means (.execute s.place) = some b.execute)
    (c : Course IS) : c.Proceeds means [.execute s.place] (c.executeBehaviour s) := by
  unfold executeBehaviour
  rw [behaviour]
  exact evaluate_proceeds known

theorem executeBehaviour_thrown {s : TemplateState IS D} (behaviour : s.behaviour = none)
    (c : Course IS) : (c.executeBehaviour s).thrown ≠ none := by
  unfold executeBehaviour
  rw [behaviour]
  dsimp only
  split
  · rename_i before
    intro none
    rw [none] at before
    cases before
  · exact nofun

end Course

/-- What is evaluated before the updates: the effects and the behaviour of the selected template,
or one preparation. There is no such plan if no template can be selected or if the selected one
has no behaviour. -/
def front (recentRunTemplates : List Text) (states : List (TemplateState IS D)) :
    Option (List Evaluated) :=
  if (states.filter isToRun).length > 0 then
    (selectTemplate doubles recentRunTemplates (states.filter isToRun)).bind fun s =>
      s.behaviour.map fun _ => effectsOf s.place s.effects.length ++ [.execute s.place]
  else
    some (((bestToPrepare doubles (states.filter isToPrepare)).bind fun s =>
      s.behaviour.map fun _ => [Evaluated.prepare s.place]).getD [])

theorem checks_places {templates : List (Template IS D)} {draws : Nat → Nat → D} {is : IS}
    {states : List (TemplateState IS D)}
    (checked : checkAll doubles draws is templates 0 = some states) :
    ∀ s ∈ states, ∃ i t, templates[i]? = some t ∧ Checks doubles (draws i) i is t s := by
  intro s member
  obtain ⟨i, t, found, checks⟩ := checkAll_checks doubles checked s member
  rw [Nat.zero_add] at checks
  exact ⟨i, t, found, checks⟩

theorem runSelected_proceeds {templates : List (Template IS D)} {draws : Nat → Nat → D}
    {is : IS} {states : List (TemplateState IS D)} {recent : List Text}
    {s' : TemplateState IS D} {b : Behaviour IS D}
    (checked : checkAll doubles draws is templates 0 = some states)
    (selected : selectTemplate doubles recent (states.filter isToRun) = some s')
    (behaviour : s'.behaviour = some b) :
    Course.Proceeds (meaning doubles templates draws) { is := is }
      (effectsOf s'.place s'.effects.length ++ [.execute s'.place])
      (runSelected recent { is := is } (some s')).course := by
  obtain ⟨s, member, alike⟩ := selectTemplate_mem doubles selected
  obtain ⟨there, toRun⟩ := List.mem_filter.mp member
  obtain ⟨i, t, found, checks⟩ := checks_places doubles checked s there
  have holds : t.holds is = true := by
    rw [← checks.satisfied]
    simp only [isToRun, Bool.and_eq_true] at toRun ⊢
    exact toRun.1
  have isFired : t.firedBehaviour doubles (draws i) = some b := by
    rw [← checks.behaviour holds, ← alike.behaviour]
    exact behaviour
  have place : s'.place = i := alike.place.trans checks.place
  have execute : meaning doubles templates draws (.execute s'.place) = some b.execute := by
    simp [meaning, place, found, isFired]
  have known := known_alike (known_of_checks doubles found checks holds) alike
  exact (Course.applyEffects_proceeds known _).trans
    (Course.executeBehaviour_proceeds behaviour execute _)

theorem prepareBest_proceeds {templates : List (Template IS D)} {draws : Nat → Nat → D}
    {is : IS} {states : List (TemplateState IS D)}
    (checked : checkAll doubles draws is templates 0 = some states) :
    Course.Proceeds (meaning doubles templates draws) { is := is }
      (((bestToPrepare doubles (states.filter isToPrepare)).bind fun s =>
        s.behaviour.map fun _ => [Evaluated.prepare s.place]).getD [])
      (prepareBest doubles { is := is } (states.filter isToPrepare)) := by
  unfold prepareBest
  cases best : bestToPrepare doubles (states.filter isToPrepare) with
  | none => exact .refl _ _
  | some s =>
    have member : s ∈ states.filter isToPrepare := by
      rcases bestOf_mem doubles best with member | head
      · exact member
      · exact List.mem_of_mem_head? head
    obtain ⟨there, toPrepare⟩ := List.mem_filter.mp member
    obtain ⟨i, t, found, checks⟩ := checks_places doubles checked s there
    have fails : t.holds is = false := by
      rw [← checks.satisfied]
      simp only [isToPrepare, Bool.and_eq_true, Bool.not_eq_true'] at toPrepare
      simp [toPrepare.1.2]
    cases behaviour : s.behaviour with
    | none =>
      simp only [Option.bind_some, behaviour]
      exact .refl _ _
    | some b =>
      have unchosen := checks.unchosen fails
      rw [behaviour] at unchosen
      have known : meaning doubles templates draws (.prepare s.place) = some b.prepare := by
        simp [meaning, checks.place, found, ← unchosen]
      simp only [Option.bind_some, behaviour]
      exact Course.evaluate_proceeds known

theorem runOrPrepare_proceeds {templates : List (Template IS D)} {draws : Nat → Nat → D}
    {is : IS} {states : List (TemplateState IS D)} {recent : List Text} {entries : List Evaluated}
    (checked : checkAll doubles draws is templates 0 = some states)
    (planned : front doubles recent states = some entries) :
    Course.Proceeds (meaning doubles templates draws) { is := is } entries
      (runOrPrepare doubles recent is states).course := by
  unfold front at planned
  unfold runOrPrepare
  by_cases runnable : (states.filter isToRun).length > 0
  · rw [if_pos runnable] at planned
    dsimp only
    rw [if_pos runnable]
    obtain ⟨s, selected, planned⟩ := Option.bind_eq_some_iff.mp planned
    obtain ⟨b, behaviour, rfl⟩ := Option.map_eq_some_iff.mp planned
    rw [selected]
    exact runSelected_proceeds doubles checked selected behaviour
  · rw [if_neg runnable] at planned
    dsimp only
    rw [if_neg runnable]
    cases planned
    exact prepareBest_proceeds doubles checked

theorem runOrPrepare_thrown (is : IS) {states : List (TemplateState IS D)} {recent : List Text}
    (unplanned : front doubles recent states = none) :
    (runOrPrepare doubles recent is states).course.thrown ≠ none := by
  unfold front at unplanned
  unfold runOrPrepare
  by_cases runnable : (states.filter isToRun).length > 0
  · rw [if_pos runnable] at unplanned
    dsimp only
    rw [if_pos runnable]
    cases selected : selectTemplate doubles recent (states.filter isToRun) with
    | none => exact nofun
    | some s =>
      rw [selected] at unplanned
      have behaviour : s.behaviour = none := by simpa using unplanned
      exact Course.executeBehaviour_thrown behaviour _
  · rw [if_neg runnable] at unplanned
    cases unplanned

theorem updates_proceed {templates : List (Template IS D)} {draws : Nat → Nat → D}
    {is : IS} {states : List (TemplateState IS D)}
    (checked : checkAll doubles draws is templates 0 = some states) (c : Course IS) :
    c.Proceeds (meaning doubles templates draws) (updatesOf doubles draws is templates 0)
      (applyUpdates c (states.filter isISUpdate)) := by
  rw [← updates_entries doubles checked]
  apply Course.fold_proceeds
  intro s member c
  obtain ⟨there, update⟩ := List.mem_filter.mp member
  obtain ⟨i, t, found, checks⟩ := checks_places doubles checked s there
  apply Course.applyEffects_proceeds
  apply known_of_checks doubles found checks
  rw [isISUpdate_eq doubles checks, Bool.and_eq_true] at update
  exact update.1

theorem missing_isSome {is : IS} {ps : List (Precondition IS)} :
    (missing is ps).isSome = true ↔ ∀ p ∈ ps, p.isValid is ≠ none := by
  induction ps with
  | nil => simp [missing]
  | cons p rest ih =>
    unfold missing
    cases valid : p.isValid is with
    | none => simp [valid]
    | some result =>
      rw [List.forall_mem_cons, ← ih]
      cases missing is rest <;> simp [valid]

def Template.preconditions (t : Template IS D) : List (Precondition IS) :=
  t.compares ++ t.indicators ++ t.triggers

theorem checkTemplate_isSome (t : Template IS D) (draws : Nat → D) (place : Nat) (is : IS) :
    (t.checkTemplate doubles draws place is).isSome = true ↔
      ∀ p ∈ t.preconditions, p.isValid is ≠ none := by
  have parts : (∀ p ∈ t.preconditions, p.isValid is ≠ none) ↔
      (missing is t.compares).isSome = true ∧ (missing is t.indicators).isSome = true ∧
        (missing is t.triggers).isSome = true := by
    rw [missing_isSome, missing_isSome, missing_isSome]
    simp only [Template.preconditions, List.forall_mem_append, and_assoc]
  rw [parts]
  unfold Template.checkTemplate
  cases missing is t.compares with
  | none => simp
  | some compares =>
    cases missing is t.indicators with
    | none => simp
    | some indicators => cases missing is t.triggers <;> simp

theorem checkAll_isSome {templates : List (Template IS D)} {draws : Nat → Nat → D} {is : IS}
    {place : Nat} : (checkAll doubles draws is templates place).isSome = true ↔
      ∀ t ∈ templates, ∀ p ∈ t.preconditions, p.isValid is ≠ none := by
  induction templates generalizing place with
  | nil => simp [checkAll]
  | cons t rest ih =>
    have first := checkTemplate_isSome doubles t (draws place) place is
    have later := @ih (place + 1)
    rw [List.forall_mem_cons, ← first, ← later]
    have step : checkAll doubles draws is (t :: rest) place =
        (t.checkTemplate doubles (draws place) place is).bind fun state =>
          (checkAll doubles draws is rest (place + 1)).bind fun others =>
            some (state :: others) := rfl
    rw [step]
    cases t.checkTemplate doubles (draws place) place is with
    | none => simp
    | some state => cases checkAll doubles draws is rest (place + 1) <;> simp

/-- The call returns, and at its end every effect of the templates that held and have no behaviour
has been applied. -/
def FailuresLocal (c : TemplateController IS D) (draws : Nat → Nat → D) (is : IS) : Prop :=
  ∃ checked, c.checkTemplates doubles draws is = some checked ∧ checked.course.thrown = none ∧
    updatesOf doubles draws is c.templates 0 <:+ checked.evaluated

def plan (c : TemplateController IS D) (draws : Nat → Nat → D) (is : IS) :
    Option (List Evaluated) :=
  ((checkAll doubles draws is c.templates 0).bind (front doubles c.recentRunTemplates)).map
    (· ++ updatesOf doubles draws is c.templates 0)

theorem failuresLocal_iff (c : TemplateController IS D) (draws : Nat → Nat → D) (is : IS) :
    FailuresLocal doubles c draws is ↔
      ∃ entries, plan doubles c draws is = some entries ∧
        Quiet (meaning doubles c.templates draws) (Caught (meaning doubles c.templates draws))
          entries is := by
  unfold FailuresLocal plan TemplateController.checkTemplates
  cases checked : checkAll doubles draws is c.templates 0 with
  | none => simp
  | some states =>
    simp only [Option.bind_some]
    cases planned : front doubles c.recentRunTemplates states with
    | none =>
      have thrown := runOrPrepare_thrown doubles is planned
      have updated := updates_proceed doubles checked
        (runOrPrepare doubles c.recentRunTemplates is states).course
      constructor
      · rintro ⟨_, ⟨⟩, going, _⟩
        exact absurd going (updated.stays thrown)
      · rintro ⟨entries, ⟨⟩, _⟩
    | some entries =>
      have first := runOrPrepare_proceeds doubles checked planned
      have whole := first.trans (updates_proceed doubles checked
        (runOrPrepare doubles c.recentRunTemplates is states).course)
      constructor
      · rintro ⟨_, ⟨⟩, going, _⟩
        exact ⟨_, rfl, (whole.goes rfl).mp going⟩
      · rintro ⟨_, ⟨⟩, quiet⟩
        have going := (whole.goes rfl).mpr quiet
        refine ⟨_, rfl, going, ?_⟩
        unfold Checked.evaluated
        rw [whole.trace going]
        exact List.suffix_append _ _

end Semaine.Dialogue
