import Mathlib

/-! Finite runs of a labelled transition relation. A run is grown at its end, so
an invariant is shown for the state before the last step and then for its result. -/
namespace Transition

universe u v

variable {S : Type u} {A : Type v} {step : S → A → S → Prop}

inductive Run (step : S → A → S → Prop) (start : S) : List A → S → Prop where
  | nil : Run step start [] start
  | snoc {as : List A} {a : A} {s t : S} :
      Run step start as s → step s a t → Run step start (as ++ [a]) t

/-- The relation that takes only the steps allowed by a condition on the state before. -/
def Guarded (allowed : S → A → Prop) (step : S → A → S → Prop) (s : S) (a : A) (t : S) : Prop :=
  allowed s a ∧ step s a t

theorem Run.invariant {start s : S} {as : List A} (inv : S → Prop)
    (keeps : ∀ s a t, inv s → step s a t → inv t)
    (run : Run step start as s) (initial : inv start) : inv s := by
  induction run with
  | nil => exact initial
  | snoc _ next ih => exact keeps _ _ _ ih next

theorem Run.history_invariant {start s : S} {as : List A} (inv : List A → S → Prop)
    (keeps : ∀ as s a t, inv as s → step s a t → inv (as ++ [a]) t)
    (run : Run step start as s) (initial : inv [] start) : inv as s := by
  induction run with
  | nil => exact initial
  | snoc _ next ih => exact keeps _ _ _ _ ih next

theorem Run.of_nil {start t : S} (run : Run step start [] t) : t = start := by
  generalize none : ([] : List A) = as at run
  cases run with
  | nil => rfl
  | snoc before next => simp at none

theorem Run.last {start t : S} {as : List A} {a : A} (run : Run step start (as ++ [a]) t) :
    ∃ s, Run step start as s ∧ step s a t := by
  generalize whole : as ++ [a] = bs at run
  cases run with
  | nil => simp at whole
  | snoc before next =>
    obtain ⟨rfl, same⟩ := List.append_inj' whole rfl
    cases same
    exact ⟨_, before, next⟩

theorem Run.of_single {start t : S} {a : A} (run : Run step start [a] t) : step start a t := by
  rw [← List.nil_append [a]] at run
  obtain ⟨s, before, next⟩ := run.last
  rw [before.of_nil] at next
  exact next

theorem Run.append {start s t : S} {as bs : List A}
    (first : Run step start as s) (second : Run step s bs t) : Run step start (as ++ bs) t := by
  induction second with
  | nil => simpa using first
  | snoc _ next ih =>
    rw [← List.append_assoc]
    exact .snoc ih next

theorem Run.guard {allowed : S → A → Prop} {start s : S} {as : List A} (run : Run step start as s)
    (free : ∀ a ∈ as, ∀ s, allowed s a) : Run (Guarded allowed step) start as s := by
  induction run with
  | nil => exact .nil
  | snoc _ next ih =>
    have before := ih fun a ha => free a (List.mem_append_left _ ha)
    exact .snoc before ⟨free _ (List.mem_append_right _ (.head [])) _, next⟩

theorem Run.of_foldl (f : S → A → S) (start : S) (as : List A) :
    Run (fun s a t => t = f s a) start as (as.foldl f start) := by
  induction as using List.reverseRecOn with
  | nil => exact .nil
  | append_singleton as a ih =>
    rw [List.foldl_append]
    exact .snoc ih rfl

theorem Run.of_foldlM {f : S → A → Option S} {start t : S} {as : List A}
    (h : as.foldlM f start = some t) : Run (fun s a t => f s a = some t) start as t := by
  induction as using List.reverseRecOn generalizing t with
  | nil =>
    cases h
    exact .nil
  | append_singleton as a ih =>
    rw [List.foldlM_append] at h
    obtain ⟨s, before, h⟩ := Option.bind_eq_some_iff.mp h
    obtain ⟨u, last, h⟩ := Option.bind_eq_some_iff.mp h
    cases h
    exact .snoc (ih before) last

theorem Run.iff_of_invariant {step' : S → A → S → Prop} {start s : S} {as : List A}
    (inv : S → Prop) (initial : inv start)
    (same : ∀ s a t, inv s → (step s a t ↔ step' s a t))
    (keeps : ∀ s a t, inv s → step s a t → inv t) :
    Run step start as s ↔ Run step' start as s := by
  constructor
  · intro run
    induction run with
    | nil => exact .nil
    | snoc before next ih =>
      have holds := before.invariant inv keeps initial
      exact .snoc ih ((same _ _ _ holds).mp next)
  · intro run
    have keeps' : ∀ s a t, inv s → step' s a t → inv t :=
      fun s a t holds next => keeps s a t holds ((same s a t holds).mpr next)
    induction run with
    | nil => exact .nil
    | snoc before next ih =>
      have holds := before.invariant inv keeps' initial
      exact .snoc ih ((same _ _ _ holds).mpr next)

end Transition
