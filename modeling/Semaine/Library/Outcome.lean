import Mathlib

/-! Computations that may end in an exception: what is known when they did not. -/
namespace Outcome

universe u v w

variable {ε : Type u} {α : Type v} {β : Type w}

theorem bind_ok {x : Except ε α} {f : α → Except ε β} {b : β} (h : x.bind f = .ok b) :
    ∃ a, x = .ok a ∧ f a = .ok b := by
  cases x with
  | ok a => exact ⟨a, rfl, h⟩
  | error e => cases h

theorem map_ok {x : Except ε α} {f : α → β} {b : β} (h : x.map f = .ok b) :
    ∃ a, x = .ok a ∧ f a = b := by
  cases x with
  | ok a => exact ⟨a, rfl, Except.ok.inj h⟩
  | error e => cases h

theorem mapError_ok {ε' : Type u} {x : Except ε α} {f : ε → ε'} {a : α}
    (h : x.mapError f = .ok a) : x = .ok a := by
  cases x with
  | ok a => exact congrArg Except.ok (Except.ok.inj h)
  | error e => cases h

theorem ok_of_toOption {x : Except ε α} {a : α} (h : x.toOption = some a) : x = .ok a := by
  cases x with
  | ok b =>
    cases h
    rfl
  | error e => cases h

theorem error_of_toOption {x : Except ε α} (h : x.toOption = none) : ∃ e, x = .error e := by
  cases x with
  | ok a => cases h
  | error e => exact ⟨e, rfl⟩

theorem mapM_ok {ε α β : Type u} {f : α → Except ε β} {xs : List α} {ys : List β}
    (h : xs.mapM f = .ok ys) : List.Forall₂ (fun x y => f x = .ok y) xs ys := by
  induction xs generalizing ys with
  | nil =>
    cases h
    exact .nil
  | cons x xs ih =>
    rw [List.mapM_cons] at h
    obtain ⟨y, first, h⟩ := bind_ok h
    obtain ⟨rest, later, h⟩ := bind_ok h
    cases h
    exact .cons first (ih later)

theorem mapM_error {ε α β : Type u} {f : α → Except ε β} {xs : List α} {e : ε}
    (h : xs.mapM f = .error e) : ∃ x ∈ xs, f x = .error e := by
  induction xs with
  | nil => cases h
  | cons x xs ih =>
    rw [List.mapM_cons] at h
    cases first : f x with
    | error e' =>
      rw [first] at h
      cases h
      exact ⟨x, .head xs, first⟩
    | ok y =>
      rw [first] at h
      cases later : xs.mapM f with
      | error e' =>
        obtain ⟨x', member, fails⟩ := ih (by rw [later] at h; cases h; exact later)
        exact ⟨x', .tail x member, fails⟩
      | ok ys =>
        rw [later] at h
        cases h

theorem mapM_total {ε α β : Type u} {f : α → Except ε β} {xs : List α}
    (each : ∀ x ∈ xs, ∃ y, f x = .ok y) : ∃ ys, xs.mapM f = .ok ys := by
  cases outcome : xs.mapM f with
  | ok ys => exact ⟨ys, rfl⟩
  | error e =>
    obtain ⟨x, member, fails⟩ := mapM_error outcome
    obtain ⟨y, succeeds⟩ := each x member
    cases fails.symm.trans succeeds

theorem mapM_each {ε α β : Type u} {f : α → Except ε β} {xs : List α} {ys : List β}
    (h : xs.mapM f = .ok ys) : ∀ x ∈ xs, ∃ y, f x = .ok y := by
  have related := mapM_ok h
  clear h
  induction related with
  | nil => exact nofun
  | cons first _ ih =>
    rw [List.forall_mem_cons]
    exact ⟨⟨_, first⟩, ih⟩

theorem mapM_all {ε α β : Type u} {f : α → Except ε β} {P : β → Prop} {xs : List α}
    {ys : List β} (h : xs.mapM f = .ok ys) (each : ∀ x y, f x = .ok y → P y) :
    ∀ y ∈ ys, P y := by
  have related := mapM_ok h
  clear h
  induction related with
  | nil => exact nofun
  | cons first _ ih =>
    rw [List.forall_mem_cons]
    exact ⟨each _ _ first, ih⟩

end Outcome
