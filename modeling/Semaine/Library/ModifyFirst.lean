import Mathlib

/-! Changing the first element of a list that passes a test, or appending a new one if none
does, and what searches see of the change. -/
namespace List

universe u v w
variable {α : Type u} {β : Type v} {γ : Type w}

def modifyFirst (test : α → Bool) (f : α → α) (new : α) : List α → List α
  | [] => [new]
  | x :: xs => if test x then f x :: xs else x :: modifyFirst test f new xs

variable {test : α → Bool} {f : α → α} {new : α}

theorem mem_modifyFirst {xs : List α} {y : α} (h : y ∈ xs.modifyFirst test f new) :
    y ∈ xs ∨ (∃ x ∈ xs, test x = true ∧ y = f x) ∨ y = new := by
  induction xs with
  | nil => exact .inr (.inr (List.mem_singleton.mp h))
  | cons x xs ih =>
    unfold modifyFirst at h
    split at h
    · rename_i passes
      rcases List.mem_cons.mp h with rfl | later
      · exact .inr (.inl ⟨x, .head xs, passes, rfl⟩)
      · exact .inl (.tail x later)
    · rcases List.mem_cons.mp h with rfl | later
      · exact .inl (.head xs)
      · rcases ih later with old | ⟨z, member, passes, changed⟩ | added
        · exact .inl (.tail x old)
        · exact .inr (.inl ⟨z, .tail x member, passes, changed⟩)
        · exact .inr (.inr added)

theorem findSome?_modifyFirst_of_unseen {g : α → Option β} {xs : List α}
    (unseen : ∀ x ∈ xs, test x = true → g (f x) = g x) (hidden : g new = none) :
    (xs.modifyFirst test f new).findSome? g = xs.findSome? g := by
  induction xs with
  | nil => simp [modifyFirst, hidden]
  | cons x xs ih =>
    unfold modifyFirst
    split
    · rename_i passes
      simp only [List.findSome?_cons, unseen x (.head xs) passes]
    · have rest := ih fun y member => unseen y (.tail x member)
      simp only [List.findSome?_cons, rest]

theorem findSome?_modifyFirst_of_seen {g : α → Option β} {b : β} {xs : List α}
    (seen : ∀ x ∈ xs, test x = true → g (f x) = some b) (added : g new = some b)
    (others : ∀ x ∈ xs, test x = false → g x = none) :
    (xs.modifyFirst test f new).findSome? g = some b := by
  induction xs with
  | nil => simp [modifyFirst, added]
  | cons x xs ih =>
    unfold modifyFirst
    split
    · rename_i passes
      simp only [List.findSome?_cons, seen x (.head xs) passes]
    · rename_i fails
      have rest := ih (fun y member => seen y (.tail x member))
        (fun y member => others y (.tail x member))
      simp only [List.findSome?_cons, others x (.head xs) (by simpa using fails), rest]

theorem filterMap_modifyFirst_of_unseen {g : α → Option β} {xs : List α}
    (unseen : ∀ x ∈ xs, test x = true → g (f x) = g x) (hidden : g new = none) :
    (xs.modifyFirst test f new).filterMap g = xs.filterMap g := by
  induction xs with
  | nil => simp [modifyFirst, hidden]
  | cons x xs ih =>
    unfold modifyFirst
    split
    · rename_i passes
      simp only [List.filterMap_cons, unseen x (.head xs) passes]
    · have rest := ih fun y member => unseen y (.tail x member)
      simp only [List.filterMap_cons, rest]

theorem filterMap_modifyFirst {test' : β → Bool} {f' : β → β} {new' : β} {g : α → Option β}
    {xs : List α} (skipped : ∀ x ∈ xs, g x = none → test x = false)
    (tested : ∀ x ∈ xs, ∀ y, g x = some y → test x = test' y)
    (changed : ∀ x ∈ xs, ∀ y, g x = some y → test x = true → g (f x) = some (f' y))
    (added : g new = some new') :
    (xs.modifyFirst test f new).filterMap g = (xs.filterMap g).modifyFirst test' f' new' := by
  induction xs with
  | nil => simp [modifyFirst, added]
  | cons x xs ih =>
    have rest := ih (fun y member => skipped y (.tail x member))
      (fun y member => tested y (.tail x member)) (fun y member => changed y (.tail x member))
    rw [modifyFirst]
    cases selected : g x with
    | none =>
      rw [if_neg (by simp [skipped x (.head xs) selected])]
      simp only [List.filterMap_cons, selected, rest]
    | some y =>
      have same := tested x (.head xs) y selected
      cases passes : test x with
      | true =>
        have image := changed x (.head xs) y selected passes
        rw [same] at passes
        simp [selected, image, modifyFirst, passes]
      | false =>
        rw [same] at passes
        simp [selected, rest, modifyFirst, passes]

theorem findSome?_filterMap (g : α → Option β) (h : β → Option γ) (xs : List α) :
    (xs.filterMap g).findSome? h = xs.findSome? fun x => (g x).bind h := by
  rw [← head?_filterMap, ← head?_filterMap, filterMap_filterMap]

end List
