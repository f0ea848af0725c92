import Mathlib

/-! A sorted set as the list of its items in order: an item that compares as equal to one that is
there is not added. -/
namespace SortedSet

universe u

variable {α : Type u} (compareTo : α → α → Int)

def add (x : α) : List α → List α
  | [] => [x]
  | y :: rest =>
    if compareTo x y = 0 then y :: rest
    else if compareTo x y < 0 then x :: y :: rest
    else y :: add x rest

def addAll (xs s : List α) : List α := xs.foldl (fun s x => add compareTo x s) s

def Sorted (s : List α) : Prop := s.Pairwise fun x y => compareTo x y < 0

structure Comparison : Prop where
  swap : ∀ x y, compareTo x y < 0 ↔ 0 < compareTo y x
  trans : ∀ x y z, compareTo x y < 0 → compareTo y z < 0 → compareTo x z < 0

variable {compareTo}

theorem mem_of_mem_add {x y : α} {s : List α} (h : y ∈ add compareTo x s) : y = x ∨ y ∈ s := by
  induction s with
  | nil => exact .inl (List.mem_singleton.mp h)
  | cons z rest ih =>
    unfold add at h
    split at h
    · exact .inr h
    · split at h
      · exact List.mem_cons.mp h
      · rcases List.mem_cons.mp h with rfl | later
        · exact .inr (.head rest)
        · rcases ih later with here | there
          · exact .inl here
          · exact .inr (.tail z there)

theorem subset_add (x : α) (s : List α) : s ⊆ add compareTo x s := by
  induction s with
  | nil => exact List.nil_subset _
  | cons y rest ih =>
    unfold add
    split
    · exact List.Subset.refl _
    · split
      · exact List.subset_cons_self x _
      · exact List.cons_subset_cons y ih

theorem add_mem_equal (reflexive : ∀ x, compareTo x x = 0) (x : α) (s : List α) :
    ∃ y ∈ add compareTo x s, compareTo x y = 0 := by
  induction s with
  | nil => exact ⟨x, .head [], reflexive x⟩
  | cons y rest ih =>
    unfold add
    split
    · exact ⟨y, .head rest, ‹_›⟩
    · split
      · exact ⟨x, .head _, reflexive x⟩
      · obtain ⟨z, member, equal⟩ := ih
        exact ⟨z, .tail y member, equal⟩

theorem sorted_add (comparison : Comparison compareTo) (x : α) {s : List α}
    (sorted : Sorted compareTo s) : Sorted compareTo (add compareTo x s) := by
  induction s with
  | nil => exact List.pairwise_singleton _ x
  | cons y rest ih =>
    obtain ⟨first, later⟩ := List.pairwise_cons.mp sorted
    unfold add
    split
    · exact sorted
    · rename_i different
      split
      · rename_i before
        apply List.pairwise_cons.mpr
        refine ⟨?_, sorted⟩
        intro z member
        rcases List.mem_cons.mp member with rfl | member
        · exact before
        · exact comparison.trans x y z before (first z member)
      · rename_i notBefore
        apply List.pairwise_cons.mpr
        refine ⟨?_, ih later⟩
        intro z member
        rcases mem_of_mem_add member with rfl | member
        · exact (comparison.swap y z).mpr (by omega)
        · exact first z member

theorem mem_of_mem_addAll {y : α} {xs s : List α} (h : y ∈ addAll compareTo xs s) :
    y ∈ xs ∨ y ∈ s := by
  induction xs generalizing s with
  | nil => exact .inr h
  | cons x rest ih =>
    rcases ih h with later | added
    · exact .inl (.tail x later)
    · rcases mem_of_mem_add added with rfl | there
      · exact .inl (.head rest)
      · exact .inr there

theorem subset_addAll (xs s : List α) : s ⊆ addAll compareTo xs s := by
  induction xs generalizing s with
  | nil => exact List.Subset.refl _
  | cons x rest ih => exact List.Subset.trans (subset_add x s) (ih _)

theorem addAll_mem_equal (reflexive : ∀ x, compareTo x x = 0) {x : α} {xs s : List α}
    (h : x ∈ xs) : ∃ y ∈ addAll compareTo xs s, compareTo x y = 0 := by
  induction xs generalizing s with
  | nil => cases h
  | cons z rest ih =>
    rcases List.mem_cons.mp h with rfl | later
    · obtain ⟨y, member, equal⟩ := add_mem_equal reflexive x s
      exact ⟨y, subset_addAll rest _ member, equal⟩
    · exact ih later

theorem sorted_addAll (comparison : Comparison compareTo) (xs : List α) {s : List α}
    (sorted : Sorted compareTo s) : Sorted compareTo (addAll compareTo xs s) := by
  induction xs generalizing s with
  | nil => exact sorted
  | cons x rest ih => exact ih (sorted_add comparison x sorted)

end SortedSet
