import Mathlib

/-! The binary heap behind `java.util.PriorityQueue` and `PriorityBlockingQueue`: the children of
position `k` are at `2 * k + 1` and `2 * k + 2`. Elements may be compared by something that changes
while they are inside, so the results are about any relation between parents and children that
the comparison implies, and not about the comparison itself. -/
namespace BinaryHeap

universe u
variable {α : Type u} (cmp : α → α → Ordering)

def siftUp : Nat → Nat → α → List α → List α
  | 0, k, x, q => q.set k x
  | fuel + 1, k, x, q =>
    if k = 0 then q.set k x
    else match q[(k - 1) / 2]? with
      | none => q.set k x
      | some e =>
        if (cmp x e).isGE then q.set k x
        else siftUp fuel ((k - 1) / 2) x (q.set k e)

/-- The position and the value of the smaller child, the left one if they are equal. -/
def smallerChild (q : List α) (k : Nat) : Option (Nat × α) :=
  match q[2 * k + 1]?, q[2 * k + 2]? with
  | none, _ => none
  | some c, none => some (2 * k + 1, c)
  | some c, some d => if (cmp c d).isGT then some (2 * k + 2, d) else some (2 * k + 1, c)

def siftDown : Nat → Nat → α → List α → List α
  | 0, k, x, q => q.set k x
  | fuel + 1, k, x, q =>
    match smallerChild cmp q k with
    | none => q.set k x
    | some (child, c) =>
      if (cmp x c).isLE then q.set k x else siftDown fuel child x (q.set k c)

def offer (q : List α) (x : α) : List α := siftUp cmp q.length q.length x (q ++ [x])

def peek (q : List α) : Option α := q.head?

/-- What `poll` leaves after taking the head out. -/
def poll (q : List α) : List α :=
  match q.getLast? with
  | none => []
  | some x => siftDown cmp q.length 0 x q.dropLast

theorem set_set_perm_set {q : List α} {j k : Nat} {c x : α} (hj : q[j]? = some c)
    (hk : k < q.length) (hne : k ≠ j) : ((q.set k c).set j x).Perm (q.set k x) := by
  obtain ⟨hjl, hjc⟩ := List.getElem?_eq_some_iff.mp hj
  have swap := @List.set_set_perm _ (q.set k x) k j (by simpa) (by simpa)
  rw [List.getElem_set_self, List.getElem_set_ne hne, hjc, List.set_set] at swap
  exact swap

theorem siftUp_perm (fuel k : Nat) (x : α) (q : List α) (hk : k < q.length) :
    (siftUp cmp fuel k x q).Perm (q.set k x) := by
  induction fuel generalizing k q with
  | zero => exact .refl _
  | succ fuel ih =>
    unfold siftUp
    split
    · exact .refl _
    · rename_i positive
      split
      · exact .refl _
      · rename_i e he
        split
        · exact .refl _
        · have below : (k - 1) / 2 < k := by omega
          have moved := ih ((k - 1) / 2) (q.set k e) (by simp; omega)
          exact moved.trans (set_set_perm_set he hk (by omega))

theorem offer_perm (q : List α) (x : α) : (offer cmp q x).Perm (x :: q) := by
  have moved := siftUp_perm cmp q.length q.length x (q ++ [x]) (by simp)
  simp only [List.set_append_right _ _ (Nat.le_refl _), Nat.sub_self, List.set_cons_zero] at moved
  exact moved.trans (List.perm_append_singleton x q)

theorem smallerChild_spec {q : List α} {k child : Nat} {c : α}
    (h : smallerChild cmp q k = some (child, c)) :
    q[child]? = some c ∧ (child = 2 * k + 1 ∨ child = 2 * k + 2) := by
  unfold smallerChild at h
  split at h
  · cases h
  · cases h
    exact ⟨‹_›, .inl rfl⟩
  · split at h
    · cases h
      exact ⟨‹_›, .inr rfl⟩
    · cases h
      exact ⟨‹_›, .inl rfl⟩

theorem siftDown_perm (fuel k : Nat) (x : α) (q : List α) (hk : k < q.length) :
    (siftDown cmp fuel k x q).Perm (q.set k x) := by
  induction fuel generalizing k q with
  | zero => exact .refl _
  | succ fuel ih =>
    unfold siftDown
    split
    · exact .refl _
    · rename_i child c found
      obtain ⟨hc, side⟩ := smallerChild_spec cmp found
      obtain ⟨inside, _⟩ := List.getElem?_eq_some_iff.mp hc
      split
      · exact .refl _
      · have moved := ih child (q.set k c) (by simpa using inside)
        exact moved.trans (set_set_perm_set hc hk (by omega))

theorem poll_perm {q : List α} {head : α} (h : peek q = some head) :
    (head :: poll cmp q).Perm q := by
  obtain ⟨rest, rfl⟩ := List.head?_eq_some_iff.mp h
  cases rest using List.reverseRecOn with
  | nil => simp [poll, siftDown, smallerChild]
  | append_singleton rest x =>
    have last : (head :: (rest ++ [x])).getLast? = some x := by
      rw [← List.cons_append, List.getLast?_concat]
    have front : (head :: (rest ++ [x])).dropLast = head :: rest := by
      rw [← List.cons_append, List.dropLast_concat]
    have sifted := siftDown_perm cmp (head :: (rest ++ [x])).length 0 x (head :: rest) (by simp)
    rw [List.set_cons_zero] at sifted
    simp only [poll, last, front]
    exact (sifted.trans (List.perm_append_singleton x rest).symm).cons head

def Ordered (R : α → α → Prop) (q : List α) : Prop :=
  ∀ j p c, 0 < j → q[(j - 1) / 2]? = some p → q[j]? = some c → R p c

variable {R : α → α → Prop}

theorem Ordered.nil : Ordered R ([] : List α) := by
  intro j p c _ _ hc
  simp at hc

theorem Ordered.dropLast {q : List α} (h : Ordered R q) : Ordered R q.dropLast := by
  intro j p c positive hp hc
  simp only [List.getElem?_dropLast] at hp hc
  split at hp
  · split at hc
    · exact h j p c positive hp hc
    · cases hc
  · cases hp

theorem Ordered.concat {q : List α} {x : α} (h : Ordered R q) (below : ∀ p ∈ q, R p x) :
    Ordered R (q ++ [x]) := by
  intro j p c positive hp hc
  have inside : j < q.length + 1 := by
    obtain ⟨inside, _⟩ := List.getElem?_eq_some_iff.mp hc
    simpa using inside
  rw [List.getElem?_append_left (by omega)] at hp
  rcases Nat.lt_succ_iff_lt_or_eq.mp inside with old | new
  · rw [List.getElem?_append_left old] at hc
    exact h j p c positive hp hc
  · subst new
    simp only [List.getElem?_concat_length, Option.some.injEq] at hc
    rw [← hc]
    exact below p (List.mem_of_getElem? hp)

theorem offer_last {q : List α} {x : α} (below : ∀ e ∈ q, (cmp x e).isGE) :
    offer cmp q x = q ++ [x] := by
  have stays : (q ++ [x]).set q.length x = q ++ [x] := by
    rw [List.set_append_right _ _ (Nat.le_refl _)]
    simp
  unfold offer
  cases hn : q.length with
  | zero =>
    rw [hn] at stays
    exact stays
  | succ n =>
    rw [siftUp, if_neg (Nat.succ_ne_zero n), List.getElem?_append_left (by omega), ← hn]
    split
    · exact stays
    · rename_i e he
      rw [if_pos (below e (List.mem_of_getElem? he))]
      exact stays

theorem Ordered.root {P : α → Prop} {q : List α} (h : Ordered (fun p c => P c → P p) q)
    {c : α} (hc : c ∈ q) (holds : P c) : ∃ head, peek q = some head ∧ P head := by
  have climb : ∀ (j : Nat) (c : α), q[j]? = some c → P c → ∃ top, peek q = some top ∧ P top := by
    intro j
    induction j using Nat.strongRecOn with
    | ind j ih =>
      intro c hj hP
      rcases Nat.eq_zero_or_pos j with rfl | positive
      · exact ⟨c, by rwa [peek, List.head?_eq_getElem?], hP⟩
      · obtain ⟨inside, _⟩ := List.getElem?_eq_some_iff.mp hj
        have up : (j - 1) / 2 < j := by omega
        have hp := List.getElem?_eq_getElem (Nat.lt_trans up inside)
        exact ih _ up _ hp (h j _ _ positive hp hj hP)
  obtain ⟨j, hj⟩ := List.getElem?_of_mem hc
  exact climb j c hj holds

/-- The order around a hole that a value is to be put into, at or below it. -/
structure OrderedAround (R : α → α → Prop) (q : List α) (k : Nat) (x : α) : Prop where
  elsewhere : ∀ j p c, 0 < j → j ≠ k → (j - 1) / 2 ≠ k →
    q[(j - 1) / 2]? = some p → q[j]? = some c → R p c
  above : 0 < k → ∀ p, q[(k - 1) / 2]? = some p → R p x
  across : 0 < k → ∀ p, q[(k - 1) / 2]? = some p →
    ∀ j c, 0 < j → (j - 1) / 2 = k → q[j]? = some c → R p c

theorem OrderedAround.fill {q : List α} {k : Nat} {x : α} (around : OrderedAround R q k x)
    (below : ∀ j c, 0 < j → (j - 1) / 2 = k → q[j]? = some c → R x c) :
    Ordered R (q.set k x) := by
  intro j p c positive hp hc
  have inside : j < q.length := by
    obtain ⟨inside, _⟩ := List.getElem?_eq_some_iff.mp hc
    simpa using inside
  by_cases here : j = k
  · subst here
    rw [List.getElem?_set_self inside, Option.some.injEq] at hc
    rw [List.getElem?_set_ne (by omega)] at hp
    rw [← hc]
    exact around.above positive p hp
  · rw [List.getElem?_set_ne (Ne.symm here)] at hc
    by_cases under : (j - 1) / 2 = k
    · rw [under, List.getElem?_set_self (by omega), Option.some.injEq] at hp
      rw [← hp]
      exact below j c positive under hc
    · rw [List.getElem?_set_ne (Ne.symm under)] at hp
      exact around.elsewhere j p c positive here under hp hc

theorem OrderedAround.move {q : List α} {k child : Nat} {c x : α}
    (around : OrderedAround R q k x) (hk : k < q.length) (hc : q[child]? = some c)
    (side : child = 2 * k + 1 ∨ child = 2 * k + 2)
    (smaller : ∀ j d, 0 < j → (j - 1) / 2 = k → q[j]? = some d → R c d) (greater : R c x) :
    OrderedAround R (q.set k c) child x := by
  have parent : (child - 1) / 2 = k := by omega
  constructor
  · intro j p d positive notChild notUnder hp hd
    by_cases here : j = k
    · subst here
      rw [List.getElem?_set_self hk, Option.some.injEq] at hd
      rw [List.getElem?_set_ne (by omega)] at hp
      rw [← hd]
      exact around.across positive p hp child c (by omega) parent hc
    · rw [List.getElem?_set_ne (Ne.symm here)] at hd
      by_cases under : (j - 1) / 2 = k
      · rw [under, List.getElem?_set_self hk, Option.some.injEq] at hp
        rw [← hp]
        exact smaller j d positive under hd
      · rw [List.getElem?_set_ne (Ne.symm under)] at hp
        exact around.elsewhere j p d positive here under hp hd
  · intro _ p hp
    rw [parent, List.getElem?_set_self hk, Option.some.injEq] at hp
    rw [← hp]
    exact greater
  · intro _ p hp j d positive under hd
    rw [parent, List.getElem?_set_self hk, Option.some.injEq] at hp
    rw [List.getElem?_set_ne (by omega)] at hd
    rw [← hp]
    exact around.elsewhere j c d positive (by omega) (by omega) (under ▸ hc) hd

theorem smallerChild_none {q : List α} {k : Nat} (h : smallerChild cmp q k = none)
    {j : Nat} {d : α} (positive : 0 < j) (under : (j - 1) / 2 = k) : q[j]? ≠ some d := by
  intro hd
  obtain ⟨inside, _⟩ := List.getElem?_eq_some_iff.mp hd
  have left := List.getElem?_eq_getElem (l := q) (i := 2 * k + 1) (by omega)
  unfold smallerChild at h
  rw [left] at h
  split at h
  · rename_i absent
    cases absent
  · cases h
  · split at h <;> cases h

section
variable [Std.TransCmp cmp]

theorem smallerChild_le {q : List α} {k child : Nat} {c : α}
    (h : smallerChild cmp q k = some (child, c)) {j : Nat} {d : α} (positive : 0 < j)
    (under : (j - 1) / 2 = k) (hd : q[j]? = some d) : (cmp c d).isLE := by
  have self : ∀ e, (cmp e e).isLE := fun e => by simp [Std.ReflCmp.compare_self]
  have side : j = 2 * k + 1 ∨ j = 2 * k + 2 := by omega
  unfold smallerChild at h
  split at h
  · cases h
  · rename_i c' left right
    cases h
    rcases side with rfl | rfl
    · rw [left] at hd
      cases hd
      exact self c
    · rw [right] at hd
      cases hd
  · rename_i c' d' left right
    split at h
    · rename_i bigger
      cases h
      rcases side with rfl | rfl
      · rw [left] at hd
        cases hd
        have smaller := Std.OrientedCmp.lt_of_gt (Ordering.isGT_iff_eq_gt.mp bigger)
        simp [smaller]
      · rw [right] at hd
        cases hd
        exact self c
    · rename_i notBigger
      cases h
      rcases side with rfl | rfl
      · rw [left] at hd
        cases hd
        exact self c
      · rw [right] at hd
        cases hd
        rw [Ordering.isGT_iff_eq_gt] at notBigger
        exact Ordering.isLE_iff_ne_gt.mpr notBigger

theorem siftDown_ordered (implied : ∀ a b, (cmp a b).isLE → R a b) (fuel k : Nat) (x : α)
    (q : List α) (around : OrderedAround R q k x) (enough : q.length ≤ k + fuel) :
    Ordered R (siftDown cmp fuel k x q) := by
  induction fuel generalizing k q with
  | zero =>
    apply around.fill
    intro j c positive under hc
    obtain ⟨inside, _⟩ := List.getElem?_eq_some_iff.mp hc
    omega
  | succ fuel ih =>
    unfold siftDown
    split
    · rename_i leaf
      apply around.fill
      intro j c positive under hc
      exact absurd hc (smallerChild_none cmp leaf positive under)
    · rename_i child c found
      obtain ⟨hc, side⟩ := smallerChild_spec cmp found
      obtain ⟨inside, _⟩ := List.getElem?_eq_some_iff.mp hc
      split
      · rename_i stop
        apply around.fill
        intro j d positive under hd
        have lowest := smallerChild_le cmp found positive under hd
        exact implied x d (Std.TransCmp.isLE_trans stop lowest)
      · rename_i down
        have greater : (cmp c x).isLE := by
          rw [Std.OrientedCmp.lt_of_not_isLE down]
          rfl
        apply ih
        · apply around.move (by omega) hc side
          · intro j d positive under hd
            exact implied c d (smallerChild_le cmp found positive under hd)
          · exact implied c x greater
        · rw [List.length_set]
          omega

theorem poll_ordered (implied : ∀ a b, (cmp a b).isLE → R a b) {q : List α}
    (h : Ordered R q) : Ordered R (poll cmp q) := by
  unfold poll
  split
  · exact .nil
  · apply siftDown_ordered cmp implied
    · constructor
      · intro j p c positive _ _ hp hc
        exact h.dropLast j p c positive hp hc
      · intro positive
        exact absurd positive (Nat.lt_irrefl 0)
      · intro positive
        exact absurd positive (Nat.lt_irrefl 0)
    · rw [List.length_dropLast]
      omega

end

end BinaryHeap
