import Semaine.Util.FuzzySort

/-! When the sets of `FuzzySort` are in the order of the positions. Being near is not transitive,
so the comparison is not an order, and an item can come before one with a smaller position. -/
namespace Semaine.Util.FuzzySort
open JavaFloat AdjacentSort

variable {α D : Type} [DecidableEq α] (d : Comparisons D)

def rawPositions (position : α → D) (index2items : List (FuzzySortable α)) (k : Nat) : D :=
  (index2items[k]?.map fun item => position item.payload).getD (d.ofInt 0)

def byPosition (position : α → D) (threshold : D) (items : List (FuzzySortable α))
    (o1 o2 : FuzzySortable α) : Int :=
  if o1.payload ∈ items.map FuzzySortable.payload ∧
      o2.payload ∈ items.map FuzzySortable.payload then
    if d.lt (d.abs (d.sub (position o1.payload) (position o2.payload))) threshold then 0
    else d.compare (position o1.payload) (position o2.payload)
  else 0

variable {d} {position : α → D} {threshold : D}

variable (d position) in
theorem items2index_position {index2items : List (FuzzySortable α)} {o : FuzzySortable α}
    (h : o.payload ∈ index2items.map FuzzySortable.payload) :
    ∃ k, items2index index2items o = some k ∧
      rawPositions d position index2items k = position o.payload := by
  obtain ⟨k, item, index, here, same⟩ := items2index_some h
  refine ⟨k, index, ?_⟩
  unfold rawPositions
  rw [here, Option.map_some, Option.getD_some, same]

theorem comparator_eq_byPosition {order items : List (FuzzySortable α)}
    (same : order.Perm items) :
    comparator d order (rawPositions d position order) threshold =
      byPosition d position threshold items := by
  have payloads := same.map FuzzySortable.payload
  funext o1 o2
  unfold comparator compare byPosition
  by_cases first : o1.payload ∈ items.map FuzzySortable.payload
  · obtain ⟨index1, found1, at1⟩ := items2index_position d position
      (payloads.mem_iff.mpr first)
    by_cases second : o2.payload ∈ items.map FuzzySortable.payload
    · obtain ⟨index2, found2, at2⟩ := items2index_position d position
        (payloads.mem_iff.mpr second)
      rw [if_pos ⟨first, second⟩, found1, found2, Option.bind_eq_bind, Option.bind_some,
        Option.bind_some, at1, at2]
      split
      · rfl
      · rfl
    · rw [if_neg fun both => second both.2, found1,
        items2index_none fun member => second (payloads.mem_iff.mp member)]
      rfl
  · rw [if_neg fun both => first both.1,
      items2index_none fun member => first (payloads.mem_iff.mp member)]
    rfl

theorem condense_eq_groups (sorter : Sorter (FuzzySortable α))
    {order items : List (FuzzySortable α)} (same : order.Perm items)
    (distinct : (items.map FuzzySortable.payload).Nodup) :
    condense d sorter.sort order (rawPositions d position order) threshold =
      groups (byPosition d position threshold items)
        (sorter.sort (byPosition d position threshold items) order) := by
  have sorted := (sorter.perm (byPosition d position threshold items) order).trans same
  unfold condense
  rw [comparator_eq_byPosition same]
  exact group_eq_groups _ ((sorted.map FuzzySortable.payload).nodup_iff.mpr distinct)

section Laws
variable {Finite : D → Prop}

theorem lt_asymm_of_ordered (law : d.OrderedOver Finite) {a b : D} (left : Finite a)
    (right : Finite b) (h : d.lt a b = true) : d.lt b a = false := by
  rw [Bool.eq_false_iff]
  intro back
  have above := (law.lt_iff left right).mp h
  have below := (law.lt_iff right left).mp back
  exact (law.total left right).elim below above

theorem compare_far (law : d.OrderedOver Finite) {a b : D} (left : Finite a) (right : Finite b)
    (positive : d.lt (d.ofInt 0) threshold = true) (far : ¬ d.Near threshold a b) :
    (d.lt a b = true ∧ d.compare a b = -1) ∨ (d.lt b a = true ∧ d.compare a b = 1) := by
  unfold Comparisons.compare
  by_cases smaller : d.lt a b = true
  · exact .inl ⟨smaller, if_pos smaller⟩
  · have below : d.le b a = true := by
      by_contra above
      exact smaller ((law.lt_iff left right).mpr above)
    have greater : d.lt b a = true := by
      apply (law.lt_iff right left).mpr
      intro above
      exact far (law.near_equal left right positive above below)
    rw [if_neg smaller, if_pos greater]
    exact .inr ⟨greater, rfl⟩

variable {items : List (FuzzySortable α)} {o1 o2 : FuzzySortable α}

theorem byPosition_cases (law : d.OrderedOver Finite) (finite : ∀ x, Finite (position x))
    (positive : d.lt (d.ofInt 0) threshold = true)
    (first : o1.payload ∈ items.map FuzzySortable.payload)
    (second : o2.payload ∈ items.map FuzzySortable.payload) :
    (d.Near threshold (position o1.payload) (position o2.payload) ∧
      byPosition d position threshold items o1 o2 = 0) ∨
    ¬ d.Near threshold (position o1.payload) (position o2.payload) ∧
      ((d.lt (position o1.payload) (position o2.payload) = true ∧
        byPosition d position threshold items o1 o2 = -1) ∨
      (d.lt (position o2.payload) (position o1.payload) = true ∧
        byPosition d position threshold items o1 o2 = 1)) := by
  unfold byPosition
  rw [if_pos ⟨first, second⟩]
  by_cases near : d.Near threshold (position o1.payload) (position o2.payload)
  · exact .inl ⟨near, if_pos near⟩
  · rw [if_neg (show ¬ d.lt (d.abs (d.sub _ _)) threshold = true from near)]
    exact .inr ⟨near, compare_far law (finite _) (finite _) positive near⟩

theorem byPosition_neg (law : d.OrderedOver Finite) (finite : ∀ x, Finite (position x))
    (positive : d.lt (d.ofInt 0) threshold = true)
    (first : o1.payload ∈ items.map FuzzySortable.payload)
    (second : o2.payload ∈ items.map FuzzySortable.payload) :
    byPosition d position threshold items o1 o2 < 0 ↔
      ¬ d.Near threshold (position o1.payload) (position o2.payload) ∧
        d.lt (position o1.payload) (position o2.payload) = true := by
  rcases byPosition_cases law finite positive first second with
    ⟨near, value⟩ | ⟨far, ⟨smaller, value⟩ | ⟨greater, value⟩⟩
  · rw [value]
    exact ⟨nofun, fun h => absurd near h.1⟩
  · rw [value]
    exact ⟨fun _ => ⟨far, smaller⟩, fun _ => by decide⟩
  · rw [value, lt_asymm_of_ordered law (finite _) (finite _) greater]
    exact ⟨nofun, nofun⟩

theorem byPosition_pos (law : d.OrderedOver Finite) (finite : ∀ x, Finite (position x))
    (positive : d.lt (d.ofInt 0) threshold = true)
    (first : o1.payload ∈ items.map FuzzySortable.payload)
    (second : o2.payload ∈ items.map FuzzySortable.payload) :
    0 < byPosition d position threshold items o1 o2 ↔
      ¬ d.Near threshold (position o1.payload) (position o2.payload) ∧
        d.lt (position o2.payload) (position o1.payload) = true := by
  rcases byPosition_cases law finite positive first second with
    ⟨near, value⟩ | ⟨far, ⟨smaller, value⟩ | ⟨greater, value⟩⟩
  · rw [value]
    exact ⟨nofun, fun h => absurd near h.1⟩
  · rw [value, lt_asymm_of_ordered law (finite _) (finite _) smaller]
    exact ⟨nofun, nofun⟩
  · rw [value]
    exact ⟨fun _ => ⟨far, greater⟩, fun _ => by decide⟩

theorem byPosition_zero (law : d.OrderedOver Finite) (finite : ∀ x, Finite (position x))
    (positive : d.lt (d.ofInt 0) threshold = true)
    (first : o1.payload ∈ items.map FuzzySortable.payload)
    (second : o2.payload ∈ items.map FuzzySortable.payload) :
    byPosition d position threshold items o1 o2 = 0 ↔
      d.Near threshold (position o1.payload) (position o2.payload) := by
  rcases byPosition_cases law finite positive first second with
    ⟨near, value⟩ | ⟨far, ⟨_, value⟩ | ⟨_, value⟩⟩
  · exact ⟨fun _ => near, fun _ => value⟩
  · rw [value]
    exact ⟨nofun, fun near => absurd near far⟩
  · rw [value]
    exact ⟨nofun, fun near => absurd near far⟩

theorem byPosition_antisymmetric (law : d.OrderedOver Finite)
    (finite : ∀ x, Finite (position x)) (positive : d.lt (d.ofInt 0) threshold = true)
    (items : List (FuzzySortable α)) :
    Antisymmetric (byPosition d position threshold items) := by
  intro o1 o2
  by_cases inside : o1.payload ∈ items.map FuzzySortable.payload ∧
    o2.payload ∈ items.map FuzzySortable.payload
  · rw [byPosition_pos law finite positive inside.1 inside.2,
      byPosition_neg law finite positive inside.2 inside.1]
    have swap : d.Near threshold (position o1.payload) (position o2.payload) ↔
        d.Near threshold (position o2.payload) (position o1.payload) :=
      ⟨law.near_swap (finite _) (finite _), law.near_swap (finite _) (finite _)⟩
    rw [swap]
  · unfold byPosition
    rw [if_neg inside, if_neg fun both => inside both.symm]

variable (d position threshold) in
/-- Two chains of near items without a common item. The last item of the first chain is a
threshold or more below the first item of the second chain, but the first item of the first chain
is above the last item of the second chain. -/
def ChainsCross (items : List (FuzzySortable α)) : Prop :=
  ∃ p q : List (FuzzySortable α), (p ++ q).Subperm items ∧
    (p.IsChain fun a b => d.Near threshold (position a.payload) (position b.payload)) ∧
    (q.IsChain fun a b => d.Near threshold (position a.payload) (position b.payload)) ∧
    (∃ a ∈ p.getLast?, ∃ c ∈ q.head?,
      ¬ d.Near threshold (position a.payload) (position c.payload) ∧
        d.lt (position a.payload) (position c.payload) = true) ∧
    ∃ u ∈ p.head?, ∃ v ∈ q.getLast?, d.lt (position v.payload) (position u.payload) = true

theorem chain_iff (law : d.OrderedOver Finite) (finite : ∀ x, Finite (position x))
    (positive : d.lt (d.ofInt 0) threshold = true) {p : List (FuzzySortable α)}
    (inside : p ⊆ items) :
    (p.IsChain fun a b => byPosition d position threshold items a b = 0) ↔
      p.IsChain fun a b => d.Near threshold (position a.payload) (position b.payload) := by
  apply List.IsChain.iff_of_mem_imp
  intro a b left right
  exact byPosition_zero law finite positive (List.mem_map_of_mem (inside left))
    (List.mem_map_of_mem (inside right))

theorem crossing_iff (law : d.OrderedOver Finite) (finite : ∀ x, Finite (position x))
    (positive : d.lt (d.ofInt 0) threshold = true) :
    Crossing (byPosition d position threshold items)
        (fun u v => d.le (position u.payload) (position v.payload) = true) items ↔
      ChainsCross d position threshold items := by
  unfold Crossing ChainsCross
  apply exists_congr
  intro p
  apply exists_congr
  intro q
  apply and_congr_right
  intro included
  have left : p ⊆ items := fun x member => included.subset (List.mem_append_left q member)
  have right : q ⊆ items := fun x member => included.subset (List.mem_append_right p member)
  rw [chain_iff law finite positive left, chain_iff law finite positive right]
  apply and_congr_right'
  apply and_congr_right'
  apply and_congr
  · apply exists_congr
    intro a
    apply and_congr_right
    intro last
    apply exists_congr
    intro c
    apply and_congr_right
    intro head
    exact byPosition_neg law finite positive
      (List.mem_map_of_mem (left (List.mem_of_mem_getLast? last)))
      (List.mem_map_of_mem (right (List.mem_of_mem_head? head)))
  · apply exists_congr
    intro u
    apply and_congr_right'
    apply exists_congr
    intro v
    apply and_congr_right'
    exact (law.lt_iff (finite _) (finite _)).symm

/-- However the items are numbered, an item whose set comes first has no greater position, exactly
when no chains cross. -/
theorem respects_positions_iff (sorter : Sorter (FuzzySortable α)) (law : d.OrderedOver Finite)
    (finite : ∀ x, Finite (position x)) (positive : d.lt (d.ofInt 0) threshold = true)
    (distinct : (items.map FuzzySortable.payload).Nodup) :
    (∀ order : List (FuzzySortable α), order.Perm items →
      (condense d sorter.sort order (rawPositions d position order) threshold).Pairwise
        fun s t => ∀ u ∈ s, ∀ v ∈ t, d.le (position u.payload) (position v.payload) = true) ↔
      ¬ ChainsCross d position threshold items := by
  have respects := groups_respect_iff sorter
    (byPosition_antisymmetric law finite positive items)
    (fun u v => d.le (position u.payload) (position v.payload) = true)
    (fun u v w => law.trans (finite _) (finite _) (finite _)) items
  rw [crossing_iff law finite positive] at respects
  apply Iff.trans _ respects
  apply forall_congr'
  intro order
  apply imp_congr_right
  intro same
  rw [condense_eq_groups sorter same distinct]
  exact Iff.rfl

end Laws

def plain (payload : α) : FuzzySortable α := ⟨payload, false, false, notBoth_neither⟩

def farPositions (k : Nat) : Number := .val k

theorem respects_positions_iff_far :
    (∀ order : List (FuzzySortable Nat), order.Perm [plain 0, plain 1] →
      (condense exactComparisons merge.sort order (rawPositions exactComparisons farPositions order)
        (.val (1 / 2))).Pairwise fun s t => ∀ u ∈ s, ∀ v ∈ t,
          exactComparisons.le (farPositions u.payload) (farPositions v.payload) = true) ↔
      ¬ ChainsCross exactComparisons farPositions (.val (1 / 2)) [plain 0, plain 1] :=
  respects_positions_iff merge exactComparisons_ordered (fun k => ⟨k, rfl⟩) (by decide +kernel)
    (by decide)

/-- 2, 1.2 and 0.4 are a chain of near positions, and 1.5 is not near its end. -/
def chainPositions : Nat → Number
  | 0 => .val 2
  | 1 => .val (6 / 5)
  | 2 => .val (2 / 5)
  | _ => .val (3 / 2)

def chainItems : List (FuzzySortable Nat) := [plain 0, plain 1, plain 2, plain 3]

theorem chainItems_out_of_order :
    ¬ (condense exactComparisons merge.sort chainItems
      (rawPositions exactComparisons chainPositions chainItems) (.val 1)).Pairwise
        fun s t => ∀ u ∈ s, ∀ v ∈ t,
          exactComparisons.le (chainPositions u.payload) (chainPositions v.payload) = true := by
  have sorted : condense exactComparisons merge.sort chainItems
      (rawPositions exactComparisons chainPositions chainItems) (.val 1) =
        [[plain 0, plain 1, plain 2], [plain 3]] := by
    unfold condense merge
    simp only []
    rw [mergeSort_short (by decide)]
    decide +kernel
  rw [sorted]
  decide +kernel

end Semaine.Util.FuzzySort
