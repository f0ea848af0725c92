import Mathlib

/-! Sorting by a comparison that need not be transitive. Insertion and merge sort then still give
a list in which no element is greater than the next one, and leave such a list as it is. -/
namespace AdjacentSort

universe u

variable {α : Type u} (cmp : α → α → Int)

def Adjacent (xs : List α) : Prop := xs.IsChain fun a b => cmp a b ≤ 0

def Antisymmetric : Prop := ∀ a b, 0 < cmp a b ↔ cmp b a < 0

/-- The new element moves past those that are greater. The last element of the list stands
first. -/
def insertBack (x : α) : List α → List α
  | [] => [x]
  | y :: rest => if 0 < cmp y x then y :: insertBack x rest else x :: y :: rest

def insertionSort (xs : List α) : List α :=
  (xs.foldl (fun sorted x => insertBack cmp x sorted) []).reverse

variable {cmp}

theorem insertBack_past {x y : α} {rest : List α} (greater : 0 < cmp y x) :
    insertBack cmp x (y :: rest) = y :: insertBack cmp x rest :=
  if_pos greater

theorem insertBack_stop {x y : α} {rest : List α} (step : cmp y x ≤ 0) :
    insertBack cmp x (y :: rest) = x :: y :: rest :=
  if_neg (not_lt.mpr step)

variable (cmp) in
theorem insertBack_perm (x : α) (sorted : List α) :
    (insertBack cmp x sorted).Perm (x :: sorted) := by
  induction sorted with
  | nil => exact List.Perm.refl [x]
  | cons y rest ih =>
    rcases lt_or_ge 0 (cmp y x) with greater | step
    · rw [insertBack_past greater]
      exact (ih.cons y).trans (List.Perm.swap x y rest)
    · rw [insertBack_stop step]

variable (cmp) in
theorem foldl_insertBack_perm (xs sorted : List α) :
    (xs.foldl (fun sorted x => insertBack cmp x sorted) sorted).Perm (xs ++ sorted) := by
  induction xs generalizing sorted with
  | nil => exact List.Perm.refl sorted
  | cons x xs ih =>
    have added := (insertBack_perm cmp x sorted).append_left xs
    exact (ih (insertBack cmp x sorted)).trans (added.trans List.perm_middle)

theorem insertionSort_perm (xs : List α) : (insertionSort cmp xs).Perm xs := by
  have inserted := foldl_insertBack_perm cmp xs []
  rw [List.append_nil] at inserted
  exact (List.reverse_perm _).trans inserted

variable (cmp) in
theorem insertBack_front (x y : α) (rest : List α) :
    (cmp y x ≤ 0 ∧ insertBack cmp x (y :: rest) = x :: y :: rest) ∨
      (0 < cmp y x ∧ insertBack cmp x (y :: rest) = y :: insertBack cmp x rest) := by
  rcases lt_or_ge 0 (cmp y x) with greater | step
  · exact .inr ⟨greater, insertBack_past greater⟩
  · exact .inl ⟨step, insertBack_stop step⟩

theorem insertBack_adjacent (law : Antisymmetric cmp) {x : α} {sorted : List α}
    (h : sorted.IsChain fun b a => cmp a b ≤ 0) :
    (insertBack cmp x sorted).IsChain fun b a => cmp a b ≤ 0 := by
  induction sorted with
  | nil => exact .singleton x
  | cons y rest ih =>
    have later := ih h.tail
    rcases insertBack_front cmp x y rest with ⟨step, front⟩ | ⟨greater, front⟩
    · rw [front]
      exact .cons_cons step h
    · rw [front]
      have back : cmp x y ≤ 0 := le_of_lt ((law y x).mp greater)
      cases rest with
      | nil => exact .cons_cons back later
      | cons z rest =>
        rcases insertBack_front cmp x z rest with ⟨_, front⟩ | ⟨_, front⟩
        · rw [front] at later ⊢
          exact .cons_cons back later
        · rw [front] at later ⊢
          cases h with
          | cons_cons step _ => exact .cons_cons step later

theorem foldl_insertBack_adjacent (law : Antisymmetric cmp) (xs : List α) {sorted : List α}
    (h : sorted.IsChain fun b a => cmp a b ≤ 0) :
    (xs.foldl (fun sorted x => insertBack cmp x sorted) sorted).IsChain
      fun b a => cmp a b ≤ 0 := by
  induction xs generalizing sorted with
  | nil => exact h
  | cons x xs ih => exact ih (insertBack_adjacent law h)

theorem insertionSort_adjacent (law : Antisymmetric cmp) (xs : List α) :
    Adjacent cmp (insertionSort cmp xs) := by
  apply List.isChain_reverse.mpr
  exact foldl_insertBack_adjacent law xs .nil

theorem foldl_insertBack_fixed (xs sorted : List α)
    (h : Adjacent cmp (sorted.reverse ++ xs)) :
    xs.foldl (fun sorted x => insertBack cmp x sorted) sorted = xs.reverse ++ sorted := by
  induction xs generalizing sorted with
  | nil => rfl
  | cons x xs ih =>
    have placed : insertBack cmp x sorted = x :: sorted := by
      cases sorted with
      | nil => rfl
      | cons y rest =>
        have step : cmp y x ≤ 0 := by
          unfold Adjacent at h
          rw [List.reverse_cons, List.append_assoc] at h
          have last := (List.isChain_append.mp h).2.1
          cases last with
          | cons_cons step _ => exact step
        exact insertBack_stop step
    rw [List.foldl_cons, placed, ih (x :: sorted) (by
      rw [List.reverse_cons, List.append_assoc]
      exact h), List.reverse_cons, List.append_assoc]
    rfl

theorem insertionSort_fixed {xs : List α} (h : Adjacent cmp xs) : insertionSort cmp xs = xs := by
  unfold insertionSort
  rw [foldl_insertBack_fixed xs [] h, List.append_nil, List.reverse_reverse]

variable (cmp)

/-- Sorted halves of which the first does not end with a greater element than the second starts
with are not merged. -/
def combine (left right : List α) : List α :=
  match left.getLast?, right.head? with
  | some p, some q =>
    if cmp p q ≤ 0 then left ++ right else left.merge right fun p q => decide (cmp p q ≤ 0)
  | _, _ => left ++ right

def mergeSort (xs : List α) : List α :=
  if 7 ≤ xs.length then
    combine cmp (mergeSort (xs.take (xs.length / 2))) (mergeSort (xs.drop (xs.length / 2)))
  else insertionSort cmp xs
termination_by xs.length
decreasing_by
  · rw [List.length_take]
    omega
  · rw [List.length_drop]
    omega

variable {cmp}

theorem mergeSort_long {xs : List α} (h : 7 ≤ xs.length) :
    mergeSort cmp xs = combine cmp (mergeSort cmp (xs.take (xs.length / 2)))
      (mergeSort cmp (xs.drop (xs.length / 2))) := by
  rw [mergeSort, if_pos h]

theorem mergeSort_short {xs : List α} (h : ¬ 7 ≤ xs.length) :
    mergeSort cmp xs = insertionSort cmp xs := by
  rw [mergeSort, if_neg h]

theorem combine_append {left right : List α}
    (between : ∀ p ∈ left.getLast?, ∀ q ∈ right.head?, cmp p q ≤ 0) :
    combine cmp left right = left ++ right := by
  unfold combine
  split
  · rename_i p q last head
    rw [if_pos (between p last q head)]
  · rfl

variable (cmp) in
theorem combine_cases (left right : List α) :
    (combine cmp left right = left ++ right ∧
      ∀ p ∈ left.getLast?, ∀ q ∈ right.head?, cmp p q ≤ 0) ∨
    combine cmp left right = left.merge right fun p q => decide (cmp p q ≤ 0) := by
  by_cases between : ∀ p ∈ left.getLast?, ∀ q ∈ right.head?, cmp p q ≤ 0
  · exact .inl ⟨combine_append between, between⟩
  · right
    push Not at between
    obtain ⟨p, last, q, head, greater⟩ := between
    unfold combine
    rw [Option.mem_def.mp last, Option.mem_def.mp head]
    exact if_neg (not_le.mpr greater)

theorem merge_adjacent (law : Antisymmetric cmp) {ps qs : List α} (left : Adjacent cmp ps)
    (right : Adjacent cmp qs) :
    Adjacent cmp (ps.merge qs fun p q => decide (cmp p q ≤ 0)) := by
  induction ps generalizing qs with
  | nil =>
    rw [List.nil_merge]
    exact right
  | cons p ps ihp =>
    induction qs with
    | nil =>
      rw [List.merge_right]
      exact left
    | cons q qs ihq =>
      by_cases step : cmp p q ≤ 0
      · rw [List.cons_merge_cons_pos _ _ _ (decide_eq_true step)]
        have rest := ihp left.tail right
        cases ps with
        | nil =>
          rw [List.nil_merge] at rest ⊢
          exact .cons_cons step rest
        | cons p' ps =>
          by_cases next : cmp p' q ≤ 0
          · rw [List.cons_merge_cons_pos _ _ _ (decide_eq_true next)] at rest ⊢
            cases left with
            | cons_cons first _ => exact .cons_cons first rest
          · rw [List.cons_merge_cons_neg _ _ _ (by simpa using next)] at rest ⊢
            exact .cons_cons step rest
      · rw [List.cons_merge_cons_neg _ _ _ (by simpa using step)]
        have rest := ihq right.tail
        have back : cmp q p ≤ 0 := le_of_lt ((law p q).mp (not_le.mp step))
        cases qs with
        | nil =>
          rw [List.merge_right] at rest ⊢
          exact .cons_cons back rest
        | cons q' qs =>
          by_cases next : cmp p q' ≤ 0
          · rw [List.cons_merge_cons_pos _ _ _ (decide_eq_true next)] at rest ⊢
            exact .cons_cons back rest
          · rw [List.cons_merge_cons_neg _ _ _ (by simpa using next)] at rest ⊢
            cases right with
            | cons_cons first _ => exact .cons_cons first rest

theorem mergeSort_perm (xs : List α) : (mergeSort cmp xs).Perm xs := by
  induction xs using mergeSort.induct with
  | case1 xs long left right =>
    have halves := left.append right
    rw [List.take_append_drop] at halves
    rw [mergeSort_long long]
    rcases combine_cases cmp (mergeSort cmp (xs.take (xs.length / 2)))
      (mergeSort cmp (xs.drop (xs.length / 2))) with ⟨joined, _⟩ | merged
    · rw [joined]
      exact halves
    · rw [merged]
      exact (List.merge_perm_append _).trans halves
  | case2 xs short =>
    rw [mergeSort_short short]
    exact insertionSort_perm xs

theorem mergeSort_adjacent (law : Antisymmetric cmp) (xs : List α) :
    Adjacent cmp (mergeSort cmp xs) := by
  induction xs using mergeSort.induct with
  | case1 xs long left right =>
    rw [mergeSort_long long]
    rcases combine_cases cmp (mergeSort cmp (xs.take (xs.length / 2)))
      (mergeSort cmp (xs.drop (xs.length / 2))) with ⟨joined, between⟩ | merged
    · rw [joined]
      exact List.isChain_append.mpr ⟨left, right, between⟩
    · rw [merged]
      exact merge_adjacent law left right
  | case2 xs short =>
    rw [mergeSort_short short]
    exact insertionSort_adjacent law xs

theorem mergeSort_fixed {xs : List α} (h : Adjacent cmp xs) : mergeSort cmp xs = xs := by
  induction xs using mergeSort.induct with
  | case1 xs long left right =>
    have halves := h
    unfold Adjacent at halves
    rw [← List.take_append_drop (xs.length / 2) xs] at halves
    obtain ⟨first, second, between⟩ := List.isChain_append.mp halves
    rw [mergeSort_long long, left first, right second, combine_append between,
      List.take_append_drop]
  | case2 xs short =>
    rw [mergeSort_short short]
    exact insertionSort_fixed h

structure Sorter (α : Type u) where
  sort : (α → α → Int) → List α → List α
  perm (cmp : α → α → Int) (xs : List α) : (sort cmp xs).Perm xs
  adjacent {cmp : α → α → Int} (law : Antisymmetric cmp) (xs : List α) :
    Adjacent cmp (sort cmp xs)
  fixed {cmp : α → α → Int} {xs : List α} (h : Adjacent cmp xs) : sort cmp xs = xs

def insertion : Sorter α where
  sort := insertionSort
  perm _ := insertionSort_perm
  adjacent := insertionSort_adjacent
  fixed := insertionSort_fixed

def merge : Sorter α where
  sort := mergeSort
  perm _ := mergeSort_perm
  adjacent := mergeSort_adjacent
  fixed := mergeSort_fixed

variable (cmp) in
/-- A new group starts with each element that is greater than the one before. -/
def groups (xs : List α) : List (List α) := xs.splitBy fun a b => !decide (cmp a b < 0)

def Respects (le : α → α → Prop) (gs : List (List α)) : Prop :=
  gs.Pairwise fun s t => ∀ u ∈ s, ∀ v ∈ t, le u v

variable (cmp) in
/-- Two chains of equal elements without an element in common, the first ending below the start
of the second, of which the first does not start before the end of the second. -/
def Crossing (le : α → α → Prop) (items : List α) : Prop :=
  ∃ p q : List α, (p ++ q).Subperm items ∧ (p.IsChain fun a b => cmp a b = 0) ∧
    (q.IsChain fun a b => cmp a b = 0) ∧ (∃ a ∈ p.getLast?, ∃ c ∈ q.head?, cmp a c < 0) ∧
      ∃ u ∈ p.head?, ∃ v ∈ q.getLast?, ¬ le u v

theorem Crossing.mono {le : α → α → Prop} {xs ys : List α} (h : Crossing cmp le xs)
    (part : xs.Subperm ys) : Crossing cmp le ys := by
  obtain ⟨p, q, included, rest⟩ := h
  exact ⟨p, q, included.trans part, rest⟩

theorem le_of_not_crossing {le : α → α → Prop} {s t rest : List α} {a c : α}
    (first : s.IsChain fun a b => cmp a b = 0) (second : t.IsChain fun a b => cmp a b = 0)
    (last : a ∈ s.getLast?) (head : c ∈ t.head?) (step : cmp a c < 0)
    (free : ¬ Crossing cmp le (s ++ (t ++ rest))) : ∀ u ∈ s, ∀ v ∈ t, le u v := by
  intro u left v right
  by_contra apart
  apply free
  obtain ⟨before, p, rfl⟩ := List.append_of_mem left
  obtain ⟨q, after, rfl⟩ := List.append_of_mem right
  refine ⟨u :: p, q ++ [v], ?_, first.right_of_append, ?_, ⟨a, ?_, c, ?_, step⟩, u, rfl, v, ?_,
    apart⟩
  · apply List.Sublist.subperm
    apply List.Sublist.append (List.sublist_append_right before (u :: p))
    have front : [v].Sublist (v :: after ++ rest) := List.singleton_sublist.mpr (.head _)
    rw [List.append_assoc q]
    exact (List.Sublist.refl q).append front
  · rw [List.append_cons] at second
    exact second.left_of_append
  · rw [List.getLast?_append_cons] at last
    exact last
  · cases q with
    | nil => exact head
    | cons c' q => exact head
  · exact List.getLast?_concat

theorem chain_of_not_crossing {le : α → α → Prop} {gs : List (List α)} (filled : [] ∉ gs)
    (equal : ∀ g ∈ gs, g.IsChain fun a b => cmp a b = 0)
    (apart : gs.IsChain fun s t => ∃ a ∈ s.getLast?, ∃ c ∈ t.head?, cmp a c < 0)
    (free : ¬ Crossing cmp le gs.flatten) :
    gs.IsChain fun s t => (s ≠ [] ∧ t ≠ []) ∧ ∀ u ∈ s, ∀ v ∈ t, le u v := by
  induction gs with
  | nil => exact .nil
  | cons s gs ih =>
    have later : ¬ Crossing cmp le gs.flatten := by
      intro h
      apply free
      exact h.mono (List.sublist_append_right s gs.flatten).subperm
    have rest := ih (fun h => filled (.tail s h)) (fun g member => equal g (.tail s member))
      apart.tail later
    cases gs with
    | nil => exact .singleton s
    | cons t gs =>
      cases apart with
      | cons_cons step _ =>
        obtain ⟨a, last, c, head, step⟩ := step
        refine .cons_cons ⟨⟨?_, ?_⟩, ?_⟩ rest
        · rintro rfl
          exact filled (.head _)
        · rintro rfl
          exact filled (.tail s (.head _))
        · exact le_of_not_crossing (equal s (.head _)) (equal t (.tail s (.head _))) last head
            step free

theorem respects_of_chain {le : α → α → Prop} (trans : ∀ x y z, le x y → le y z → le x z)
    {gs : List (List α)}
    (h : gs.IsChain fun s t => (s ≠ [] ∧ t ≠ []) ∧ ∀ u ∈ s, ∀ v ∈ t, le u v) :
    Respects le gs := by
  have steps : IsTrans (List α) fun s t => (s ≠ [] ∧ t ≠ []) ∧ ∀ u ∈ s, ∀ v ∈ t, le u v := by
    constructor
    rintro r s t ⟨⟨first, middle⟩, lower⟩ ⟨⟨_, last⟩, upper⟩
    refine ⟨⟨first, last⟩, ?_⟩
    intro u left v right
    obtain ⟨w, between⟩ := List.exists_mem_of_ne_nil s middle
    exact trans u w v (lower u left w between) (upper w between v right)
  exact (List.isChain_iff_pairwise.mp h).imp fun related => related.2

variable (cmp) in
theorem flatten_groups (xs : List α) : (groups cmp xs).flatten = xs :=
  List.flatten_splitBy _ xs

theorem groups_boundary (xs : List α) :
    (groups cmp xs).IsChain fun s t => ∃ a ∈ s.getLast?, ∃ c ∈ t.head?, cmp a c < 0 := by
  apply (List.isChain_getLast_head_splitBy _ xs).imp
  rintro s t ⟨left, right, step⟩
  have smaller : cmp (s.getLast left) (t.head right) < 0 := by
    rw [Bool.not_eq_false'] at step
    exact of_decide_eq_true step
  exact ⟨_, List.getLast?_eq_some_getLast left, _, List.head?_eq_some_head right, smaller⟩

theorem groups_equal {xs : List α} (h : Adjacent cmp xs) :
    ∀ g ∈ groups cmp xs, g.IsChain fun a b => cmp a b = 0 := by
  intro g member
  have part := List.infix_of_mem_flatten member
  rw [flatten_groups cmp] at part
  apply List.isChain_iff_forall_rel_of_append_cons_cons.mpr
  intro a b before after here
  have chain := List.IsChain.infix h part
  have notGreater := List.isChain_iff_forall_rel_of_append_cons_cons.mp chain here
  have notSmaller :=
    List.isChain_iff_forall_rel_of_append_cons_cons.mp (List.isChain_of_mem_splitBy member) here
  rw [Bool.not_eq_true'] at notSmaller
  exact le_antisymm notGreater (not_lt.mp (of_decide_eq_false notSmaller))

theorem groups_respect {le : α → α → Prop} (trans : ∀ x y z, le x y → le y z → le x z)
    {xs : List α} (h : Adjacent cmp xs) (free : ¬ Crossing cmp le xs) :
    Respects le (groups cmp xs) := by
  apply respects_of_chain trans
  apply chain_of_not_crossing (List.nil_notMem_splitBy _ xs) (groups_equal h)
    (groups_boundary xs)
  exact (flatten_groups cmp xs).symm ▸ free

variable (cmp) in
/-- In a list with its last element first, `u` stands before a step up and `v` after it. -/
def Apart (u v : α) (sorted : List α) : Prop :=
  ∃ later c a earlier, sorted = later ++ c :: a :: earlier ∧ cmp a c < 0 ∧ u ∈ a :: earlier ∧
    v ∈ c :: later

theorem insertBack_step (law : Antisymmetric cmp) (x : α) (later earlier : List α) {c a : α}
    (step : cmp a c < 0) :
    ∃ later' c' a' earlier', insertBack cmp x (later ++ c :: a :: earlier) =
        later' ++ c' :: a' :: earlier' ∧ cmp a' c' < 0 ∧ a :: earlier ⊆ a' :: earlier' ∧
          c :: later ⊆ c' :: later' := by
  induction later with
  | nil =>
    rw [List.nil_append]
    rcases insertBack_front cmp x c (a :: earlier) with ⟨_, front⟩ | ⟨greater, front⟩
    · rw [front]
      refine ⟨[x], c, a, earlier, rfl, step, List.Subset.refl _, ?_⟩
      exact List.cons_subset_cons c (List.nil_subset [x])
    · rw [front]
      rcases insertBack_front cmp x a earlier with ⟨_, front⟩ | ⟨_, front⟩
      · rw [front]
        exact ⟨[], c, x, a :: earlier, rfl, (law c x).mp greater, List.subset_cons_self x _,
          List.Subset.refl _⟩
      · rw [front]
        refine ⟨[], c, a, insertBack cmp x earlier, rfl, step, ?_, List.Subset.refl _⟩
        apply List.cons_subset_cons
        exact fun z member => (insertBack_perm cmp x earlier).mem_iff.mpr (.tail x member)
  | cons y later ih =>
    rw [List.cons_append]
    rcases insertBack_front cmp x y (later ++ c :: a :: earlier) with
      ⟨_, front⟩ | ⟨_, front⟩
    · rw [front]
      refine ⟨x :: y :: later, c, a, earlier, rfl, step, List.Subset.refl _, ?_⟩
      exact List.cons_subset_cons c (List.subset_cons_self x _)
    · rw [front]
      obtain ⟨later', c', a', earlier', placed, step', left, right⟩ := ih
      rw [placed]
      refine ⟨y :: later', c', a', earlier', rfl, step', left, ?_⟩
      intro z member
      rcases List.mem_cons.mp member with rfl | member
      · exact List.cons_subset_cons c' (List.subset_cons_self y later') (right (.head _))
      · rcases List.mem_cons.mp member with rfl | member
        · exact .tail c' (.head later')
        · exact List.cons_subset_cons c' (List.subset_cons_self y later')
            (right (.tail c member))

theorem foldl_insertBack_apart (law : Antisymmetric cmp) {u v : α} (xs : List α)
    {sorted : List α} (h : Apart cmp u v sorted) :
    Apart cmp u v (xs.foldl (fun sorted x => insertBack cmp x sorted) sorted) := by
  induction xs generalizing sorted with
  | nil => exact h
  | cons x xs ih =>
    obtain ⟨later, c, a, earlier, rfl, step, before, after⟩ := h
    obtain ⟨later', c', a', earlier', placed, step', left, right⟩ :=
      insertBack_step law x later earlier step
    exact ih ⟨later', c', a', earlier', placed, step', left before, right after⟩

theorem Apart.not_respects {le : α → α → Prop} {u v : α} {xs : List α}
    (h : Apart cmp u v xs.reverse) (wrong : ¬ le u v) : ¬ Respects le (groups cmp xs) := by
  obtain ⟨later, c, a, earlier, shape, step, before, after⟩ := h
  have halves : xs = (a :: earlier).reverse ++ (c :: later.reverse) := by
    rw [← List.reverse_reverse xs, shape]
    simp only [List.reverse_append, List.reverse_cons, List.append_assoc, List.nil_append,
      List.cons_append]
  have split : groups cmp xs =
      groups cmp (a :: earlier).reverse ++ groups cmp (c :: later.reverse) := by
    rw [halves]
    apply List.splitBy_append_cons
    intro b last
    rw [List.getLast?_reverse, List.head?_cons] at last
    cases last
    rw [decide_eq_true step]
    rfl
  intro respects
  rw [split] at respects
  have between := (List.pairwise_append.mp respects).2.2
  have left : u ∈ (groups cmp (a :: earlier).reverse).flatten := by
    rw [flatten_groups cmp]
    exact List.mem_reverse.mpr before
  have right : v ∈ (groups cmp (c :: later.reverse)).flatten := by
    rw [flatten_groups cmp]
    exact (List.reverse_perm later).symm.cons c |>.subset after
  obtain ⟨s, first, inFirst⟩ := List.mem_flatten.mp left
  obtain ⟨t, second, inSecond⟩ := List.mem_flatten.mp right
  exact wrong (between s first t second u inFirst v inSecond)

theorem Crossing.exists_adjacent (law : Antisymmetric cmp) {le : α → α → Prop} {items : List α}
    (h : Crossing cmp le items) :
    ∃ xs : List α, xs.Perm items ∧ Adjacent cmp xs ∧ ¬ Respects le (groups cmp xs) := by
  obtain ⟨p, q, included, first, second, ⟨a, last, c, head, step⟩, u, front, v, back, wrong⟩ := h
  obtain ⟨part, same, sub⟩ := included
  obtain ⟨rest, all⟩ := sub.exists_perm_append
  refine ⟨insertionSort cmp ((p ++ q) ++ rest), ?_,
    insertionSort_adjacent law _, ?_⟩
  · exact (insertionSort_perm _).trans ((same.symm.append_right rest).trans all.symm)
  have chain : Adjacent cmp (p ++ q) := by
    apply List.isChain_append.mpr
    refine ⟨first.imp fun a b equal => le_of_eq equal, second.imp fun a b equal => le_of_eq equal,
      ?_⟩
    intro a' last' c' head'
    cases Option.mem_unique last last'
    cases Option.mem_unique head head'
    exact le_of_lt step
  have apart : Apart cmp u v (p ++ q).reverse := by
    obtain ⟨before, rfl⟩ := List.getLast?_eq_some_iff.mp last
    obtain ⟨after, rfl⟩ := List.head?_eq_some_iff.mp head
    refine ⟨after.reverse, c, a, before.reverse, ?_, step, ?_, ?_⟩
    · simp only [List.reverse_append, List.reverse_cons, List.append_assoc, List.nil_append,
        List.cons_append]
    · have member := List.mem_reverse.mpr (List.mem_of_mem_head? front)
      rw [List.reverse_append] at member
      exact member
    · have member := List.mem_of_mem_getLast? back
      exact (List.reverse_perm after).symm.cons c |>.subset member
  apply Apart.not_respects _ wrong
  unfold insertionSort
  rw [List.reverse_reverse, List.foldl_append, foldl_insertBack_fixed (p ++ q) [] chain,
    List.append_nil]
  exact foldl_insertBack_apart law rest apart

theorem groups_respect_iff (sorter : Sorter α) (law : Antisymmetric cmp) (le : α → α → Prop)
    (trans : ∀ x y z, le x y → le y z → le x z) (items : List α) :
    (∀ order : List α, order.Perm items → Respects le (groups cmp (sorter.sort cmp order))) ↔
      ¬ Crossing cmp le items := by
  constructor
  · intro respects crossing
    obtain ⟨order, same, adjacent, wrong⟩ := crossing.exists_adjacent law
    have right := respects order same
    rw [sorter.fixed adjacent] at right
    exact wrong right
  · intro free order same
    apply groups_respect trans (sorter.adjacent law order)
    intro crossing
    exact free (crossing.mono ((sorter.perm cmp order).trans same).subperm)

end AdjacentSort
