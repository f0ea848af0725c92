import Semaine.Library.Outcome
import Semaine.Util.FuzzySort

/-! The sets that `FuzzySort` returns are a partition of the sortables, with the initial and the
final ones at the ends where that is enforced. -/
namespace Semaine.Util.FuzzySort
open JavaFloat

variable {α D : Type} [DecidableEq α]

def Consistent (xs : List (FuzzySortable α)) : Prop :=
  ∀ x ∈ xs, ∀ y ∈ xs, x.payload = y.payload → x = y

theorem mem_add {set : List (FuzzySortable α)} {x : FuzzySortable α}
    (same : ∀ z ∈ set, z.payload = x.payload → z = x) (y : FuzzySortable α) :
    y ∈ add set x ↔ y ∈ set ∨ y = x := by
  unfold add
  split
  · rename_i known
    obtain ⟨z, member, payload⟩ := List.mem_map.mp known
    refine ⟨.inl, ?_⟩
    rintro (here | rfl)
    · exact here
    · exact same z member payload ▸ member
  · rw [List.mem_append, List.mem_singleton]

theorem mem_foldl_add {xs : List (FuzzySortable α)} (h : Consistent xs) (x : FuzzySortable α) :
    x ∈ xs.foldl add [] ↔ x ∈ xs := by
  induction xs using List.reverseRecOn generalizing x with
  | nil => exact Iff.rfl
  | append_singleton xs y ih =>
    have earlier := ih fun a left b right =>
      h a (List.mem_append_left [y] left) b (List.mem_append_left [y] right)
    rw [List.foldl_append, List.foldl_cons, List.foldl_nil, mem_add, earlier, List.mem_append,
      List.mem_singleton]
    intro z member payload
    apply h z _ y (List.mem_append_right xs (.head [])) payload
    exact List.mem_append_left [y] ((earlier z).mp member)

theorem nodup_add {set : List (FuzzySortable α)} (x : FuzzySortable α)
    (h : (set.map FuzzySortable.payload).Nodup) :
    ((add set x).map FuzzySortable.payload).Nodup := by
  unfold add
  split
  · exact h
  · rename_i new
    rw [List.map_append]
    refine List.nodup_append.mpr ⟨h, List.nodup_singleton _, ?_⟩
    rintro _ member _ (_ | ⟨_, ⟨⟩⟩) rfl
    exact new member

theorem nodup_foldl_add (xs : List (FuzzySortable α)) :
    ((xs.foldl add []).map FuzzySortable.payload).Nodup := by
  apply List.foldlRecOn xs add (motive := fun set => (set.map FuzzySortable.payload).Nodup)
  · exact List.nodup_nil
  · intro set distinct x _
    exact nodup_add x distinct

def occurrences (relations : List (FuzzySortableRelation α)) : List (FuzzySortable α) :=
  relations.flatMap fun r => [r.first, r.second]

def startsFixed (enforceInitialFinal : Bool) (x : FuzzySortable α) : Bool :=
  enforceInitialFinal && x.isInitial

def endsFixed (enforceInitialFinal : Bool) (x : FuzzySortable α) : Bool :=
  enforceInitialFinal && x.isFinal

def isFree (enforceInitialFinal : Bool) (x : FuzzySortable α) : Bool :=
  !startsFixed enforceInitialFinal x && !endsFixed enforceInitialFinal x

theorem add_cases (enforceInitialFinal : Bool) (sets : ItemSets α) (x : FuzzySortable α) :
    sets.add enforceInitialFinal x =
      ⟨([x].filter (isFree enforceInitialFinal)).foldl add sets.itemSet,
        ([x].filter (startsFixed enforceInitialFinal)).foldl add sets.initialSet,
        ([x].filter (endsFixed enforceInitialFinal)).foldl add sets.finalSet⟩ := by
  have notBoth := x.notBoth
  cases enforceInitialFinal with
  | false => rfl
  | true =>
    unfold ItemSets.add isFree startsFixed endsFixed
    cases start : x.isInitial with
    | true =>
      have stop : x.isFinal = false := by
        rw [start] at notBoth
        exact notBoth
      simp [start, stop]
    | false =>
      cases stop : x.isFinal with
      | true => simp [start, stop]
      | false => simp [start, stop]

theorem foldl_add_eq (enforceInitialFinal : Bool) (xs : List (FuzzySortable α)) :
    xs.foldl (ItemSets.add enforceInitialFinal) .empty =
      ⟨(xs.filter (isFree enforceInitialFinal)).foldl add [],
        (xs.filter (startsFixed enforceInitialFinal)).foldl add [],
        (xs.filter (endsFixed enforceInitialFinal)).foldl add []⟩ := by
  induction xs using List.reverseRecOn with
  | nil => rfl
  | append_singleton xs x ih =>
    rw [List.foldl_append, ih, List.filter_append, List.filter_append, List.filter_append,
      List.foldl_append, List.foldl_append, List.foldl_append]
    exact add_cases enforceInitialFinal _ x

theorem collect_eq (enforceInitialFinal : Bool) (relations : List (FuzzySortableRelation α)) :
    collect enforceInitialFinal relations =
      (occurrences relations).foldl (ItemSets.add enforceInitialFinal) .empty := by
  unfold collect occurrences
  rw [List.foldl_flatMap]
  rfl

/-- The sets of the items, with the flags that decide which set an item is in. -/
structure Collected (enforceInitialFinal : Bool) (relations : List (FuzzySortableRelation α))
    (sets : ItemSets α) : Prop where
  items (x : FuzzySortable α) :
    x ∈ sets.itemSet ↔ x ∈ occurrences relations ∧ isFree enforceInitialFinal x = true
  starts (x : FuzzySortable α) :
    x ∈ sets.initialSet ↔ x ∈ occurrences relations ∧ startsFixed enforceInitialFinal x = true
  ends (x : FuzzySortable α) :
    x ∈ sets.finalSet ↔ x ∈ occurrences relations ∧ endsFixed enforceInitialFinal x = true
  distinctItems : (sets.itemSet.map FuzzySortable.payload).Nodup
  distinctStarts : (sets.initialSet.map FuzzySortable.payload).Nodup
  distinctEnds : (sets.finalSet.map FuzzySortable.payload).Nodup

theorem collect_collected (enforceInitialFinal : Bool)
    {relations : List (FuzzySortableRelation α)} (h : Consistent (occurrences relations)) :
    Collected enforceInitialFinal relations (collect enforceInitialFinal relations) := by
  have parts : ∀ keep : FuzzySortable α → Bool, ∀ x,
      x ∈ ((occurrences relations).filter keep).foldl add [] ↔
        x ∈ occurrences relations ∧ keep x = true := by
    intro keep x
    rw [mem_foldl_add, List.mem_filter]
    intro a left b right
    exact h a (List.mem_of_mem_filter left) b (List.mem_of_mem_filter right)
  rw [collect_eq, foldl_add_eq]
  exact ⟨parts _, parts _, parts _, nodup_foldl_add _, nodup_foldl_add _, nodup_foldl_add _⟩

omit [DecidableEq α] in
theorem mem_occurrences {relations : List (FuzzySortableRelation α)} {r : FuzzySortableRelation α}
    (h : r ∈ relations) : r.first ∈ occurrences relations ∧ r.second ∈ occurrences relations :=
  ⟨List.mem_flatMap.mpr ⟨r, h, .head _⟩, List.mem_flatMap.mpr ⟨r, h, .tail _ (.head _)⟩⟩

variable (d : Comparisons D)

theorem needIndex_ok {index2items : List (FuzzySortable α)} {o : FuzzySortable α}
    (h : o ∈ index2items) : ∃ k, needIndex index2items o = .ok k := by
  obtain ⟨k, _, index, _⟩ := items2index_some (List.mem_map_of_mem h)
  refine ⟨k, ?_⟩
  unfold needIndex
  rw [index]

omit [DecidableEq α] in
theorem isFree_unforced (x : FuzzySortable α) : isFree false x = true := rfl

omit [DecidableEq α] in
theorem isFree_of_unfixed (enforceInitialFinal : Bool) {x : FuzzySortable α}
    (h : (x.isInitial || x.isFinal) = false) : isFree enforceInitialFinal x = true := by
  obtain ⟨start, stop⟩ := Bool.or_eq_false_iff.mp h
  unfold isFree startsFixed endsFixed
  rw [start, stop, Bool.and_false]
  rfl

theorem relationRow_ok {enforceInitialFinal : Bool} {relations : List (FuzzySortableRelation α)}
    {sets : ItemSets α} (h : Collected enforceInitialFinal relations sets) (t : Targets D)
    {index2items : List (FuzzySortable α)} (same : index2items.Perm sets.itemSet)
    {r : FuzzySortableRelation α} (member : r ∈ relations) :
    ∃ row, relationRow d enforceInitialFinal t index2items r = .ok row := by
  have numbered : ∀ o ∈ occurrences relations, isFree enforceInitialFinal o = true →
      ∃ k, needIndex index2items o = .ok k := by
    intro o occurs free
    exact needIndex_ok (same.mem_iff.mpr ((h.items o).mpr ⟨occurs, free⟩))
  obtain ⟨firstOccurs, secondOccurs⟩ := mem_occurrences member
  unfold relationRow
  cases enforceInitialFinal with
  | false =>
    obtain ⟨kFirst, first⟩ := numbered r.first firstOccurs (isFree_unforced r.first)
    obtain ⟨kSecond, second⟩ := numbered r.second secondOccurs (isFree_unforced r.second)
    rw [first, second]
    exact ⟨_, rfl⟩
  | true =>
    cases firstFixed : r.first.isInitial || r.first.isFinal with
    | true =>
      cases secondFixed : r.second.isInitial || r.second.isFinal with
      | true => exact ⟨_, rfl⟩
      | false =>
        obtain ⟨kSecond, second⟩ :=
          numbered r.second secondOccurs (isFree_of_unfixed true secondFixed)
        rw [second]
        exact ⟨_, rfl⟩
    | false =>
      obtain ⟨kFirst, first⟩ := numbered r.first firstOccurs (isFree_of_unfixed true firstFixed)
      rw [first]
      cases secondFixed : r.second.isInitial || r.second.isFinal with
      | true => exact ⟨_, rfl⟩
      | false =>
        obtain ⟨kSecond, second⟩ :=
          numbered r.second secondOccurs (isFree_of_unfixed true secondFixed)
        rw [second]
        exact ⟨_, rfl⟩

/-- A solver has a solution where the first rows alone determine every position, and there are
others. -/
def Solves (solve : List (List D) → List D → Except SortFailure (Nat → D)) : Prop :=
  ∀ (numItems : Nat) (rows : List (List D)) (b : List D), rows ≠ [] →
    (∀ row ∈ rows, row.length = numItems) → numItems + rows.length = b.length →
    ∃ x, solve ((List.range numItems).map (absoluteRow d numItems) ++ rows) b = .ok x

theorem relationRow_length {enforceInitialFinal : Bool} {t : Targets D}
    {index2items : List (FuzzySortable α)} {r : FuzzySortableRelation α} {row : List D × D}
    (h : relationRow d enforceInitialFinal t index2items r = .ok row) :
    row.1.length = index2items.length := by
  have zeros : (zeroRow d index2items.length).length = index2items.length := List.length_replicate
  unfold relationRow at h
  simp only [] at h
  split at h
  · split at h
    · cases h
      exact zeros
    · split at h
      · obtain ⟨kSecond, _, h⟩ := Outcome.bind_ok h
        cases h
        exact List.length_set.trans zeros
      · obtain ⟨kFirst, _, h⟩ := Outcome.bind_ok h
        cases h
        exact List.length_set.trans zeros
  · obtain ⟨kFirst, _, h⟩ := Outcome.bind_ok h
    obtain ⟨kSecond, _, h⟩ := Outcome.bind_ok h
    cases h
    exact List.length_set.trans (List.length_set.trans zeros)

structure Platform.Lawful (platform : Platform α D) : Prop where
  iteration (set : List (FuzzySortable α)) : (platform.iteration set).Perm set
  solve : Solves d platform.solve
  arraysSort (cmp : FuzzySortable α → FuzzySortable α → Int) (xs : List (FuzzySortable α)) :
    (platform.arraysSort cmp xs).Perm xs

theorem sortItems_ok {platform : Platform α D} (law : platform.Lawful d)
    (enforceInitialFinal : Bool) (threshold : D) {relations : List (FuzzySortableRelation α)}
    (filled : relations ≠ []) (consistent : Consistent (occurrences relations)) :
    ∃ x level, sortItems d platform enforceInitialFinal threshold relations =
      .ok (assemble enforceInitialFinal (collect enforceInitialFinal relations)
        (condense d platform.arraysSort
          (platform.iteration (collect enforceInitialFinal relations).itemSet) x level)) := by
  have collected := collect_collected enforceInitialFinal consistent
  have same := law.iteration (collect enforceInitialFinal relations).itemSet
  obtain ⟨constraints, constrained⟩ := Outcome.mapM_total
    fun r member => relationRow_ok d collected
      (targets d enforceInitialFinal (collect enforceInitialFinal relations)) same member
  have given : constraints.map Prod.fst ≠ [] := by
    intro none
    rw [List.map_eq_nil_iff] at none
    subst none
    cases Outcome.mapM_ok constrained
    exact filled rfl
  have width : ∀ row ∈ constraints.map Prod.fst, row.length =
      (platform.iteration (collect enforceInitialFinal relations).itemSet).length := by
    intro row member
    obtain ⟨constraint, listed, rfl⟩ := List.mem_map.mp member
    exact Outcome.mapM_all constrained (fun _ _ h => relationRow_length d h) constraint listed
  obtain ⟨x, solved⟩ := law.solve
    (platform.iteration (collect enforceInitialFinal relations).itemSet).length
    (constraints.map Prod.fst)
    ((platform.iteration (collect enforceInitialFinal relations).itemSet).map
      (targetPos (targets d enforceInitialFinal (collect enforceInitialFinal relations))) ++
        constraints.map Prod.snd) given width
    (by rw [List.length_append, List.length_map, List.length_map, List.length_map])
  refine ⟨x, equalityThreshold d threshold
    (targets d enforceInitialFinal (collect enforceInitialFinal relations)).posFinal, ?_⟩
  unfold sortItems
  simp only [constrained, solved, bind, Except.bind, pure, Except.pure]

omit [DecidableEq α] in
theorem exists_only_set {sets : List (List (FuzzySortable α))} {x : FuzzySortable α}
    (distinct : (sets.flatten.map FuzzySortable.payload).Nodup) (h : x ∈ sets.flatten) :
    ∃ before s after, sets = before ++ s :: after ∧ x ∈ s ∧
      ∀ t ∈ before ++ after, ∀ y ∈ t, y.payload ≠ x.payload := by
  obtain ⟨s, member, inside⟩ := List.mem_flatten.mp h
  obtain ⟨before, after, rfl⟩ := List.append_of_mem member
  refine ⟨before, s, after, rfl, inside, ?_⟩
  have moved : ((before ++ s :: after).flatten).Perm (s ++ (before ++ after).flatten) :=
    List.perm_middle.flatten
  have apart := (moved.map FuzzySortable.payload).nodup_iff.mp distinct
  rw [List.map_append, List.nodup_append] at apart
  intro t other y there same
  exact apart.2.2 x.payload (List.mem_map_of_mem inside) y.payload
    (List.mem_map_of_mem (List.mem_flatten.mpr ⟨t, other, there⟩)) same.symm

omit [DecidableEq α] in
theorem flatten_assemble (enforceInitialFinal : Bool) (sets : ItemSets α)
    (groups : List (List (FuzzySortable α))) :
    (assemble enforceInitialFinal sets groups).flatten =
      if enforceInitialFinal then sets.initialSet ++ groups.flatten ++ sets.finalSet
      else groups.flatten := by
  unfold assemble
  split
  · rw [List.flatten_append, List.flatten_append]
    cases sets.initialSet with
    | nil =>
      cases sets.finalSet with
      | nil => rfl
      | cons y ends => simp
    | cons x starts =>
      cases sets.finalSet with
      | nil => simp
      | cons y ends => simp
  · rfl

theorem condense_perm {platform : Platform α D} (law : platform.Lawful d)
    {index2items : List (FuzzySortable α)} (x : Nat → D) (level : D)
    (distinct : (index2items.map FuzzySortable.payload).Nodup) :
    (condense d platform.arraysSort index2items x level).flatten.Perm index2items ∧
      [] ∉ condense d platform.arraysSort index2items x level := by
  have sorted := law.arraysSort (comparator d index2items x level) index2items
  unfold condense
  rw [group_eq_groups _ ((sorted.map FuzzySortable.payload).nodup_iff.mpr distinct)]
  rw [AdjacentSort.flatten_groups]
  exact ⟨sorted, List.nil_notMem_splitBy _ _⟩

section Result
variable {enforceInitialFinal : Bool} {relations : List (FuzzySortableRelation α)}
  {sets : ItemSets α} {groups : List (List (FuzzySortable α))}

omit [DecidableEq α] in
theorem isFree_iff (x : FuzzySortable α) :
    isFree enforceInitialFinal x = true ↔
      ¬ startsFixed enforceInitialFinal x = true ∧ ¬ endsFixed enforceInitialFinal x = true := by
  unfold isFree
  rw [Bool.and_eq_true, Bool.not_eq_true', Bool.not_eq_true', Bool.not_eq_true,
    Bool.not_eq_true]

omit [DecidableEq α] in
theorem not_both_fixed {x : FuzzySortable α} (h : startsFixed enforceInitialFinal x = true) :
    ¬ endsFixed enforceInitialFinal x = true := by
  intro ends
  have start := (Bool.and_eq_true_iff.mp h).2
  have stop := (Bool.and_eq_true_iff.mp ends).2
  have notBoth := x.notBoth
  rw [start, stop] at notBoth
  cases notBoth

omit [DecidableEq α] in
theorem mem_assemble (h : Collected enforceInitialFinal relations sets)
    (same : groups.flatten.Perm sets.itemSet) (x : FuzzySortable α) :
    x ∈ (assemble enforceInitialFinal sets groups).flatten ↔ x ∈ occurrences relations := by
  rw [flatten_assemble]
  cases enforceInitialFinal with
  | false =>
    rw [if_neg Bool.false_ne_true, same.mem_iff, h.items]
    exact and_iff_left rfl
  | true =>
    rw [if_pos rfl, List.mem_append, List.mem_append, same.mem_iff, h.starts, h.items, h.ends,
      isFree_iff]
    constructor
    · rintro ((⟨occurs, _⟩ | ⟨occurs, _⟩) | ⟨occurs, _⟩)
      · exact occurs
      · exact occurs
      · exact occurs
    · intro occurs
      by_cases start : startsFixed true x = true
      · exact .inl (.inl ⟨occurs, start⟩)
      · by_cases stop : endsFixed true x = true
        · exact .inr ⟨occurs, stop⟩
        · exact .inl (.inr ⟨occurs, start, stop⟩)

omit [DecidableEq α] in
theorem nodup_assemble (h : Collected enforceInitialFinal relations sets)
    (consistent : Consistent (occurrences relations)) (same : groups.flatten.Perm sets.itemSet) :
    ((assemble enforceInitialFinal sets groups).flatten.map FuzzySortable.payload).Nodup := by
  have distinct : (assemble enforceInitialFinal sets groups).flatten.Nodup := by
    rw [flatten_assemble]
    have middle : groups.flatten.Nodup := same.nodup_iff.mpr (List.Nodup.of_map _ h.distinctItems)
    split
    · have starts := List.Nodup.of_map _ h.distinctStarts
      have ends := List.Nodup.of_map _ h.distinctEnds
      refine List.nodup_append.mpr ⟨List.nodup_append.mpr ⟨starts, middle, ?_⟩, ends, ?_⟩
      · rintro x left _ right rfl
        have free := ((h.items x).mp (same.mem_iff.mp right)).2
        exact ((isFree_iff x).mp free).1 ((h.starts x).mp left).2
      · rintro x left _ right rfl
        have stop := ((h.ends x).mp right).2
        rcases List.mem_append.mp left with start | free
        · exact not_both_fixed ((h.starts x).mp start).2 stop
        · exact ((isFree_iff x).mp ((h.items x).mp (same.mem_iff.mp free)).2).2 stop
    · exact middle
  apply List.Nodup.map_on _ distinct
  intro x left y right payload
  exact consistent x ((mem_assemble h same x).mp left) y ((mem_assemble h same y).mp right) payload

omit [DecidableEq α] in
theorem nil_notMem_assemble (filled : [] ∉ groups) :
    [] ∉ assemble enforceInitialFinal sets groups := by
  unfold assemble
  split
  · cases sets.initialSet with
    | nil =>
      cases sets.finalSet with
      | nil => simp [filled]
      | cons y ends => simp [filled]
    | cons x starts =>
      cases sets.finalSet with
      | nil => simp [filled]
      | cons y ends => simp [filled]
  · exact filled

omit [DecidableEq α] in
theorem assemble_first (h : Collected true relations sets)
    (some : ∃ x ∈ occurrences relations, x.isInitial = true) :
    ∃ rest, assemble true sets groups = sets.initialSet :: rest := by
  obtain ⟨x, occurs, start⟩ := some
  have member := (h.starts x).mpr ⟨occurs, start⟩
  have filled : sets.initialSet.isEmpty = false := by
    rw [List.isEmpty_eq_false_iff]
    exact List.ne_nil_of_mem member
  unfold assemble
  rw [if_pos rfl, filled]
  exact ⟨_, rfl⟩

omit [DecidableEq α] in
theorem assemble_last (h : Collected true relations sets)
    (some : ∃ x ∈ occurrences relations, x.isFinal = true) :
    ∃ rest, assemble true sets groups = rest ++ [sets.finalSet] := by
  obtain ⟨x, occurs, stop⟩ := some
  have member := (h.ends x).mpr ⟨occurs, stop⟩
  have filled : sets.finalSet.isEmpty = false := by
    rw [List.isEmpty_eq_false_iff]
    exact List.ne_nil_of_mem member
  unfold assemble
  rw [if_pos rfl, filled]
  exact ⟨_, rfl⟩

end Result

/-- The result is a partition of the sortables into sets that are not empty, and where that is
enforced its ends are the initial and the final sortables. -/
theorem sort_partition {platform : Platform α D} (law : platform.Lawful d)
    (enforceInitialFinal : Bool) {threshold : D} (valid : d.lt threshold (d.ofInt 0) = false)
    {relations : List (FuzzySortableRelation α)} (filled : relations ≠ [])
    (flags : ∀ x ∈ occurrences relations, ∀ y ∈ occurrences relations, x.payload = y.payload →
      x.isInitial = y.isInitial ∧ x.isFinal = y.isFinal) :
    ∃ result, sort d platform (some relations) enforceInitialFinal threshold = .ok result ∧
      (∀ x ∈ occurrences relations, ∃ before s after, result = before ++ s :: after ∧ x ∈ s ∧
        ∀ t ∈ before ++ after, ∀ y ∈ t, y.payload ≠ x.payload) ∧
      (∀ s ∈ result, s ≠ [] ∧ ∀ x ∈ s, x ∈ occurrences relations) ∧
      (enforceInitialFinal = true →
        ((∃ x ∈ occurrences relations, x.isInitial = true) → ∃ s rest, result = s :: rest ∧
          ∀ x, x ∈ s ↔ x ∈ occurrences relations ∧ x.isInitial = true) ∧
        ((∃ x ∈ occurrences relations, x.isFinal = true) → ∃ s rest, result = rest ++ [s] ∧
          ∀ x, x ∈ s ↔ x ∈ occurrences relations ∧ x.isFinal = true)) := by
  have consistent : Consistent (occurrences relations) := by
    intro x left y right payload
    obtain ⟨start, stop⟩ := flags x left y right payload
    cases x
    cases y
    cases payload
    cases start
    cases stop
    rfl
  have collected := collect_collected enforceInitialFinal consistent
  have listed := law.iteration (collect enforceInitialFinal relations).itemSet
  obtain ⟨x, level, sorted⟩ := sortItems_ok d law enforceInitialFinal threshold filled consistent
  obtain ⟨inside, nonempty⟩ := condense_perm d law x level
    ((listed.map FuzzySortable.payload).nodup_iff.mpr collected.distinctItems)
  have same := inside.trans listed
  have ok : sort d platform (some relations) enforceInitialFinal threshold =
      sortItems d platform enforceInitialFinal threshold relations := by
    unfold sort
    simp only []
    rw [if_neg (fun none => filled (List.isEmpty_iff.mp none)), valid]
    rfl
  rw [sorted] at ok
  refine ⟨_, ok, ?_, ?_, ?_⟩
  · intro y occurs
    exact exists_only_set (nodup_assemble collected consistent same)
      ((mem_assemble collected same y).mpr occurs)
  · intro s member
    refine ⟨?_, ?_⟩
    · rintro rfl
      exact nil_notMem_assemble nonempty member
    · intro y there
      exact (mem_assemble collected same y).mp (List.mem_flatten.mpr ⟨s, member, there⟩)
  · rintro rfl
    refine ⟨?_, ?_⟩
    · intro some
      obtain ⟨rest, shape⟩ := assemble_first collected some
      exact ⟨_, rest, shape, collected.starts⟩
    · intro some
      obtain ⟨rest, shape⟩ := assemble_last collected some
      exact ⟨_, rest, shape, collected.ends⟩

def solveOne (rows : List (List Number)) (b : List Number) : Except SortFailure (Nat → Number) :=
  let a := rows.map fun row => row.headD (.val 0)
  let sum := List.foldl Number.add (.val 0)
  .ok fun _ => (sum (List.zipWith Number.mul a b)).div (sum (List.zipWith Number.mul a a))

def onePlatform : Platform Nat Number where
  iteration := id
  solve := solveOne
  arraysSort := AdjacentSort.merge.sort

/-- An initial, a free and a final item, each of which follows the one before. -/
def threeItems : List (FuzzySortableRelation Nat) :=
  [⟨⟨0, true, false, rfl⟩, ⟨1, false, false, rfl⟩, by decide⟩,
    ⟨⟨1, false, false, rfl⟩, ⟨2, false, true, rfl⟩, by decide⟩]

theorem sort_partition_threeItems :
    ∃ result, sort exactComparisons onePlatform (some threeItems) true (.val 1) = .ok result ∧
      (∀ x ∈ occurrences threeItems, ∃ before s after, result = before ++ s :: after ∧ x ∈ s ∧
        ∀ t ∈ before ++ after, ∀ y ∈ t, y.payload ≠ x.payload) ∧
      (∀ s ∈ result, s ≠ [] ∧ ∀ x ∈ s, x ∈ occurrences threeItems) ∧
      (true = true →
        ((∃ x ∈ occurrences threeItems, x.isInitial = true) → ∃ s rest, result = s :: rest ∧
          ∀ x, x ∈ s ↔ x ∈ occurrences threeItems ∧ x.isInitial = true) ∧
        ((∃ x ∈ occurrences threeItems, x.isFinal = true) → ∃ s rest, result = rest ++ [s] ∧
          ∀ x, x ∈ s ↔ x ∈ occurrences threeItems ∧ x.isFinal = true)) := by
  have law : onePlatform.Lawful exactComparisons :=
    { iteration := List.Perm.refl
      solve := fun _ _ _ _ _ _ => ⟨_, rfl⟩
      arraysSort := AdjacentSort.merge.perm }
  exact sort_partition exactComparisons law true (by decide) (by decide) (by decide)

end Semaine.Util.FuzzySort
