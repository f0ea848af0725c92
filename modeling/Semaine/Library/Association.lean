import Mathlib

/-! Association lists in which no key occurs twice, and maps that are filled entry by entry. -/
namespace List

universe u v w
variable {α : Type u} {β : Type v} {γ : Type w}

theorem nodup_keys_concat {l : List (α × β)} {e : α × β}
    (distinct : ((l ++ [e]).map Prod.fst).Nodup) :
    (l.map Prod.fst).Nodup ∧ e.1 ∉ l.map Prod.fst := by
  rw [map_append, nodup_append] at distinct
  refine ⟨distinct.1, ?_⟩
  intro member
  exact distinct.2.2 e.1 member e.1 (.head []) rfl

variable [BEq α] [LawfulBEq α]

theorem mem_of_lookup {l : List (α × β)} {k : α} {b : β} (h : l.lookup k = some b) :
    (k, b) ∈ l := by
  obtain ⟨before, after, rfl, _⟩ := lookup_eq_some_iff.mp h
  exact mem_append_right before (.head after)

theorem lookup_eq_none_of_notMem {l : List (α × β)} {k : α} (h : k ∉ l.map Prod.fst) :
    l.lookup k = none := by
  apply lookup_eq_none_iff.mpr
  intro e member
  apply bne_iff_ne.mpr
  rintro rfl
  exact h (mem_map_of_mem member)

theorem mem_keys_of_lookup {l : List (α × β)} {k : α} (h : (l.lookup k).isSome = true) :
    k ∈ l.map Prod.fst := by
  obtain ⟨b, found⟩ := Option.isSome_iff_exists.mp h
  exact List.mem_map.mpr ⟨(k, b), mem_of_lookup found, rfl⟩

theorem exists_lookup {l : List (α × β)} {k : α} (h : k ∈ l.map Prod.fst) :
    ∃ b, l.lookup k = some b := by
  obtain ⟨e, member, rfl⟩ := mem_map.mp h
  have found : (l.lookup e.1).isSome := lookup_isSome_iff.mpr ⟨e, member, beq_self_eq_true e.1⟩
  exact Option.isSome_iff_exists.mp found

theorem lookup_of_mem {l : List (α × β)} (distinct : (l.map Prod.fst).Nodup) {k : α} {b : β}
    (h : (k, b) ∈ l) : l.lookup k = some b := by
  induction l with
  | nil => cases h
  | cons e l ih =>
    rw [map_cons, nodup_cons] at distinct
    rw [lookup_cons]
    rcases mem_cons.mp h with rfl | later
    · rw [beq_self_eq_true]
    · have different : (k == e.1) = false := by
        apply beq_eq_false_iff_ne.mpr
        rintro rfl
        exact distinct.1 (mem_map.mpr ⟨(e.1, b), later, rfl⟩)
      rw [different]
      exact ih distinct.2 later

theorem lookup_filter_ne [DecidableEq α] (l : List (α × β)) {k other : α} (h : other ≠ k) :
    (l.filter fun e => e.1 ≠ k).lookup other = l.lookup other := by
  induction l with
  | nil => rfl
  | cons e rest ih =>
    rw [filter_cons, lookup_cons]
    by_cases same : e.1 = k
    · have skipped : (other == e.1) = false := by
        rw [same]
        exact beq_eq_false_iff_ne.mpr h
      rw [if_neg (by simp [same]), skipped]
      exact ih
    · rw [if_pos (by simp [same]), lookup_cons]
      cases other == e.1 with
      | true => rfl
      | false => exact ih

theorem lookup_concat [DecidableEq α] {l : List (α × β)} {k : α} (new : l.lookup k = none) (b : β)
    (j : α) : (l ++ [(k, b)]).lookup j = if j = k then some b else l.lookup j := by
  rw [lookup_append]
  by_cases same : j = k
  · rw [same, new]
    simp
  · have different : (j == k) = false := by simpa using same
    simp [lookup_cons, different, same]

theorem lookup_filterMap {l : List (α × β)} (distinct : (l.map Prod.fst).Nodup)
    (g : α × β → Option γ) (k : α) :
    (l.filterMap fun e => (g e).map fun c => (e.1, c)).lookup k =
      (l.lookup k).bind fun b => g (k, b) := by
  induction l with
  | nil => rfl
  | cons e l ih =>
    rw [map_cons, nodup_cons] at distinct
    have rest := ih distinct.2
    rw [filterMap_cons, lookup_cons]
    cases same : k == e.1 with
    | true =>
      have key := eq_of_beq same
      subst key
      rw [lookup_eq_none_of_notMem distinct.1] at rest
      cases image : g e with
      | none => simp [rest, image]
      | some c => simp [image]
    | false =>
      cases image : g e with
      | none => simp [rest]
      | some c => simp [rest, lookup_cons, same]

section
variable {κ : Type u} {ν : Type v} [DecidableEq κ]

/-- The map that is left when the entries are put in their order: the last one for a key counts. -/
def putAll (l : List (κ × ν)) : AList (fun _ : κ => ν) := l.foldl (fun m e => m.insert e.1 e.2) ∅

theorem putAll_concat (l : List (κ × ν)) (e : κ × ν) :
    (l ++ [e]).putAll = l.putAll.insert e.1 e.2 := by
  unfold putAll
  rw [foldl_append, foldl_cons, foldl_nil]

theorem mem_putAll {l : List (κ × ν)} {k : κ} : k ∈ l.putAll ↔ k ∈ l.map Prod.fst := by
  induction l using reverseRecOn with
  | nil => simp [putAll]
  | append_singleton l e ih =>
    rw [putAll_concat, AList.mem_insert, ih, map_append, mem_append, or_comm]
    simp

theorem putAll_lookup [BEq κ] [LawfulBEq κ] {l : List (κ × ν)}
    (distinct : (l.map Prod.fst).Nodup) (k : κ) :
    l.putAll.lookup k = l.lookup k := by
  induction l using reverseRecOn with
  | nil => simp [putAll]
  | append_singleton l e ih =>
    obtain ⟨earlier, new⟩ := nodup_keys_concat distinct
    rw [putAll_concat, lookup_concat (lookup_eq_none_of_notMem new)]
    by_cases same : k = e.1
    · rw [same, AList.lookup_insert, if_pos rfl]
    · rw [AList.lookup_insert_ne same, if_neg same, ih earlier]

theorem putAll_isEmpty {l : List (κ × ν)} : l.putAll.keys.isEmpty = true ↔ l = [] := by
  rw [isEmpty_iff]
  constructor
  · intro none
    cases l with
    | nil => rfl
    | cons e l =>
      have member : e.1 ∈ (e :: l).putAll := mem_putAll.mpr (.head _)
      rw [AList.mem_keys, none] at member
      cases member
  · rintro rfl
    rfl

end

end List
