import Semaine.Dialogue.Response

/-! Which responses of a group are returned once all of them have been used. -/
namespace Semaine.Dialogue
open JavaText

section
variable {α : Type} {key : α → Int}

theorem mem_take_sorted {values : List α} (sorted : values.Pairwise (key · < key ·)) (n : Nat)
    (v : α) : v ∈ values.take n ↔
      v ∈ values ∧ (values.filter (fun w => key w < key v)).length < n := by
  induction values generalizing n with
  | nil => simp
  | cons w values ih =>
    obtain ⟨least, sorted⟩ := List.pairwise_cons.mp sorted
    cases n with
    | zero => simp
    | succ n =>
      have rest := ih sorted n
      rw [List.take_succ_cons, List.mem_cons, rest, List.mem_cons]
      constructor
      · rintro (rfl | ⟨member, few⟩)
        · have none : values.filter (fun w => key w < key v) = [] := by
            rw [List.filter_eq_nil_iff]
            intro w member
            have larger := least w member
            simpa using larger.le
          refine ⟨.inl rfl, ?_⟩
          rw [List.filter_cons_of_neg (by simp), none]
          exact Nat.zero_lt_succ n
        · refine ⟨.inr member, ?_⟩
          rw [List.filter_cons_of_pos (by simpa using least v member), List.length_cons]
          exact Nat.succ_lt_succ few
      · rintro ⟨rfl | member, few⟩
        · exact .inl rfl
        · rw [List.filter_cons_of_pos (by simpa using least v member), List.length_cons] at few
          exact .inr ⟨member, Nat.lt_of_succ_lt_succ few⟩

end

def lastUse (history : List Response) (r : Response) : Int :=
  match lastIndexOf history r with
  | some k => k
  | none => -1

/-- Three responses of a group, or all if there are fewer, whose last use lies furthest back. -/
def leastRecent (history responses : List Response) : List Response :=
  (responses.insertionSort (fun r s => lastUse history r ≤ lastUse history s)).take 3

/-- The responses of a group are distinct objects, and each occurs in the history. -/
structure AllUsed (history responses : List Response) : Prop where
  objects : ∀ r ∈ responses, r.object.isSome = true
  distinct : (responses.map Response.object).Nodup
  used : ∀ r ∈ responses, history.any (r.same ·) = true

variable {history responses : List Response}

theorem lastIndexOf_used {r : Response} (used : history.any (r.same ·) = true) :
    ∃ k h, lastIndexOf history r = some k ∧ history[k]? = some h ∧ r.same h = true := by
  have present : (history.reverse.findIdx? (r.same ·)).isSome = true := by
    rw [List.findIdx?_isSome, List.any_reverse]
    exact used
  obtain ⟨i, found⟩ := Option.isSome_iff_exists.mp present
  obtain ⟨inside, same, _⟩ := List.findIdx?_eq_some_iff_getElem.mp found
  have within := inside
  rw [List.length_reverse] at within
  rw [List.getElem_reverse] at same
  refine ⟨history.length - 1 - i, history[history.length - 1 - i], ?_, ?_, same⟩
  · unfold lastIndexOf
    rw [found]
    rfl
  · exact List.getElem?_eq_getElem (by omega)

theorem Response.same_object {r s : Response} (h : r.same s = true) : r.object = s.object := by
  unfold Response.same at h
  simp only [Bool.and_eq_true, decide_eq_true_eq] at h
  exact h.2

theorem lastUse_injective (all : AllUsed history responses) {r s : Response}
    (hr : r ∈ responses) (hs : s ∈ responses) (h : lastUse history r = lastUse history s) :
    r.object = s.object := by
  obtain ⟨k, x, rIndex, rThere, rSame⟩ := lastIndexOf_used (all.used r hr)
  obtain ⟨l, y, sIndex, sThere, sSame⟩ := lastIndexOf_used (all.used s hs)
  unfold lastUse at h
  rw [rIndex, sIndex] at h
  have same : k = l := Int.ofNat.inj h
  rw [← same, rThere] at sThere
  cases sThere
  exact (Response.same_object rSame).trans (Response.same_object sSame).symm

theorem lastUse_pairwise (all : AllUsed history responses) :
    responses.Pairwise fun r s => lastUse history r ≠ lastUse history s := by
  have apart := List.pairwise_map.mp all.distinct
  apply apart.imp_of_mem
  intro r s hr hs different same
  exact different (lastUse_injective all hr hs same)

theorem sorted_strictly (all : AllUsed history responses) :
    (responses.insertionSort (fun r s => lastUse history r ≤ lastUse history s)).Pairwise
      (lastUse history · < lastUse history ·) := by
  have total : Std.Total fun r s => lastUse history r ≤ lastUse history s :=
    ⟨fun r s => le_total _ _⟩
  have trans : IsTrans Response fun r s => lastUse history r ≤ lastUse history s :=
    ⟨fun _ _ _ => le_trans⟩
  have weakly := List.pairwise_insertionSort
    (fun r s => lastUse history r ≤ lastUse history s) responses
  have apart := (List.perm_insertionSort
    (fun r s => lastUse history r ≤ lastUse history s) responses).symm.pairwise
      (lastUse_pairwise all) fun different same => different same.symm
  exact weakly.imp₂ (fun _ _ le ne => lt_of_le_of_ne le ne) apart

theorem mem_leastRecent (all : AllUsed history responses) (r : Response) :
    r ∈ leastRecent history responses ↔ r ∈ responses ∧
      (responses.filter (fun s => lastUse history s < lastUse history r)).length < 3 := by
  have perm := List.perm_insertionSort
    (fun r s => lastUse history r ≤ lastUse history s) responses
  have lengths := (perm.filter fun s => lastUse history s < lastUse history r).length_eq
  unfold leastRecent
  rw [mem_take_sorted (sorted_strictly all), perm.mem_iff, lengths]

/-- The first response that is kept is at the first place, and the second one at the last. -/
def oneKept (history : List Response) (r : Response) : PastResponses where
  pastResponses := ![some r, none, none]
  lastIndex := ![lastUse history r, 9999, 9999]
  minIndex := 9999
  minIndexPlace := 2

def twoKept (history : List Response) (r s : Response) : PastResponses where
  pastResponses := ![some r, none, some s]
  lastIndex := ![lastUse history r, 9999, lastUse history s]
  minIndex := 9999
  minIndexPlace := 1

/-- Three responses are kept, and none that was left out was used before one of them. -/
structure ThreeKept (history done : List Response) (p : PastResponses) : Prop where
  kept : ∀ j, ∃ r ∈ done, p.pastResponses j = some r ∧ p.lastIndex j = lastUse history r
  distinct : Function.Injective p.lastIndex
  bound : ∀ j, p.lastIndex j ≤ p.minIndex
  place : p.lastIndex p.minIndexPlace = p.minIndex
  small : p.minIndex < 9999
  others : ∀ r ∈ done, (∃ j, p.pastResponses j = some r) ∨ p.minIndex ≤ lastUse history r

def early (history responses : List Response) : List Response :=
  responses.filter fun r => lastUse history r < 9999

/-- What is kept after some responses, by those of them that are considered. -/
def Kept (history done : List Response) (p : PastResponses) : List Response → Prop
  | [] => p = {}
  | [r] => p = oneKept history r
  | [r, s] => p = twoKept history r s
  | _ :: _ :: _ :: _ => ThreeKept history done p

theorem consider_lastUse (p : PastResponses) (r : Response) :
    p.consider history r =
      if lastUse history r < p.minIndex then
        let lastIndex := Function.update p.lastIndex p.minIndexPlace (lastUse history r)
        let minIndex := max (lastIndex 0) (max (lastIndex 1) (lastIndex 2))
        { pastResponses := Function.update p.pastResponses p.minIndexPlace (some r)
          lastIndex := lastIndex
          minIndex := minIndex
          minIndexPlace :=
            if lastIndex 2 = minIndex then 2
            else if lastIndex 1 = minIndex then 1
            else if lastIndex 0 = minIndex then 0
            else p.minIndexPlace }
      else p := rfl

theorem consider_late {p : PastResponses} {r : Response} (late : p.minIndex ≤ lastUse history r) :
    p.consider history r = p := by
  rw [consider_lastUse, if_neg (not_lt.mpr late)]

theorem update_first {α : Type} (x y z v : α) : Function.update ![x, y, z] 0 v = ![v, y, z] := by
  funext j
  match j with
  | 0 => rfl
  | 1 => rfl
  | 2 => rfl

theorem update_third {α : Type} (x y z v : α) : Function.update ![x, y, z] 2 v = ![x, y, v] := by
  funext j
  match j with
  | 0 => rfl
  | 1 => rfl
  | 2 => rfl

theorem const_three {α : Type} (x : α) : (fun _ : Fin 3 => x) = ![x, x, x] := by
  funext j
  match j with
  | 0 => rfl
  | 1 => rfl
  | 2 => rfl

theorem consider_first {r : Response} (soon : lastUse history r < 9999) :
    PastResponses.consider history {} r = oneKept history r := by
  have highest : max (lastUse history r) (max 9999 9999) = 9999 := by omega
  rw [consider_lastUse, if_pos soon]
  unfold oneKept
  simp only [const_three, update_first, Matrix.cons_val, highest, if_true]

theorem consider_second {r s : Response} (before : lastUse history r < 9999)
    (soon : lastUse history s < 9999) :
    (oneKept history r).consider history s = twoKept history r s := by
  have highest : max (lastUse history r) (max 9999 (lastUse history s)) = 9999 := by omega
  rw [consider_lastUse]
  unfold oneKept twoKept
  simp only [update_third, Matrix.cons_val, highest, if_true, soon, soon.ne, if_false]

/-- All places but one are filled, and what is put there next makes three. -/
structure Fillable (history done : List Response) (p : PastResponses) : Prop where
  kept : ∀ j, j ≠ p.minIndexPlace →
    ∃ r ∈ done, p.pastResponses j = some r ∧ p.lastIndex j = lastUse history r
  distinct : ∀ j k, j ≠ p.minIndexPlace → k ≠ p.minIndexPlace → p.lastIndex j = p.lastIndex k →
    j = k
  below : ∀ j, j ≠ p.minIndexPlace → p.lastIndex j < p.minIndex
  small : p.minIndex ≤ 9999
  others : ∀ r ∈ done, (∃ j, j ≠ p.minIndexPlace ∧ p.pastResponses j = some r) ∨
    p.minIndex ≤ lastUse history r

theorem ThreeKept.fillable {done : List Response} {p : PastResponses}
    (three : ThreeKept history done p) : Fillable history done p := by
  constructor
  · intro j _
    exact three.kept j
  · intro j k _ _ same
    exact three.distinct same
  · intro j other
    have different : p.lastIndex j ≠ p.lastIndex p.minIndexPlace :=
      fun same => other (three.distinct same)
    rw [three.place] at different
    exact lt_of_le_of_ne (three.bound j) different
  · exact three.small.le
  · intro r member
    rcases three.others r member with ⟨j, here⟩ | later
    · by_cases place : j = p.minIndexPlace
      · obtain ⟨r', _, there, index⟩ := three.kept j
        rw [here] at there
        cases there
        rw [place, three.place] at index
        exact .inr index.le
      · exact .inl ⟨j, place, here⟩
    · exact .inr later

theorem le_highest (f : Fin 3 → Int) : ∀ j, f j ≤ max (f 0) (max (f 1) (f 2))
  | 0 => le_max_left _ _
  | 1 => (le_max_left _ _).trans (le_max_right _ _)
  | 2 => (le_max_right _ _).trans (le_max_right _ _)

theorem highest_lt {f : Fin 3 → Int} {bound : Int} (below : ∀ j, f j < bound) :
    max (f 0) (max (f 1) (f 2)) < bound :=
  max_lt (below 0) (max_lt (below 1) (below 2))

theorem highest_place (f : Fin 3 → Int) (other : Fin 3) :
    f (if f 2 = max (f 0) (max (f 1) (f 2)) then 2
      else if f 1 = max (f 0) (max (f 1) (f 2)) then 1
      else if f 0 = max (f 0) (max (f 1) (f 2)) then 0 else other) =
        max (f 0) (max (f 1) (f 2)) := by
  split
  · assumption
  · split
    · assumption
    · split
      · assumption
      · omega

theorem Fillable.consider {done : List Response} {p : PastResponses} {r : Response}
    (fillable : Fillable history done p) (soon : lastUse history r < p.minIndex)
    (fresh : ∀ s ∈ done, lastUse history s ≠ lastUse history r) :
    ThreeKept history (done ++ [r]) (p.consider history r) := by
  rw [consider_lastUse, if_pos soon]
  have index (j : Fin 3) : (j = p.minIndexPlace ∧
      Function.update p.lastIndex p.minIndexPlace (lastUse history r) j = lastUse history r) ∨
      (j ≠ p.minIndexPlace ∧
        Function.update p.lastIndex p.minIndexPlace (lastUse history r) j = p.lastIndex j) := by
    by_cases here : j = p.minIndexPlace
    · subst here
      exact .inl ⟨rfl, Function.update_self ..⟩
    · exact .inr ⟨here, Function.update_of_ne here ..⟩
  have below (j : Fin 3) :
      Function.update p.lastIndex p.minIndexPlace (lastUse history r) j < p.minIndex := by
    rcases index j with ⟨_, same⟩ | ⟨other, same⟩
    · rw [same]
      exact soon
    · rw [same]
      exact fillable.below j other
  have least := highest_lt below
  constructor
  · intro j
    rcases index j with ⟨here, same⟩ | ⟨other, same⟩
    · subst here
      exact ⟨r, List.mem_append_right _ (.head _), Function.update_self .., same⟩
    · obtain ⟨s, member, there, own⟩ := fillable.kept j other
      exact ⟨s, List.mem_append_left _ member, (Function.update_of_ne other ..).trans there,
        same.trans own⟩
  · intro j k same
    rcases index j with ⟨here, own⟩ | ⟨other, own⟩
    · rcases index k with ⟨here', _⟩ | ⟨other', own'⟩
      · rw [here, here']
      · obtain ⟨s, member, _, used⟩ := fillable.kept k other'
        exact absurd (used.symm.trans (own'.symm.trans (same.symm.trans own))) (fresh s member)
    · rcases index k with ⟨here', own'⟩ | ⟨other', own'⟩
      · obtain ⟨s, member, _, used⟩ := fillable.kept j other
        exact absurd (used.symm.trans (own.symm.trans (same.trans own'))) (fresh s member)
      · exact fillable.distinct j k other other' (own.symm.trans (same.trans own'))
  · exact le_highest _
  · exact highest_place _ _
  · exact least.trans_le fillable.small
  · intro s member
    rcases List.mem_append.mp member with before | last
    · rcases fillable.others s before with ⟨j, other, there⟩ | later
      · exact .inl ⟨j, (Function.update_of_ne other ..).trans there⟩
      · exact .inr (least.le.trans later)
    · rw [List.mem_singleton] at last
      exact .inl ⟨p.minIndexPlace, by rw [last]; exact Function.update_self ..⟩

theorem mem_early {done : List Response} {r : Response} :
    r ∈ early history done ↔ r ∈ done ∧ lastUse history r < 9999 := by
  unfold early
  rw [List.mem_filter, decide_eq_true_iff]

theorem fillable_two {done : List Response} {r s : Response} (two : early history done = [r, s])
    (apart : lastUse history r ≠ lastUse history s) :
    Fillable history done (twoKept history r s) := by
  have first : r ∈ early history done := by
    rw [two]
    exact .head _
  have second : s ∈ early history done := by
    rw [two]
    exact .tail _ (.head _)
  rw [mem_early] at first second
  constructor
  · intro j other
    match j with
    | 0 => exact ⟨r, first.1, rfl, rfl⟩
    | 1 => exact absurd rfl other
    | 2 => exact ⟨s, second.1, rfl, rfl⟩
  · intro j k other other' same
    match j with
    | 0 =>
      match k with
      | 0 => rfl
      | 1 => exact absurd rfl other'
      | 2 => exact absurd same apart
    | 1 => exact absurd rfl other
    | 2 =>
      match k with
      | 0 => exact absurd same.symm apart
      | 1 => exact absurd rfl other'
      | 2 => rfl
  · intro j other
    match j with
    | 0 => exact first.2
    | 1 => exact absurd rfl other
    | 2 => exact second.2
  · exact le_refl _
  · intro t member
    rcases lt_or_ge (lastUse history t) 9999 with soon | late
    · have inside : t ∈ early history done := mem_early.mpr ⟨member, soon⟩
      rw [two, List.mem_cons, List.mem_singleton] at inside
      rcases inside with rfl | rfl
      · exact .inl ⟨0, (by decide : (0 : Fin 3) ≠ 1), rfl⟩
      · exact .inl ⟨2, (by decide : (2 : Fin 3) ≠ 1), rfl⟩
    · exact .inr late

theorem ThreeKept.later {done : List Response} {p : PastResponses} {r : Response}
    (three : ThreeKept history done p) (late : p.minIndex ≤ lastUse history r) :
    ThreeKept history (done ++ [r]) p where
  kept j := by
    obtain ⟨s, member, there⟩ := three.kept j
    exact ⟨s, List.mem_append_left _ member, there⟩
  distinct := three.distinct
  bound := three.bound
  place := three.place
  small := three.small
  others s member := by
    rcases List.mem_append.mp member with before | last
    · exact three.others s before
    · rw [List.mem_singleton] at last
      rw [last]
      exact .inr late

theorem Kept.step {done : List Response} {p : PastResponses} {r : Response}
    (kept : Kept history done p (early history done))
    (apart : (done ++ [r]).Pairwise fun r s => lastUse history r ≠ lastUse history s) :
    Kept history (done ++ [r]) (p.consider history r) (early history (done ++ [r])) := by
  obtain ⟨apart, _, fresh⟩ := List.pairwise_append.mp apart
  have fresh : ∀ s ∈ done, lastUse history s ≠ lastUse history r :=
    fun s member => fresh s member r (.head _)
  have longer : early history (done ++ [r]) = early history done ++ early history [r] :=
    List.filter_append ..
  rcases lt_or_ge (lastUse history r) 9999 with soon | late
  · have one : early history [r] = [r] := by
      unfold early
      rw [List.filter_cons_of_pos (by simpa using soon), List.filter_nil]
    rw [longer, one]
    have known : ∀ s ∈ early history done, lastUse history s < 9999 :=
      fun s member => (mem_early.mp member).2
    cases considered : early history done with
    | nil =>
      rw [considered] at kept
      cases kept
      exact consider_first soon
    | cons s rest =>
      have first : s ∈ early history done := by
        rw [considered]
        exact .head _
      rw [considered] at kept
      cases rest with
      | nil =>
        cases kept
        exact consider_second (known s first) soon
      | cons t rest =>
        cases rest with
        | nil =>
          cases kept
          have pair : [s, t].Sublist done := by
            rw [← considered]
            exact List.filter_sublist
          have differ := List.pairwise_pair.mp (apart.sublist pair)
          exact (fillable_two considered differ).consider soon fresh
        | cons u rest =>
          have three : ThreeKept history done p := kept
          rcases lt_or_ge (lastUse history r) p.minIndex with sooner | later
          · exact three.fillable.consider sooner fresh
          · rw [consider_late later]
            exact three.later later
  · have none : early history [r] = [] := by
      unfold early
      rw [List.filter_cons_of_neg (by simpa using late), List.filter_nil]
    rw [longer, none, List.append_nil]
    cases considered : early history done with
    | nil =>
      rw [considered] at kept
      cases kept
      exact consider_late late
    | cons s rest =>
      rw [considered] at kept
      cases rest with
      | nil =>
        cases kept
        exact consider_late late
      | cons t rest =>
        cases rest with
        | nil =>
          cases kept
          exact consider_late late
        | cons u rest =>
          have three : ThreeKept history done p := kept
          have later := three.small.le.trans late
          rw [consider_late later]
          exact three.later later

theorem kept_run (all : AllUsed history responses) :
    Kept history responses (responses.foldl (PastResponses.consider history) {})
      (early history responses) := by
  have apart := lastUse_pairwise all
  clear all
  induction responses using List.reverseRecOn with
  | nil => rfl
  | append_singleton done r ih =>
    have before := ih (List.pairwise_append.mp apart).1
    rw [List.foldl_append]
    exact before.step apart

theorem AllUsed.nodup (all : AllUsed history responses) : responses.Nodup :=
  all.distinct.of_map _

theorem leastRecent_nodup (all : AllUsed history responses) :
    (leastRecent history responses).Nodup :=
  ((List.perm_insertionSort _ responses).nodup_iff.mpr all.nodup).sublist (List.take_sublist _ _)

theorem leastRecent_length (history responses : List Response) :
    (leastRecent history responses).length = min 3 responses.length := by
  unfold leastRecent
  rw [List.length_take, List.length_insertionSort]

theorem nodup_length_le {α : Type} {xs ys : List α} (nodup : xs.Nodup) (inside : ∀ x ∈ xs, x ∈ ys) :
    xs.length ≤ ys.length :=
  (List.subperm_of_subset nodup inside).length_le

theorem ThreeKept.mem_leastRecent {p : PastResponses} (all : AllUsed history responses)
    (three : ThreeKept history responses p) (r : Response) :
    r ∈ leastRecent history responses ↔ ∃ j, p.pastResponses j = some r := by
  choose f inside there index using three.kept
  have places : ∀ s, s ∈ [f 0, f 1, f 2] ↔ ∃ j, p.pastResponses j = some s := by
    intro s
    simp only [List.mem_cons, List.not_mem_nil, or_false, Fin.exists_fin_succ, there,
      Option.some.injEq, eq_comm (a := s)]
    simp
  have apart (j k : Fin 3) (other : j ≠ k) : f j ≠ f k := by
    intro same
    have indices := (index j).trans ((congrArg (lastUse history) same).trans (index k).symm)
    exact other (three.distinct indices)
  have distinct : [f 0, f 1, f 2].Nodup := by
    simp [apart 0 1 (by decide), apart 0 2 (by decide), apart 1 2 (by decide)]
  have bound (s : Response) (member : s ∈ [f 0, f 1, f 2]) : s ∈ responses ∧
      lastUse history s ≤ p.minIndex := by
    obtain ⟨j, here⟩ := (places s).mp member
    rw [there j] at here
    cases here
    rw [← index j]
    exact ⟨inside j, three.bound j⟩
  rw [Semaine.Dialogue.mem_leastRecent all, ← places]
  constructor
  · rintro ⟨member, few⟩
    by_contra other
    have later : p.minIndex ≤ lastUse history r :=
      (three.others r member).resolve_left fun here => other ((places r).mpr here)
    have smaller : ∀ s ∈ [f 0, f 1, f 2],
        s ∈ responses.filter (fun s => lastUse history s < lastUse history r) := by
      intro s kept
      obtain ⟨given, least⟩ := bound s kept
      rw [List.mem_filter, decide_eq_true_iff]
      refine ⟨given, lt_of_le_of_ne (least.trans later) ?_⟩
      intro same
      have sameObject := lastUse_injective all given member same
      have sameResponse := List.inj_on_of_nodup_map all.distinct given member sameObject
      exact other (sameResponse ▸ kept)
    have three := nodup_length_le distinct smaller
    simp only [List.length_cons, List.length_nil] at three
    omega
  · intro kept
    obtain ⟨given, least⟩ := bound r kept
    refine ⟨given, ?_⟩
    have own : r ∉ responses.filter (fun s => lastUse history s < lastUse history r) := by
      simp
    have places : ∀ s ∈ r :: responses.filter (fun s => lastUse history s < lastUse history r),
        s ∈ [f 0, f 1, f 2] := by
      intro s member
      rcases List.mem_cons.mp member with rfl | smaller
      · exact kept
      · rw [List.mem_filter, decide_eq_true_iff] at smaller
        rcases three.others s smaller.1 with here | later
        · exact (places s).mpr here
        · omega
    have whole := nodup_length_le (List.nodup_cons.mpr ⟨own, all.nodup.filter _⟩) places
    simp only [List.length_cons, List.length_nil] at whole
    omega

def pick (past : Fin 3 → Option Response) (draw : Nat) : Option Response :=
  if (past 0).isSome && (past 1).isSome && (past 2).isSome then
    past (Fin.ofNat 3 (nextInt draw 3))
  else if (past 0).isSome && (past 1).isSome then past (Fin.ofNat 3 (nextInt draw 2))
  else past 0

variable {responseGroups : AList (fun _ : Text => List Response)} {group : Text}

theorem getResponseFromGroup_used (known : responseGroups.lookup group = some responses)
    (all : AllUsed history responses) (draw : Nat) :
    getResponseFromGroup responseGroups history draw group =
      pick (responses.foldl (PastResponses.consider history) {}).pastResponses draw := by
  have nonUsed : responses.filter (fun r => !history.any (r.same ·)) = [] := by
    rw [List.filter_eq_nil_iff]
    intro r member
    rw [all.used r member]
    exact Bool.false_ne_true
  unfold getResponseFromGroup
  rw [known]
  simp only [Option.bind_eq_bind, Option.bind_some, nonUsed]
  rfl

/-- Over all draws, the responses that are returned are the least recent ones. -/
def ChoosesLeastRecent (responseGroups : AList (fun _ : Text => List Response))
    (history : List Response) (group : Text) (responses : List Response) : Prop :=
  ∀ result, (∃ draw, getResponseFromGroup responseGroups history draw group = result) ↔
    ∃ r ∈ leastRecent history responses, result = some r

theorem single_chosen (all : AllUsed history responses) {r : Response} (given : r ∈ responses)
    (chosen : ∀ draw, getResponseFromGroup responseGroups history draw group = some r) :
    ChoosesLeastRecent responseGroups history group responses ↔ responses.length = 1 := by
  constructor
  · intro chooses
    have only : ∀ s ∈ leastRecent history responses, s ∈ [r] := by
      intro s member
      obtain ⟨draw, drawn⟩ := (chooses (some s)).mpr ⟨s, member, rfl⟩
      rw [chosen draw, Option.some.injEq] at drawn
      rw [drawn]
      exact .head _
    have few := nodup_length_le (leastRecent_nodup all) only
    have positive := List.length_pos_of_mem given
    rw [leastRecent_length, List.length_singleton] at few
    omega
  · intro one
    obtain ⟨s, rfl⟩ := List.length_eq_one_iff.mp one
    rw [List.mem_singleton] at given
    subst given
    have same : leastRecent history [r] = [r] := rfl
    intro result
    rw [same]
    constructor
    · rintro ⟨draw, rfl⟩
      exact ⟨r, .head _, chosen draw⟩
    · rintro ⟨s, member, rfl⟩
      rw [List.mem_singleton] at member
      rw [member]
      exact ⟨0, chosen 0⟩

theorem three_chosen {past : Fin 3 → Option Response} (filled : ∀ j, (past j).isSome = true)
    (result : Option Response) : (∃ draw, pick past draw = result) ↔ ∃ j, past j = result := by
  have picked (draw : Nat) : pick past draw = past (Fin.ofNat 3 (draw % 3)) := by
    unfold pick nextInt
    rw [filled 0, filled 1, filled 2]
    rfl
  constructor
  · rintro ⟨draw, drawn⟩
    exact ⟨_, (picked draw).symm.trans drawn⟩
  · rintro ⟨j, here⟩
    refine ⟨j, ?_⟩
    rw [picked, Nat.mod_eq_of_lt j.isLt, Fin.ofNat_val_eq_self]
    exact here

/-- If all responses of a group have been used, the choice is among those whose last use lies
furthest back if and only if the group does not have two responses, and three of them, or all,
were last used before the place 9999 of the history. -/
theorem choosesLeastRecent_iff (known : responseGroups.lookup group = some responses)
    (given : responses ≠ []) (all : AllUsed history responses) :
    ChoosesLeastRecent responseGroups history group responses ↔
      responses.length ≠ 2 ∧
        min 3 responses.length ≤ (responses.filter (fun r => lastUse history r < 9999)).length := by
  have run := kept_run all
  have positive := List.length_pos_iff.mpr given
  have fewer : (early history responses).length ≤ responses.length := List.length_filter_le _ _
  have picked := getResponseFromGroup_used known all
  change _ ↔ _ ∧ _ ≤ (early history responses).length
  cases considered : early history responses with
  | nil =>
    rw [considered] at run
    have kept : _ = ({} : PastResponses) := run
    rw [kept] at picked
    constructor
    · intro chooses
      obtain ⟨r, _, drawn⟩ := (chooses none).mp ⟨0, picked 0⟩
      cases drawn
    · rintro ⟨_, few⟩
      rw [List.length_nil] at few
      omega
  | cons r rest =>
    have first : r ∈ responses := by
      have inside : r ∈ early history responses := by
        rw [considered]
        exact .head _
      exact (mem_early.mp inside).1
    rw [considered] at run fewer
    cases rest with
    | nil =>
      have kept : _ = oneKept history r := run
      rw [kept] at picked
      rw [single_chosen all first picked]
      simp only [List.length_cons, List.length_nil] at fewer ⊢
      omega
    | cons s rest =>
      cases rest with
      | nil =>
        have kept : _ = twoKept history r s := run
        rw [kept] at picked
        rw [single_chosen all first picked]
        simp only [List.length_cons, List.length_nil] at fewer ⊢
        omega
      | cons t rest =>
        have three : ThreeKept history responses _ := run
        simp only [List.length_cons] at fewer ⊢
        constructor
        · intro _
          omega
        · intro _ result
          simp only [picked]
          rw [three_chosen fun j => by
            obtain ⟨r, _, here, _⟩ := three.kept j
            rw [here]
            rfl]
          constructor
          · rintro ⟨j, rfl⟩
            obtain ⟨r, _, here, _⟩ := three.kept j
            exact ⟨r, (three.mem_leastRecent all r).mpr ⟨j, here⟩, here⟩
          · rintro ⟨r, member, rfl⟩
            exact (three.mem_leastRecent all r).mp member

def response (object : Nat) : Response := { object := some object, id := [], response := [] }

def groupOf (responses : List Response) : AList (fun _ : Text => List Response) :=
  AList.singleton "g".toList responses

theorem threeResponses_chosen : ChoosesLeastRecent
    (groupOf [response 0, response 1, response 2]) [response 2, response 0, response 1]
      "g".toList [response 0, response 1, response 2] :=
  (choosesLeastRecent_iff (by decide) (by decide) ⟨by decide, by decide, by decide⟩).mpr
    (by decide)

/-- Of a group of two, only the first one is returned. -/
theorem twoResponses_oneChosen : ¬ ∀ (responseGroups : AList (fun _ : Text => List Response))
    (history : List Response) (group : Text) (responses : List Response),
    responseGroups.lookup group = some responses → responses ≠ [] →
      AllUsed history responses → ChoosesLeastRecent responseGroups history group responses := by
  intro chooses
  have both := chooses (groupOf [response 0, response 1]) [response 0, response 1] "g".toList
    [response 0, response 1] (by decide) (by decide) ⟨by decide, by decide, by decide⟩
  have first (draw : Nat) : getResponseFromGroup (groupOf [response 0, response 1])
      [response 0, response 1] draw "g".toList = some (response 0) := rfl
  obtain ⟨draw, drawn⟩ := (both (some (response 1))).mpr ⟨response 1, by decide, rfl⟩
  rw [first draw] at drawn
  cases drawn

end Semaine.Dialogue
