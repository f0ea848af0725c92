import Semaine.Dialogue.Update
import Semaine.Dialogue.Places

/-! Where `InformationState.remove` removes the item that a path leads to, and nothing else. -/
namespace Semaine.Dialogue
open JavaText

section
variable {D : Type} (chars : Characters)

/-- The place in a list that a segment stands for, if it is not negative. -/
def selected (items : List (Item D)) (position : Text) : Option Nat :=
  if 0 ≤ listIndex chars items position then some (listIndex chars items position).toNat
  else none

/-- The places to which the segments of a path lead, if they lead to an item. -/
def Item.resolve : List Text → Item D → Option (List Place)
  | [], _ => some []
  | position :: rest, .record fields =>
    if position = [] ∧ rest = [] then none
    else (fields.lookup (dropDollar position)).bind fun i =>
      (i.resolve rest).map (.field (dropDollar position) :: ·)
  | position :: rest, .list items =>
    (selected chars items position).bind fun n =>
      items[n]?.bind fun i => (i.resolve rest).map (.index n :: ·)
  | _ :: _, _ => none

/-- Deleting the item at these places; the later items of its list move up. -/
def Item.delete : List Place → Item D → Item D
  | [.field name], .record fields => .record (removeName fields name)
  | [.index n], .list items => .list (items.eraseIdx n)
  | .field name :: rest, .record fields =>
    match fields.lookup name with
    | some i => .record (put fields name (i.delete rest))
    | none => .record fields
  | .index n :: rest, .list items => .list (items.modify n (Item.delete rest))
  | _, i => i

/-- A change that deletes the item at the places, and changes nothing without places. -/
structure Deletes (change : Change D) (i : Item D) (places : Option (List Place)) : Prop where
  there : ∀ p, places = some p → change.2 = none ∧ Same change.1 (i.delete p)
  nowhere : places = none → Same change.1 i

/-- `remove` deletes exactly the item that the path leads to. -/
def RemovesExactly (is : InformationState D) (path : Text) : Prop :=
  Deletes (.record (is.remove chars path).1, (is.remove chars path).2) (.record is)
    ((Item.record is).resolve chars (segments path))

def Item.isContainer : Item D → Bool
  | .record _ => true
  | .list _ => true
  | .noRecord => true
  | .noList => true
  | _ => false

def Adds (position : Text) : Prop :=
  toLowerCase position = ADDFIRST ∨ toLowerCase position = ADDLAST

instance (position : Text) : Decidable (Adds position) := inferInstanceAs (Decidable (_ ∨ _))

/-- In a list: one segment, which selects no list and no record, and does not add to a list that
begins with one; or segments that lead nowhere. -/
def RemovableFromList (items : List (Item D)) : List Text → Prop
  | [position] =>
    (Adds position → ∀ first, items.head? = some first → first.isContainer = false) ∧
      ∀ n i, selected chars items position = some n → items[n]? = some i → i.isContainer = false
  | path => (Item.list items).resolve chars path = none

/-- Through records, and at most one list at the end, but not on behind an item that has no
items in it. -/
def Removable : List Text → InformationState D → Prop
  | name :: next :: rest, fields =>
    match fields.lookup (dropDollar name) with
    | some (.record inner) => Removable (next :: rest) inner
    | some (.list items) => RemovableFromList chars items (next :: rest)
    | some i => i.isContainer = true
    | none => True
  | _, _ => True

theorem adds_notFirst {position : Text} (adds : Adds position) :
    toLowerCase position ≠ FIRST := by
  rcases adds with first | last
  · rw [first]
    decide
  · rw [last]
    decide

theorem adds_notLast {position : Text} (adds : Adds position) :
    toLowerCase position ≠ LAST := by
  rcases adds with first | last
  · rw [first]
    decide
  · rw [last]
    decide

theorem listIndex_adds {position : Text} (adds : Adds position) (items : List (Item D)) :
    listIndex chars items position = -1 := by
  have shape : ∃ rest, toLowerCase position = '_' :: rest := by
    rcases adds with first | last
    · exact ⟨_, first⟩
    · exact ⟨_, last⟩
  obtain ⟨rest, underscore⟩ := shape
  unfold listIndex
  simp only [if_neg (adds_notFirst adds), if_neg (adds_notLast adds),
    parseInt_of_lower chars underscore, Option.getD_none]

theorem removeIndex_ok {items : List (Item D)} {index : Int} {i : Item D}
    (found : getIndex items index = .ok i) :
    removeIndex items index =
      if i.isContainer then (.list items, some .runtime)
      else (.list (items.eraseIdx index.toNat), none) := by
  unfold removeIndex
  rw [found]
  cases i <;> rfl

theorem removeIndex_error {items : List (Item D)} {index : Int} {e : Failure}
    (missing : getIndex items index = .error e) :
    removeIndex items index = (.list items, some e) := by
  unfold removeIndex
  rw [missing]

theorem isContainer_sameType (i : Item D) : (sameType i).isContainer = i.isContainer := by
  cases i <;> rfl

theorem getIndex_end (items : List (Item D)) (last : Item D) :
    getIndex (items ++ [last]) items.length = .ok last := by
  unfold getIndex
  rw [if_neg (by omega), Int.toNat_natCast, List.getElem?_concat_length]

theorem removeFromList_adds (first : Item D) (others : List (Item D)) {position : Text}
    (adds : Adds position) :
    ∃ longer, longer.length = (first :: others).length + 1 ∧
      removeFromList chars (first :: others) [position] =
        if first.isContainer then (.list longer, some .runtime)
        else (.list (first :: others), none) := by
  unfold removeFromList
  by_cases atFirst : toLowerCase position = ADDFIRST
  · have there : getIndex (sameType first :: first :: others) 0 = .ok (sameType first) := rfl
    have removed := removeIndex_ok there
    refine ⟨sameType first :: first :: others, rfl, ?_⟩
    rw [isContainer_sameType] at removed
    simp only [if_pos atFirst]
    exact removed
  · have atLast := adds.resolve_left atFirst
    have removed := removeIndex_ok (getIndex_end (first :: others) (sameType first))
    refine ⟨first :: others ++ [sameType first], by simp, ?_⟩
    rw [isContainer_sameType, Int.toNat_natCast, List.eraseIdx_append_of_length_le (Nat.le_refl _),
      Nat.sub_self, List.eraseIdx_cons_zero, List.append_nil] at removed
    simp only [if_neg atFirst, if_pos atLast]
    exact removed

theorem removeFromList_one {items : List (Item D)} {position : Text} (selects : ¬ Adds position) :
    removeFromList chars items [position] =
      removeIndex items (listIndex chars items position) := by
  have notFirst : toLowerCase position ≠ ADDFIRST := fun h => selects (.inl h)
  have notLast : toLowerCase position ≠ ADDLAST := fun h => selects (.inr h)
  unfold removeFromList
  cases items with
  | nil => simp only [notFirst, notLast, or_self, if_false]
  | cons first others => simp only [if_neg notFirst, if_neg notLast]

theorem resolve_one (items : List (Item D)) (position : Text) :
    (Item.list items).resolve chars [position] =
      (selected chars items position).bind fun n => items[n]?.map fun _ => [.index n] := by
  unfold Item.resolve
  congr 1
  funext n
  cases items[n]? <;> rfl

theorem deletes_nowhere {change : Change D} {i : Item D} (same : Same change.1 i) :
    Deletes change i none := ⟨nofun, fun _ => same⟩

theorem deletes_failed {change : Change D} {i : Item D} {places : Option (List Place)}
    (failed : change.2 ≠ none) (same : Same change.1 i) :
    Deletes change i places ↔ places = none := by
  constructor
  · rintro ⟨there, _⟩
    cases places with
    | none => rfl
    | some p => exact absurd (there p rfl).1 failed
  · rintro rfl
    exact deletes_nowhere same

theorem removeFromList_deletes (items : List (Item D)) {path : List Text} (given : path ≠ []) :
    Deletes (removeFromList chars items path) (.list items)
        ((Item.list items).resolve chars path) ↔ RemovableFromList chars items path := by
  match path with
  | [] => exact absurd rfl given
  | position :: next :: rest =>
    have failed : removeFromList chars items (position :: next :: rest) =
        (.list items, some .runtime) := rfl
    rw [failed, deletes_failed (Option.some_ne_none _) (Same.refl _)]
    rfl
  | [position] =>
    unfold RemovableFromList
    by_cases adds : Adds position
    · have nowhere : selected chars items position = none := by
        unfold selected
        rw [listIndex_adds chars adds]
        rfl
      rw [resolve_one, nowhere]
      have noPlace : ∀ n i, selected chars items position = some n → items[n]? = some i →
          i.isContainer = false := fun n i same => by cases nowhere.symm.trans same
      cases items with
      | nil =>
        have failed : removeFromList chars ([] : List (Item D)) [position] =
            (.list [], some .runtime) := if_pos adds
        rw [failed]
        exact iff_of_true (deletes_nowhere (Same.refl _)) ⟨nofun, noPlace⟩
      | cons first others =>
        obtain ⟨longer, length, removed⟩ := removeFromList_adds chars first others adds
        rw [removed]
        cases container : first.isContainer with
        | true =>
          refine iff_of_false (fun deletes => ?_) (fun condition => ?_)
          · apply not_same_length _ (deletes.nowhere rfl)
            rw [length]
            omega
          · cases container.symm.trans (condition.1 adds first rfl)
        | false =>
          refine iff_of_true (deletes_nowhere (Same.refl _)) ⟨fun _ head same => ?_, noPlace⟩
          cases same
          exact container
    · rw [removeFromList_one chars adds, resolve_one]
      have noAdd : Adds position → ∀ first, items.head? = some first →
          first.isContainer = false := fun h => absurd h adds
      by_cases negative : listIndex chars items position < 0
      · have missing : getIndex items (listIndex chars items position) = .error .runtime :=
          if_pos negative
        have nowhere : selected chars items position = none := if_neg (by omega)
        rw [removeIndex_error missing, nowhere]
        refine iff_of_true (deletes_nowhere (Same.refl _)) ⟨noAdd, fun n i same => ?_⟩
        cases nowhere.symm.trans same
      · have chosen : selected chars items position =
            some (listIndex chars items position).toNat := if_pos (by omega)
        rw [chosen, Option.bind_some]
        cases found : items[(listIndex chars items position).toNat]? with
        | none =>
          have missing : getIndex items (listIndex chars items position) = .error .runtime := by
            unfold getIndex
            rw [if_neg negative, found]
          rw [removeIndex_error missing]
          refine iff_of_true (deletes_nowhere (Same.refl _)) ⟨noAdd, fun n i same held => ?_⟩
          cases chosen.symm.trans same
          cases found.symm.trans held
        | some i =>
          have here : getIndex items (listIndex chars items position) = .ok i := by
            unfold getIndex
            rw [if_neg negative, found]
          rw [removeIndex_ok here]
          cases container : i.isContainer with
          | true =>
            refine iff_of_false (fun deletes => ?_) (fun condition => ?_)
            · cases (deletes.there _ rfl).1
            · cases container.symm.trans (condition.2 _ i chosen found)
          | false =>
            refine iff_of_true ⟨fun p same => ?_, nofun⟩ ⟨noAdd, fun n j same held => ?_⟩
            · cases same
              exact ⟨rfl, Same.refl _⟩
            · cases chosen.symm.trans same
              cases found.symm.trans held
              exact container

theorem lookup_removeName (fields : InformationState D) (name other : Text) :
    (removeName fields name).lookup other = if other = name then none else fields.lookup other := by
  unfold removeName
  by_cases this : other = name
  · rw [if_pos this, this]
    apply List.lookup_eq_none_of_notMem
    intro member
    obtain ⟨entry, listed, same⟩ := List.mem_map.mp member
    have kept := (List.mem_filter.mp listed).2
    rw [same] at kept
    exact of_decide_eq_true kept rfl
  · rw [if_neg this, List.lookup_filter_ne fields this]

theorem same_removeName (fields : InformationState D) (name : Text) :
    Same (.record (removeName fields name)) (.record fields) ↔ fields.lookup name = none := by
  rw [same_record]
  constructor
  · intro same
    have here := same name
    rw [lookup_removeName, if_pos rfl] at here
    cases held : fields.lookup name with
    | none => rfl
    | some i =>
      rw [held] at here
      cases here []
  · intro missing other
    rw [lookup_removeName]
    by_cases this : other = name
    · rw [if_pos this, this, missing]
      exact sameAt_refl _
    · rw [if_neg this]
      exact sameAt_refl _

theorem same_put_put (fields : InformationState D) (name : Text) {i j : Item D} :
    Same (.record (put fields name i)) (.record (put fields name j)) ↔ Same i j := by
  rw [same_record]
  constructor
  · intro same
    have here := same name
    rw [lookup_put_same, lookup_put_same] at here
    exact here
  · intro same other
    by_cases this : other = name
    · rw [this, lookup_put_same, lookup_put_same]
      exact same
    · rw [lookup_put_other _ _ this, lookup_put_other _ _ this]
      exact sameAt_refl _

theorem delete_field {fields : InformationState D} {name : Text} {i : Item D}
    (found : fields.lookup name = some i) {p : List Place} (given : p ≠ []) :
    (Item.record fields).delete (.field name :: p) = .record (put fields name (i.delete p)) := by
  cases p with
  | nil => exact absurd rfl given
  | cons place rest => simp only [Item.delete, found]

theorem resolve_given {path : List Text} (given : path ≠ []) {i : Item D} {p : List Place}
    (leads : i.resolve chars path = some p) : p ≠ [] := by
  rintro rfl
  cases path with
  | nil => exact given rfl
  | cons position rest =>
    cases i with
    | record fields =>
      unfold Item.resolve at leads
      split at leads
      · cases leads
      · obtain ⟨i, _, leads⟩ := Option.bind_eq_some_iff.mp leads
        obtain ⟨_, _, same⟩ := Option.map_eq_some_iff.mp leads
        cases same
    | list items =>
      unfold Item.resolve at leads
      obtain ⟨n, _, leads⟩ := Option.bind_eq_some_iff.mp leads
      obtain ⟨i, _, leads⟩ := Option.bind_eq_some_iff.mp leads
      obtain ⟨_, _, same⟩ := Option.map_eq_some_iff.mp leads
      cases same
    | _ => cases leads

theorem deletes_put {fields : InformationState D} {name : Text} {i : Item D}
    (found : fields.lookup name = some i) (change : Change D) {places : Option (List Place)}
    (given : ∀ p, places = some p → p ≠ []) :
    Deletes (.record (put fields name change.1), change.2) (.record fields)
        (places.map (.field name :: ·)) ↔ Deletes change i places := by
  constructor
  · rintro ⟨there, nowhere⟩
    refine ⟨fun p same => ?_, fun none => ?_⟩
    · have result := there (.field name :: p) (by rw [same]; rfl)
      rw [delete_field found (given p same), same_put_put] at result
      exact result
    · have result := nowhere (by rw [none]; rfl)
      exact ((same_put found).mp result.symm).symm
  · rintro ⟨there, nowhere⟩
    refine ⟨fun p same => ?_, fun none => ?_⟩
    · obtain ⟨inner, leads, rfl⟩ := Option.map_eq_some_iff.mp same
      rw [delete_field found (given inner leads), same_put_put]
      exact there inner leads
    · exact ((same_put found).mpr (nowhere (Option.map_eq_none_iff.mp none)).symm).symm

theorem resolve_field (fields : InformationState D) (name next : Text) (rest : List Text) :
    (Item.record fields).resolve chars (name :: next :: rest) =
      (fields.lookup (dropDollar name)).bind fun i =>
        (i.resolve chars (next :: rest)).map (.field (dropDollar name) :: ·) := by
  rw [Item.resolve, if_neg (fun missing => List.cons_ne_nil next rest missing.2)]

theorem removeFromRecord_deletes (path : List Text) (given : path ≠ [])
    (fields : InformationState D) :
    Deletes (removeFromRecord chars path fields) (.record fields)
        ((Item.record fields).resolve chars path) ↔ Removable chars path fields := by
  induction path generalizing fields with
  | nil => exact absurd rfl given
  | cons name rest ih =>
    cases rest with
    | nil =>
      refine iff_of_true ?_ trivial
      unfold removeFromRecord Item.resolve
      by_cases nameless : name = []
      · rw [if_pos nameless, if_pos ⟨nameless, rfl⟩]
        exact deletes_nowhere (Same.refl _)
      · rw [if_neg nameless, if_neg (fun missing => nameless missing.1)]
        cases found : fields.lookup (dropDollar name) with
        | none => exact deletes_nowhere ((same_removeName fields (dropDollar name)).mpr found)
        | some i =>
          refine ⟨fun p same => ?_, nofun⟩
          cases same
          exact ⟨rfl, Same.refl _⟩
    | cons next rest =>
      have more := List.cons_ne_nil next rest
      rw [resolve_field]
      unfold removeFromRecord Removable
      cases found : fields.lookup (dropDollar name) with
      | none => exact iff_of_true (deletes_nowhere (Same.refl _)) trivial
      | some i =>
        simp only [Option.bind_some]
        cases i with
        | list items =>
          exact (deletes_put found _ fun p => resolve_given chars more).trans
            (removeFromList_deletes chars items more)
        | record inner =>
          exact (deletes_put found _ fun p => resolve_given chars more).trans (ih more inner)
        | noRecord => exact iff_of_true (deletes_nowhere (Same.refl _)) rfl
        | noList => exact iff_of_true (deletes_nowhere (Same.refl _)) rfl
        | string _ | integer _ | double _ | untyped =>
          refine iff_of_false (fun deletes => ?_) Bool.false_ne_true
          have kept := (same_removeName fields (dropDollar name)).mp (deletes.nowhere rfl)
          cases kept.symm.trans found

theorem removeFromRecord_record (path : List Text) (fields : InformationState D) :
    ∃ kept, (removeFromRecord chars path fields).1 = .record kept := by
  match path with
  | [] => exact ⟨fields, rfl⟩
  | [name] =>
    unfold removeFromRecord
    split
    · exact ⟨fields, rfl⟩
    · exact ⟨_, rfl⟩
  | name :: next :: rest =>
    unfold removeFromRecord
    split <;> exact ⟨_, rfl⟩

theorem remove_eq (is : InformationState D) (path : Text) :
    ((Item.record (is.remove chars path).1, (is.remove chars path).2) : Change D) =
      removeFromRecord chars (segments path) is := by
  obtain ⟨kept, record⟩ := removeFromRecord_record chars (segments path) is
  unfold InformationState.remove
  refine Prod.ext ?_ rfl
  simp only [record]
  rfl

/-- Removal is exact along paths through records, at the end of which at most one item of a list
is selected, and that no list or record. -/
theorem removesExactly_iff (is : InformationState D) (path : Text) :
    RemovesExactly chars is path ↔ Removable chars (segments path) is := by
  unfold RemovesExactly
  rw [remove_eq]
  exact removeFromRecord_deletes chars (segments path) (List.splitOn_ne_nil _ _) is

end

def oneRecord : InformationState Unit := [(['l'], .list [.record [(['x'], .integer 1)]])]

/-- The path leads to the integer, but the rest of the path behind the list is cut off at a
position that is not found; and no record is removed from a list. -/
theorem oneRecord_kept :
    (Item.record oneRecord).resolve ascii (segments "l._first.x".toList) =
      some [.field ['l'], .index 0, .field ['x']] ∧
    (oneRecord.remove ascii "l._first.x".toList).2 = some .runtime ∧
    (oneRecord.remove ascii "l._first".toList).2 = some .runtime ∧
    ¬ RemovesExactly ascii oneRecord "l._first.x".toList := by
  refine ⟨rfl, rfl, rfl, fun exact_ => ?_⟩
  cases (exact_.there _ rfl).1

end Semaine.Dialogue
