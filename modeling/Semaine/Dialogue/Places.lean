import Semaine.Dialogue.InformationState

/-! What an information state holds at each of its places, and when two states hold the same. -/
namespace Semaine.Dialogue
open JavaText

inductive Place where
  | field (name : Text)
  | index (n : Nat)

inductive Content (D : Type) where
  | string (value : Text)
  | integer (value : Int)
  | double (value : D)
  | record
  | list (length : Nat)
  | untyped
  | noRecord
  | noList

variable {D : Type}

def Item.content : Item D → Content D
  | .string value => .string value
  | .integer value => .integer value
  | .double value => .double value
  | .record _ => .record
  | .list items => .list items.length
  | .untyped => .untyped
  | .noRecord => .noRecord
  | .noList => .noList

def Item.follow : List Place → Item D → Option (Item D)
  | [], i => some i
  | .field name :: rest, .record fields => (fields.lookup name).bind (Item.follow rest)
  | .index n :: rest, .list items => items[n]?.bind (Item.follow rest)
  | _ :: _, _ => none

def Item.contentAt (places : List Place) (i : Item D) : Option (Content D) :=
  (i.follow places).map Item.content

def Same (i j : Item D) : Prop := ∀ places, i.contentAt places = j.contentAt places

namespace Same

theorem refl (i : Item D) : Same i i := fun _ => rfl

theorem symm {i j : Item D} (h : Same i j) : Same j i := fun places => (h places).symm

theorem trans {i j k : Item D} (h : Same i j) (h' : Same j k) : Same i k :=
  fun places => (h places).trans (h' places)

end Same

def SameAt (i j : Option (Item D)) : Prop :=
  ∀ places, i.bind (Item.contentAt places) = j.bind (Item.contentAt places)

theorem contentAt_field (fields : InformationState D) (name : Text) (rest : List Place) :
    Item.contentAt (.field name :: rest) (.record fields) =
      (fields.lookup name).bind (Item.contentAt rest) := by
  unfold Item.contentAt
  rw [Item.follow, Option.map_bind]
  rfl

theorem contentAt_index (items : List (Item D)) (n : Nat) (rest : List Place) :
    Item.contentAt (.index n :: rest) (.list items) =
      items[n]?.bind (Item.contentAt rest) := by
  unfold Item.contentAt
  rw [Item.follow, Option.map_bind]
  rfl

theorem same_record {f g : InformationState D} :
    Same (.record f) (.record g) ↔ ∀ name, SameAt (f.lookup name) (g.lookup name) := by
  constructor
  · intro same name places
    have here := same (.field name :: places)
    rw [contentAt_field, contentAt_field] at here
    exact here
  · intro fields places
    cases places with
    | nil => rfl
    | cons place rest =>
      cases place with
      | field name =>
        rw [contentAt_field, contentAt_field]
        exact fields name rest
      | index n => rfl

theorem same_list {xs ys : List (Item D)} :
    Same (.list xs) (.list ys) ↔ xs.length = ys.length ∧ ∀ n : Nat, SameAt xs[n]? ys[n]? := by
  constructor
  · intro same
    refine ⟨?_, fun n places => ?_⟩
    · have here := same []
      exact Content.list.inj (Option.some.inj here)
    · have here := same (.index n :: places)
      rw [contentAt_index, contentAt_index] at here
      exact here
  · rintro ⟨length, items⟩ places
    cases places with
    | nil => exact congrArg (fun n => some (Content.list n)) length
    | cons place rest =>
      cases place with
      | field name => rfl
      | index n =>
        rw [contentAt_index, contentAt_index]
        exact items n rest

theorem sameAt_refl (i : Option (Item D)) : SameAt i i := fun _ => rfl

theorem same_put {fields : InformationState D} {name : Text} {old new : Item D}
    (found : fields.lookup name = some old) :
    Same (.record fields) (.record (put fields name new)) ↔ Same old new := by
  rw [same_record]
  constructor
  · intro same
    have here := same name
    rw [found, lookup_put_same] at here
    exact here
  · intro same other
    by_cases this : other = name
    · rw [this, found, lookup_put_same]
      exact same
    · rw [lookup_put_other _ _ this]
      exact sameAt_refl _

theorem same_head {first changed : Item D} (others : List (Item D)) :
    Same (.list (first :: others)) (.list (changed :: others)) ↔ Same first changed := by
  rw [same_list]
  constructor
  · intro same
    exact same.2 0
  · intro same
    refine ⟨rfl, fun n => ?_⟩
    cases n with
    | zero => exact same
    | succ n => exact sameAt_refl _

theorem same_last {last changed : Item D} (others : List (Item D)) :
    Same (.list (others ++ [last])) (.list (others ++ [changed])) ↔ Same last changed := by
  rw [same_list]
  constructor
  · intro same
    have here := same.2 others.length
    rw [List.getElem?_concat_length, List.getElem?_concat_length] at here
    exact here
  · intro same
    refine ⟨by simp, fun n => ?_⟩
    rcases Nat.lt_trichotomy n others.length with before | here | after
    · rw [List.getElem?_append_left before, List.getElem?_append_left before]
      exact sameAt_refl _
    · rw [here, List.getElem?_concat_length, List.getElem?_concat_length]
      exact same
    · rw [List.getElem?_eq_none (by simp; omega), List.getElem?_eq_none (by simp; omega)]
      exact sameAt_refl _

theorem not_same_length {xs ys : List (Item D)} (other : xs.length ≠ ys.length) :
    ¬ Same (.list xs) (.list ys) := fun same => other (same_list.mp same).1

end Semaine.Dialogue
