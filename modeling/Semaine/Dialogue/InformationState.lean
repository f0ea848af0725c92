import Semaine.Library.Association
import Semaine.Dialogue.Template
import Semaine.Library.JavaText

/-! `eu.semaine.components.dialogue.informationstate`: the variables of the dialogue manager.
Items are values, so that two places never hold the same list or record. A path is walked by
its segments; no segments stand for the path null. -/
namespace Semaine.Dialogue
open JavaText JavaFloat

/-- An item of a type with its value; the type null; and what `new Item(Type)` makes of the types
of records and lists, which have no value. -/
inductive Item (D : Type) where
  | string (value : Text)
  | integer (value : Int)
  | double (value : D)
  | record (fields : List (Text × Item D))
  | list (items : List (Item D))
  | untyped
  | noRecord
  | noList

inductive ItemType where
  | string | integer | double | record | list
  deriving DecidableEq, Repr

abbrev InformationState (D : Type) := List (Text × Item D)

section
variable {D : Type}

def Item.getType : Item D → Option ItemType
  | .string _ => some .string
  | .integer _ => some .integer
  | .double _ => some .double
  | .record _ => some .record
  | .list _ => some .list
  | .untyped => none
  | .noRecord => some .record
  | .noList => some .list

def put (is : InformationState D) (name : Text) (i : Item D) : InformationState D :=
  (name, i) :: is.filter (fun e => e.1 ≠ name)

def removeName (is : InformationState D) (name : Text) : InformationState D :=
  is.filter (fun e => e.1 ≠ name)

def FIRST : Text := "_first".toList
def LAST : Text := "_last".toList
def ADDFIRST : Text := "_addfirst".toList
def ADDLAST : Text := "_addlast".toList

def segments (path : Text) : List Text := path.splitOn '.'

/-- A record ignores one `$` at the start of a path. -/
def dropDollar : Text → Text
  | '$' :: rest => rest
  | s => s

variable (chars : Characters)

def listIndex (items : List (Item D)) (position : Text) : Int :=
  let index : Int := if toLowerCase position = FIRST then 0 else -1
  let index : Int := if toLowerCase position = LAST then items.length - 1 else index
  (chars.parseInt position).getD index

def getIndex (items : List (Item D)) (index : Int) : Except Failure (Item D) :=
  if index < 0 then .error .runtime
  else match items[index.toNat]? with
    | some i => .ok i
    | none => .error .runtime

/-- `Item.getValueOfPath` with those of records and lists; `none` is null. -/
def Item.getValueOfPath : List Text → Item D → Except Failure (Option (Item D))
  | [], i => .ok (if i.getType.isSome then some i else none)
  | position :: rest, i =>
    match i with
    | .string _ => .ok (some i)
    | .integer _ => .ok (some i)
    | .double _ => .ok (some i)
    | .record fields =>
      if position = [] ∧ rest = [] then .ok none
      else match fields.lookup (dropDollar position) with
        | some i => i.getValueOfPath rest
        | none => .ok none
    | .list items =>
      if listIndex chars items position = -1 then .ok none
      else match getIndex items (listIndex chars items position) with
        | .ok i => i.getValueOfPath rest
        | .error e => .error e
    | .untyped => .ok none
    | .noRecord => .error .runtime
    | .noList => .error .runtime

abbrev Change (D : Type) := Item D × Option Failure

/-- What `set` on a path creates in a record, for the rest of the path. -/
def newInRecord (rest : List Text) : Item D :=
  let path := rest.headD []
  if startsWith path FIRST || startsWith path LAST || startsWith path ADDFIRST ||
      startsWith path ADDLAST then .list [] else .record []

/-- What `_addfirst` and `_addlast` create in a list, for the rest of the path. -/
def newInList (rest : List Text) : Item D :=
  if startsWith (rest.headD []) ['_'] then .list [] else .record []

/-- `Item.set` for the path null: a value of another type is not stored. -/
def Item.setValue (value : Item D) : Item D → Item D
  | .string old => match value with | .string new => .string new | _ => .string old
  | .integer old => match value with | .integer new => .integer new | _ => .integer old
  | .double old => match value with | .double new => .double new | _ => .double old
  | .record old => match value with | .record new => .record new | _ => .record old
  | .list old => match value with | .list new => .list new | _ => .list old
  | .untyped => .untyped
  | .noRecord => match value with | .record new => .record new | _ => .noRecord
  | .noList => match value with | .list new => .list new | _ => .noList

/-- `Item.set` with those of records and lists. What was added before an exception stays. -/
def Item.set (value : Item D) : List Text → Item D → Change D
  | [], i => (Item.setValue value i, none)
  | position :: rest, i =>
    match i with
    | .record fields =>
      if position = [] ∧ rest = [] then (i, some .runtime)
      else
        let name := dropDollar position
        match rest with
        | [] => (.record (put fields name value), none)
        | _ :: _ =>
          match fields.lookup name with
          | some old =>
            let (changed, failure) := Item.set value rest old
            (.record (put fields name changed), failure)
          | none =>
            match Item.set value rest (newInRecord rest) with
            | (changed, none) => (.record (put fields name changed), none)
            | (_, some e) => (i, some e)
    | .list items =>
      if toLowerCase position = FIRST then
        match items with
        | first :: others =>
          let (changed, failure) := Item.set value rest first
          (.list (changed :: others), failure)
        | [] => (i, some .runtime)
      else if toLowerCase position = LAST then
        match items.getLast? with
        | some last =>
          let (changed, failure) := Item.set value rest last
          (.list (items.dropLast ++ [changed]), failure)
        | none => (i, some .runtime)
      else if toLowerCase position = ADDFIRST then
        match rest with
        | [] => (.list (value :: items), none)
        | _ :: _ =>
          let (changed, failure) := Item.set value rest (newInList rest)
          (.list (changed :: items), failure)
      else if toLowerCase position = ADDLAST then
        match rest with
        | [] => (.list (items ++ [value]), none)
        | _ :: _ =>
          let (changed, failure) := Item.set value rest (newInList rest)
          (.list (items ++ [changed]), failure)
      else (i, none)
    | .noRecord => (i, some .runtime)
    | .noList => (i, some .runtime)
    | _ => (i, none)

/-- `new Item(type)` for the type of an item of a list. The value of an atomic type is null, and
such an item is removed before anyone reads it. -/
def sameType : Item D → Item D
  | .record _ => .noRecord
  | .noRecord => .noRecord
  | .list _ => .noList
  | .noList => .noList
  | _ => .untyped

/-- `list.remove(index)`, unless the item is a list or a record, whose `remove` is then called
with the path null. -/
def removeIndex (items : List (Item D)) (index : Int) : Change D :=
  match getIndex items index with
  | .error e => (.list items, some e)
  | .ok i =>
    match i.getType with
    | some .list => (.list items, some .runtime)
    | some .record => (.list items, some .runtime)
    | _ => (.list (items.eraseIdx index.toNat), none)

/-- `List.remove`. The rest of a longer path is cut off at the position -1. -/
def removeFromList (items : List (Item D)) : List Text → Change D
  | [position] =>
    match items with
    | first :: _ =>
      if toLowerCase position = ADDFIRST then removeIndex (sameType first :: items) 0
      else if toLowerCase position = ADDLAST then
        removeIndex (items ++ [sameType first]) items.length
      else removeIndex items (listIndex chars items position)
    | [] =>
      if toLowerCase position = ADDFIRST ∨ toLowerCase position = ADDLAST then
        (.list items, some .runtime)
      else removeIndex items (listIndex chars items position)
  | _ => (.list items, some .runtime)

def removeFromRecord : List Text → InformationState D → Change D
  | [], fields => (.record fields, some .runtime)
  | [name], fields =>
    if name = [] then (.record fields, some .runtime)
    else (.record (removeName fields (dropDollar name)), none)
  | name :: next :: rest, fields =>
    match fields.lookup (dropDollar name) with
    | none => (.record fields, none)
    | some (.list items) =>
      let (changed, failure) := removeFromList chars items (next :: rest)
      (.record (put fields (dropDollar name) changed), failure)
    | some (.record inner) =>
      let (changed, failure) := removeFromRecord (next :: rest) inner
      (.record (put fields (dropDollar name) changed), failure)
    | some .noList => (.record fields, some .runtime)
    | some .noRecord => (.record fields, some .runtime)
    | some _ => (.record (removeName fields (dropDollar name)), none)

def Item.fields : Item D → InformationState D
  | .record fields => fields
  | _ => []

namespace InformationState

def getValueOfPath (is : InformationState D) (path : Text) : Except Failure (Option (Item D)) :=
  (Item.record is).getValueOfPath chars (segments path)

def getTypeOfPath (is : InformationState D) (path : Text) : Except Failure (Option ItemType) :=
  let path := replaceAll ADDFIRST FIRST path.length path
  let path := replaceAll ADDLAST LAST path.length path
  (getValueOfPath chars is path).map (·.bind Item.getType)

def set (is : InformationState D) (path : Text) (value : Item D) :
    InformationState D × Option Failure :=
  let (changed, failure) := Item.set value (segments path) (.record is)
  (changed.fields, failure)

def remove (is : InformationState D) (path : Text) : InformationState D × Option Failure :=
  let (changed, failure) := removeFromRecord chars (segments path) is
  (changed.fields, failure)

end InformationState

theorem segments_dot {a : Text} (h : '.' ∉ a) (b : Text) :
    segments (a ++ '.' :: b) = a :: segments b :=
  List.splitOn_append_cons_self_of_not_mem h b

theorem segments_append {a : Text} (h : '.' ∉ a) (b : Text) :
    segments (a ++ b) = (segments b).modifyHead (a ++ ·) := by
  induction a with
  | nil =>
    cases pieces : segments b with
    | nil => simpa using pieces
    | cons first rest => simpa using pieces
  | cons c cs ih =>
    rw [List.mem_cons, not_or] at h
    have notDot : (c == '.') = false := beq_eq_false_iff_ne.mpr (Ne.symm h.1)
    unfold segments at ih ⊢
    rw [List.cons_append, List.splitOn_cons_eq_if_modifyHead, notDot, ih h.2]
    cases b.splitOn '.' <;> rfl

theorem segments_plain {g : Text} (h : '.' ∉ g) : segments g = [g] :=
  List.splitOn_eq_singleton h

theorem newInRecord_head {name : Text} (plain : name.head? ≠ some '_') (rest : List Text) :
    newInRecord (name :: rest) = (.record [] : Item D) := by
  cases name with
  | nil => rfl
  | cons c name =>
    have other : ('_' == c) = false :=
      beq_eq_false_iff_ne.mpr fun same => plain (congrArg some same.symm)
    have never (p : Text) : startsWith (c :: name) ('_' :: p) = false := by
      rw [startsWith, List.isPrefixOf_cons_cons, other]
      rfl
    have first : startsWith (c :: name) FIRST = false := never "first".toList
    have last : startsWith (c :: name) LAST = false := never "last".toList
    have addFirst : startsWith (c :: name) ADDFIRST = false := never "addfirst".toList
    have addLast : startsWith (c :: name) ADDLAST = false := never "addlast".toList
    simp [newInRecord, first, last, addFirst, addLast]

@[simp] theorem lookup_put_same (is : InformationState D) (name : Text) (i : Item D) :
    (put is name i).lookup name = some i := by
  simp [put]

theorem lookup_put_other (is : InformationState D) {name other : Text} (i : Item D)
    (h : other ≠ name) : (put is name i).lookup other = is.lookup other := by
  have different : (other == name) = false := beq_eq_false_iff_ne.mpr h
  unfold put
  rw [List.lookup_cons, different]
  exact List.lookup_filter_ne is h

theorem set_record_cases {value : Item D} {position : Text} {rest : List Text}
    {fields : InformationState D} {changed : Item D}
    (done : Item.set value (position :: rest) (.record fields) = (changed, none)) :
    ¬ (position = [] ∧ rest = []) ∧
      ∃ inner, changed = .record (put fields (dropDollar position) inner) ∧
        ((rest = [] ∧ inner = value) ∨ (rest ≠ [] ∧ Item.set value rest
          ((fields.lookup (dropDollar position)).getD (newInRecord rest)) = (inner, none))) := by
  have given : ¬ (position = [] ∧ rest = []) := by
    intro missing
    rw [Item.set, if_pos missing] at done
    cases done
  rw [Item.set, if_neg given] at done
  refine ⟨given, ?_⟩
  cases rest with
  | nil =>
    cases done
    exact ⟨value, rfl, Or.inl ⟨rfl, rfl⟩⟩
  | cons next others =>
    simp only at done
    cases found : fields.lookup (dropDollar position) with
    | some old =>
      simp only [found] at done
      obtain ⟨rfl, ended⟩ := Prod.mk.inj done
      exact ⟨_, rfl, Or.inr ⟨List.cons_ne_nil _ _, Prod.ext rfl ended⟩⟩
    | none =>
      simp only [found] at done
      split at done
      · rename_i inner step
        cases done
        exact ⟨inner, rfl, Or.inr ⟨List.cons_ne_nil _ _, step⟩⟩
      · cases done

theorem set_segments {value : Item D} {path : Text} {is after : InformationState D}
    (done : is.set path value = (after, none)) :
    Item.set value (segments path) (.record is) = (.record after, none) := by
  cases pieces : segments path with
  | nil => exact absurd pieces (List.splitOn_ne_nil _ _)
  | cons position rest =>
    unfold InformationState.set at done
    rw [pieces] at done
    cases step : Item.set value (position :: rest) (.record is) with
    | mk changed failure =>
      rw [step] at done
      obtain ⟨rfl, rfl⟩ := Prod.mk.inj done
      obtain ⟨_, inner, rfl, _⟩ := set_record_cases step
      rfl

theorem toLower_underscore {c : Char} (h : c.toLower = '_') : c = '_' := by
  unfold Char.toLower at h
  split at h
  · rename_i upper
    have val := congrArg Char.val h
    simp only [UInt32.le_iff_toNat_le] at upper
    have nat := congrArg UInt32.toNat val
    simp at nat upper
    omega
  · exact h

theorem parseInt_underscore (s : Text) : chars.parseInt ('_' :: s) = none := by
  have digit : chars.digit '_' = none := by
    rw [chars.asciiDigit '_' (by decide)]
    rfl
  simp [Characters.parseInt, signOf, digit]

end

end Semaine.Dialogue
