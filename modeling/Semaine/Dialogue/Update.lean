import Semaine.Dialogue.AbstractValue
import Semaine.Library.JavaSplit

/-! `eu.semaine.components.dialogue.behaviourselection.template.effects.Update`, and where an
update of the information state can be read again. -/
namespace Semaine.Dialogue
open JavaText JavaFloat

structure Update (D : Type) where
  name : Text
  abstractValue : Option (AbstractValue D)

section
variable {D : Type} (chars : Characters) (ops : Arithmetic D)

def Update.new (name valueString : Text) : Except Failure (Update D) :=
  if valueString = [] then .ok { name := name, abstractValue := none }
  else (AbstractValue.new chars ops valueString).map fun value =>
    { name := name, abstractValue := some value }

def Update.assign (u : Update D) (value : Value D) (is : InformationState D) :
    InformationState D × Option Failure :=
  match is.getTypeOfPath chars u.name with
  | .error e => (is, some e)
  | .ok none =>
    match value.getType with
    | some .double => is.set u.name value
    | some .integer => is.set u.name value
    | some .string => is.set u.name value
    | _ => (is, none)
  | .ok (some type) =>
    if value.getType = some type ∨ (type = .integer ∧ value.getType = some .double) ∨
        (type = .double ∧ value.getType = some .integer) then
      match type with
      | .string => is.set u.name value
      | .double => is.set u.name value
      | .integer => is.set u.name value
      | _ => (is, some .templateRun)
    else (is, some .templateRun)

def Update.apply (u : Update D) : Evaluation (InformationState D) := fun is =>
  match u.abstractValue with
  | none => is.remove chars u.name
  | some abstractValue =>
    match abstractValue.getValue chars ops is with
    | .error e => (is, some e)
    | .ok none => (is, some .templateRun)
    | .ok (some value) => u.assign chars value is

end

/-- A segment that adds to a list is read as the place where it has added. -/
def readSegment (position : Text) : Text :=
  if toLowerCase position = ADDFIRST then FIRST
  else if toLowerCase position = ADDLAST then LAST
  else position

def readPath (path : Text) : Text := ['.'].intercalate ((segments path).map readSegment)

inductive Item.Atomic {D : Type} : Item D → Prop where
  | string (value : Text) : Atomic (.string value)
  | integer (value : Int) : Atomic (.integer value)
  | double (value : D) : Atomic (.double value)

section
variable {D : Type} (chars : Characters)

def reads (value : Item D) (path : List Text) (i : Item D) : Prop :=
  i.getValueOfPath chars (path.map readSegment) = .ok (some value)

/-- The write arrives at the end of the path, or the path already leads to the value where the
write is dropped: at an item that has no parts, at a list with a segment that does not say where
to write, at a list element of another type, and at a record, whose fields are not read under
the names of `_addfirst` and `_addlast`. -/
def Takes (value : Item D) : List Text → Item D → Prop
  | [], i => i.getType = value.getType
  | position :: rest, i =>
    match i with
    | .record fields =>
      if readSegment position ≠ position then reads chars value (position :: rest) i
      else
        match rest with
        | [] => True
        | _ :: _ => Takes value rest ((fields.lookup (dropDollar position)).getD (newInRecord rest))
    | .list items =>
      if toLowerCase position = FIRST then
        match items with
        | first :: _ => Takes value rest first
        | [] => False
      else if toLowerCase position = LAST then
        match items.getLast? with
        | some last => Takes value rest last
        | none => False
      else if toLowerCase position = ADDFIRST ∨ toLowerCase position = ADDLAST then
        match rest with
        | [] => True
        | _ :: _ => Takes value rest (newInList rest)
      else reads chars value (position :: rest) i
    | _ => reads chars value (position :: rest) i

theorem underscore_of_lower {position rest : Text} (h : toLowerCase position = '_' :: rest) :
    ∃ s, position = '_' :: s := by
  cases position with
  | nil => cases h
  | cons c s =>
    simp only [toLowerCase, List.map_cons, List.cons.injEq] at h
    exact ⟨s, by rw [toLower_underscore h.1]⟩

theorem parseInt_of_lower {position rest : Text} (h : toLowerCase position = '_' :: rest) :
    chars.parseInt position = none := by
  obtain ⟨s, rfl⟩ := underscore_of_lower h
  exact parseInt_underscore chars s

theorem getIndex_listIndex_first {position : Text} (h : toLowerCase position = FIRST)
    (first : Item D) (others : List (Item D)) :
    listIndex chars (first :: others) position = 0 := by
  have notLast : toLowerCase position ≠ LAST := by rw [h]; decide
  simp [listIndex, h, parseInt_of_lower chars h, show FIRST ≠ LAST by decide]

theorem listIndex_last {position : Text} (h : toLowerCase position = LAST)
    (items : List (Item D)) : listIndex chars items position = (items.length : Int) - 1 := by
  simp [listIndex, h, parseInt_of_lower chars h]

theorem getIndex_last (items : List (Item D)) (last : Item D) :
    getIndex (items ++ [last]) (((items ++ [last]).length : Int) - 1) = .ok last := by
  have place : (((items ++ [last]).length : Int) - 1) = (items.length : Int) := by
    rw [List.length_append, List.length_singleton]
    omega
  rw [place]
  unfold getIndex
  rw [if_neg (by omega), Int.toNat_natCast, List.getElem?_append_right (Nat.le_refl _),
    Nat.sub_self]
  rfl

theorem reads_first (value : Item D) {position : Text} {rest : List Text}
    (h : toLowerCase (readSegment position) = FIRST) (first : Item D) (others : List (Item D)) :
    reads chars value (position :: rest) (.list (first :: others)) ↔
      reads chars value rest first := by
  unfold reads
  rw [List.map_cons, Item.getValueOfPath, getIndex_listIndex_first chars h]
  simp [getIndex]

theorem reads_last (value : Item D) {position : Text} {rest : List Text}
    (h : toLowerCase (readSegment position) = LAST) (others : List (Item D)) (last : Item D) :
    reads chars value (position :: rest) (.list (others ++ [last])) ↔
      reads chars value rest last := by
  unfold reads
  rw [List.map_cons, Item.getValueOfPath, listIndex_last chars h, getIndex_last]
  have notMinusOne : (((others ++ [last]).length : Int) - 1) ≠ -1 := by
    rw [List.length_append, List.length_singleton]
    omega
  rw [if_neg notMinusOne]

theorem reads_field (value : Item D) {position : Text} {rest : List Text}
    (kept : readSegment position = position) (given : ¬ (position = [] ∧ rest = []))
    (fields : InformationState D) (changed : Item D) :
    reads chars value (position :: rest) (.record (put fields (dropDollar position) changed)) ↔
      reads chars value rest changed := by
  have given' : ¬ (position = [] ∧ rest.map readSegment = []) := by simpa using given
  unfold reads
  rw [List.map_cons, kept, Item.getValueOfPath, if_neg given']
  simp only [lookup_put_same]

theorem readSegment_addFirst {position : Text} (h : toLowerCase position = ADDFIRST) :
    readSegment position = FIRST := by
  unfold readSegment
  rw [if_pos h]

theorem readSegment_addLast {position : Text} (h : toLowerCase position = ADDLAST) :
    readSegment position = LAST := by
  have notFirst : toLowerCase position ≠ ADDFIRST := by rw [h]; decide
  unfold readSegment
  rw [if_neg notFirst, if_pos h]

theorem adds_of_readSegment {position : Text} (h : readSegment position ≠ position) :
    toLowerCase position = ADDFIRST ∨ toLowerCase position = ADDLAST := by
  unfold readSegment at h
  split at h
  · rename_i addFirst
    exact Or.inl addFirst
  · split at h
    · rename_i addLast
      exact Or.inr addLast
    · exact absurd rfl h

theorem dropDollar_of_lower {position rest : Text} (h : toLowerCase position = '_' :: rest) :
    dropDollar position = position := by
  obtain ⟨s, rfl⟩ := underscore_of_lower h
  rfl

theorem readSegment_other {position : Text} (h : readSegment position ≠ position) :
    dropDollar position = position ∧ readSegment position ≠ [] ∧
      dropDollar (readSegment position) ≠ position := by
  have other : readSegment position ≠ [] ∧
      dropDollar (readSegment position) = readSegment position := by
    cases adds_of_readSegment h with
    | inl addFirst =>
      rw [readSegment_addFirst addFirst]
      decide
    | inr addLast =>
      rw [readSegment_addLast addLast]
      decide
  have noDollar : dropDollar position = position := by
    cases adds_of_readSegment h with
    | inl addFirst => exact dropDollar_of_lower addFirst
    | inr addLast => exact dropDollar_of_lower addLast
  exact ⟨noDollar, other.1, by rw [other.2]; exact h⟩

theorem reads_otherField (value : Item D) {position : Text} {rest : List Text}
    (h : readSegment position ≠ position) (fields : InformationState D) (changed : Item D) :
    reads chars value (position :: rest) (.record (put fields (dropDollar position) changed)) ↔
      reads chars value (position :: rest) (.record fields) := by
  obtain ⟨noDollar, given, other⟩ := readSegment_other h
  unfold reads
  rw [List.map_cons, noDollar, Item.getValueOfPath, Item.getValueOfPath,
    lookup_put_other _ _ other]

theorem readSegment_first {position : Text} (h : toLowerCase position = FIRST) :
    toLowerCase (readSegment position) = FIRST := by
  have notAddFirst : toLowerCase position ≠ ADDFIRST := by rw [h]; decide
  have notAddLast : toLowerCase position ≠ ADDLAST := by rw [h]; decide
  unfold readSegment
  rw [if_neg notAddFirst, if_neg notAddLast]
  exact h

theorem readSegment_last {position : Text} (h : toLowerCase position = LAST) :
    toLowerCase (readSegment position) = LAST := by
  have notAddFirst : toLowerCase position ≠ ADDFIRST := by rw [h]; decide
  have notAddLast : toLowerCase position ≠ ADDLAST := by rw [h]; decide
  unfold readSegment
  rw [if_neg notAddFirst, if_neg notAddLast]
  exact h

theorem reads_end {value : Item D} (atomic : value.Atomic) (i : Item D) :
    reads chars value [] (Item.setValue value i) ↔ i.getType = value.getType := by
  cases atomic <;> cases i <;> simp [reads, Item.getValueOfPath, Item.setValue, Item.getType]

theorem reads_value {value : Item D} (atomic : value.Atomic) : reads chars value [] value := by
  cases atomic <;> rfl

/-- The induction hypothesis of `reads_set` for the rest of a path. -/
def SetRight (value : Item D) (rest : List Text) : Prop :=
  ∀ {i changed : Item D}, Item.set value rest i = (changed, none) →
    (reads chars value rest changed ↔ Takes chars value rest i)

theorem reads_set_record {value : Item D} (atomic : value.Atomic) {position : Text}
    {rest : List Text} (ih : SetRight chars value rest) {fields : InformationState D}
    {changed : Item D}
    (done : Item.set value (position :: rest) (.record fields) = (changed, none)) :
    reads chars value (position :: rest) changed ↔
      Takes chars value (position :: rest) (.record fields) := by
  obtain ⟨given, inner, rfl, arrived⟩ := set_record_cases done
  unfold Takes
  dsimp only
  by_cases kept : readSegment position = position
  · rw [if_neg (not_not_intro kept), reads_field chars value kept given]
    rcases arrived with ⟨rfl, rfl⟩ | ⟨more, step⟩
    · exact iff_true_intro (reads_value chars atomic)
    · cases rest with
      | nil => exact absurd rfl more
      | cons next others => exact ih step
  · rw [if_pos kept]
    exact reads_otherField chars value kept fields inner

theorem reads_set_list {value : Item D} (atomic : value.Atomic) {position : Text}
    {rest : List Text} (ih : SetRight chars value rest) {items : List (Item D)}
    {changed : Item D}
    (done : Item.set value (position :: rest) (.list items) = (changed, none)) :
    reads chars value (position :: rest) changed ↔
      Takes chars value (position :: rest) (.list items) := by
  unfold Takes
  unfold Item.set at done
  dsimp only at done ⊢
  by_cases first : toLowerCase position = FIRST
  · rw [if_pos first] at done ⊢
    cases items with
    | nil => cases done
    | cons head others =>
      simp only at done
      obtain ⟨rfl, ended⟩ := Prod.mk.inj done
      rw [reads_first chars value (readSegment_first first)]
      exact ih (Prod.ext rfl ended)
  · rw [if_neg first] at done ⊢
    by_cases last : toLowerCase position = LAST
    · rw [if_pos last] at done ⊢
      cases found : items.getLast? with
      | none =>
        simp only [found] at done
        cases done
      | some head =>
        simp only [found] at done
        obtain ⟨rfl, ended⟩ := Prod.mk.inj done
        rw [reads_last chars value (readSegment_last last)]
        exact ih (Prod.ext rfl ended)
    · rw [if_neg last] at done ⊢
      by_cases addFirst : toLowerCase position = ADDFIRST
      · have read : toLowerCase (readSegment position) = FIRST := by
          rw [readSegment_addFirst addFirst]
          decide
        rw [if_pos addFirst] at done
        rw [if_pos (Or.inl addFirst)]
        cases rest with
        | nil =>
          cases done
          rw [reads_first chars value read]
          exact iff_true_intro (reads_value chars atomic)
        | cons next others =>
          obtain ⟨rfl, ended⟩ := Prod.mk.inj done
          rw [reads_first chars value read]
          exact ih (Prod.ext rfl ended)
      · rw [if_neg addFirst] at done
        by_cases addLast : toLowerCase position = ADDLAST
        · have read : toLowerCase (readSegment position) = LAST := by
            rw [readSegment_addLast addLast]
            decide
          rw [if_pos addLast] at done
          rw [if_pos (Or.inr addLast)]
          cases rest with
          | nil =>
            cases done
            rw [reads_last chars value read]
            exact iff_true_intro (reads_value chars atomic)
          | cons next others =>
            obtain ⟨rfl, ended⟩ := Prod.mk.inj done
            rw [reads_last chars value read]
            exact ih (Prod.ext rfl ended)
        · rw [if_neg addLast] at done
          rw [if_neg (not_or.mpr ⟨addFirst, addLast⟩)]
          cases done
          exact Iff.rfl

theorem reads_set {value : Item D} (atomic : value.Atomic) {path : List Text} {i changed : Item D}
    (done : Item.set value path i = (changed, none)) :
    reads chars value path changed ↔ Takes chars value path i := by
  induction path generalizing i changed with
  | nil =>
    cases done
    exact reads_end chars atomic i
  | cons position rest ih =>
    cases i with
    | record fields => exact reads_set_record chars atomic ih done
    | list items => exact reads_set_list chars atomic ih done
    | string | integer | double | untyped =>
      cases done
      exact Iff.rfl
    | noRecord | noList => cases done

theorem readSegment_noDot {position : Text} (h : '.' ∉ position) :
    '.' ∉ readSegment position := by
  unfold readSegment
  split
  · decide
  · split
    · decide
    · exact h

theorem segments_readPath (path : Text) :
    segments (readPath path) = (segments path).map readSegment := by
  apply List.splitOn_intercalate
  · intro piece mem
    obtain ⟨position, given, rfl⟩ := List.mem_map.mp mem
    exact readSegment_noDot (notMem_piece path given)
  · simp [segments, List.splitOn_ne_nil]

theorem read_of_set {value : Item D} (atomic : value.Atomic) {path : Text}
    {is after : InformationState D} (done : is.set path value = (after, none)) :
    after.getValueOfPath chars (readPath path) = .ok (some value) ↔
      Takes chars value (segments path) (.record is) := by
  have step := set_segments done
  unfold InformationState.getValueOfPath
  rw [segments_readPath]
  exact reads_set chars atomic step

theorem set_of_assign {u : Update D} {value : Value D} (atomic : value.Atomic)
    {is after : InformationState D} (done : u.assign chars value is = (after, none)) :
    is.set u.name value = (after, none) := by
  unfold Update.assign at done
  split at done
  · cases done
  · cases atomic <;> exact done
  · split at done
    · split at done
      · exact done
      · exact done
      · exact done
      · cases done
    · cases done

/-- After an update that ended without an exception its variable has the new value exactly if the
write arrived. -/
theorem update_takes (ops : Arithmetic D) {u : Update D} {abstractValue : AbstractValue D}
    (written : u.abstractValue = some abstractValue) {is after : InformationState D}
    {value : Value D} (calculated : abstractValue.getValue chars ops is = .ok (some value))
    (atomic : value.Atomic) (done : u.apply chars ops is = (after, none)) :
    after.getValueOfPath chars (readPath u.name) = .ok (some value) ↔
      Takes chars value (segments u.name) (.record is) := by
  have assigned : u.assign chars value is = (after, none) := by
    unfold Update.apply at done
    rw [written] at done
    simp only [calculated] at done
    exact done
  exact read_of_set chars atomic (set_of_assign chars atomic assigned)

end

/-- `2.5` is the only text that is parsed here. -/
def halves : Arithmetic Rat :=
  exactArithmetic fun s => if s = "2.5".toList then some (5 / 2) else none

def updateFirst : Update Rat where
  name := "times._first".toList
  abstractValue := some (.one "2.5".toList (some (.double (5 / 2))))

/-- The list has an integer, and Item.set does not store a double there. -/
theorem doubleForInteger_dropped :
    ¬ ∀ (u : Update Rat) (abstractValue : AbstractValue Rat) (is after : InformationState Rat)
        (value : Value Rat), u.abstractValue = some abstractValue →
        abstractValue.getValue ascii halves is = .ok (some value) → value.Atomic →
        u.apply ascii halves is = (after, none) →
        after.getValueOfPath ascii (readPath u.name) = .ok (some value) := by
  intro takesEffect
  have read := takesEffect updateFirst _ [("times".toList, .list [.integer 1])]
    [("times".toList, .list [.integer 1])] (.double (5 / 2)) rfl rfl (.double _) rfl
  cases read

theorem update_takes_integer :
    InformationState.getValueOfPath ascii [("times".toList, .list [.double (5 / 2 : Rat)])]
        (readPath updateFirst.name) = .ok (some (.double (5 / 2))) ↔
      Takes ascii (.double (5 / 2)) (segments updateFirst.name)
        (.record [("times".toList, .list [.double (1 : Rat)])]) := by
  have done : updateFirst.apply ascii halves [("times".toList, .list [.double 1])] =
      ([("times".toList, .list [.double (5 / 2)])], none) := rfl
  exact update_takes ascii halves rfl rfl (.double _) done

end Semaine.Dialogue
