import Semaine.Dialogue.Removal

/-! When an update that ends in an exception has left the information state as it was. -/
namespace Semaine.Dialogue
open JavaText JavaFloat

section
variable {D : Type}

/-- A write along the path ends in an exception: it asks for the first or the last item of an
empty list, for a field without a name, or for an item of a record or list without a value. -/
def Fails : List Text → Item D → Prop
  | [], _ => False
  | position :: rest, .record fields =>
    if rest = [] then position = []
    else Fails rest ((fields.lookup (dropDollar position)).getD (newInRecord rest))
  | position :: rest, .list items =>
    if toLowerCase position = FIRST then
      match items with
      | first :: _ => Fails rest first
      | [] => True
    else if toLowerCase position = LAST then
      match items.getLast? with
      | some last => Fails rest last
      | none => True
    else Adds position ∧ Fails rest (newInList rest)
  | _ :: _, .noRecord => True
  | _ :: _, .noList => True
  | _ :: _, _ => False

/-- The path leads to a list to which a new item is added before the rest of the write fails. -/
def Spoils : List Text → Item D → Prop
  | [], _ => False
  | position :: rest, .record fields =>
    match fields.lookup (dropDollar position) with
    | some i => Spoils rest i
    | none => False
  | position :: rest, .list items =>
    if toLowerCase position = FIRST then
      match items with
      | first :: _ => Spoils rest first
      | [] => False
    else if toLowerCase position = LAST then
      match items.getLast? with
      | some last => Spoils rest last
      | none => False
    else Adds position ∧ Fails rest (newInList rest : Item D)
  | _ :: _, _ => False

/-- The path leads to a list that begins with a list or a record, and ends in adding to it. -/
def SpoilsRemoval : List Text → InformationState D → Prop
  | name :: next :: rest, fields =>
    match fields.lookup (dropDollar name) with
    | some (.record inner) => SpoilsRemoval (next :: rest) inner
    | some (.list items) =>
      rest = [] ∧ Adds next ∧ ∃ first, items.head? = some first ∧ first.isContainer = true
    | _ => False
  | _, _ => False

def CleanFailure (change : Change D) (i : Item D) : Prop :=
  change.2 ≠ none → Same i change.1

variable (value : Item D)

theorem set_record_nested {fields : InformationState D} {position : Text} {rest : List Text}
    (more : rest ≠ []) {i : Item D} (found : fields.lookup (dropDollar position) = some i) :
    Item.set value (position :: rest) (.record fields) =
      (.record (put fields (dropDollar position) (Item.set value rest i).1),
        (Item.set value rest i).2) := by
  cases rest with
  | nil => exact absurd rfl more
  | cons next others =>
    rw [Item.set, if_neg (fun missing => more missing.2)]
    simp only [found]

theorem set_record_new {fields : InformationState D} {position : Text} {rest : List Text}
    (more : rest ≠ []) (missing : fields.lookup (dropDollar position) = none) :
    Item.set value (position :: rest) (.record fields) =
      match Item.set value rest (newInRecord rest) with
      | (changed, none) => (.record (put fields (dropDollar position) changed), none)
      | (_, some e) => (.record fields, some e) := by
  cases rest with
  | nil => exact absurd rfl more
  | cons next others =>
    rw [Item.set, if_neg (fun missing => more missing.2)]
    dsimp only
    generalize fields.lookup (dropDollar position) = found at missing ⊢
    subst missing
    rfl

theorem set_list_eq (items : List (Item D)) (position : Text) (rest : List Text) :
    Item.set value (position :: rest) (.list items) =
      if toLowerCase position = FIRST then
        match items with
        | first :: others =>
          (.list ((Item.set value rest first).1 :: others), (Item.set value rest first).2)
        | [] => (.list items, some .runtime)
      else if toLowerCase position = LAST then
        match items.getLast? with
        | some last =>
          (.list (items.dropLast ++ [(Item.set value rest last).1]),
            (Item.set value rest last).2)
        | none => (.list items, some .runtime)
      else if toLowerCase position = ADDFIRST then
        match rest with
        | [] => (.list (value :: items), none)
        | _ :: _ =>
          (.list ((Item.set value rest (newInList rest)).1 :: items),
            (Item.set value rest (newInList rest)).2)
      else if toLowerCase position = ADDLAST then
        match rest with
        | [] => (.list (items ++ [value]), none)
        | _ :: _ =>
          (.list (items ++ [(Item.set value rest (newInList rest)).1]),
            (Item.set value rest (newInList rest)).2)
      else (.list items, none) := by
  exact (Item.set.eq_def value (position :: rest) (.list items)).trans rfl

theorem set_list_first {first : Item D} {others : List (Item D)} {position : Text}
    {rest : List Text} (atFirst : toLowerCase position = FIRST) :
    Item.set value (position :: rest) (.list (first :: others)) =
      (.list ((Item.set value rest first).1 :: others), (Item.set value rest first).2) := by
  rw [set_list_eq, if_pos atFirst]

theorem set_list_last {items : List (Item D)} {last : Item D} {position : Text}
    {rest : List Text} (atLast : toLowerCase position = LAST)
    (found : items.getLast? = some last) :
    Item.set value (position :: rest) (.list items) =
      (.list (items.dropLast ++ [(Item.set value rest last).1]),
        (Item.set value rest last).2) := by
  have notFirst : toLowerCase position ≠ FIRST := by
    rw [atLast]
    decide
  rw [set_list_eq, if_neg notFirst, if_pos atLast]
  simp only [found]

theorem set_list_adds (items : List (Item D)) {position : Text} (adds : Adds position)
    (rest : List Text) :
    ∃ longer, longer.length = items.length + 1 ∧
      Item.set value (position :: rest) (.list items) =
        (.list longer, (Item.set value rest (newInList rest)).2) := by
  rw [set_list_eq, if_neg (adds_notFirst adds), if_neg (adds_notLast adds)]
  by_cases first : toLowerCase position = ADDFIRST
  · simp only [if_pos first]
    cases rest with
    | nil => exact ⟨value :: items, rfl, rfl⟩
    | cons next others => exact ⟨_ :: items, rfl, rfl⟩
  · simp only [if_neg first, if_pos (adds.resolve_left first)]
    cases rest with
    | nil => exact ⟨items ++ [value], List.length_append, rfl⟩
    | cons next others => exact ⟨items ++ [_], List.length_append, rfl⟩

theorem set_list_other {items : List (Item D)} {position : Text} {rest : List Text}
    (notFirst : toLowerCase position ≠ FIRST) (notLast : toLowerCase position ≠ LAST)
    (notAdds : ¬ Adds position) :
    Item.set value (position :: rest) (.list items) = (.list items, none) := by
  rw [set_list_eq, if_neg notFirst, if_neg notLast, if_neg (fun h => notAdds (.inl h)),
    if_neg (fun h => notAdds (.inr h))]

theorem set_fails_iff (path : List Text) (i : Item D) :
    (Item.set value path i).2 ≠ none ↔ Fails path i := by
  induction path generalizing i with
  | nil =>
    unfold Fails
    exact iff_of_false (fun failed => failed rfl) id
  | cons position rest ih =>
    cases i with
    | record fields =>
      unfold Fails
      by_cases more : rest = []
      · rw [if_pos more, more]
        by_cases nameless : position = []
        · rw [Item.set, if_pos ⟨nameless, rfl⟩]
          exact iff_of_true (Option.some_ne_none _) nameless
        · rw [Item.set, if_neg (fun missing => nameless missing.1)]
          exact iff_of_false (fun failed => failed rfl) nameless
      · rw [if_neg more]
        cases found : fields.lookup (dropDollar position) with
        | some old =>
          rw [set_record_nested value more found]
          exact ih old
        | none =>
          rw [set_record_new value more found, ← ih, Option.getD_none]
          rcases Item.set value rest (newInRecord rest) with ⟨changed, _ | e⟩
          · exact Iff.rfl
          · exact Iff.rfl
    | list items =>
      unfold Fails
      by_cases atFirst : toLowerCase position = FIRST
      · rw [if_pos atFirst]
        cases items with
        | nil =>
          rw [set_list_eq, if_pos atFirst]
          exact iff_of_true (Option.some_ne_none _) trivial
        | cons first others =>
          rw [set_list_first value atFirst]
          exact ih first
      · rw [if_neg atFirst]
        by_cases atLast : toLowerCase position = LAST
        · rw [if_pos atLast]
          cases found : items.getLast? with
          | none =>
            rw [set_list_eq, if_neg atFirst, if_pos atLast]
            simp only [found]
            exact iff_of_true (Option.some_ne_none _) trivial
          | some last =>
            rw [set_list_last value atLast found]
            exact ih last
        · rw [if_neg atLast]
          by_cases adds : Adds position
          · obtain ⟨longer, _, added⟩ := set_list_adds value items adds rest
            rw [added, ih]
            exact (and_iff_right adds).symm
          · rw [set_list_other value atFirst atLast adds]
            exact iff_of_false (fun failed => failed rfl) (fun fails => adds fails.1)
    | noRecord | noList => exact iff_of_true (Option.some_ne_none _) trivial
    | string _ | integer _ | double _ | untyped => exact iff_of_false (fun failed => failed rfl) id

theorem cleanFailure_below {outer inner i j : Item D} (failure : Option Failure)
    (below : Same i outer ↔ Same j inner) :
    CleanFailure (outer, failure) i ↔ CleanFailure (inner, failure) j :=
  imp_congr_right fun _ => below

theorem cleanFailure_refl (i : Item D) (failure : Option Failure) :
    CleanFailure (i, failure) i := fun _ => Same.refl i

theorem cleanFailure_other {i changed : Item D} (failure : Option Failure)
    (other : ¬ Same i changed) : CleanFailure (changed, failure) i ↔ ¬ failure ≠ none :=
  imp_congr_right fun _ => iff_false_intro other

theorem set_clean_list {position : Text} {rest : List Text}
    (ih : ∀ i : Item D, CleanFailure (Item.set value rest i) i ↔ ¬ Spoils rest i)
    (items : List (Item D)) :
    CleanFailure (Item.set value (position :: rest) (.list items)) (.list items) ↔
      ¬ Spoils (position :: rest) (.list items) := by
  unfold Spoils
  by_cases atFirst : toLowerCase position = FIRST
  · rw [if_pos atFirst]
    cases items with
    | nil =>
      rw [set_list_eq, if_pos atFirst]
      exact iff_of_true (cleanFailure_refl _ _) id
    | cons first others =>
      rw [set_list_first value atFirst]
      exact (cleanFailure_below _ (same_head others)).trans (ih first)
  · rw [if_neg atFirst]
    by_cases atLast : toLowerCase position = LAST
    · rw [if_pos atLast]
      cases found : items.getLast? with
      | none =>
        rw [set_list_eq, if_neg atFirst, if_pos atLast]
        simp only [found]
        exact iff_of_true (cleanFailure_refl _ _) id
      | some last =>
        rw [set_list_last value atLast found]
        obtain ⟨others, rfl⟩ := List.getLast?_eq_some_iff.mp found
        rw [List.dropLast_concat]
        exact (cleanFailure_below _ (same_last others)).trans (ih last)
    · rw [if_neg atLast]
      by_cases adds : Adds position
      · obtain ⟨longer, length, added⟩ := set_list_adds value items adds rest
        have other : ¬ Same (.list items) (.list longer) := not_same_length (by omega)
        rw [added, and_iff_right adds, ← set_fails_iff value]
        exact cleanFailure_other _ other
      · rw [set_list_other value atFirst atLast adds]
        exact iff_of_true (cleanFailure_refl _ _) (fun spoils => adds spoils.1)

theorem set_clean_iff (path : List Text) (i : Item D) :
    CleanFailure (Item.set value path i) i ↔ ¬ Spoils path i := by
  induction path generalizing i with
  | nil => exact iff_of_true (fun failed => absurd rfl failed) id
  | cons position rest ih =>
    cases i with
    | record fields =>
      unfold Spoils
      by_cases more : rest = []
      · have clean : CleanFailure (Item.set value (position :: rest) (.record fields))
            (.record fields) := by
          rw [more]
          by_cases nameless : position = []
          · rw [Item.set, if_pos ⟨nameless, rfl⟩]
            exact cleanFailure_refl _ _
          · rw [Item.set, if_neg (fun missing => nameless missing.1)]
            exact fun failed => absurd rfl failed
        refine iff_of_true clean ?_
        rw [more]
        cases fields.lookup (dropDollar position) with
        | none => exact id
        | some old => exact id
      · cases found : fields.lookup (dropDollar position) with
        | some old =>
          rw [set_record_nested value more found]
          exact (cleanFailure_below _ (same_put found)).trans (ih old)
        | none =>
          rw [set_record_new value more found]
          refine iff_of_true ?_ id
          rcases Item.set value rest (newInRecord rest) with ⟨changed, _ | e⟩
          · exact fun failed => absurd rfl failed
          · exact cleanFailure_refl _ _
    | list items => exact set_clean_list value ih items
    | _ => exact iff_of_true (cleanFailure_refl _ _) id

variable (chars : Characters)

theorem removeIndex_clean (items : List (Item D)) (index : Int) :
    CleanFailure (removeIndex items index) (.list items) := by
  cases found : getIndex items index with
  | error e =>
    rw [removeIndex_error found]
    exact cleanFailure_refl _ _
  | ok i =>
    rw [removeIndex_ok found]
    cases i.isContainer with
    | true => exact cleanFailure_refl _ _
    | false => exact fun failed => absurd rfl failed

theorem removeFromList_clean (items : List (Item D)) (next : Text) (rest : List Text) :
    CleanFailure (removeFromList chars items (next :: rest)) (.list items) ↔
      ¬ (rest = [] ∧ Adds next ∧
        ∃ first, items.head? = some first ∧ first.isContainer = true) := by
  cases rest with
  | cons other others => exact iff_of_true (cleanFailure_refl _ _) (fun spoils => nomatch spoils.1)
  | nil =>
    by_cases adds : Adds next
    · cases items with
      | nil =>
        have failed : removeFromList chars ([] : List (Item D)) [next] =
            (.list [], some .runtime) := if_pos adds
        rw [failed]
        refine iff_of_true (cleanFailure_refl _ _) ?_
        rintro ⟨_, _, first, held, _⟩
        cases held
      | cons first others =>
        obtain ⟨longer, length, removed⟩ := removeFromList_adds chars first others adds
        have other : ¬ Same (.list (first :: others)) (.list longer) :=
          not_same_length (by omega)
        rw [removed]
        cases container : first.isContainer with
        | true =>
          rw [if_pos rfl, cleanFailure_other _ other]
          exact not_congr (iff_of_true (Option.some_ne_none _) ⟨rfl, adds, first, rfl, container⟩)
        | false =>
          refine iff_of_true (cleanFailure_refl _ _) ?_
          rintro ⟨_, _, head, held, isContainer⟩
          cases held
          cases container.symm.trans isContainer
    · rw [removeFromList_one chars adds]
      exact iff_of_true (removeIndex_clean items _) (fun spoils => adds spoils.2.1)

theorem remove_clean_iff (path : List Text) (fields : InformationState D) :
    CleanFailure (removeFromRecord chars path fields) (.record fields) ↔
      ¬ SpoilsRemoval path fields := by
  induction path generalizing fields with
  | nil => exact iff_of_true (cleanFailure_refl _ _) id
  | cons name rest ih =>
    cases rest with
    | nil =>
      refine iff_of_true ?_ id
      unfold removeFromRecord
      by_cases nameless : name = []
      · rw [if_pos nameless]
        exact cleanFailure_refl _ _
      · rw [if_neg nameless]
        exact fun failed => absurd rfl failed
    | cons next rest =>
      unfold removeFromRecord SpoilsRemoval
      cases found : fields.lookup (dropDollar name) with
      | none => exact iff_of_true (cleanFailure_refl _ _) id
      | some i =>
        cases i with
        | list items =>
          exact (cleanFailure_below _ (same_put found)).trans
            (removeFromList_clean chars items next rest)
        | record inner =>
          exact (cleanFailure_below _ (same_put found)).trans (ih inner)
        | noRecord | noList => exact iff_of_true (cleanFailure_refl _ _) id
        | string _ | integer _ | double _ | untyped =>
          exact iff_of_true (fun failed => absurd rfl failed) id

variable (ops : Arithmetic D)

/-- A value of an atomic type is set where its path leads to nothing, to an item without a type,
or to an item of its type; and a number is set where there is a number. -/
def Update.Attempts (u : Update D) (is : InformationState D) (type : Option ItemType) : Prop :=
  (type = some .string ∨ type = some .integer ∨ type = some .double) ∧
    ∃ old, is.getTypeOfPath chars u.name = .ok old ∧
      (old = none ∨ old = type ∨ (old = some .integer ∧ type = some .double) ∨
        (old = some .double ∧ type = some .integer))

/-- The exception of this update comes after something was added to a list. -/
def Update.Spoils (u : Update D) (is : InformationState D) : Prop :=
  match u.abstractValue with
  | none => SpoilsRemoval (segments u.name) is
  | some abstractValue =>
    ∃ value, abstractValue.getValue chars ops is = .ok (some value) ∧
      u.Attempts chars is value.getType ∧ Dialogue.Spoils (segments u.name) (.record is)

theorem assign_attempts {u : Update D} {is : InformationState D} {v : Value D}
    (attempts : u.Attempts chars is v.getType) : u.assign chars v is = is.set u.name v := by
  obtain ⟨atomic, old, type, fits⟩ := attempts
  unfold Update.assign
  rw [type]
  cases old with
  | none => rcases atomic with h | h | h <;> rw [h]
  | some oldType =>
    have same : v.getType = some oldType ∨ (oldType = .integer ∧ v.getType = some .double) ∨
        (oldType = .double ∧ v.getType = some .integer) := by
      rcases fits with h | h | ⟨h, new⟩ | ⟨h, new⟩
      · cases h
      · exact .inl h.symm
      · exact .inr (.inl ⟨Option.some.inj h, new⟩)
      · exact .inr (.inr ⟨Option.some.inj h, new⟩)
    dsimp only
    rw [if_pos same]
    cases oldType with
    | string | integer | double => rfl
    | record | list =>
      rcases same with h | ⟨h, _⟩ | ⟨h, _⟩
      · rw [h] at atomic
        rcases atomic with h | h | h <;> cases h
      · cases h
      · cases h

theorem assign_untouched {u : Update D} {is : InformationState D} {v : Value D}
    (refused : ¬ u.Attempts chars is v.getType) : (u.assign chars v is).1 = is := by
  unfold Update.assign
  cases type : is.getTypeOfPath chars u.name with
  | error e => rfl
  | ok old =>
    cases old with
    | none =>
      cases valueType : v.getType with
      | none => rfl
      | some t =>
        cases t with
        | record | list => rfl
        | string | integer | double =>
          refine absurd ⟨?_, none, type, .inl rfl⟩ refused
          rw [valueType]
          simp
    | some oldType =>
      dsimp only
      split
      · rename_i same
        cases oldType with
        | record | list => rfl
        | string | integer | double =>
          refine absurd ⟨?_, _, type, ?_⟩ refused
          · rcases same with h | ⟨_, h⟩ | ⟨_, h⟩ <;> rw [h] <;> simp
          · rcases same with h | ⟨_, h⟩ | ⟨_, h⟩ <;> rw [h] <;> simp_all
      · rfl

theorem set_record (path : List Text) (fields : InformationState D) :
    ∃ written, (Item.set value path (.record fields)).1 = .record written ∨ path = [] := by
  match path with
  | [] => exact ⟨fields, .inr rfl⟩
  | [position] =>
    by_cases nameless : position = []
    · rw [Item.set, if_pos ⟨nameless, rfl⟩]
      exact ⟨fields, .inl rfl⟩
    · rw [Item.set, if_neg (fun missing => nameless missing.1)]
      exact ⟨_, .inl rfl⟩
  | position :: next :: rest =>
    have more := List.cons_ne_nil next rest
    cases found : fields.lookup (dropDollar position) with
    | some old =>
      rw [set_record_nested value more found]
      exact ⟨_, .inl rfl⟩
    | none =>
      rw [set_record_new value more found]
      rcases Item.set value (next :: rest) (newInRecord (next :: rest)) with ⟨changed, _ | e⟩
      · exact ⟨_, .inl rfl⟩
      · exact ⟨_, .inl rfl⟩

theorem set_eq (is : InformationState D) (path : Text) :
    ((Item.record (is.set path value).1, (is.set path value).2) : Change D) =
      Item.set value (segments path) (.record is) := by
  obtain ⟨written, record⟩ := set_record value (segments path) is
  have written := record.resolve_right (List.splitOn_ne_nil _ _)
  unfold InformationState.set
  refine Prod.ext ?_ rfl
  simp only [written]
  rfl

/-- An update that ends in an exception has changed nothing, at no place of the information state,
exactly if its path does not lead to such a list. -/
theorem failsCleanly_iff (u : Update D) (is : InformationState D) :
    ((u.apply chars ops is).2 ≠ none →
      Same (.record is) (.record (u.apply chars ops is).1)) ↔ ¬ u.Spoils chars ops is := by
  unfold Update.apply Update.Spoils
  cases u.abstractValue with
  | none =>
    have clean := remove_clean_iff chars (segments u.name) is
    rw [← remove_eq] at clean
    exact clean
  | some abstractValue =>
    dsimp only
    cases calculated : abstractValue.getValue chars ops is with
    | error e =>
      refine iff_of_true (fun _ => Same.refl _) ?_
      rintro ⟨v, other, _⟩
      cases other
    | ok result =>
      cases result with
      | none =>
        refine iff_of_true (fun _ => Same.refl _) ?_
        rintro ⟨v, other, _⟩
        cases other
      | some v =>
        dsimp only
        by_cases attempts : u.Attempts chars is v.getType
        · have clean := set_clean_iff v (segments u.name) (.record is)
          rw [← set_eq] at clean
          rw [assign_attempts chars attempts]
          refine clean.trans (not_congr ⟨fun spoils => ⟨v, rfl, attempts, spoils⟩, ?_⟩)
          rintro ⟨_, _, _, spoils⟩
          exact spoils
        · have kept := assign_untouched chars attempts
          refine iff_of_true (fun _ => ?_) ?_
          · rw [kept]
            exact Same.refl _
          · rintro ⟨other, same, attemptsOther, _⟩
            cases same
            exact attempts attemptsOther

end

def oneLetter : InformationState Rat := [(['l'], .list [.list [.string ['a']]])]

def addBeforeFirst : Update Rat where
  name := "l._addfirst._first".toList
  abstractValue := some (.one ['b'] (some (.string ['b'])))

/-- The new list to which the path leads on is empty and has no first item, but stays. -/
theorem addBeforeFirst_kept :
    Update.new ascii halves "l._addfirst._first".toList ['b'] = .ok addBeforeFirst ∧
    addBeforeFirst.apply ascii halves oneLetter =
      ([(['l'], .list [.list [], .list [.string ['a']]])], some .runtime) ∧
    ¬ ∀ (u : Update Rat) (is : InformationState Rat) (v : Value Rat), v.Atomic →
      u.abstractValue = some (.one ['b'] (some v)) → (u.apply ascii halves is).2 ≠ none →
      Same (.record is) (.record (u.apply ascii halves is).1) := by
  refine ⟨rfl, rfl, fun clean => ?_⟩
  have same := clean addBeforeFirst oneLetter (.string ['b']) (.string _) rfl
    (Option.some_ne_none _)
  cases same [.field ['l']]

end Semaine.Dialogue
