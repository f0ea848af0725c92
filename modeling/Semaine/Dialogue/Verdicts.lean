import Semaine.Dialogue.Preconditions

/-! When a precondition gives a verdict, and that it is false when values are missing. -/
namespace Semaine.Dialogue
open JavaText JavaFloat

section
variable {D : Type} (chars : Characters) (ops : Arithmetic D)

def Item.Indexed : List Text → Item D → Prop
  | [], _ => True
  | position :: rest, i =>
    match i with
    | .record fields =>
      (position = [] ∧ rest = []) ∨
        ∀ i, fields.lookup (dropDollar position) = some i → i.Indexed rest
    | .list items =>
      listIndex chars items position = -1 ∨
        ∃ i, 0 ≤ listIndex chars items position ∧
          items[(listIndex chars items position).toNat]? = some i ∧ i.Indexed rest
    | .noRecord => False
    | .noList => False
    | _ => True

theorem getIndex_ok {items : List (Item D)} {index : Int} {i : Item D} :
    getIndex items index = .ok i ↔ 0 ≤ index ∧ items[index.toNat]? = some i := by
  unfold getIndex
  split
  · rename_i negative
    constructor
    · exact nofun
    · intro h
      omega
  · rename_i given
    cases items[index.toNat]? with
    | none => simp
    | some i' =>
      simp only [Except.ok.injEq, Option.some.injEq]
      exact ⟨fun h => ⟨by omega, h⟩, fun h => h.2⟩

theorem getIndex_runtime {items : List (Item D)} {index : Int} {e : Failure}
    (h : getIndex items index = .error e) : e = .runtime := by
  unfold getIndex at h
  repeat' split at h
  all_goals cases h <;> rfl

theorem getValueOfPath_ok (path : List Text) (i : Item D) :
    (∃ value, i.getValueOfPath chars path = .ok value) ↔ i.Indexed chars path := by
  induction path generalizing i with
  | nil => exact ⟨fun _ => trivial, fun _ => ⟨_, rfl⟩⟩
  | cons position rest ih =>
    unfold Item.getValueOfPath Item.Indexed
    cases i with
    | record fields =>
      dsimp only
      split
      · rename_i ended
        exact ⟨fun _ => Or.inl ended, fun _ => ⟨_, rfl⟩⟩
      · rename_i more
        cases found : fields.lookup (dropDollar position) with
        | none => exact ⟨fun _ => Or.inr nofun, fun _ => ⟨_, rfl⟩⟩
        | some i =>
          dsimp only
          rw [ih i]
          constructor
          · intro h
            right
            rintro _ ⟨⟩
            exact h
          · rintro (ended | h)
            · exact absurd ended more
            · exact h i rfl
    | list items =>
      dsimp only
      split
      · rename_i noIndex
        exact ⟨fun _ => Or.inl noIndex, fun _ => ⟨_, rfl⟩⟩
      · rename_i given
        cases found : getIndex items (listIndex chars items position) with
        | ok i =>
          dsimp only
          have place := getIndex_ok.mp found
          rw [ih i]
          constructor
          · intro h
            exact Or.inr ⟨i, place.1, place.2, h⟩
          · rintro (noIndex | ⟨i', _, found', h⟩)
            · exact absurd noIndex given
            · rw [place.2, Option.some.injEq] at found'
              rw [found']
              exact h
        | error e =>
          constructor
          · exact nofun
          · rintro (noIndex | ⟨i', positive, found', _⟩)
            · exact absurd noIndex given
            · rw [getIndex_ok.mpr ⟨positive, found'⟩] at found
              cases found
    | noRecord | noList => exact ⟨nofun, False.elim⟩
    | _ => exact ⟨fun _ => trivial, fun _ => ⟨_, rfl⟩⟩

theorem getValueOfPath_runtime {path : List Text} {i : Item D} {e : Failure}
    (h : i.getValueOfPath chars path = .error e) : e = .runtime := by
  induction path generalizing i with
  | nil => cases h
  | cons position rest ih =>
    unfold Item.getValueOfPath at h
    cases i with
    | record fields =>
      dsimp only at h
      split at h
      · cases h
      · split at h
        · exact ih h
        · cases h
    | list items =>
      dsimp only at h
      split at h
      · cases h
      · split at h
        · exact ih h
        · rename_i found
          cases h
          exact getIndex_runtime found
    | noRecord | noList =>
      cases h
      rfl
    | _ => cases h

def Refers (str : Text) (is : InformationState D) : Prop :=
  ∀ reference, referencedPath chars str = some reference →
    (Item.record is).Indexed chars (segments reference.readable)

theorem getDynamicValue_runtime (str : Text) (is : InformationState D) :
    getDynamicValue chars str is = .error .runtime ↔ ¬ Refers chars str is := by
  unfold getDynamicValue Refers
  cases referencedPath chars str with
  | none => simp
  | some reference =>
    simp only [Option.some.injEq, forall_eq']
    rw [← getValueOfPath_ok]
    unfold InformationState.getValueOfPath
    cases read : (Item.record is).getValueOfPath chars (segments reference.readable) with
    | ok value => simp
    | error e =>
      rw [getValueOfPath_runtime chars read]
      simp

def secondValue (valueString2 : Text) (value2 : Option (Value D)) (is : InformationState D) :
    Except Failure (Option (Value D)) :=
  match value2 with
  | some value => .ok (some value)
  | none => getDynamicValue chars valueString2 is

/-- The variables that an expression refers to can be read, and with an arithmetic sign neither
of them is missing. -/
def AbstractValue.Calculates (is : InformationState D) : AbstractValue D → Prop
  | .one _ (some _) => True
  | .one valueString none => Refers chars valueString is
  | .two valueString _ valueString2 value2 =>
    Refers chars valueString is ∧
      ∀ v1, getDynamicValue chars valueString is = .ok v1 →
        (value2 = none → Refers chars valueString2 is) ∧
        ∀ v2, secondValue chars valueString2 value2 is = .ok v2 → v1 ≠ none ∧ v2 ≠ none

theorem secondValue_runtime (valueString2 : Text) (value2 : Option (Value D))
    (is : InformationState D) : secondValue chars valueString2 value2 is = .error .runtime ↔
      ¬ (value2 = none → Refers chars valueString2 is) := by
  unfold secondValue
  cases value2 with
  | none => simp [getDynamicValue_runtime]
  | some value => simp

theorem calcValues_runtime (operator : Operator) (a b : Value D) :
    calcValues ops operator a b ≠ .error .runtime := by
  unfold calcValues
  repeat' split
  all_goals exact nofun

theorem getValue_two (valueString : Text) (operator : Operator) (valueString2 : Text)
    (value2 : Option (Value D)) (is : InformationState D) :
    (AbstractValue.two valueString operator valueString2 value2).getValue chars ops is =
      (getDynamicValue chars valueString is).bind fun v1 =>
        (secondValue chars valueString2 value2 is).bind fun v2 =>
          match v1, v2 with
          | some v1, some v2 => (calcValues ops operator v1 v2).map some
          | _, _ => .error .runtime := by
  unfold AbstractValue.getValue secondValue
  cases value2 <;> rfl

theorem two_runtime (operator : Operator) (x y : Except Failure (Option (Value D))) :
    (x.bind fun v1 => y.bind fun v2 =>
        match v1, v2 with
        | some v1, some v2 => (calcValues ops operator v1 v2).map some
        | _, _ => .error .runtime) = .error .runtime ↔
      x = .error .runtime ∨ ∃ v1, x = .ok v1 ∧
        (y = .error .runtime ∨ ∃ v2, y = .ok v2 ∧ (v1 = none ∨ v2 = none)) := by
  cases x with
  | error e => simp [Except.bind]
  | ok v1 =>
    cases y with
    | error e => simp [Except.bind]
    | ok v2 =>
      cases v1 with
      | none => simp [Except.bind]
      | some a =>
        cases v2 with
        | none => simp [Except.bind]
        | some b =>
          have calculated := calcValues_runtime ops operator a b
          have mapped : (calcValues ops operator a b).map some ≠ .error .runtime := by
            cases result : calcValues ops operator a b with
            | ok value => exact nofun
            | error e =>
              rw [result] at calculated
              intro h
              exact calculated (by cases h; rfl)
          simp [Except.bind, mapped]

theorem getValue_runtime (v : AbstractValue D) (is : InformationState D) :
    v.getValue chars ops is = .error .runtime ↔ ¬ v.Calculates chars is := by
  cases v with
  | one valueString value =>
    cases value with
    | none => exact getDynamicValue_runtime chars valueString is
    | some value => simp [AbstractValue.getValue, AbstractValue.Calculates]
  | two valueString operator valueString2 value2 =>
    rw [getValue_two, two_runtime, getDynamicValue_runtime, secondValue_runtime]
    unfold AbstractValue.Calculates
    push Not
    simp only [Classical.or_iff_not_imp_left, not_not, not_and]

theorem calculates_of_read {v : AbstractValue D} {is : InformationState D}
    {result : Except Failure (Option (Value D))} (read : v.getValue chars ops is = result)
    (given : result ≠ .error .runtime) : v.Calculates chars is := by
  by_contra h
  rw [← read] at given
  exact given ((getValue_runtime chars ops v is).mpr h)

theorem catching_verdict {A : Type} (verdict : Bool) (values : Except Failure A)
    (check : A → Except Failure Bool) :
    (∃ b, catching verdict values check = .ok b) ↔
      values ≠ .error .runtime ∧ ∀ a, values = .ok a → ∃ b, check a = .ok b := by
  unfold catching
  cases values with
  | ok a => simp
  | error e => cases e <;> simp

theorem bothValues_runtime (v1 v2 : AbstractValue D) (is : InformationState D) :
    bothValues chars ops v1 v2 is = .error .runtime ↔
      ¬ (v1.Calculates chars is ∧
        ∀ value1, v1.getValue chars ops is = .ok value1 → v2.Calculates chars is) := by
  have second := getValue_runtime chars ops v2 is
  unfold bothValues
  cases isFirst : v1.getValue chars ops is with
  | error e =>
    cases e with
    | runtime =>
      have fails := (getValue_runtime chars ops v1 is).mp isFirst
      simp [bind, Except.bind, fails]
    | templateRun =>
      have calculates := calculates_of_read chars ops isFirst nofun
      simp [bind, Except.bind, calculates]
  | ok value1 =>
    have calculates := calculates_of_read chars ops isFirst nofun
    simp only [bind, Except.bind, calculates, true_and, Except.ok.injEq, forall_eq']
    rw [← second]
    cases v2.getValue chars ops is with
    | error e => simp
    | ok value2 => simp [pure, Except.pure]

theorem bothValues_ok {v1 v2 : AbstractValue D} {is : InformationState D}
    {values : Option (Value D) × Option (Value D)} :
    bothValues chars ops v1 v2 is = .ok values ↔
      v1.getValue chars ops is = .ok values.1 ∧ v2.getValue chars ops is = .ok values.2 := by
  unfold bothValues
  cases v1.getValue chars ops is with
  | error e => simp [bind, Except.bind]
  | ok value1 =>
    cases v2.getValue chars ops is with
    | error e => simp [bind, Except.bind]
    | ok value2 =>
      simp only [bind, Except.bind, pure, Except.pure, Except.ok.injEq, Prod.ext_iff]

/-- Both operands can be calculated, the second one if the first one is, and what follows holds of
their values. -/
def Operands (v1 v2 : AbstractValue D) (is : InformationState D)
    (fine : Option (Value D) → Option (Value D) → Prop) : Prop :=
  v1.Calculates chars is ∧ ∀ value1, v1.getValue chars ops is = .ok value1 →
    v2.Calculates chars is ∧ ∀ value2, v2.getValue chars ops is = .ok value2 → fine value1 value2

theorem both_verdict {v1 v2 : AbstractValue D} {is : InformationState D}
    {check : Option (Value D) × Option (Value D) → Except Failure Bool}
    {fine : Option (Value D) → Option (Value D) → Prop}
    (exact : ∀ value1 value2, (∃ b, check (value1, value2) = .ok b) ↔ fine value1 value2) :
    (∃ b, catching false (bothValues chars ops v1 v2 is) check = .ok b) ↔
      Operands chars ops v1 v2 is fine := by
  rw [catching_verdict, Ne, bothValues_runtime, not_not]
  unfold Operands
  constructor
  · rintro ⟨⟨first, second⟩, checked⟩
    refine ⟨first, fun value1 isFirst => ⟨second value1 isFirst, fun value2 isSecond => ?_⟩⟩
    exact (exact value1 value2).mp (checked (value1, value2)
      ((bothValues_ok chars ops).mpr ⟨isFirst, isSecond⟩))
  · rintro ⟨first, rest⟩
    refine ⟨⟨first, fun value1 isFirst => (rest value1 isFirst).1⟩, ?_⟩
    rintro ⟨value1, value2⟩ isBoth
    obtain ⟨isFirst, isSecond⟩ := (bothValues_ok chars ops).mp isBoth
    exact (exact value1 value2).mpr ((rest value1 isFirst).2 value2 isSecond)

/-- What a comparator of lists asks of its values: with a list, the second value is there, and an
atomic one is not looked for in an empty list. -/
def Searchable : Option (Value D) → Option (Value D) → Prop
  | some (.list _), none => False
  | some (.list items), some value2 => value2.isAtomic = true → items ≠ []
  | some .noList, none => False
  | some .noList, some value2 => value2.isAtomic = false
  | _, _ => True

theorem listContains_verdict (verdict : Bool) (items : List (Item D)) (item : Item D) :
    (∃ b, listContains ops verdict items item = .ok b) ↔ items ≠ [] := by
  unfold listContains
  cases items with
  | nil => simp
  | cons first others =>
    dsimp only
    split <;> simp

def Compare.Decided (is : InformationState D) : Compare D → Prop
  | .values .contains v1 v2 => Operands chars ops v1 v2 is Searchable
  | .values .notContains v1 v2 => Operands chars ops v1 v2 is Searchable
  | .values _ v1 v2 => Operands chars ops v1 v2 is fun _ _ => True
  | .exists_ v1 => v1.Calculates chars is
  | .notExists v1 => v1.Calculates chars is

theorem compareValid_verdict (check : Value D → Value D → Bool) (v1 v2 : AbstractValue D)
    (is : InformationState D) :
    (∃ b, compareValid chars ops check v1 v2 is = .ok b) ↔
      Operands chars ops v1 v2 is fun _ _ => True := by
  apply both_verdict
  rintro (_ | value1) (_ | value2) <;> simp

theorem containsValid_verdict (verdict : Bool) (v1 v2 : AbstractValue D)
    (is : InformationState D) :
    (∃ b, containsValid chars ops verdict v1 v2 is = .ok b) ↔
      Operands chars ops v1 v2 is Searchable := by
  apply both_verdict
  rintro (_ | value1) value2
  · simp [Searchable]
  · cases value1 with
    | list items =>
      cases value2 with
      | none => simp [Searchable]
      | some value2 =>
        unfold Searchable
        dsimp only
        split
        · rename_i atomic
          simp only [listContains_verdict, atomic, forall_const]
        · rename_i structured
          simp [structured]
    | noList =>
      cases value2 with
      | none => simp [Searchable]
      | some value2 =>
        unfold Searchable
        dsimp only
        split <;> simp_all
    | _ => simp [Searchable]

theorem compare_verdict (is : InformationState D) (c : Compare D) :
    (∃ b, c.isValid chars ops is = .ok b) ↔ c.Decided chars ops is := by
  have ofValue : ∀ (verdict : Bool) (v : AbstractValue D) (check : Option (Value D) → Bool),
      (∃ b, catching verdict (v.getValue chars ops is) (fun value => .ok (check value)) = .ok b) ↔
        v.Calculates chars is := by
    intro verdict v check
    rw [catching_verdict, Ne, getValue_runtime, not_not]
    simp
  cases c with
  | values comparator v1 v2 =>
    cases comparator with
    | contains | notContains => exact containsValid_verdict chars ops _ v1 v2 is
    | _ => exact compareValid_verdict chars ops _ v1 v2 is
  | exists_ v1 => exact ofValue false v1 _
  | notExists v1 => exact ofValue true v1 _

theorem catching_caught {A : Type} {verdict : Bool} {values : Except Failure A}
    {check : A → Except Failure Bool} (caught : ∀ a, check a ≠ .error .templateRun) :
    catching verdict values check ≠ .error .templateRun := by
  unfold catching
  cases values with
  | ok a => exact caught a
  | error e => cases e <;> exact nofun

theorem listContains_caught (verdict : Bool) (items : List (Item D)) (item : Item D) :
    listContains ops verdict items item ≠ .error .templateRun := by
  unfold listContains
  repeat' split
  all_goals exact nofun

theorem compare_caught (is : InformationState D) (c : Compare D) :
    c.isValid chars ops is ≠ .error .templateRun := by
  have ofValues : ∀ (check : Value D → Value D → Bool) (v1 v2 : AbstractValue D),
      compareValid chars ops check v1 v2 is ≠ .error .templateRun := by
    intro check v1 v2
    apply catching_caught
    rintro ⟨_ | value1, _ | value2⟩ <;> exact nofun
  have ofLists : ∀ (verdict : Bool) (v1 v2 : AbstractValue D),
      containsValid chars ops verdict v1 v2 is ≠ .error .templateRun := by
    intro verdict v1 v2
    apply catching_caught
    intro values
    repeat' split
    all_goals first | exact listContains_caught ops _ _ _ | exact nofun
  cases c with
  | values comparator v1 v2 =>
    cases comparator with
    | contains | notContains => exact ofLists _ v1 v2
    | _ => exact ofValues _ v1 v2
  | exists_ v1 => exact catching_caught fun _ => nofun
  | notExists v1 => exact catching_caught fun _ => nofun

def legalModifier (modifier : Text) : Bool :=
  match modifier with
  | [] => false
  | sign :: rest => (ops.parseDouble rest).isSome && "+-*/".toList.contains sign

theorem calc_runtime (d : D) (modifier : Text) :
    Indicator.calc ops d modifier = .error .runtime ↔ modifier = [] := by
  unfold Indicator.calc
  cases modifier with
  | nil => simp
  | cons sign rest =>
    simp only [reduceCtorEq, iff_false]
    repeat' split
    all_goals exact nofun

theorem calc_ok (d : D) (modifier : Text) :
    (∃ d', Indicator.calc ops d modifier = .ok d') ↔ legalModifier ops modifier = true := by
  unfold Indicator.calc legalModifier
  cases modifier with
  | nil => simp
  | cons sign rest =>
    dsimp only
    cases ops.parseDouble rest with
    | none => simp
    | some modValue =>
      have signs : "+-*/".toList = ['+', '-', '*', '/'] := rfl
      simp only [signs, Option.isSome_some, Bool.true_and]
      repeat' split
      all_goals simp_all

/-- Every compare of an indicator that is looked at gives a verdict, and the modifiers of those
that hold are not empty. The first modifier that is not legal ends the loop. -/
def Indicator.Modifiable (is : InformationState D) : List (ICompare D) → Prop
  | [] => True
  | icompare :: rest =>
    icompare.compare.Decided chars ops is ∧
      (icompare.compare.isValid chars ops is = .ok false → Modifiable is rest) ∧
      (icompare.compare.isValid chars ops is = .ok true → icompare.modifier ≠ [] ∧
        (legalModifier ops icompare.modifier = true → Modifiable is rest))

theorem modify_runtime (is : InformationState D) (icompares : List (ICompare D)) (startV : D) :
    Indicator.modify chars ops is icompares startV ≠ .error .runtime ↔
      Indicator.Modifiable chars ops is icompares := by
  induction icompares generalizing startV with
  | nil => simp [Indicator.modify, Indicator.Modifiable]
  | cons icompare rest ih =>
    unfold Indicator.modify Indicator.Modifiable
    rw [← compare_verdict]
    cases verdict : icompare.compare.isValid chars ops is with
    | error e =>
      have caught := compare_caught chars ops is icompare.compare
      cases e with
      | runtime => simp [bind, Except.bind]
      | templateRun => exact absurd verdict caught
    | ok b =>
      cases b with
      | false => simpa [bind, Except.bind] using ih startV
      | true =>
        have legal := calc_ok ops startV icompare.modifier
        have given := calc_runtime ops startV icompare.modifier
        cases modified : Indicator.calc ops startV icompare.modifier with
        | ok d =>
          rw [modified] at legal given
          have isLegal : legalModifier ops icompare.modifier = true := legal.mp ⟨d, rfl⟩
          have notEmpty : icompare.modifier ≠ [] := fun h => nomatch given.mpr h
          simpa [bind, Except.bind, modified, isLegal, notEmpty] using ih d
        | error e =>
          rw [modified] at legal given
          have notLegal : legalModifier ops icompare.modifier ≠ true :=
            fun h => nomatch legal.mpr h
          cases e with
          | runtime => simp [bind, Except.bind, given.mp rfl]
          | templateRun =>
            have notEmpty : icompare.modifier ≠ [] := fun h => nomatch given.mpr h
            simp [bind, Except.bind, notLegal, notEmpty]

def Indicator.Decided (is : InformationState D) (i : Indicator D) : Prop :=
  Operands chars ops i.abstractStartValue i.abstractEndValue is fun startValue endValue =>
    match startValue with
    | none => False
    | some startValue =>
      (startValue.doubleValue ops).isSome = true →
        match endValue with
        | none => False
        | some endValue => (endValue.doubleValue ops).isSome = true →
          Indicator.Modifiable chars ops is i.indicatorCompares

theorem indicator_verdict (is : InformationState D) (i : Indicator D) :
    (∃ b, i.isValid chars ops is = .ok b) ↔ i.Decided chars ops is := by
  apply both_verdict
  intro startValue endValue
  cases startValue with
  | none => simp
  | some startValue =>
    dsimp only
    cases startValue.doubleValue ops with
    | none => simp
    | some startV =>
      cases endValue with
      | none => simp
      | some endValue =>
        dsimp only
        cases endValue.doubleValue ops with
        | none => simp
        | some endV =>
          dsimp only
          rw [catching_verdict, modify_runtime]
          simp

def Missing (v : AbstractValue D) (is : InformationState D) : Prop :=
  ∀ value, v.getValue chars ops is ≠ .ok (some value)

def Item.IsNumber (i : Item D) : Prop := i.getType = some .integer ∨ i.getType = some .double

/-- Texts are compared with texts, numbers with numbers, and a list with values of the type of its
first item. -/
def Comparator.Comparable : Comparator → Value D → Value D → Prop
  | .equals, a, b => (a.IsNumber ∧ b.IsNumber) ∨
      (a.getType = some .string ∧ b.getType = some .string)
  | .notEquals, a, b => (a.IsNumber ∧ b.IsNumber) ∨
      (a.getType = some .string ∧ b.getType = some .string)
  | .contains, a, b => ∃ first others, a = .list (first :: others) ∧ b.isAtomic = true ∧
      first.getType = b.getType
  | .notContains, a, b => ∃ first others, a = .list (first :: others) ∧ b.isAtomic = true ∧
      first.getType = b.getType
  | _, a, b => a.IsNumber ∧ b.IsNumber

/-- A variable that is needed is missing, or the values cannot be compared. -/
def Compare.Unmet (is : InformationState D) : Compare D → Prop
  | .values comparator v1 v2 => Missing chars ops v1 is ∨ Missing chars ops v2 is ∨
      ∃ a b, v1.getValue chars ops is = .ok (some a) ∧ v2.getValue chars ops is = .ok (some b) ∧
        ¬ comparator.Comparable a b
  | .exists_ v1 => Missing chars ops v1 is
  | .notExists _ => False

def Indicator.Unmet (is : InformationState D) (i : Indicator D) : Prop :=
  Missing chars ops i.abstractStartValue is ∨ Missing chars ops i.abstractEndValue is ∨
    ∃ a b, i.abstractStartValue.getValue chars ops is = .ok (some a) ∧
      i.abstractEndValue.getValue chars ops is = .ok (some b) ∧ ¬ (a.IsNumber ∧ b.IsNumber)

theorem compareNumbers_incomparable {ints : Int → Int → Bool} {doubles : D → D → Bool}
    {a b : Value D} (h : ¬ (a.IsNumber ∧ b.IsNumber)) :
    compareNumbers ops ints doubles a b = false := by
  cases a <;> cases b <;> first
    | rfl
    | exact absurd ⟨by simp [Item.IsNumber, Item.getType], by simp [Item.IsNumber, Item.getType]⟩ h

theorem compareAll_incomparable {strings : Text → Text → Bool} {ints : Int → Int → Bool}
    {doubles : D → D → Bool} {a b : Value D}
    (h : ¬ ((a.IsNumber ∧ b.IsNumber) ∨
      (a.getType = some .string ∧ b.getType = some .string))) :
    compareAll ops strings ints doubles a b = false := by
  rw [not_or] at h
  unfold compareAll
  split
  · exact absurd ⟨rfl, rfl⟩ h.2
  · exact compareNumbers_incomparable ops h.1

theorem catching_cases {A : Type} {verdict b : Bool} {values : Except Failure A}
    {check : A → Except Failure Bool} (h : catching verdict values check = .ok b) :
    b = verdict ∨ ∃ a, values = .ok a ∧ check a = .ok b := by
  unfold catching at h
  cases values with
  | ok a => exact Or.inr ⟨a, rfl, h⟩
  | error e =>
    cases e with
    | templateRun =>
      cases h
      exact Or.inl rfl
    | runtime => cases h

theorem compareValid_unmet {check : Value D → Value D → Bool} {comparator : Comparator}
    {v1 v2 : AbstractValue D} {is : InformationState D} {b : Bool}
    (incomparable : ∀ x y, ¬ comparator.Comparable x y → check x y = false)
    (valid : compareValid chars ops check v1 v2 is = .ok b)
    (unmet : (Compare.values comparator v1 v2).Unmet chars ops is) : b = false := by
  rcases catching_cases valid with rfl | ⟨⟨value1, value2⟩, both, checked⟩
  · rfl
  · obtain ⟨first, second⟩ := (bothValues_ok chars ops).mp both
    cases value1 with
    | none =>
      cases checked
      rfl
    | some x =>
      cases value2 with
      | none =>
        cases checked
        rfl
      | some y =>
        rcases unmet with missing | missing | ⟨x', y', first', second', h⟩
        · exact absurd first (missing x)
        · exact absurd second (missing y)
        · rw [first] at first'
          rw [second] at second'
          cases first'
          cases second'
          rw [← Except.ok.inj checked]
          exact incomparable x y h

theorem listContains_incomparable {verdict b : Bool} {items : List (Item D)} {item : Item D}
    (h : ¬ ∃ first others, items = first :: others ∧ first.getType = item.getType)
    (valid : listContains ops verdict items item = .ok b) : b = false := by
  cases items with
  | nil => cases valid
  | cons first others =>
    have different : first.getType ≠ item.getType := fun same => h ⟨first, others, rfl, same⟩
    unfold listContains at valid
    dsimp only at valid
    rw [if_pos different] at valid
    cases valid
    rfl

theorem containsValid_unmet {verdict b : Bool} {v1 v2 : AbstractValue D}
    {is : InformationState D} (valid : containsValid chars ops verdict v1 v2 is = .ok b)
    (unmet : (Compare.values .contains v1 v2).Unmet chars ops is) : b = false := by
  rcases catching_cases valid with rfl | ⟨⟨value1, value2⟩, both, checked⟩
  · rfl
  · obtain ⟨first, second⟩ := (bothValues_ok chars ops).mp both
    dsimp only at first second
    split at checked
    · cases checked
    · rename_i items y isValues
      cases isValues
      split at checked
      · rename_i atomic
        apply listContains_incomparable ops _ checked
        rintro ⟨head, others, rfl, same⟩
        rcases unmet with missing | missing | ⟨x', y', first', second', h⟩
        · exact missing _ first
        · exact missing _ second
        · rw [first] at first'
          rw [second] at second'
          cases first'
          cases second'
          exact h ⟨head, others, rfl, atomic, same⟩
      · cases checked
        rfl
    · cases checked
    · split at checked
      · cases checked
      · cases checked
        rfl
    · cases checked
      rfl

theorem compare_unmet {c : Compare D} {is : InformationState D} {b : Bool}
    (valid : c.isValid chars ops is = .ok b) (unmet : c.Unmet chars ops is) : b = false := by
  cases c with
  | values comparator v1 v2 =>
    cases comparator with
    | contains | notContains => exact containsValid_unmet chars ops valid unmet
    | equals | notEquals =>
      apply compareValid_unmet chars ops _ valid unmet
      intro x y h
      exact compareAll_incomparable ops h
    | _ =>
      apply compareValid_unmet chars ops _ valid unmet
      intro x y h
      exact compareNumbers_incomparable ops h
  | exists_ v1 =>
    rcases catching_cases valid with rfl | ⟨value, read, checked⟩
    · rfl
    · cases value with
      | none =>
        cases checked
        rfl
      | some x => exact absurd read (unmet x)
  | notExists v1 => exact unmet.elim

theorem doubleValue_isNumber {i : Item D} {d : D} (h : i.doubleValue ops = some d) :
    i.IsNumber := by
  cases i with
  | integer i => exact Or.inl rfl
  | double d => exact Or.inr rfl
  | _ => cases h

theorem indicator_unmet {i : Indicator D} {is : InformationState D} {b : Bool}
    (valid : i.isValid chars ops is = .ok b) (unmet : i.Unmet chars ops is) : b = false := by
  rcases catching_cases valid with rfl | ⟨⟨startValue, endValue⟩, both, checked⟩
  · rfl
  · obtain ⟨first, second⟩ := (bothValues_ok chars ops).mp both
    cases startValue with
    | none => cases checked
    | some x =>
      dsimp only at first second checked
      cases isStart : x.doubleValue ops with
      | none =>
        simp only [isStart] at checked
        cases checked
        rfl
      | some startV =>
        simp only [isStart] at checked
        cases endValue with
        | none => cases checked
        | some y =>
          dsimp only at checked
          cases isEnd : y.doubleValue ops with
          | none =>
            simp only [isEnd] at checked
            cases checked
            rfl
          | some endV =>
            rcases unmet with missing | missing | ⟨x', y', first', second', h⟩
            · exact absurd first (missing x)
            · exact absurd second (missing y)
            · rw [first] at first'
              rw [second] at second'
              cases first'
              cases second'
              have numbers := And.intro (doubleValue_isNumber ops isStart)
                (doubleValue_isNumber ops isEnd)
              exact absurd numbers h

end

/-- What a template asks for: a comparison, which may be a trigger, or an indicator. -/
inductive Condition (D : Type) where
  | compare (c : Compare D)
  | indicator (i : Indicator D)

namespace Condition

section
variable {D : Type} (chars : Characters) (ops : Arithmetic D)

def isValid (is : InformationState D) : Condition D → Except Failure Bool
  | .compare c => c.isValid chars ops is
  | .indicator i => i.isValid chars ops is

def precondition (p : Condition D) : Precondition (InformationState D) where
  isValid is := (p.isValid chars ops is).toOption

def Unmet (is : InformationState D) : Condition D → Prop
  | .compare c => c.Unmet chars ops is
  | .indicator i => i.Unmet chars ops is

def Decided (is : InformationState D) : Condition D → Prop
  | .compare c => c.Decided chars ops is
  | .indicator i => i.Decided chars ops is

/-- A precondition gives a verdict, and the verdict is false when its needs are not met, exactly
if it is decided. -/
theorem verdict_iff (is : InformationState D) (p : Condition D) :
    (∃ b, p.isValid chars ops is = .ok b ∧ (p.Unmet chars ops is → b = false)) ↔
      p.Decided chars ops is := by
  cases p with
  | compare c =>
    refine Iff.trans ?_ (compare_verdict chars ops is c)
    constructor
    · rintro ⟨b, valid, _⟩
      exact ⟨b, valid⟩
    · rintro ⟨b, valid⟩
      exact ⟨b, valid, compare_unmet chars ops valid⟩
  | indicator i =>
    refine Iff.trans ?_ (indicator_verdict chars ops is i)
    constructor
    · rintro ⟨b, valid, _⟩
      exact ⟨b, valid⟩
    · rintro ⟨b, valid⟩
      exact ⟨b, valid, indicator_unmet chars ops valid⟩

end

end Condition

def noDoubles : Arithmetic Rat := exactArithmetic fun _ => none

def containsMissing : CompareElement where
  comparator := some "contains".toList
  value1 := some "$topics".toList
  value2 := some "$topic".toList

/-- A list that is there is searched for a variable that is missing. -/
theorem containsMissing_throws :
    ¬ ∀ (e : CompareElement) (c : Compare Rat) (is : InformationState Rat),
        parsePrecondition ascii noDoubles e = .ok c →
        ∃ b, (Condition.compare c).isValid ascii noDoubles is = .ok b ∧
          ((Condition.compare c).Unmet ascii noDoubles is → b = false) := by
  intro verdicts
  obtain ⟨b, valid, _⟩ := verdicts containsMissing _
    [("topics".toList, .list [.string "weather".toList])] rfl
  cases valid

end Semaine.Dialogue
