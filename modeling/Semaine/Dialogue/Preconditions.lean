import Semaine.Dialogue.AbstractValue

/-! `eu.semaine.components.dialogue.behaviourselection.template.preconditions`: comparisons of
two values, and indicators, which add up evidence. -/
namespace Semaine.Dialogue
open JavaText JavaFloat

inductive Comparator where
  | equals | notEquals | lesserThan | greaterThan | lesserEquals | greaterEquals
  | contains | notContains
  deriving DecidableEq, Repr

inductive Compare (D : Type) where
  | values (comparator : Comparator) (abstractValue1 abstractValue2 : AbstractValue D)
  | exists_ (abstractValue1 : AbstractValue D)
  | notExists (abstractValue1 : AbstractValue D)

structure ICompare (D : Type) where
  compare : Compare D
  modifier : Text

structure Indicator (D : Type) where
  abstractStartValue : AbstractValue D
  abstractEndValue : AbstractValue D
  comparator : Text
  indicatorCompares : List (ICompare D)

section
variable {D : Type} (chars : Characters) (ops : Arithmetic D)

/-- A TemplateParseException, or another one, after which no template is read. -/
inductive ParseFailure where
  | templateParse (message : Text)
  | runtime
  deriving DecidableEq, Repr

/-- The attributes of a `compare`, a `trigger` or an `icompare`. -/
structure CompareElement where
  comparator : Option Text := none
  value1 : Option Text := none
  value2 : Option Text := none
  modifier : Option Text := none

structure IndicatorElement where
  startvalue : Option Text := none
  endvalue : Option Text := none
  comparator : Option Text := none
  icompares : List CompareElement := []

def newValue (valueString : Text) : Except ParseFailure (AbstractValue D) :=
  (AbstractValue.new chars ops valueString).mapError fun _ => .runtime

def wrongNumber (name : String) : ParseFailure :=
  .templateParse ("Wrong number of arguments of a Compare".toList ++ name.toList ++ ['.'])

def parseValues (comparator : Comparator) (name : String) (e : CompareElement) :
    Except ParseFailure (Compare D) :=
  match e.value1, e.value2 with
  | some value1, some value2 => do
    let abstractValue1 ← newValue chars ops value1
    let abstractValue2 ← newValue chars ops value2
    return .values comparator abstractValue1 abstractValue2
  | _, _ => .error (wrongNumber name)

def parseValue (compare : AbstractValue D → Compare D) (name : String) (e : CompareElement) :
    Except ParseFailure (Compare D) :=
  match e.value1 with
  | some value1 => (newValue chars ops value1).map compare
  | none => .error (wrongNumber name)

def parsePrecondition (e : CompareElement) : Except ParseFailure (Compare D) :=
  match e.comparator with
  | none => parseValues chars ops .equals "" e
  | some comp =>
    if comp = "equals".toList then parseValues chars ops .equals " (Equals)" e
    else if comp = "not_equals".toList then parseValues chars ops .notEquals " (Not_Equals)" e
    else if comp = "greater_than".toList then
      parseValues chars ops .greaterThan " (Greater_Than)" e
    else if comp = "smaller_than".toList then parseValues chars ops .lesserThan " (Lesser_Than)" e
    else if comp = "greater_equals".toList then
      parseValues chars ops .greaterEquals " (Greater_Equals)" e
    else if comp = "smaller_equals".toList then
      parseValues chars ops .lesserEquals " (Lesser_Equals)" e
    else if comp = "exists".toList then parseValue chars ops .exists_ " (Exists)" e
    else if comp = "not_exists".toList then parseValue chars ops .notExists " (Not_Exists)" e
    else if comp = "contains".toList then parseValues chars ops .contains " (Contains)" e
    else if comp = "not_contains".toList then
      parseValues chars ops .notContains " (Not_Contains)" e
    else .error (.templateParse "Unknown Comparator used.".toList)

def parseICompare (e : CompareElement) : Except ParseFailure (ICompare D) := do
  let compare ← parsePrecondition chars ops e
  match e.modifier with
  | some modifier => return { compare := compare, modifier := modifier }
  | none => throw (.templateParse "Missing modifier-attribute of Indicator-Compare.".toList)

def parseIndicator (e : IndicatorElement) : Except ParseFailure (Indicator D) :=
  match e.startvalue, e.endvalue, e.comparator with
  | some startvalue, some endvalue, some comparator => do
    let abstractStartValue ← newValue chars ops startvalue
    let abstractEndValue ← newValue chars ops endvalue
    let indicatorCompares ← e.icompares.mapM (parseICompare chars ops)
    return { abstractStartValue, abstractEndValue, comparator, indicatorCompares }
  | _, _, _ => .error (.templateParse "Missing attributes of Indicator element.".toList)

/-- `catch( TemplateRunException e )` with the verdict that is then returned. -/
def catching {A : Type} (verdict : Bool) (values : Except Failure A)
    (check : A → Except Failure Bool) : Except Failure Bool :=
  match values with
  | .ok a => check a
  | .error .templateRun => .ok verdict
  | .error .runtime => .error .runtime

def bothValues (abstractValue1 abstractValue2 : AbstractValue D) (is : InformationState D) :
    Except Failure (Option (Value D) × Option (Value D)) := do
  let value1 ← abstractValue1.getValue chars ops is
  let value2 ← abstractValue2.getValue chars ops is
  return (value1, value2)

/-- Two integers are compared as such, and as doubles if one of them is a double. -/
def compareNumbers (ints : Int → Int → Bool) (doubles : D → D → Bool) : Value D → Value D → Bool
  | .integer a, .integer b => ints a b
  | .integer a, .double b => doubles (ops.ofInt a) b
  | .double a, .integer b => doubles a (ops.ofInt b)
  | .double a, .double b => doubles a b
  | _, _ => false

def compareAll (strings : Text → Text → Bool) (ints : Int → Int → Bool) (doubles : D → D → Bool) :
    Value D → Value D → Bool
  | .string a, .string b => strings a b
  | a, b => compareNumbers ops ints doubles a b

/-- The `isValid` that six of the comparators share; a value that is null makes it false. -/
def compareValid (check : Value D → Value D → Bool)
    (abstractValue1 abstractValue2 : AbstractValue D)
    (is : InformationState D) : Except Failure Bool :=
  catching false (bothValues chars ops abstractValue1 abstractValue2 is) fun values =>
    match values with
    | (some value1, some value2) => .ok (check value1 value2)
    | _ => .ok false

def CompareEquals.isValid : AbstractValue D → AbstractValue D → InformationState D →
    Except Failure Bool :=
  compareValid chars ops
    (compareAll ops (fun a b => decide (a = b)) (fun a b => decide (a = b)) ops.equals)

def CompareNotEquals.isValid : AbstractValue D → AbstractValue D → InformationState D →
    Except Failure Bool :=
  compareValid chars ops
    (compareAll ops (fun a b => decide (a ≠ b)) (fun a b => decide (a ≠ b))
      (fun a b => !ops.equals a b))

def CompareGreaterThan.isValid : AbstractValue D → AbstractValue D → InformationState D →
    Except Failure Bool :=
  compareValid chars ops (compareNumbers ops (fun a b => decide (b < a)) (fun a b => ops.lt b a))

def CompareLesserThan.isValid : AbstractValue D → AbstractValue D → InformationState D →
    Except Failure Bool :=
  compareValid chars ops (compareNumbers ops (fun a b => decide (a < b)) ops.lt)

def CompareGreaterEquals.isValid : AbstractValue D → AbstractValue D → InformationState D →
    Except Failure Bool :=
  compareValid chars ops (compareNumbers ops (fun a b => decide (b ≤ a)) (fun a b => ops.le b a))

def CompareLesserEquals.isValid : AbstractValue D → AbstractValue D → InformationState D →
    Except Failure Bool :=
  compareValid chars ops (compareNumbers ops (fun a b => decide (a ≤ b)) ops.le)

def sameValue : Item D → Item D → Bool
  | .string a, .string b => decide (a = b)
  | .integer a, .integer b => decide (a = b)
  | .double a, .double b => ops.equals a b
  | _, _ => false

/-- `List.contains` and, with the other verdict, `List.notContains`: the first item stands for
the type of all. -/
def listContains (verdict : Bool) (items : List (Item D)) (item : Item D) : Except Failure Bool :=
  match items with
  | [] => .error .runtime
  | first :: _ =>
    if first.getType ≠ item.getType then .ok false
    else .ok (items.any (sameValue ops · item) == verdict)

def Item.isAtomic (i : Item D) : Bool :=
  i.getType = some .string || i.getType = some .integer || i.getType = some .double

/-- The `isValid` that the comparators of lists share. -/
def containsValid (verdict : Bool) (abstractValue1 abstractValue2 : AbstractValue D)
    (is : InformationState D) : Except Failure Bool :=
  catching false (bothValues chars ops abstractValue1 abstractValue2 is) fun values =>
    match values with
    | (some (.list _), none) => .error .runtime
    | (some (.list items), some value2) =>
      if value2.isAtomic then listContains ops verdict items value2 else .ok false
    | (some .noList, none) => .error .runtime
    | (some .noList, some value2) => if value2.isAtomic then .error .runtime else .ok false
    | _ => .ok false

def CompareContains.isValid : AbstractValue D → AbstractValue D → InformationState D →
    Except Failure Bool := containsValid chars ops true

def CompareNotContains.isValid : AbstractValue D → AbstractValue D → InformationState D →
    Except Failure Bool := containsValid chars ops false

def CompareExists.isValid (abstractValue1 : AbstractValue D) (is : InformationState D) :
    Except Failure Bool :=
  catching false (abstractValue1.getValue chars ops is) fun value => .ok value.isSome

def CompareNotExists.isValid (abstractValue1 : AbstractValue D) (is : InformationState D) :
    Except Failure Bool :=
  catching true (abstractValue1.getValue chars ops is) fun value => .ok value.isNone

def Compare.isValid (is : InformationState D) : Compare D → Except Failure Bool
  | .values .equals v1 v2 => CompareEquals.isValid chars ops v1 v2 is
  | .values .notEquals v1 v2 => CompareNotEquals.isValid chars ops v1 v2 is
  | .values .lesserThan v1 v2 => CompareLesserThan.isValid chars ops v1 v2 is
  | .values .greaterThan v1 v2 => CompareGreaterThan.isValid chars ops v1 v2 is
  | .values .lesserEquals v1 v2 => CompareLesserEquals.isValid chars ops v1 v2 is
  | .values .greaterEquals v1 v2 => CompareGreaterEquals.isValid chars ops v1 v2 is
  | .values .contains v1 v2 => CompareContains.isValid chars ops v1 v2 is
  | .values .notContains v1 v2 => CompareNotContains.isValid chars ops v1 v2 is
  | .exists_ v1 => CompareExists.isValid chars ops v1 is
  | .notExists v1 => CompareNotExists.isValid chars ops v1 is

def Indicator.calc (d : D) (modifier : Text) : Except Failure D :=
  match modifier with
  | [] => .error .runtime
  | sign :: rest =>
    match ops.parseDouble rest with
    | none => .error .templateRun
    | some modValue =>
      if sign = '+' then .ok (ops.add d modValue)
      else if sign = '-' then .ok (ops.sub d modValue)
      else if sign = '*' then .ok (ops.mul d modValue)
      else if sign = '/' then .ok (ops.div d modValue)
      else .error .templateRun

def Indicator.modify (is : InformationState D) : List (ICompare D) → D → Except Failure D
  | [], startV => .ok startV
  | icompare :: rest, startV => do
    if ← icompare.compare.isValid chars ops is then
      let startV ← Indicator.calc ops startV icompare.modifier
      Indicator.modify is rest startV
    else Indicator.modify is rest startV

def Item.doubleValue : Item D → Option D
  | .integer i => some (ops.ofInt i)
  | .double d => some d
  | _ => none

def Indicator.compareEnd (comparator : Text) (startV endV : D) : Bool :=
  if comparator = "equals".toList then ops.eq startV endV
  else if comparator = "not_equals".toList then !ops.eq startV endV
  else if comparator = "greater_than".toList then ops.lt endV startV
  else if comparator = "greater_equals".toList then ops.le endV startV
  else if comparator = "smaller_than".toList then ops.lt startV endV
  else if comparator = "smaller_equals".toList then ops.le startV endV
  else false

def Indicator.isValid (is : InformationState D) (i : Indicator D) : Except Failure Bool :=
  catching false (bothValues chars ops i.abstractStartValue i.abstractEndValue is) fun values =>
    match values with
    | (none, _) => .error .runtime
    | (some startValue, endValue) =>
      match startValue.doubleValue ops, endValue with
      | none, _ => .ok false
      | some _, none => .error .runtime
      | some startV, some endValue =>
        match endValue.doubleValue ops with
        | none => .ok false
        | some endV =>
          catching false (Indicator.modify chars ops is i.indicatorCompares startV) fun startV =>
            .ok (Indicator.compareEnd ops i.comparator startV endV)

end

end Semaine.Dialogue
