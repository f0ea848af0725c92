import Semaine.Dialogue.InformationState

/-! `eu.semaine.components.dialogue.behaviourselection.template.value`: values that are written
in templates, either literally, as references to the information state, or as two of these with
an arithmetic sign. -/
namespace Semaine.Dialogue
open JavaText JavaFloat

/-- `new Value(item)` keeps the type and the value of an item. -/
abbrev Value (D : Type) := Item D

inductive Operator where
  | plus | minus | divide | times
  deriving DecidableEq, Repr

def Operator.sign : Operator → Char
  | plus => '+'
  | minus => '-'
  | divide => '/'
  | times => '*'

/-- One component, or two with an operator. A component has a value if it does not refer to the
information state. -/
inductive AbstractValue (D : Type) where
  | one (valueString : Text) (value : Option (Value D))
  | two (valueString : Text) (operator : Operator) (valueString2 : Text)
      (value2 : Option (Value D))

section
variable {D : Type} (chars : Characters) (ops : Arithmetic D)

structure Allowed where
  isInt : Bool
  isDouble : Bool
  isString : Bool

def isStringCharacter (c : Char) : Bool :=
  chars.isDigit c || chars.isLetter c || "_ .,!?#".toList.contains c

def Allowed.first (a : Allowed) (c : Char) : Allowed where
  isString := a.isString && (chars.isLetter c || "!?#".toList.contains c) &&
    isStringCharacter chars c
  isInt := a.isInt && (chars.isDigit c || c = '-')
  isDouble := a.isDouble && (chars.isDigit c || c = '.' || c = '-')

def Allowed.next (a : Allowed) (c : Char) : Allowed where
  isInt := a.isInt && chars.isDigit c
  isDouble := a.isDouble && (chars.isDigit c || c = '.')
  isString := a.isString && isStringCharacter chars c

def allowed (str : Text) : Allowed :=
  let start : Allowed := { isInt := true, isDouble := str.contains '.', isString := true }
  match str with
  | [] => start
  | c :: cs => cs.foldl (Allowed.next chars) (start.first chars c)

/-- `getStaticValue`; `none` is null, and a number that cannot be parsed is a
NumberFormatException. -/
def getStaticValue (str : Text) : Except Failure (Option (Value D)) :=
  if str = [] then .ok (some (.string []))
  else
    let str := trim str
    match allowed chars str with
    | { isInt := true, isDouble := false, isString := false } =>
      match chars.parseInt str with
      | some i => .ok (some (.integer i))
      | none => .error .runtime
    | { isInt := false, isDouble := true, isString := false } =>
      match ops.parseDouble str with
      | some d => .ok (some (.double d))
      | none => .error .runtime
    | { isInt := false, isDouble := false, isString := true } => .ok (some (.string str))
    | _ => .ok none

def operatorOf (valueString : Text) : Option Operator :=
  if valueString.contains '+' || (valueString.drop 1).contains '-' || valueString.contains '/' ||
      valueString.contains '*' then
    if valueString.contains '+' then some .plus
    else if valueString.contains '-' then some .minus
    else if valueString.contains '/' then some .divide
    else some .times
  else none

def withoutBlanks (s : Text) : Text := s.filter (· ≠ ' ')

/-- The constructor. With a sign but without a reference it ends in a NullPointerException,
because the second component is looked at before it is set. -/
def AbstractValue.new (valueString : Text) : Except Failure (AbstractValue D) := do
  match operatorOf valueString with
  | some operator =>
    if !valueString.contains '$' then throw .runtime
    let first := valueString.takeWhile (· ≠ operator.sign)
    let valueString2 := withoutBlanks ((valueString.dropWhile (· ≠ operator.sign)).drop 1)
    if valueString2.contains '$' then
      return .two (withoutBlanks first) operator valueString2 none
    else
      let value2 ← getStaticValue chars ops valueString2
      return .two (withoutBlanks first) operator valueString2 value2
  | none =>
    if valueString.contains '$' then return .one valueString none
    else
      let value ← getStaticValue chars ops valueString
      return .one valueString value

def isPathCharacter (c : Char) : Bool :=
  chars.isLetter c || chars.isDigit c || c = '_' || c = '.'

/-- A path, and whether the first unit of a pair follows it as its last one. -/
structure Reference where
  path : Text
  half : Bool
  deriving DecidableEq

/-- The path from the first `$` up to the last unit after it that cannot be in a path. If this
unit ends a pair, the other one stays in the path. -/
def referencedPath (str : Text) : Option Reference :=
  match str.dropWhile (· ≠ '$') with
  | [] => none
  | dollar :: rest =>
    if rest.all (isPathCharacter chars) then some ⟨dollar :: rest, false⟩
    else
      let ended := rest.rdropWhile (isPathCharacter chars)
      some ⟨dollar :: ended.dropLast, ended.getLast?.any (utf16Size · = 2)⟩

/-- No variable and no place of a list is called by half a pair, nor by the empty name, which
takes the place of a last name that ends so. -/
def Reference.readable (r : Reference) : Text :=
  if r.half then r.path.rdropWhile (· ≠ '.') else r.path

def getDynamicValue (str : Text) (is : InformationState D) : Except Failure (Option (Value D)) :=
  match referencedPath chars str with
  | none => .error .templateRun
  | some reference => is.getValueOfPath chars reference.readable

def Operator.calc : Operator → D → D → D
  | plus => ops.add
  | minus => ops.sub
  | times => ops.mul
  | divide => ops.div

/-- `calcValues`; values that do not fit together are a TemplateRunException in the end. -/
def calcValues (operator : Operator) : Value D → Value D → Except Failure (Value D)
  | .string a, .string b => .ok (.string (a ++ b))
  | .double a, .double b => .ok (.double (operator.calc ops a b))
  | .double a, .integer b => .ok (.double (operator.calc ops a (ops.ofInt b)))
  | .integer a, .double b => .ok (.double (operator.calc ops (ops.ofInt a) b))
  | .integer a, .integer b =>
    if operator = .divide then .ok (.double (ops.div (ops.ofInt a) (ops.ofInt b)))
    else .ok (.integer (ops.intValue (operator.calc ops (ops.ofInt a) (ops.ofInt b))))
  | _, _ => .error .templateRun

/-- `getValue`; `none` is null. Two components of which one is null end in a
NullPointerException. -/
def AbstractValue.getValue (is : InformationState D) :
    AbstractValue D → Except Failure (Option (Value D))
  | .one _ (some value) => .ok (some value)
  | .one valueString none => getDynamicValue chars valueString is
  | .two valueString operator valueString2 value2 => do
    let v1 ← getDynamicValue chars valueString is
    let v2 ← match value2 with
      | some value => pure (some value)
      | none => getDynamicValue chars valueString2 is
    match v1, v2 with
    | some v1, some v2 => (calcValues ops operator v1 v2).map some
    | _, _ => throw .runtime

end

end Semaine.Dialogue
