import Semaine.Xml.XMLTool

/-! `splitXPathIntoParts` of `semaine/datatypes/stateinfo/StateInfo.cpp`. Strings are read as
UTF-8; the message of the SystemConfigurationException stands for it. -/
namespace Semaine.Xml.Cpp
open JavaText

/-- `s.find(c, pos)` as an `int`, which is -1 for `npos`. -/
def find (s : Text) (c : Char) (pos : Int) : Int :=
  match indexOf s c pos.toNat with
  | some i => i
  | none => -1

/-- `s.substr(pos, count)`; a negative count is a huge one. -/
def substr (s : Text) (pos count : Int) : Text :=
  if count < 0 then s.drop pos.toNat else (s.drop pos.toNat).take count.toNat

/-- `s[pos]`, which is a null character at the end. -/
def at_ (s : Text) (pos : Int) : Char := (s[pos.toNat]?).getD '\x00'

/-- `first + 2 < second` for positions in bytes, where the first is that of an ASCII character. -/
def moreThanOneByte (s : Text) (first second : Int) : Bool :=
  first < second && 1 < units Char.utf8Size ((s.take second.toNat).drop (first.toNat + 1))

/-- The name and the value of the attribute in square brackets, and the position of the slash
after them. -/
def splitPredicate (expr : Text) (nextOpenSqB : Int) : Except Text (Text × Text × Int) := do
  if at_ expr (nextOpenSqB + 1) ≠ '@' then
    throw ("Expected '@' character after '[' in XPath expression ".toList ++ expr)
  let equalPos := find expr '=' nextOpenSqB
  let nextCloseSqB := find expr ']' nextOpenSqB
  let nextSlashPos := nextCloseSqB + 1
  let malformed :=
    "XPath expression seems malformed: no slash after closed square bracket: ".toList ++ expr
  if equalPos ≠ -1 ∧ moreThanOneByte expr equalPos nextCloseSqB then
    let attName := substr expr (nextOpenSqB + 2) (equalPos - (nextOpenSqB + 2))
    if at_ expr (equalPos + 1) ≠ '\'' ∨ at_ expr (nextCloseSqB - 1) ≠ '\'' then
      throw ("Attribute value for attribute '".toList ++ attName ++
        "' must be in single quotes, in XPath expression ".toList ++ expr)
    let attValue := substr expr (equalPos + 2) (nextCloseSqB - 1 - (equalPos + 2))
    if nextSlashPos ≥ expr.length ∨ at_ expr nextSlashPos ≠ '/' then throw malformed
    return (attName, attValue, nextSlashPos)
  else
    let attName := substr expr (nextOpenSqB + 2) (nextCloseSqB - (nextOpenSqB + 2))
    if nextSlashPos ≥ expr.length ∨ at_ expr nextSlashPos ≠ '/' then throw malformed
    return (attName, [], nextSlashPos)

/-- One turn of the loop: the part that starts at a position and the position of the next one,
or `none` when there is no further slash. -/
def splitPart (expr : Text) (pos : Int) : Except Text (Option (List Text × Int)) := do
  let nextColonPos := find expr ':' pos
  let nextSlashPos := find expr '/' pos
  let nextOpenSqB := find expr '[' pos
  if nextSlashPos = -1 then return none
  let detach := nextColonPos ≠ -1 ∧ nextColonPos < nextSlashPos
  let nsPrefix := if detach then substr expr pos (nextColonPos - pos) else []
  let pos := if detach then nextColonPos + 1 else pos
  if nextOpenSqB ≠ -1 ∧ nextOpenSqB < nextSlashPos then
    if nextOpenSqB ≤ pos then
      throw ("Wrong square bracket location in XPath expression ".toList ++ expr)
    let localname := substr expr pos (nextOpenSqB - pos)
    let (attName, attValue, nextSlashPos) ← splitPredicate expr nextOpenSqB
    return some ([nsPrefix, localname, attName, attValue], nextSlashPos + 1)
  else
    let localname := substr expr pos (nextSlashPos - pos)
    return some ([nsPrefix, localname, [], []], nextSlashPos + 1)

/-- The loop, for at most the given number of turns; `none` if it has not ended by then. -/
def splitLoop (expr : Text) :
    Nat → Int → List (List Text) → Option (Except Text (List (List Text) × Int))
  | 0, _, _ => none
  | turns + 1, pos, parts =>
    match splitPart expr pos with
    | .error message => some (.error message)
    | .ok none => some (.ok (parts, pos))
    | .ok (some (part, next)) => splitLoop expr turns next (parts ++ [part])

def splitLastPart (expr : Text) (pos : Int) : Except Text (List Text) :=
  let unexpected :=
    "XPath expression is expected to contain as final part either 'text()' or '@attributeName': ".toList
      ++ expr
  if pos ≥ expr.length then .error unexpected
  else if at_ expr pos = '@' then .ok [expr.drop (pos + 1).toNat]
  else if expr.drop pos.toNat = "text()".toList then .ok []
  else .error unexpected

/-- `none` if the loop has not ended after the given number of turns. -/
def splitXPathIntoParts (turns : Nat) (expr : Text) : Option (Except Text (List (List Text))) :=
  if at_ expr 0 ≠ '/' then
    some (.error ("XPath expression does not start with a slash: ".toList ++ expr))
  else
    (splitLoop expr turns 1 []).map fun result => do
      let (parts, pos) ← result
      let last ← splitLastPart expr pos
      return parts ++ [last]

end Semaine.Xml.Cpp
