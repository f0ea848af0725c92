import Semaine.StateInfo.StateInfo
import Semaine.Xml.PathAgreement

/-! How a section of the configuration is read: by `StateInfo.getXPathExpressions` in Java, with
the expressions compiled by the JDK, and by `semaine/datatypes/stateinfo/StateInfo.cpp`. -/
namespace Semaine.StateInfo
open JavaText Semaine.Xml

namespace Java

/-- A SystemConfigurationException or what else gets through, or an Error. -/
inductive Refusal where
  | failure (f : Failure)
  | error (message : Text)

structure XPathInfoMapper (Compiled : Type) where
  namespaceContext : NamespaceContext
  name2exprString : List (Text × Text)
  name2compiledExpression : List (Text × Compiled)

section
variable {Compiled : Type} (compile : NamespaceContext → Text → Option Compiled)

/-- The entry of one short name. `xpath.compile` is given, with `none` for an
XPathExpressionException. -/
def compileEntry (namespaceContext : NamespaceContext) (entry : Text × Text) :
    Except Refusal (Text × Compiled) :=
  match compile namespaceContext entry.2 with
  | some xpathExpr => .ok (entry.1, xpathExpr)
  | none => .error (.error ("Cannot compile XPath expression for shortname ".toList ++ entry.1 ++
      ": '".toList ++ entry.2 ++ "'".toList))

def XPathInfoMapper.new (prefixes2NamespaceURIs : NamespaceContext)
    (names2XpathExpressions : List (Text × Text)) : Except Refusal (XPathInfoMapper Compiled) := do
  let s2x ← names2XpathExpressions.mapM (compileEntry compile prefixes2NamespaceURIs)
  return {
    namespaceContext := prefixes2NamespaceURIs
    name2exprString := names2XpathExpressions
    name2compiledExpression := s2x }

def getXPathExpressions (typeForTable : StateType) (configSection : List Text) :
    Except Refusal (XPathInfoMapper Compiled) :=
  match configSection.foldlM (Reading.readLine typeForTable) {} with
  | .error f => .error (.failure f)
  | .ok r => XPathInfoMapper.new compile r.namespacePrefixes r.shortNames

end

end Java

namespace Cpp

def delims (c : Char) : Bool := c = '\t' || c = ' ' || c = '=' || c = ':'

def findFirstOf (line : Text) : Option Nat := line.findIdx? delims

/-- `line.find_first_not_of(delims, pos)`, where nothing is found from `npos` on. -/
def findFirstNotOf (line : Text) (pos : Option Nat) : Option Nat :=
  pos.bind fun pos => ((line.drop pos).findIdx? (fun c => !delims c)).map (pos + ·)

abbrev StringMap := AList (fun _ : Text => Text)

structure XPathInfoMapper where
  namespaceContext : StringMap
  names2exprString : StringMap

/-- What `getXPathExpressions` has read. -/
structure Reading where
  readNamespacePrefixes : Bool := false
  readShortNames : Bool := false
  namespacePrefixes : StringMap := ∅
  shortNames : StringMap := ∅
  expr2shortname : StringMap := ∅

def Reading.addShortName (type : StateType) (r : Reading) (shortName xpathExpr : Text) :
    Except Text Reading :=
  if (r.shortNames.lookup shortName).isSome then
    .error ("In section ".toList ++ type.toText ++ ", short name '".toList ++ shortName ++
      "' occurs more than once".toList)
  else
    match r.expr2shortname.lookup xpathExpr with
    | some other =>
      .error ("In section ".toList ++ type.toText ++ ", short names '".toList ++ shortName ++
        "' and '".toList ++ other ++ "' have the same XPath expression".toList)
    | none =>
      .ok { r with
        shortNames := r.shortNames.insert shortName xpathExpr
        expr2shortname := r.expr2shortname.insert xpathExpr shortName }

/-- One line, with as many turns for the splitter; `none` if that has not ended by then. -/
def Reading.readLine (turns : Nat) (type : StateType) (r : Reading) (line : Text) :
    Option (Except Text Reading) :=
  if line = "[namespace prefixes]".toList then
    some (.ok { r with readNamespacePrefixes := true })
  else if line = "[short names]".toList then
    if r.namespacePrefixes.keys.isEmpty then
      some (.error "Namespace prefixes must be defined before short names".toList)
    else some (.ok { r with readShortNames := true, readNamespacePrefixes := false })
  else if r.readNamespacePrefixes then
    match findFirstOf line, findFirstNotOf line (findFirstOf line) with
    | some sepStart, some secondStart =>
      some (.ok { r with
        namespacePrefixes :=
          r.namespacePrefixes.insert (line.take sepStart) (line.drop secondStart) })
    | _, _ => some (.error ("Expected namespace prefix definition, got '".toList ++ line ++
        "'".toList))
  else if r.readShortNames then
    match findFirstOf line, findFirstNotOf line (findFirstOf line) with
    | some sepStart, some secondStart =>
      match Xml.Cpp.splitXPathIntoParts turns (line.drop secondStart) with
      | none => none
      | some (.error message) => some (.error message)
      | some (.ok _) => some (r.addShortName type (line.take sepStart) (line.drop secondStart))
    | _, _ => some (.error ("Expected short name to XPath definition, got '".toList ++ line ++
        "'".toList))
  else some (.ok r)

def Reading.readLines (turns : Nat) (type : StateType) :
    List Text → Reading → Option (Except Text Reading)
  | [], r => some (.ok r)
  | line :: rest, r =>
    match r.readLine turns type line with
    | none => none
    | some (.error message) => some (.error message)
    | some (.ok r) => readLines turns type rest r

def getXPathExpressions (turns : Nat) (type : StateType) (configSection : List Text) :
    Option (Except Text XPathInfoMapper) :=
  (Reading.readLines turns type configSection {}).map fun result =>
    result.map fun r =>
      { namespaceContext := r.namespacePrefixes, names2exprString := r.shortNames }

def Returns (type : StateType) (configSection : List Text)
    (result : Except Text XPathInfoMapper) : Prop :=
  ∃ turns, getXPathExpressions turns type configSection = some result

end Cpp

end Semaine.StateInfo
