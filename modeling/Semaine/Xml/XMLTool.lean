import Semaine.Xml.Dom

/-! `eu.semaine.util.XMLTool`: building documents, finding children, and the limited XPath
expressions that state information is written to and read from. An element of a document is
identified by its position among the children of its parent. -/
namespace Semaine.Xml
open JavaText

section
variable (dom : DOMImplementation)

def newDocument (rootTagname : Text) (namespaceURI : Option Text) : Except Thrown Document :=
  createElementNS dom namespaceURI rootTagname

def newDocumentWithVersion (rootTagname : Text) (namespaceURI : Option Text) (version : Text) :
    Except Thrown Document := do
  let doc ← newDocument dom rootTagname namespaceURI
  doc.setAttribute dom "version".toList version

/-- The child that `appendChildElement(node, childName)` appends: it has the namespace and the
prefix of the node. -/
def childElement (node : Element) (childName : Text) : Except Thrown Element := do
  let child ← createElementNS dom node.namespaceURI childName
  match node.nsPrefix with
  | some p => child.setPrefix dom (some p)
  | none => .ok child

/-- The child that `appendChildElement(node, childName, childNamespace)` appends. -/
def childElementNS (childName : Text) (childNamespace : Option Text) : Except Thrown Element :=
  createElementNS dom childNamespace childName

end

def isSameNamespace (namespaceA namespaceB : Option Text) : Bool := namespaceA = namespaceB

def getLocalName (t : Tag) : Text := t.localName

def getNodeName (t : Tag) : Text :=
  match t.nsPrefix with
  | some p => p ++ ':' :: t.localName
  | none => t.localName

/-- The first child element of the given name and namespace, at or after a position. The
namespace of each child with that name is compared by a call on it, which fails on null. -/
def getChildElement (nameOf : Tag → Text) (childName : Text) (childNamespace : Option Text) :
    List Node → Nat → Except Thrown (Option Nat)
  | [], _ => .ok none
  | .element tag _ :: rest, i =>
    if nameOf tag = childName then
      match tag.namespaceURI with
      | none => .error .nullPointer
      | some uri =>
        if some uri = childNamespace then .ok (some i)
        else getChildElement nameOf childName childNamespace rest (i + 1)
    else getChildElement nameOf childName childNamespace rest (i + 1)
  | _ :: rest, i => getChildElement nameOf childName childNamespace rest (i + 1)

/-- The matching child elements at or after a position, by a comparison that allows null. -/
def siblings (nameOf : Tag → Text) (childName : Text) (childNamespace : Option Text) :
    List Node → Nat → List Nat
  | [], _ => []
  | .element tag _ :: rest, i =>
    if isSameNamespace tag.namespaceURI childNamespace && nameOf tag = childName then
      i :: siblings nameOf childName childNamespace rest (i + 1)
    else siblings nameOf childName childNamespace rest (i + 1)
  | _ :: rest, i => siblings nameOf childName childNamespace rest (i + 1)

def getChildren (nameOf : Tag → Text) (node : Element) (childName : Text)
    (childNamespace : Option Text) : Except Thrown (List Nat) := do
  match ← getChildElement nameOf childName childNamespace node.children 0 with
  | none => return []
  | some i =>
    return i :: siblings nameOf childName childNamespace (node.children.drop (i + 1)) (i + 1)

def getChildElementByTagNameNS (node : Element) (childName : Text)
    (childNamespace : Option Text) : Except Thrown (Option Nat) :=
  getChildElement getNodeName childName childNamespace node.children 0

def getChildElementByLocalNameNS (node : Element) (childName : Text)
    (childNamespace : Option Text) : Except Thrown (Option Nat) :=
  getChildElement getLocalName childName childNamespace node.children 0

def getChildrenByTagNameNS (node : Element) (childName : Text) (childNamespace : Option Text) :
    Except Thrown (List Nat) :=
  getChildren getNodeName node childName childNamespace

def getChildrenByLocalNameNS (node : Element) (childName : Text) (childNamespace : Option Text) :
    Except Thrown (List Nat) :=
  getChildren getLocalName node childName childNamespace

structure PathPart where
  nsPrefix : Option Text
  localName : Text
  attName : Option Text := none
  attValue : Option Text := none
  deriving DecidableEq, Repr

inductive LastPart where
  | text
  | attribute (name : Text)
  deriving DecidableEq, Repr

structure XPath where
  parts : List PathPart
  last : LastPart
  deriving DecidableEq, Repr

/-- The attribute test in square brackets, and the position after the closing one. -/
def splitPredicate (expr : Text) (openSqB : Nat) :
    Except Thrown (Text × Option Text × Nat) := do
  let at' ← charAt expr (openSqB + 1)
  if at' ≠ '@' then
    throw (.illegalArgument
      ("Expected '@' character after '[' in XPath expression ".toList ++ expr))
  let equalPos := indexOf expr '=' openSqB
  let closeSqB := indexOf expr ']' openSqB
  match equalPos, closeSqB with
  | some equal, some close =>
    if equal < close ∧ 1 < units utf16Size ((expr.take close).drop (equal + 1)) then
      let attName ← substring expr (openSqB + 2) equal
      let unquoted : Thrown := .illegalArgument ("Attribute value for attribute '".toList ++
        attName ++ "' must be in single quotes, in XPath expression ".toList ++ expr)
      let first ← charAt expr (equal + 1)
      if first ≠ '\'' then throw unquoted
      let last ← charAt expr (close - 1)
      if last ≠ '\'' then throw unquoted
      let attValue ← substring expr (equal + 2) (close - 1)
      return (attName, some attValue, close + 1)
    else
      let attName ← substring expr (openSqB + 2) close
      return (attName, none, close + 1)
  | none, some close =>
    let attName ← substring expr (openSqB + 2) close
    return (attName, none, close + 1)
  | _, none => throw .stringIndexOutOfBounds

/-- The local name, with the attribute test if there is one before the slash, and the position
of the slash. -/
def splitLocalName (expr : Text) (nsPrefix : Option Text) (pos slash : Nat)
    (openSqB : Option Nat) : Except Thrown (PathPart × Nat) := do
  let plain : Except Thrown (PathPart × Nat) := do
    let localName ← substring expr pos slash
    return ({ nsPrefix := nsPrefix, localName := localName }, slash)
  match openSqB with
  | some bracket =>
    if bracket < slash then
      if bracket ≤ pos then
        throw (.illegalArgument
          ("Wrong square bracket location in XPath expression ".toList ++ expr))
      let localName ← substring expr pos bracket
      let (attName, attValue, next) ← splitPredicate expr bracket
      if expr[next]? ≠ some '/' then
        throw (.illegalArgument ("XPath expression seems malformed: no slash after closed square bracket: ".toList
          ++ expr))
      return ({ nsPrefix := nsPrefix, localName := localName, attName := some attName,
                attValue := attValue }, next)
    else plain
  | none => plain

/-- One turn of the loop: the part that starts at a position and the position of the next part,
or `none` when there is no further slash. -/
def splitPart (expr : Text) (pos : Nat) : Except Thrown (Option (PathPart × Nat)) := do
  match indexOf expr '/' pos with
  | none => return none
  | some slash =>
    let openSqB := indexOf expr '[' pos
    let (nsPrefix, start) ← match indexOf expr ':' pos with
      | some colon =>
        if colon < slash then do
          let nsPrefix ← substring expr pos colon
          pure (some nsPrefix, colon + 1)
        else pure (none, pos)
      | none => pure (none, pos)
    let (part, next) ← splitLocalName expr nsPrefix start slash openSqB
    if part.localName = [] then
      throw (.illegalArgument ("Found empty localname in expression: ".toList ++ expr))
    return some (part, next + 1)

/-- Every turn moves forward, so after as many turns as there are characters none is left. -/
def splitLoop (expr : Text) : Nat → Nat → List PathPart → Except Thrown (List PathPart × Nat)
  | 0, pos, parts => .ok (parts, pos)
  | turns + 1, pos, parts => do
    match ← splitPart expr pos with
    | none => return (parts, pos)
    | some (part, next) => splitLoop expr turns next (parts ++ [part])

def splitLastPart (expr : Text) (pos : Nat) : Except Thrown LastPart :=
  let unexpected : Thrown := .illegalArgument
    ("XPath expression is expected to contain as final part either 'text()' or '@attributeName': ".toList
      ++ expr)
  match expr.drop pos with
  | [] => .error unexpected
  | '@' :: attName => .ok (.attribute attName)
  | rest => if rest = "text()".toList then .ok .text else .error unexpected

def splitXPathIntoParts (expr : Text) : Except Thrown XPath := do
  if !startsWith expr ['/'] then
    throw (.illegalArgument ("XPath expression does not start with a slash: ".toList ++ expr))
  let (parts, pos) ← splitLoop expr expr.length 1 []
  let last ← splitLastPart expr pos
  return { parts := parts, last := last }

/-- `createNamespaceContext`: what is known about prefixes. -/
abbrev NamespaceContext := AList (fun _ : Text => Text)

def getNamespaceURI (context : NamespaceContext) (nsPrefix : Text) : Text :=
  match context.lookup nsPrefix with
  | some uri => uri
  | none => if nsPrefix = "xml".toList then xmlURI else []

def partNamespace (context : NamespaceContext) (part : PathPart) : Except Thrown (Option Text) :=
  match part.nsPrefix with
  | none => .ok none
  | some p =>
    if getNamespaceURI context p = [] then
      .error (.illegalArgument ("Unknown prefix: ".toList ++ p))
    else .ok (some (getNamespaceURI context p))

def passes (part : PathPart) (t : Tag) : Bool :=
  match part.attName with
  | none => true
  | some attName =>
    t.hasAttribute attName &&
      match part.attValue with
      | none => true
      | some attValue => attValue = t.getAttribute attName

/-- The child that `xpath2doc` descends to, if it exists already. -/
def existingChild (node : Element) (part : PathPart) (namespaceURI : Option Text) :
    Except Thrown (Option (Nat × Element)) := do
  let sameNameChildren ← getChildrenByLocalNameNS node part.localName namespaceURI
  let elements := sameNameChildren.filterMap
    (fun i => (node.children[i]?.bind Node.asElement).map (i, ·))
  return elements.find? (fun c => passes part c.2.toTag)

/-- What a change leaves: the changed element, and the exception that ended it, if any. -/
abbrev Changed := Element × Option Thrown

def Changed.of (before : Element) : Except Thrown Element → Changed
  | .ok after => (after, none)
  | .error e => (before, some e)

/-- Setting the prefix and the tested attribute of an element that was just appended. -/
def fitOut (dom : DOMImplementation) (part : PathPart) (child : Element) : Changed :=
  let prefixed := match part.nsPrefix with
    | some p => Changed.of child (child.setPrefix dom (some p))
    | none => (child, none)
  match prefixed, part.attName with
  | (child, none), some attName =>
    Changed.of child (child.setAttribute dom attName (part.attValue.getD []))
  | changed, _ => changed

/-- Descend from an element along the remaining parts, creating what does not exist, and set the
value at the end. What was created before an exception stays. -/
def descend (dom : DOMImplementation) (context : NamespaceContext) (last : LastPart)
    (value : Text) : List PathPart → Element → Changed
  | [], node =>
    match last with
    | .text => (node.setTextContent value, none)
    | .attribute attName => Changed.of node (node.setAttribute dom attName value)
  | part :: rest, node =>
    match partNamespace context part with
    | .error e => (node, some e)
    | .ok namespaceURI =>
      match existingChild node part namespaceURI with
      | .error e => (node, some e)
      | .ok (some (i, child)) =>
        let (changed, thrown) := descend dom context last value rest child
        ({ node with children := node.children.set i changed.toNode }, thrown)
      | .ok none =>
        match childElementNS dom part.localName namespaceURI with
        | .error e => (node, some e)
        | .ok child =>
          match fitOut dom part child with
          | (child, some e) => (node.appendChild child.toNode, some e)
          | (child, none) =>
            let (changed, thrown) := descend dom context last value rest child
            (node.appendChild changed.toNode, thrown)

def newRoot (dom : DOMImplementation) (part : PathPart) (namespaceURI : Option Text) :
    Except Thrown Element :=
  match newDocument dom part.localName namespaceURI with
  | .error _ => .error (.illegalArgument ("Cannot create document for localname '".toList ++
      part.localName ++ "' and namespaceURI '".toList ++ namespaceURI.getD "null".toList ++ "'".toList))
  | .ok root => root.setPrefix dom part.nsPrefix

def checkRoot (root : Element) (part : PathPart) (namespaceURI : Option Text) :
    Except Thrown Unit :=
  if root.localName ≠ part.localName then
    .error (.illegalArgument ("Incompatible root node specification: expression requests '".toList ++
      part.localName ++ "', but document already has '".toList ++ root.localName ++ "'!".toList))
  else if root.namespaceURI ≠ namespaceURI then
    .error (.illegalArgument
      ("Incompatible root namespace specification: expression requests '".toList ++
        namespaceURI.getD "null".toList ++ "', but document already has '".toList ++
        root.namespaceURI.getD "null".toList ++ "'!".toList))
  else .ok ()

/-- The given document after the call, and the document that is returned. A document that the
call created is lost when it fails. -/
def xpath2doc (dom : DOMImplementation) (xpathExpression : Text) (value : Option Text)
    (context : NamespaceContext) (document : Option Document) :
    Option Document × Except Thrown Document :=
  match splitXPathIntoParts xpathExpression with
  | .error e => (document, .error e)
  | .ok { parts := [], last := _ } => (document, .error (.illegalArgument
      ("No elements or no final part created from XPath expression '".toList ++ xpathExpression
        ++ "'".toList)))
  | .ok { parts := first :: rest, last := last } =>
    match partNamespace context first with
    | .error e => (document, .error e)
    | .ok namespaceURI =>
      match document with
      | none =>
        match newRoot dom first namespaceURI with
        | .error e => (none, .error e)
        | .ok root =>
          match descend dom context last (value.getD []) rest root with
          | (_, some e) => (none, .error e)
          | (root, none) => (none, .ok root)
      | some root =>
        match checkRoot root first namespaceURI with
        | .error e => (some root, .error e)
        | .ok () =>
          match descend dom context last (value.getD []) rest root with
          | (root, some e) => (some root, .error e)
          | (root, none) => (some root, .ok root)

/-- The name and namespace test and the attribute test of a location step. -/
def matchesPart (context : NamespaceContext) (part : PathPart) (t : Tag) : Bool :=
  t.localName = part.localName && t.namespaceURI = part.nsPrefix.map (getNamespaceURI context) &&
    passes part t

def Node.content : Node → Option Text
  | .text content => some content
  | _ => none

/-- The string values of the nodes that the remaining steps select, in document order. -/
def select (context : NamespaceContext) (last : LastPart) : List PathPart → Element → List Text
  | [], node =>
    match last with
    | .text => node.children.filterMap Node.content
    | .attribute attName => (node.getAttribute? attName).toList
  | part :: rest, node =>
    ((node.children.filterMap Node.asElement).filter (matchesPart context part ·.toTag)).flatMap
      (select context last rest)

def evaluate (context : NamespaceContext) (expr : XPath) (doc : Document) : Text :=
  match expr.parts with
  | [] => []
  | first :: rest =>
    if matchesPart context first doc.toTag then
      (select context expr.last rest doc).headD []
    else []

end Semaine.Xml
