import Semaine.Library.JavaText

/-! `eu.semaine.components.dialogue.datastructures.Response`, and how the
`UtteranceActionProposer` picks a response and computes the hash that stands for it. -/
namespace Semaine.Dialogue
open JavaText

/-- Responses are compared by identity: `object` is the place in the response file, and a
combination of two responses has none. -/
structure Response where
  object : Option Nat := none
  id : Text
  response : Text
  argNames : List Text := []
  argValues : List Text := []
  deriving DecidableEq, Repr

def Response.combine (r1 r2 : Response) : Response where
  id := r1.id ++ r2.id
  response := r1.response ++ ' ' :: r2.response
  argNames := r1.argNames ++ r2.argNames
  argValues := r1.argValues ++ r2.argValues

def Response.same (r1 r2 : Response) : Bool := r1.object.isSome && r1.object = r2.object

/-- `history.lastIndexOf(r)`, with `none` for -1. -/
def lastIndexOf (history : List Response) (r : Response) : Option Nat :=
  (history.reverse.findIdx? (r.same ·)).map (history.length - 1 - ·)

instance neZero_three : NeZero 3 := ⟨Nat.succ_ne_zero 2⟩

structure PastResponses where
  pastResponses : Fin 3 → Option Response := fun _ => none
  lastIndex : Fin 3 → Int := fun _ => 9999
  minIndex : Int := 9999
  minIndexPlace : Fin 3 := 0

def PastResponses.consider (history : List Response) (p : PastResponses) (r : Response) :
    PastResponses :=
  let i : Int := match lastIndexOf history r with
    | some k => k
    | none => -1
  if i < p.minIndex then
    let lastIndex := Function.update p.lastIndex p.minIndexPlace i
    let minIndex := max (lastIndex 0) (max (lastIndex 1) (lastIndex 2))
    let place := if lastIndex 0 = minIndex then 0 else p.minIndexPlace
    let place := if lastIndex 1 = minIndex then 1 else place
    let place := if lastIndex 2 = minIndex then 2 else place
    { pastResponses := Function.update p.pastResponses p.minIndexPlace (some r)
      lastIndex := lastIndex
      minIndex := minIndex
      minIndexPlace := place }
  else p

/-- A random number below a bound; the draw is what the generator yields. -/
def nextInt (draw bound : Nat) : Nat := draw % bound

def getResponseFromGroup (responseGroups : AList (fun _ : Text => List Response))
    (history : List Response) (draw : Nat) (group : Text) : Option Response := do
  let responses ← responseGroups.lookup group
  let nonUsedResponses := responses.filter (fun r => !history.any (r.same ·))
  if nonUsedResponses.length > 0 then
    nonUsedResponses[nextInt draw nonUsedResponses.length]?
  else
    let past := (responses.foldl (PastResponses.consider history) {}).pastResponses
    if (past 0).isSome && (past 1).isSome && (past 2).isSome then
      past (Fin.ofNat 3 (nextInt draw 3))
    else if (past 0).isSome && (past 1).isSome then
      past (Fin.ofNat 3 (nextInt draw 2))
    else past 0

def argument (argNames argValues : List Text) (name : Text) : Option (Except Thrown Text) :=
  (argNames.findIdx? (· = name)).map fun i =>
    match argValues[i]? with
    | some v => .ok v
    | none => .error .indexOutOfBounds

/-- The table of responses and the groups, as read from the response file. -/
structure ResponseTable where
  responses : AList (fun _ : Text => Response)
  responseGroups : AList (fun _ : Text => List Response)

def ResponseTable.find (table : ResponseTable) (history : List Response) (draw : Nat)
    (name : Text) : Option Response :=
  match table.responses.lookup name with
  | some r => some r
  | none => getResponseFromGroup table.responseGroups history draw name

/-- `getResponse`; each of the two lookups has a draw of its own. -/
def getResponse (table : ResponseTable) (history : List Response) (draws : Nat × Nat)
    (argNames argValues : List Text) : Except Thrown (Option Response) :=
  match argument argNames argValues "response".toList with
  | none => .ok none
  | some value => do
    match table.find history draws.1 (← value) with
    | none => return none
    | some response =>
      match argument argNames argValues "response2".toList with
      | none => return some response
      | some value2 =>
        match table.find history draws.2 (← value2) with
        | none => return some response
        | some response2 => return some (response.combine response2)

/-- The UTF-16 units that `String.compareTo` compares. -/
def utf16 (s : Text) : List Nat :=
  s.flatMap fun c =>
    if c.toNat < 0x10000 then [c.toNat]
    else [0xD800 + (c.toNat - 0x10000) / 0x400, 0xDC00 + (c.toNat - 0x10000) % 0x400]

def compareTo (s t : Text) : Prop := utf16 s ≤ utf16 t

instance : DecidableRel compareTo := fun s t => inferInstanceAs (Decidable (utf16 s ≤ utf16 t))

/-- `Collections.sort` on strings. Strings that compare equal are equal, so the result does not
depend on how it is sorted. -/
def sort (ss : List Text) : List Text := ss.insertionSort compareTo

/-- The response arguments, which `createHash` leaves out. -/
def responseArguments : List Text → List Text → Except Thrown (List (Text × Text))
  | [], _ => .ok []
  | name :: names, [] =>
    if startsWith name "response".toList then .error .indexOutOfBounds
    else responseArguments names []
  | name :: names, value :: values => do
    let rest ← responseArguments names values
    return if startsWith name "response".toList then (name, value) :: rest else rest

/-- `createHash`: the names and the values without those of the response arguments are sorted
each for itself and appended to the text. -/
def createHash (r : Response) (argNames argValues : List Text) : Except Thrown Text := do
  let removed ← responseArguments argNames argValues
  let argNamesCopy := (removed.map Prod.fst).foldl List.erase (sort argNames)
  let argValuesCopy := (removed.map Prod.snd).foldl List.erase (sort argValues)
  return r.response ++ argNamesCopy.flatten ++ argValuesCopy.flatten

end Semaine.Dialogue
