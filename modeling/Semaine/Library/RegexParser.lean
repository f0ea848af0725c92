import Semaine.Library.RegexWords

/-! The texts that `Pattern.compile` reads as regular expressions, as far as the models use them:
groups, alternatives, classes without ranges, `*`, `+` and `{0,n}` for a digit. -/
namespace JavaText
namespace Regex

def upTo (r : Regex) : Nat → Regex
  | 0 => empty
  | n + 1 => alt (seq r (upTo r n)) empty

/-- An open group: the alternatives before, and the parts of the last one from right to left. -/
structure Group where
  alternatives : List Regex := []
  parts : List Regex := []
  deriving DecidableEq

namespace Group

def add (r : Regex) (g : Group) : Group := { g with parts := r :: g.parts }

def branch (g : Group) : Group :=
  { alternatives := g.alternatives ++ [sequence g.parts.reverse], parts := [] }

def alternation : List Regex → Regex → Regex
  | [], last => last
  | r :: rs, last => alt r (alternation rs last)

def close (g : Group) : Regex := alternation g.alternatives (sequence g.parts.reverse)

def quantify (f : Regex → Regex) (g : Group) : Option Group :=
  match g.parts with
  | r :: parts => some { g with parts := f r :: parts }
  | [] => none

end Group

inductive Mode where
  | group
  | escape
  | charClass (cs : List Char)
  | bounds (cs : List Char)
  deriving DecidableEq

structure Parsing where
  inner : Group := {}
  outer : List Group := []
  mode : Mode := .group
  deriving DecidableEq

namespace Parsing

def add (r : Regex) (p : Parsing) : Parsing := { p with inner := p.inner.add r, mode := .group }

def quantify (f : Regex → Regex) (p : Parsing) : Option Parsing :=
  (p.inner.quantify f).map fun g => { p with inner := g, mode := .group }

def isPlain (c : Char) : Bool := 'a'.toNat ≤ c.toNat && c.toNat ≤ 'z'.toNat || c = ' '

def special (p : Parsing) (c : Char) : Option Parsing :=
  match c with
  | '(' => some { p with inner := {}, outer := p.inner :: p.outer }
  | ')' =>
    match p.outer with
    | g :: outer => some { p with inner := g.add p.inner.close, outer := outer }
    | [] => none
  | '|' => some { p with inner := p.inner.branch }
  | '*' => p.quantify star
  | '+' => p.quantify fun r => seq r (star r)
  | '.' => some (p.add (char .any))
  | '^' => some (p.add start)
  | '[' => some { p with mode := .charClass [] }
  | '\x7b' => some { p with mode := .bounds [] }
  | '\\' => some { p with mode := .escape }
  | c => if hasMeaning c then none else some (p.add (char (.oneOf [c])))

def step (p : Parsing) (c : Char) : Option Parsing :=
  match p.mode with
  | .group => if isPlain c then some (p.add (char (.oneOf [c]))) else p.special c
  | .escape =>
    if c = 'S' then some (p.add (char .visible))
    else if c = 's' then some (p.add (char .space))
    else if hasMeaning c then some (p.add (char (.oneOf [c])))
    else none
  | .charClass cs =>
    if c = ']' then some (p.add (char (.oneOf cs)))
    else if hasMeaning c || c = '-' || c = '&' then none
    else some { p with mode := .charClass (cs ++ [c]) }
  | .bounds cs =>
    if c = '\x7d' then
      match cs with
      | ['0', ',', d] => if d.isDigit then p.quantify (upTo · (d.toNat - '0'.toNat)) else none
      | _ => none
    else some { p with mode := .bounds (cs ++ [c]) }

def finish (p : Parsing) : Option Regex :=
  match p.outer, p.mode with
  | [], .group => some p.inner.close
  | _, _ => none

def scan (p : Parsing) (s : Text) : Option Parsing := s.foldlM step p

end Parsing

def parse (pattern : Text) : Option Regex := ((({} : Parsing).scan pattern)).bind Parsing.finish

example : parse "a(b|.)*".toList =
    some (seq (char (.oneOf ['a'])) (star (alt (char (.oneOf ['b'])) (char .any)))) := by
  decide +kernel

namespace Parsing

def addAll (rs : List Regex) (p : Parsing) : Parsing :=
  { p with inner := { p.inner with parts := rs.reverse ++ p.inner.parts } }

theorem step_literal {c : Char} (literal : hasMeaning c = false) {p : Parsing}
    (inGroup : p.mode = .group) : p.step c = some (p.add (char (.oneOf [c]))) := by
  unfold step
  rw [inGroup]
  simp only
  split
  · rfl
  · unfold special
    split
    all_goals first
      | exact absurd literal (by decide)
      | rw [literal, if_neg Bool.false_ne_true]

theorem scan_word {w : Text} (literal : IsLiteral w) {p : Parsing} (inGroup : p.mode = .group) :
    p.scan w = some (p.addAll (letters w)) := by
  induction w generalizing p with
  | nil => rfl
  | cons c w ih =>
    obtain ⟨first, literal⟩ := List.forall_mem_cons.mp literal
    have later := ih literal (p := p.add (char (.oneOf [c]))) rfl
    unfold scan at later ⊢
    rw [List.foldlM_cons, step_literal first inGroup]
    change (w.foldlM step (p.add (char (.oneOf [c])))) = _
    rw [later]
    unfold addAll add Group.add letters
    simp only [List.map_cons, List.reverse_cons, List.append_assoc, List.singleton_append, inGroup]

theorem scan_append (p : Parsing) (s t : Text) :
    p.scan (s ++ t) = (p.scan s).bind fun p => p.scan t := List.foldlM_append

end Parsing

theorem parse_word {w start : Text} (literal : IsLiteral w) {front : List Regex}
    (opens : ({} : Parsing).scan start = some (({} : Parsing).addAll front)) :
    parse (start ++ w) = some (sequence (front ++ letters w)) ∧
      parse (start ++ w ++ ".*".toList) = some (sequence (front ++ letters w ++ [dots])) := by
  have inside : ({} : Parsing).scan (start ++ w) =
      some ((({} : Parsing).addAll front).addAll (letters w)) := by
    rw [Parsing.scan_append, opens]
    exact Parsing.scan_word literal rfl
  constructor
  · unfold parse
    rw [inside]
    change some (sequence ((letters w).reverse ++ (front.reverse ++ [])).reverse) = _
    simp
  · unfold parse
    rw [Parsing.scan_append, inside]
    change some (sequence (dots :: ((letters w).reverse ++ (front.reverse ++ []))).reverse) = _
    simp

end Regex
end JavaText
