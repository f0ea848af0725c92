import Semaine.Library.Outcome
import Semaine.Xml.CppPathShape

/-! When the XPath splitters in Java and in C++ agree on an expression. Both walk through the same
parts; they differ in which of them they refuse, and in what brackets that are not closed lead
to. -/
namespace Semaine.Xml
open JavaText

/-- How a walk through an expression ends: before the last part, at something that is not a part,
or at brackets that are not closed. -/
inductive Ending where
  | last (pos : Nat)
  | malformed
  | unclosed
  deriving DecidableEq

/-- The parts from a position on, each with whether its attribute test is foreign. -/
def scan (expr : Text) : Nat → Nat → List (PathPart × Bool) × Ending
  | 0, pos => ([], .last pos)
  | turns + 1, pos =>
    match shapeAt expr pos with
    | .stop => ([], .last pos)
    | .malformed => ([], .malformed)
    | .unclosed => ([], .unclosed)
    | .part part foreign next =>
      ((part, foreign) :: (scan expr turns next).1, (scan expr turns next).2)

def parts (expr : Text) : List (PathPart × Bool) := (scan expr expr.length 1).1

def ending (expr : Text) : Ending := (scan expr expr.length 1).2

theorem testAt_closed {expr : Text} {openSqB slash : Nat} {attName : Text}
    {attValue : Option Text} {foreign : Bool}
    (closed : testAt expr openSqB = .closed attName attValue foreign slash) :
    openSqB < slash ∧ slash < expr.length := by
  unfold testAt at closed
  split at closed
  · cases closed
  · cases found : indexOf expr ']' openSqB with
    | none =>
      rw [found] at closed
      cases closed
    | some closeSqB =>
      have after := (indexOf_spec found).1
      rw [found] at closed
      dsimp only at closed
      split at closed
      · cases closed
      · rename_i isSlash
        have inside := (List.getElem?_eq_some_iff.mp (not_not.mp isSlash)).1
        split at closed
        · cases closed
        · cases closed
          omega
        · cases closed
          omega

theorem partAt_part {expr : Text} {nsPrefix : Option Text} {start slash next : Nat}
    {openSqB : Option Nat} {part : PathPart} {foreign : Bool}
    (ordered : start ≤ slash) (inside : slash < expr.length)
    (shape : partAt expr nsPrefix start slash openSqB = .part part foreign next) :
    start < next ∧ next ≤ expr.length := by
  unfold partAt at shape
  cases openSqB with
  | none =>
    cases shape
    omega
  | some openSqB =>
    dsimp only at shape
    split at shape
    · split at shape
      · cases shape
      · cases test : testAt expr openSqB with
        | malformed =>
          rw [test] at shape
          cases shape
        | unclosed =>
          rw [test] at shape
          cases shape
        | closed attName attValue foreign slash =>
          obtain ⟨after, inside⟩ := testAt_closed test
          rw [test] at shape
          cases shape
          omega
    · cases shape
      omega

theorem shapeAt_part {expr : Text} {pos next : Nat} {part : PathPart} {foreign : Bool}
    (shape : shapeAt expr pos = .part part foreign next) : pos < next ∧ next ≤ expr.length := by
  unfold shapeAt at shape
  cases found : indexOf expr '/' pos with
  | none =>
    rw [found] at shape
    cases shape
  | some slash =>
    rw [found] at shape
    obtain ⟨after, ordered⟩ := prefixAt_start found
    obtain ⟨forward, inside⟩ := partAt_part ordered (indexOf_lt found) shape
    omega

theorem shapeAt_end {expr : Text} {pos : Nat} (beyond : expr.length ≤ pos) :
    shapeAt expr pos = .stop := by
  unfold shapeAt
  cases found : indexOf expr '/' pos with
  | none => rfl
  | some slash =>
    have inside := indexOf_lt found
    have after := (indexOf_spec found).1
    omega

theorem splitPart_shape {expr : Text} {pos : Nat} {shape : Shape}
    (here : shapeAt expr pos = shape) : (splitPart expr pos).toOption = shape.java := by
  rw [← here]
  exact splitPart_java expr pos

theorem splitLoop_refuses {expr : Text} {turns pos : Nat} (done : List PathPart)
    (refused : (∃ p ∈ (scan expr turns pos).1, p.1.localName = []) ∨
      ∀ stop, (scan expr turns pos).2 ≠ .last stop) :
    ∃ e, splitLoop expr turns pos done = .error e := by
  induction turns generalizing pos done with
  | zero =>
    obtain ⟨p, none, _⟩ | other := refused
    · cases none
    · exact absurd rfl (other pos)
  | succ turns ih =>
    unfold scan at refused
    unfold splitLoop
    cases shape : shapeAt expr pos with
    | stop =>
      rw [shape] at refused
      obtain ⟨p, none, _⟩ | other := refused
      · cases none
      · exact absurd rfl (other pos)
    | malformed =>
      obtain ⟨e, thrown⟩ := Outcome.error_of_toOption (splitPart_shape shape)
      rw [thrown]
      exact ⟨e, rfl⟩
    | unclosed =>
      obtain ⟨e, thrown⟩ := Outcome.error_of_toOption (splitPart_shape shape)
      rw [thrown]
      exact ⟨e, rfl⟩
    | part part foreign next =>
      have turn := splitPart_shape shape
      unfold Shape.java at turn
      dsimp only at turn
      by_cases empty : part.localName = []
      · rw [if_pos empty] at turn
        obtain ⟨e, thrown⟩ := Outcome.error_of_toOption turn
        rw [thrown]
        exact ⟨e, rfl⟩
      · rw [if_neg empty] at turn
        rw [Outcome.ok_of_toOption turn]
        rw [shape] at refused
        apply ih
        obtain ⟨p, isPart, unnamed⟩ | other := refused
        · obtain isFirst | later := List.mem_cons.mp isPart
          · rw [isFirst] at unnamed
            exact absurd unnamed empty
          · exact Or.inl ⟨p, later, unnamed⟩
        · exact Or.inr other

theorem splitLoop_accepts {expr : Text} {turns pos stop : Nat} (done : List PathPart)
    (named : ∀ p ∈ (scan expr turns pos).1, p.1.localName ≠ [])
    (ended : (scan expr turns pos).2 = .last stop) :
    splitLoop expr turns pos done = .ok (done ++ (scan expr turns pos).1.map Prod.fst, stop) := by
  induction turns generalizing pos done with
  | zero =>
    cases ended
    exact congrArg (fun parts => Except.ok (parts, stop)) (List.append_nil done).symm
  | succ turns ih =>
    unfold scan at named ended ⊢
    unfold splitLoop
    cases shape : shapeAt expr pos with
    | stop =>
      rw [shape] at ended
      cases ended
      rw [Outcome.ok_of_toOption (splitPart_shape shape)]
      exact congrArg (fun parts => Except.ok (parts, stop)) (List.append_nil done).symm
    | malformed =>
      rw [shape] at ended
      cases ended
    | unclosed =>
      rw [shape] at ended
      cases ended
    | part part foreign next =>
      rw [shape] at named ended
      rw [List.forall_mem_cons] at named
      have turn := splitPart_shape shape
      unfold Shape.java at turn
      dsimp only at turn
      rw [if_neg named.1] at turn
      rw [Outcome.ok_of_toOption turn]
      have rest := ih (done ++ [part]) named.2 ended
      rw [List.append_assoc] at rest
      exact rest

theorem Cpp.splitPart_shape {expr : Text} {pos : Nat} {shape : Shape}
    (here : shapeAt expr pos = shape) (closes : shape ≠ .unclosed) :
    (Cpp.splitPart expr pos).toOption = shape.cpp := by
  rw [← here] at closes ⊢
  exact Cpp.splitPart_cpp closes

theorem Cpp.splitLoop_refuses {expr : Text} {turns pos : Nat} (done : List (List Text))
    (refused : (∃ p ∈ (scan expr turns pos).1, p.2 = true) ∨
      (scan expr turns pos).2 = .malformed) :
    ∃ message, Cpp.splitLoop expr turns pos done = some (.error message) := by
  induction turns generalizing pos done with
  | zero =>
    obtain ⟨p, none, _⟩ | other := refused
    · cases none
    · cases other
  | succ turns ih =>
    unfold scan at refused
    unfold Cpp.splitLoop
    cases shape : shapeAt expr pos with
    | stop =>
      rw [shape] at refused
      obtain ⟨p, none, _⟩ | other := refused
      · cases none
      · cases other
    | malformed =>
      obtain ⟨e, thrown⟩ := Outcome.error_of_toOption (Cpp.splitPart_shape shape nofun)
      rw [thrown]
      exact ⟨e, rfl⟩
    | unclosed =>
      rw [shape] at refused
      obtain ⟨p, none, _⟩ | other := refused
      · cases none
      · cases other
    | part part foreign next =>
      have turn := Cpp.splitPart_shape shape nofun
      cases foreign with
      | true =>
        obtain ⟨e, thrown⟩ := Outcome.error_of_toOption turn
        rw [thrown]
        exact ⟨e, rfl⟩
      | false =>
        rw [Outcome.ok_of_toOption turn]
        rw [shape] at refused
        apply ih
        obtain ⟨p, isPart, isForeign⟩ | other := refused
        · obtain isFirst | later := List.mem_cons.mp isPart
          · rw [isFirst] at isForeign
            cases isForeign
          · exact Or.inl ⟨p, later, isForeign⟩
        · exact Or.inr other

theorem Cpp.splitLoop_accepts {expr : Text} {turns pos stop : Nat} (done : List (List Text))
    (enough : expr.length - pos ≤ turns)
    (noneForeign : ∀ p ∈ (scan expr turns pos).1, p.2 = false)
    (ended : (scan expr turns pos).2 = .last stop) :
    Cpp.splitLoop expr (turns + 1) pos done =
      some (.ok (done ++ (scan expr turns pos).1.map fun p => p.1.texts, (stop : Int))) := by
  induction turns generalizing pos done with
  | zero =>
    cases ended
    have shape := shapeAt_end (by omega : expr.length ≤ stop)
    unfold Cpp.splitLoop
    rw [Outcome.ok_of_toOption (Cpp.splitPart_shape shape nofun)]
    exact congrArg (fun parts => some (Except.ok (parts, (stop : Int)))) (List.append_nil done).symm
  | succ turns ih =>
    unfold scan at noneForeign ended ⊢
    rw [Cpp.splitLoop]
    cases shape : shapeAt expr pos with
    | stop =>
      rw [shape] at ended
      cases ended
      rw [Outcome.ok_of_toOption (Cpp.splitPart_shape shape nofun)]
      exact congrArg (fun parts => some (Except.ok (parts, (stop : Int)))) (List.append_nil done).symm
    | malformed =>
      rw [shape] at ended
      cases ended
    | unclosed =>
      rw [shape] at ended
      cases ended
    | part part foreign next =>
      have forward := shapeAt_part shape
      rw [shape] at noneForeign ended
      rw [List.forall_mem_cons] at noneForeign
      obtain ⟨native, later⟩ := noneForeign
      dsimp only at native
      subst native
      rw [Outcome.ok_of_toOption (Cpp.splitPart_shape shape nofun)]
      have rest := ih (done ++ [part.texts]) (by omega) later ended
      rw [List.append_assoc] at rest
      exact rest

theorem Cpp.splitLoop_restarts {expr : Text} {turns pos : Nat} (walk : Nat)
    (done : List (List Text)) (starts : expr[0]? = some '/')
    (noneForeign : ∀ p ∈ (scan expr turns pos).1, p.2 = false)
    (ended : (scan expr turns pos).2 = .unclosed) :
    Cpp.splitLoop expr walk pos done = none ∨
      ∃ fewer done', fewer < walk ∧
        Cpp.splitLoop expr walk pos done = Cpp.splitLoop expr fewer 1 done' := by
  induction turns generalizing pos walk done with
  | zero => cases ended
  | succ turns ih =>
    cases walk with
    | zero => exact Or.inl rfl
    | succ walk =>
      unfold scan at noneForeign ended
      rw [Cpp.splitLoop]
      cases shape : shapeAt expr pos with
      | stop =>
        rw [shape] at ended
        cases ended
      | malformed =>
        rw [shape] at ended
        cases ended
      | unclosed =>
        obtain ⟨part, turn⟩ := Cpp.splitPart_unclosed shape starts
        rw [turn]
        exact Or.inr ⟨walk, done ++ [part], Nat.lt_succ_self walk, rfl⟩
      | part part foreign next =>
        rw [shape] at noneForeign ended
        rw [List.forall_mem_cons] at noneForeign
        obtain ⟨native, later⟩ := noneForeign
        dsimp only at native
        subst native
        rw [Outcome.ok_of_toOption (Cpp.splitPart_shape shape nofun)]
        obtain unended | ⟨fewer, done', less, same⟩ :=
          ih walk (done ++ [part.texts]) later ended
        · exact Or.inl unended
        · exact Or.inr ⟨fewer, done', Nat.lt_succ_of_lt less, same⟩

theorem Cpp.splitLoop_endless {expr : Text} (starts : expr[0]? = some '/')
    (noneForeign : ∀ p ∈ parts expr, p.2 = false) (ended : ending expr = .unclosed)
    (walk : Nat) (done : List (List Text)) : Cpp.splitLoop expr walk 1 done = none := by
  induction walk using Nat.strong_induction_on generalizing done with
  | _ walk ih =>
    obtain unended | ⟨fewer, done', less, same⟩ :=
      Cpp.splitLoop_restarts walk done starts noneForeign ended
    · exact unended
    · have again := ih fewer less done'
      exact same.trans again

theorem Cpp.splitLoop_more {expr : Text} {turns : Nat} {pos : Int} {done : List (List Text)}
    {result : Except Text (List (List Text) × Int)} (more : Nat)
    (ended : Cpp.splitLoop expr turns pos done = some result) :
    Cpp.splitLoop expr (turns + more) pos done = some result := by
  induction turns generalizing pos done with
  | zero => cases ended
  | succ turns ih =>
    rw [Nat.succ_add, Cpp.splitLoop]
    rw [Cpp.splitLoop] at ended
    cases turn : Cpp.splitPart expr pos with
    | error message =>
      rw [turn] at ended
      exact ended
    | ok found =>
      rw [turn] at ended
      cases found with
      | none => exact ended
      | some found => exact ih ended

def LastPart.texts : LastPart → List Text
  | .text => []
  | .attribute name => [name]

def XPath.texts (path : XPath) : List (List Text) :=
  path.parts.map PathPart.texts ++ [path.last.texts]

def IsLastPart (expr : Text) (pos : Nat) : Prop :=
  expr[pos]? = some '@' ∨ expr.drop pos = "text()".toList

theorem splitLastPart_accepts {expr : Text} {pos : Nat} (isLast : IsLastPart expr pos) :
    ∃ last, splitLastPart expr pos = .ok last ∧
      Cpp.splitLastPart expr pos = .ok last.texts := by
  unfold splitLastPart Cpp.splitLastPart
  obtain isAttribute | isText := isLast
  · have inside := (List.getElem?_eq_some_iff.mp isAttribute).1
    have rest : expr.drop pos = '@' :: expr.drop (pos + 1) := by
      have here := (List.getElem?_eq_some_iff.mp isAttribute).2
      rw [List.drop_eq_getElem_cons inside, here]
    have isAt : Cpp.at_ expr pos = '@' := (Cpp.at_iff (by decide) pos).mpr isAttribute
    rw [if_neg (by omega), if_pos isAt, rest]
    exact ⟨.attribute (expr.drop (pos + 1)), rfl, rfl⟩
  · have notAt : ¬ Cpp.at_ expr pos = '@' := by
      rw [Cpp.at_iff (by decide) pos, ← List.head?_drop, isText]
      decide
    have inside : pos < expr.length := by
      by_contra beyond
      rw [List.drop_eq_nil_of_le (Nat.le_of_not_lt beyond)] at isText
      cases isText
    rw [if_neg (by omega), if_neg notAt, Int.toNat_natCast, isText]
    exact ⟨.text, rfl, rfl⟩

theorem splitLastPart_refuses {expr : Text} {pos : Nat} (notLast : ¬ IsLastPart expr pos) :
    (∃ e, splitLastPart expr pos = .error e) ∧
      ∃ message, Cpp.splitLastPart expr pos = .error message := by
  obtain ⟨notAttribute, notText⟩ := not_or.mp notLast
  have notAt : ¬ Cpp.at_ expr pos = '@' := (Cpp.at_iff (by decide) pos).not.mpr notAttribute
  constructor
  · unfold splitLastPart
    rw [← List.head?_drop] at notAttribute
    cases rest : expr.drop pos with
    | nil => exact ⟨_, rfl⟩
    | cons c rest' =>
      rw [rest] at notAttribute notText
      dsimp only
      split
      · rename_i same
        cases same
      · rename_i attName same
        cases same
        exact absurd rfl notAttribute
      · exact ⟨_, if_neg notText⟩
  · unfold Cpp.splitLastPart
    dsimp only
    rw [if_neg notAt, Int.toNat_natCast, if_neg notText]
    split <;> exact ⟨_, rfl⟩

def Cpp.Returns (expr : Text) (result : Except Text (List (List Text))) : Prop :=
  ∃ turns, Cpp.splitXPathIntoParts turns expr = some result

def Agree (expr : Text) : Prop :=
  (∃ e message, splitXPathIntoParts expr = .error e ∧ Cpp.Returns expr (.error message)) ∨
    ∃ path, splitXPathIntoParts expr = .ok path ∧ Cpp.Returns expr (.ok path.texts)

def HasEmptyName (expr : Text) : Prop := ∃ p ∈ parts expr, p.1.localName = []

def HasForeignTest (expr : Text) : Prop := ∃ p ∈ parts expr, p.2 = true

def EndsInLastPart (expr : Text) : Prop := ∃ pos, ending expr = .last pos ∧ IsLastPart expr pos

theorem startsWith_slash (expr : Text) : startsWith expr ['/'] = true ↔ expr[0]? = some '/' := by
  cases expr with
  | nil => decide
  | cons c rest =>
    have same : startsWith (c :: rest) ['/'] = ('/' == c) := Bool.and_true _
    rw [same, beq_iff_eq, List.getElem?_cons_zero, Option.some.injEq]
    exact eq_comm

theorem splitXPathIntoParts_accepts {expr : Text} {pos : Nat} {last : LastPart}
    (starts : expr[0]? = some '/') (named : ¬ HasEmptyName expr) (ended : ending expr = .last pos)
    (isLast : splitLastPart expr pos = .ok last) :
    splitXPathIntoParts expr = .ok { parts := (parts expr).map Prod.fst, last := last } := by
  have isNamed : ∀ p ∈ parts expr, p.1.localName ≠ [] := fun p isPart empty =>
    named ⟨p, isPart, empty⟩
  have loop := splitLoop_accepts [] isNamed ended
  unfold splitXPathIntoParts
  rw [(startsWith_slash expr).mpr starts, loop]
  simp only [bind, Except.bind, isLast]
  rfl

theorem splitXPathIntoParts_refuses {expr : Text}
    (refused : expr[0]? ≠ some '/' ∨ HasEmptyName expr ∨ ¬ EndsInLastPart expr) :
    ∃ e, splitXPathIntoParts expr = .error e := by
  unfold splitXPathIntoParts
  by_cases starts : startsWith expr ['/'] = true
  · rw [starts]
    cases loop : splitLoop expr expr.length 1 [] with
    | error e => exact ⟨e, rfl⟩
    | ok walked =>
      have accepted : ¬ (HasEmptyName expr ∨ ∀ stop, ending expr ≠ .last stop) := by
        intro refusal
        obtain ⟨e, thrown⟩ := splitLoop_refuses [] refusal
        rw [loop] at thrown
        cases thrown
      simp only [not_or, not_forall, not_not] at accepted
      obtain ⟨named, stop, ended⟩ := accepted
      have isNamed : ∀ p ∈ parts expr, p.1.localName ≠ [] := fun p isPart empty =>
        named ⟨p, isPart, empty⟩
      have same := splitLoop_accepts [] isNamed ended
      rw [loop] at same
      cases same
      have notLast : ¬ IsLastPart expr stop := by
        intro isLast
        obtain noSlash | unnamed | open_ := refused
        · exact noSlash ((startsWith_slash expr).mp starts)
        · exact named unnamed
        · exact open_ ⟨stop, ended, isLast⟩
      obtain ⟨⟨e, thrown⟩, _⟩ := splitLastPart_refuses notLast
      simp only [bind, Except.bind, thrown]
      exact ⟨e, rfl⟩
  · rw [Bool.not_eq_true] at starts
    rw [starts]
    exact ⟨_, rfl⟩

namespace Cpp

theorem at_slash (expr : Text) : at_ expr 0 = '/' ↔ expr[0]? = some '/' := at_iff (by decide) 0

theorem splitXPathIntoParts_more {expr : Text} {turns : Nat}
    {result : Except Text (List (List Text))} (more : Nat)
    (ended : splitXPathIntoParts turns expr = some result) :
    splitXPathIntoParts (turns + more) expr = some result := by
  unfold splitXPathIntoParts at ended ⊢
  by_cases starts : at_ expr 0 = '/'
  · rw [if_neg (not_not.mpr starts)] at ended ⊢
    obtain ⟨walked, loop, rfl⟩ := Option.map_eq_some_iff.mp ended
    rw [splitLoop_more more loop]
    rfl
  · rw [if_pos starts] at ended ⊢
    exact ended

theorem returns_unique {expr : Text} {first second : Except Text (List (List Text))}
    (one : Returns expr first) (other : Returns expr second) : first = second := by
  obtain ⟨turns, one⟩ := one
  obtain ⟨turns', other⟩ := other
  have more := splitXPathIntoParts_more turns' one
  have more' := splitXPathIntoParts_more turns other
  rw [Nat.add_comm, more] at more'
  exact Option.some.inj more'

theorem returns_parts {expr : Text} {pos : Nat} {last : LastPart}
    (starts : expr[0]? = some '/') (native : ¬ HasForeignTest expr)
    (ended : ending expr = .last pos) (isLast : splitLastPart expr pos = .ok last.texts) :
    Returns expr (.ok ({ parts := (parts expr).map Prod.fst, last := last } : XPath).texts) := by
  have noneForeign : ∀ p ∈ parts expr, p.2 = false := fun p isPart =>
    Bool.eq_false_iff.mpr fun isForeign => native ⟨p, isPart, isForeign⟩
  have loop := splitLoop_accepts [] (Nat.sub_le expr.length 1) noneForeign ended
  refine ⟨expr.length + 1, ?_⟩
  unfold splitXPathIntoParts
  rw [if_neg (not_not.mpr ((at_slash expr).mpr starts))]
  have loop' : splitLoop expr (expr.length + 1) 1 [] = _ := loop
  rw [loop']
  simp only [Option.map_some, bind, Except.bind, isLast, XPath.texts, List.map_map]
  rfl

theorem splitXPathIntoParts_slash {expr : Text} (starts : at_ expr 0 = '/') (turns : Nat) :
    splitXPathIntoParts turns expr =
      (splitLoop expr turns 1 []).map fun result => do
        let (parts, pos) ← result
        let last ← splitLastPart expr pos
        return parts ++ [last] :=
  if_neg (not_not.mpr starts)

theorem returns_error {expr : Text}
    (refused : expr[0]? ≠ some '/' ∨ HasForeignTest expr ∨
      (¬ EndsInLastPart expr ∧ ending expr ≠ .unclosed)) :
    ∃ message, Returns expr (.error message) := by
  by_cases starts : at_ expr 0 = '/'
  · have unended := splitXPathIntoParts_slash starts
    by_cases thrown : HasForeignTest expr ∨ ending expr = .malformed
    · obtain ⟨message, loop⟩ := splitLoop_refuses [] thrown
      refine ⟨message, expr.length, ?_⟩
      have loop' : splitLoop expr expr.length 1 [] = _ := loop
      rw [unended, loop']
      rfl
    · obtain ⟨native, wellFormed⟩ := not_or.mp thrown
      obtain noSlash | foreign | ⟨open_, closes⟩ := refused
      · exact absurd ((at_slash expr).mp starts) noSlash
      · exact absurd foreign native
      · cases ended : ending expr with
        | malformed => exact absurd ended wellFormed
        | unclosed => exact absurd ended closes
        | last pos =>
          have noneForeign : ∀ p ∈ parts expr, p.2 = false := fun p isPart =>
            Bool.eq_false_iff.mpr fun isForeign => native ⟨p, isPart, isForeign⟩
          have loop := splitLoop_accepts [] (Nat.sub_le expr.length 1) noneForeign ended
          have notLast : ¬ IsLastPart expr pos := fun isLast => open_ ⟨pos, ended, isLast⟩
          obtain ⟨_, message, refusal⟩ := splitLastPart_refuses notLast
          refine ⟨message, expr.length + 1, ?_⟩
          have loop' : splitLoop expr (expr.length + 1) 1 [] = _ := loop
          rw [unended, loop']
          simp only [Option.map_some, bind, Except.bind, refusal]
  · exact ⟨_, 0, if_pos starts⟩

theorem returns_nothing {expr : Text} (starts : expr[0]? = some '/')
    (native : ¬ HasForeignTest expr) (ended : ending expr = .unclosed)
    (result : Except Text (List (List Text))) : ¬ Returns expr result := by
  rintro ⟨turns, returned⟩
  have noneForeign : ∀ p ∈ parts expr, p.2 = false := fun p isPart =>
    Bool.eq_false_iff.mpr fun isForeign => native ⟨p, isPart, isForeign⟩
  have endless := splitLoop_endless starts noneForeign ended turns []
  unfold splitXPathIntoParts at returned
  rw [if_neg (not_not.mpr ((at_slash expr).mpr starts)), endless] at returned
  cases returned

end Cpp

/-- The splitters agree unless just one of them refuses a part: the one in Java an empty local
name, the one in C++ a foreign test. Where brackets are not closed, only an earlier part that
it refuses brings the one in C++ to an end. -/
theorem agree_iff (expr : Text) :
    Agree expr ↔
      (expr[0]? = some '/' →
        (EndsInLastPart expr → (HasEmptyName expr ↔ HasForeignTest expr)) ∧
          (ending expr = .unclosed → HasForeignTest expr)) := by
  constructor
  · intro agree starts
    constructor
    · rintro ⟨pos, ended, isLast⟩
      obtain ⟨last, javaLast, cppLast⟩ := splitLastPart_accepts isLast
      constructor
      · intro unnamed
        by_contra native
        obtain ⟨e, thrown⟩ := splitXPathIntoParts_refuses (Or.inr (Or.inl unnamed))
        have returned := Cpp.returns_parts starts native ended cppLast
        obtain ⟨_, message, _, refused⟩ | ⟨path, accepted, _⟩ := agree
        · cases Cpp.returns_unique returned refused
        · rw [thrown] at accepted
          cases accepted
      · intro foreign
        by_contra named
        have parted := splitXPathIntoParts_accepts starts named ended javaLast
        obtain ⟨message, refused⟩ := Cpp.returns_error (Or.inr (Or.inl foreign))
        obtain ⟨e, _, thrown, _⟩ | ⟨path, _, returned⟩ := agree
        · rw [parted] at thrown
          cases thrown
        · cases Cpp.returns_unique returned refused
    · intro unclosed
      by_contra native
      have endless := Cpp.returns_nothing starts native unclosed
      obtain ⟨_, message, _, returned⟩ | ⟨path, _, returned⟩ := agree
      · exact endless _ returned
      · exact endless _ returned
  · intro condition
    by_cases accepted : expr[0]? = some '/' ∧ ¬ HasEmptyName expr ∧ EndsInLastPart expr
    · obtain ⟨starts, named, isLast⟩ := accepted
      have native : ¬ HasForeignTest expr := fun foreign =>
        named (((condition starts).1 isLast).mpr foreign)
      obtain ⟨pos, ended, isLast⟩ := isLast
      obtain ⟨last, javaLast, cppLast⟩ := splitLastPart_accepts isLast
      exact Or.inr ⟨_, splitXPathIntoParts_accepts starts named ended javaLast,
        Cpp.returns_parts starts native ended cppLast⟩
    · have javaRefuses : expr[0]? ≠ some '/' ∨ HasEmptyName expr ∨ ¬ EndsInLastPart expr := by
        by_contra none
        simp only [not_or, not_not] at none
        exact accepted none
      have cppRefuses : expr[0]? ≠ some '/' ∨ HasForeignTest expr ∨
          (¬ EndsInLastPart expr ∧ ending expr ≠ .unclosed) := by
        by_contra none
        simp only [not_or, not_not, not_and] at none
        obtain ⟨starts, native, open_⟩ := none
        obtain ⟨balanced, unclosed⟩ := condition starts
        obtain noSlash | unnamed | notLast := javaRefuses
        · exact noSlash starts
        · by_cases isLast : EndsInLastPart expr
          · exact native ((balanced isLast).mp unnamed)
          · exact native (unclosed (open_ isLast))
        · exact native (unclosed (open_ notLast))
      obtain ⟨e, thrown⟩ := splitXPathIntoParts_refuses javaRefuses
      obtain ⟨message, refused⟩ := Cpp.returns_error cppRefuses
      exact Or.inl ⟨e, message, thrown, refused⟩

def emptyNameExample : Text := "/emma:emma/emma:/semaine:face-present/@statusChange".toList

/-- An expression with an empty local name, which the tests of the splitter in Java expect to be
refused. The splitter in C++ returns four parts. -/
theorem emptyName_disagree : ¬ Agree emptyNameExample := by
  have refused : (splitXPathIntoParts emptyNameExample).toOption = none := by decide
  have returned : Cpp.Returns emptyNameExample (.ok [
      ["emma".toList, "emma".toList, [], []],
      ["emma".toList, [], [], []],
      ["semaine".toList, "face-present".toList, [], []],
      ["statusChange".toList]]) := ⟨4, by decide⟩
  rintro (⟨_, message, _, thrown⟩ | ⟨path, accepted, _⟩)
  · cases Cpp.returns_unique returned thrown
  · rw [accepted] at refused
    cases refused

end Semaine.Xml
