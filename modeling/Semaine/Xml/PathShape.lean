import Semaine.Xml.CppXPath

/-! What the part of an expression at a position looks like, and what the two splitters make
of it. -/
namespace Semaine.Xml
open JavaText

def slice (s : Text) (start stop : Nat) : Text := (s.take stop).drop start

/-- What is in brackets after the attribute: a value in quotes after an equals sign, or nothing
that counts as one. A single character without quotes is foreign if it has one unit in UTF-16 and
more than one in UTF-8. -/
inductive Value where
  | malformed
  | absent (foreign : Bool)
  | quoted (equal : Nat)
  deriving DecidableEq

def valueAt (expr : Text) (openSqB closeSqB : Nat) : Value :=
  match indexOf expr '=' openSqB with
  | none => .absent false
  | some equal =>
    if equal < closeSqB then
      match slice expr (equal + 1) closeSqB with
      | [] => .absent false
      | [c] =>
        if c.utf8Size = 1 then .absent false
        else if utf16Size c = 1 then .absent true
        else .malformed
      | _ =>
        if expr[equal + 1]? = some '\'' ∧ expr[closeSqB - 1]? = some '\'' then .quoted equal
        else .malformed
    else .absent false

inductive Test where
  | malformed
  | unclosed
  | closed (attName : Text) (attValue : Option Text) (foreign : Bool) (slash : Nat)

def testAt (expr : Text) (openSqB : Nat) : Test :=
  if expr[openSqB + 1]? ≠ some '@' then .malformed
  else
    match indexOf expr ']' openSqB with
    | none => .unclosed
    | some closeSqB =>
      if expr[closeSqB + 1]? ≠ some '/' then .malformed
      else
        match valueAt expr openSqB closeSqB with
        | .malformed => .malformed
        | .absent foreign =>
          .closed (slice expr (openSqB + 2) closeSqB) none foreign (closeSqB + 1)
        | .quoted equal =>
          .closed (slice expr (openSqB + 2) equal) (some (slice expr (equal + 2) (closeSqB - 1)))
            false (closeSqB + 1)

/-- What is at a position: no further slash, something that is not a part, or a part, with the
position of the next one. -/
inductive Shape where
  | stop
  | malformed
  | unclosed
  | part (part : PathPart) (foreign : Bool) (next : Nat)

def prefixAt (expr : Text) (pos slash : Nat) : Option Text × Nat :=
  match indexOf expr ':' pos with
  | some colon => if colon < slash then (some (slice expr pos colon), colon + 1) else (none, pos)
  | none => (none, pos)

def partAt (expr : Text) (nsPrefix : Option Text) (start slash : Nat) (openSqB : Option Nat) :
    Shape :=
  let plain : Shape :=
    .part { nsPrefix := nsPrefix, localName := slice expr start slash } false (slash + 1)
  match openSqB with
  | none => plain
  | some openSqB =>
    if openSqB < slash then
      if openSqB ≤ start then .malformed
      else
        match testAt expr openSqB with
        | .malformed => .malformed
        | .unclosed => .unclosed
        | .closed attName attValue foreign slash =>
          .part { nsPrefix := nsPrefix, localName := slice expr start openSqB
                  attName := some attName, attValue := attValue } foreign (slash + 1)
    else plain

def shapeAt (expr : Text) (pos : Nat) : Shape :=
  match indexOf expr '/' pos with
  | none => .stop
  | some slash =>
    partAt expr (prefixAt expr pos slash).1 (prefixAt expr pos slash).2 slash
      (indexOf expr '[' pos)

theorem prefixAt_start {expr : Text} {pos slash : Nat} (found : indexOf expr '/' pos = some slash) :
    pos ≤ (prefixAt expr pos slash).2 ∧ (prefixAt expr pos slash).2 ≤ slash := by
  have after := (indexOf_spec found).1
  unfold prefixAt
  cases colonAt : indexOf expr ':' pos with
  | none => exact ⟨Nat.le_refl _, after⟩
  | some colon =>
    have afterPos := (indexOf_spec colonAt).1
    dsimp only
    split
    · exact ⟨Nat.le_succ_of_le afterPos, by assumption⟩
    · exact ⟨Nat.le_refl _, after⟩

theorem substring_slice {s : Text} {start stop : Nat} (ordered : start ≤ stop)
    (inside : stop ≤ s.length) : substring s start stop = .ok (slice s start stop) := by
  unfold substring
  rw [if_pos ⟨ordered, inside⟩]
  rfl

theorem charAt_some {s : Text} {i : Nat} {c : Char} (h : s[i]? = some c) : charAt s i = .ok c := by
  unfold charAt
  rw [h]

theorem indexOf_after {expr : Text} {openSqB i : Nat} {c : Char}
    (isOpen : expr[openSqB]? = some '[') (isAt : expr[openSqB + 1]? = some '@')
    (notOpen : c ≠ '[') (notAt : c ≠ '@') (found : indexOf expr c openSqB = some i) :
    openSqB + 2 ≤ i := by
  obtain ⟨after, here, _⟩ := indexOf_spec found
  have differs : i ≠ openSqB := by
    rintro rfl
    rw [isOpen] at here
    exact notOpen (Option.some.inj here).symm
  have differs' : i ≠ openSqB + 1 := by
    rintro rfl
    rw [isAt] at here
    exact notAt (Option.some.inj here).symm
  omega

theorem quotes_apart {expr : Text} {equal closeSqB : Nat} {c d : Char} {rest : Text}
    (value : slice expr (equal + 1) closeSqB = c :: d :: rest) : equal + 2 ≤ closeSqB - 1 := by
  have long := congrArg List.length value
  simp only [slice, List.length_drop, List.length_take, List.length_cons] at long
  omega

theorem slice_head {expr : Text} {start stop : Nat} {c : Char} {rest : Text}
    (value : slice expr start stop = c :: rest) : expr[start]? = some c := by
  have head : (slice expr start stop)[0]? = some c := by rw [value, List.getElem?_cons_zero]
  unfold slice at head
  rw [List.getElem?_drop, Nat.add_zero] at head
  obtain ⟨inside, same⟩ := List.getElem?_eq_some_iff.mp head
  rw [← same, List.getElem_take]
  exact List.getElem?_eq_getElem _

theorem utf16Size_of_ascii {c : Char} (ascii : c.utf8Size = 1) : utf16Size c = 1 := by
  have small : c.val ≤ 127 := Char.utf8Size_eq_one_iff.mp ascii
  have below : c.val < 0x10000 := by
    rw [UInt32.le_iff_toNat_le] at small
    rw [UInt32.lt_iff_toNat_lt]
    exact Nat.lt_of_le_of_lt small (by decide)
  unfold utf16Size
  rw [if_pos below]

theorem utf16Size_pos (c : Char) : 0 < utf16Size c := by
  unfold utf16Size
  split <;> decide

def Test.java : Test → Option (Text × Option Text × Nat)
  | .closed attName attValue _ slash => some (attName, attValue, slash)
  | _ => none

theorem splitPredicate_noAt {expr : Text} {openSqB : Nat} (noAt : expr[openSqB + 1]? ≠ some '@') :
    (splitPredicate expr openSqB).toOption = none := by
  unfold splitPredicate charAt
  cases next : expr[openSqB + 1]? with
  | none => rfl
  | some c =>
    have differs : c ≠ '@' := by
      rintro rfl
      exact noAt next
    simp [bind, Except.bind, differs, Except.toOption]
    rfl

theorem splitPredicate_nameOnly {expr : Text} {openSqB closeSqB : Nat}
    (isAt : expr[openSqB + 1]? = some '@') (afterClose : openSqB + 2 ≤ closeSqB)
    (closed : indexOf expr ']' openSqB = some closeSqB)
    (noValue : ∀ equal, indexOf expr '=' openSqB = some equal → equal < closeSqB →
      units utf16Size (slice expr (equal + 1) closeSqB) ≤ 1) :
    splitPredicate expr openSqB =
      .ok (slice expr (openSqB + 2) closeSqB, none, closeSqB + 1) := by
  have nameOnly := substring_slice afterClose (Nat.le_of_lt (indexOf_lt closed))
  unfold splitPredicate
  rw [charAt_some isAt]
  simp only [bind, Except.bind, closed]
  rw [if_neg (not_not.mpr rfl)]
  cases found : indexOf expr '=' openSqB with
  | none =>
    dsimp only
    rw [nameOnly]
    rfl
  | some equal =>
    have short : ¬ (equal < closeSqB ∧
        1 < units utf16Size ((expr.take closeSqB).drop (equal + 1))) := by
      rintro ⟨before, long⟩
      exact absurd long (Nat.not_lt.mpr (noValue equal found before))
    dsimp only
    rw [if_neg short, nameOnly]
    rfl

theorem splitPredicate_value {expr : Text} {openSqB closeSqB equal : Nat}
    (isAt : expr[openSqB + 1]? = some '@') (afterEqual : openSqB + 2 ≤ equal)
    (closed : indexOf expr ']' openSqB = some closeSqB)
    (found : indexOf expr '=' openSqB = some equal) (before : equal < closeSqB)
    (long : 1 < units utf16Size (slice expr (equal + 1) closeSqB)) :
    (splitPredicate expr openSqB).toOption =
      if expr[equal + 1]? = some '\'' ∧ expr[closeSqB - 1]? = some '\'' then
        (substring expr (equal + 2) (closeSqB - 1)).toOption.map fun attValue =>
          (slice expr (openSqB + 2) equal, some attValue, closeSqB + 1)
      else none := by
  have attName := substring_slice afterEqual (Nat.le_of_lt (indexOf_lt found))
  have insideClose := indexOf_lt closed
  have isLong : equal < closeSqB ∧
      1 < units utf16Size ((expr.take closeSqB).drop (equal + 1)) := ⟨before, long⟩
  unfold splitPredicate
  rw [charAt_some isAt]
  simp only [bind, Except.bind, closed, found]
  rw [if_neg (not_not.mpr rfl), if_pos isLong, attName]
  dsimp only
  obtain ⟨first, isFirst⟩ : ∃ c, expr[equal + 1]? = some c :=
    ⟨_, List.getElem?_eq_getElem (by omega)⟩
  obtain ⟨last, isLast⟩ : ∃ c, expr[closeSqB - 1]? = some c :=
    ⟨_, List.getElem?_eq_getElem (by omega)⟩
  rw [charAt_some isFirst, isFirst, isLast]
  dsimp only
  by_cases quoted : first = '\''
  · rw [if_neg (not_not.mpr quoted)]
    simp only [charAt_some isLast]
    by_cases quoted' : last = '\''
    · rw [if_neg (not_not.mpr quoted'), if_pos ⟨congrArg some quoted, congrArg some quoted'⟩]
      cases substring expr (equal + 2) (closeSqB - 1) <;> rfl
    · rw [if_pos quoted', if_neg fun both => quoted' (Option.some.inj both.2)]
      rfl
  · rw [if_pos quoted, if_neg fun both => quoted (Option.some.inj both.1)]
    rfl

theorem valueAt_absent {expr : Text} {openSqB closeSqB : Nat}
    (noValue : ∀ equal, indexOf expr '=' openSqB = some equal → equal < closeSqB →
      units utf16Size (slice expr (equal + 1) closeSqB) ≤ 1) :
    ∃ foreign, valueAt expr openSqB closeSqB = .absent foreign := by
  unfold valueAt
  cases found : indexOf expr '=' openSqB with
  | none => exact ⟨false, rfl⟩
  | some equal =>
    dsimp only
    by_cases before : equal < closeSqB
    · rw [if_pos before]
      have short := noValue equal found before
      cases value : slice expr (equal + 1) closeSqB with
      | nil => exact ⟨false, rfl⟩
      | cons c rest =>
        rw [value] at short
        cases rest with
        | nil =>
          have one : utf16Size c = 1 := by
            have positive := utf16Size_pos c
            simp only [units, List.map_cons, List.map_nil, List.sum_cons, List.sum_nil] at short
            omega
          by_cases ascii : c.utf8Size = 1
          · exact ⟨false, if_pos ascii⟩
          · exact ⟨true, (if_neg ascii).trans (if_pos one)⟩
        | cons d rest =>
          have long := units_more utf16Size_pos c d rest
          omega
    · rw [if_neg before]
      exact ⟨false, rfl⟩

theorem valueAt_value {expr : Text} {openSqB closeSqB equal : Nat}
    (found : indexOf expr '=' openSqB = some equal) (before : equal < closeSqB)
    (long : 1 < units utf16Size (slice expr (equal + 1) closeSqB)) :
    valueAt expr openSqB closeSqB =
        (if expr[equal + 1]? = some '\'' ∧ expr[closeSqB - 1]? = some '\'' then .quoted equal
        else .malformed) ∧
      (expr[equal + 1]? = some '\'' → equal + 2 ≤ closeSqB - 1) := by
  unfold valueAt
  rw [found]
  dsimp only
  rw [if_pos before]
  cases value : slice expr (equal + 1) closeSqB with
  | nil =>
    rw [value] at long
    cases long
  | cons c rest =>
    rw [value] at long
    cases rest with
    | nil =>
      simp only [units, List.map_cons, List.map_nil, List.sum_cons, List.sum_nil] at long
      have head := slice_head value
      have unquoted : c ≠ '\'' := by
        rintro rfl
        exact absurd long (by decide)
      have notAscii : c.utf8Size ≠ 1 := fun ascii => by
        rw [utf16Size_of_ascii ascii] at long
        omega
      have notOne : utf16Size c ≠ 1 := by omega
      have noQuote : expr[equal + 1]? ≠ some '\'' := by
        rw [head]
        exact fun same => unquoted (Option.some.inj same)
      dsimp only
      rw [if_neg notAscii, if_neg notOne, if_neg fun both => noQuote both.1]
      exact ⟨rfl, fun quote => absurd quote noQuote⟩
    | cons d rest => exact ⟨rfl, fun _ => quotes_apart value⟩

theorem splitPredicate_java {expr : Text} {openSqB : Nat} (isOpen : expr[openSqB]? = some '[') :
    (splitPredicate expr openSqB).toOption.filter (fun r => expr[r.2.2]? = some '/') =
      (testAt expr openSqB).java := by
  unfold testAt
  by_cases isAt : expr[openSqB + 1]? = some '@'
  · rw [if_neg (not_not.mpr isAt)]
    cases closed : indexOf expr ']' openSqB with
    | none =>
      unfold splitPredicate
      rw [charAt_some isAt]
      simp only [bind, Except.bind, closed]
      rw [if_neg (not_not.mpr rfl)]
      cases indexOf expr '=' openSqB <;> rfl
    | some closeSqB =>
      have afterClose := indexOf_after isOpen isAt (by decide) (by decide) closed
      have insideClose := indexOf_lt closed
      dsimp only
      by_cases noValue : ∀ equal, indexOf expr '=' openSqB = some equal → equal < closeSqB →
          units utf16Size (slice expr (equal + 1) closeSqB) ≤ 1
      · obtain ⟨foreign, absent⟩ := valueAt_absent noValue
        rw [splitPredicate_nameOnly isAt afterClose closed noValue, absent]
        by_cases slash : expr[closeSqB + 1]? = some '/'
        · simp [Except.toOption, slash, Test.java]
        · simp [Except.toOption, slash, Test.java]
      · simp only [not_forall, Nat.not_le] at noValue
        obtain ⟨equal, found, before, long⟩ := noValue
        have afterEqual := indexOf_after isOpen isAt (by decide) (by decide) found
        obtain ⟨shape, apart⟩ := valueAt_value found before long
        rw [splitPredicate_value isAt afterEqual closed found before long, shape]
        by_cases quoted : expr[equal + 1]? = some '\'' ∧ expr[closeSqB - 1]? = some '\''
        · have attValue := substring_slice (apart quoted.1) (by omega : closeSqB - 1 ≤ expr.length)
          rw [if_pos quoted, if_pos quoted, attValue]
          by_cases slash : expr[closeSqB + 1]? = some '/'
          · simp [Except.toOption, slash, Test.java]
          · simp [Except.toOption, slash, Test.java]
        · rw [if_neg quoted, if_neg quoted]
          by_cases slash : expr[closeSqB + 1]? = some '/'
          · simp [slash, Test.java]
          · simp [slash, Test.java]
  · rw [if_pos isAt, splitPredicate_noAt isAt]
    rfl

def Shape.java : Shape → Option (Option (PathPart × Nat))
  | .stop => some none
  | .part p _ next => if p.localName = [] then none else some (some (p, next))
  | _ => none

def namedPart (expr : Text) (result : PathPart × Nat) : Except Thrown (Option (PathPart × Nat)) :=
  if result.1.localName = [] then
    .error (.illegalArgument ("Found empty localname in expression: ".toList ++ expr))
  else .ok (some (result.1, result.2 + 1))

theorem namedPart_toOption (expr : Text) (result : PathPart × Nat) :
    (namedPart expr result).toOption =
      if result.1.localName = [] then none else some (some (result.1, result.2 + 1)) := by
  unfold namedPart
  by_cases empty : result.1.localName = []
  · rw [if_pos empty, if_pos empty]
    rfl
  · rw [if_neg empty, if_neg empty]
    rfl

theorem splitLocalName_java {expr : Text} {start slash : Nat} {openSqB : Option Nat}
    (nsPrefix : Option Text) (ordered : start ≤ slash) (inside : slash ≤ expr.length)
    (isOpen : ∀ i, openSqB = some i → expr[i]? = some '[') :
    ((splitLocalName expr nsPrefix start slash openSqB).bind (namedPart expr)).toOption =
      (partAt expr nsPrefix start slash openSqB).java := by
  have plain := substring_slice ordered inside
  unfold splitLocalName partAt
  cases openSqB with
  | none =>
    rw [plain]
    exact namedPart_toOption expr _
  | some bracket =>
    dsimp only
    by_cases before : bracket < slash
    · rw [if_pos before, if_pos before]
      by_cases wrong : bracket ≤ start
      · rw [if_pos wrong, if_pos wrong]
        rfl
      · have localName := substring_slice (Nat.le_of_not_le wrong) (by omega : bracket ≤ expr.length)
        have test := splitPredicate_java (isOpen bracket rfl)
        rw [if_neg wrong, if_neg wrong, localName]
        cases result : splitPredicate expr bracket with
        | error e =>
          rw [result] at test
          simp only [bind, Except.bind]
          cases shape : testAt expr bracket with
          | malformed => rfl
          | unclosed => rfl
          | closed attName attValue foreign slash =>
            rw [shape] at test
            cases test
        | ok r =>
          obtain ⟨attName, attValue, next⟩ := r
          rw [result] at test
          have longName : slice expr start bracket ≠ [] := by
            intro empty
            have none := congrArg List.length empty
            simp only [slice, List.length_drop, List.length_take, List.length_nil] at none
            omega
          by_cases slashNext : expr[next]? = some '/'
          · simp only [Except.toOption, Option.filter, slashNext, decide_true, if_true] at test
            simp only [bind, Except.bind, slashNext]
            cases shape : testAt expr bracket with
            | malformed =>
              rw [shape] at test
              cases test
            | unclosed =>
              rw [shape] at test
              cases test
            | closed attName' attValue' foreign slash =>
              rw [shape] at test
              cases test
              rw [if_neg (not_not.mpr rfl)]
              exact namedPart_toOption expr _
          · simp only [Except.toOption, Option.filter, slashNext, decide_false] at test
            simp only [bind, Except.bind]
            rw [if_pos slashNext]
            cases shape : testAt expr bracket with
            | malformed => rfl
            | unclosed => rfl
            | closed attName attValue foreign slash =>
              rw [shape] at test
              cases test
    · rw [if_neg before, if_neg before, plain]
      exact namedPart_toOption expr _

theorem bind_namedPart (expr : Text) (result : Except Thrown (PathPart × Nat)) :
    (do
      let (part, next) ← result
      if part.localName = [] then
        throw (.illegalArgument ("Found empty localname in expression: ".toList ++ expr))
      return some (part, next + 1)) = result.bind (namedPart expr) := by
  cases result with
  | error e => rfl
  | ok result =>
    simp only [bind, Except.bind, namedPart]
    by_cases empty : result.1.localName = []
    · rw [if_pos empty, if_pos empty]
      rfl
    · rw [if_neg empty, if_neg empty]
      rfl

theorem splitPart_slash {expr : Text} {pos slash : Nat}
    (found : indexOf expr '/' pos = some slash) :
    splitPart expr pos =
      (splitLocalName expr (prefixAt expr pos slash).1 (prefixAt expr pos slash).2 slash
        (indexOf expr '[' pos)).bind (namedPart expr) := by
  rw [← bind_namedPart]
  unfold splitPart prefixAt
  rw [found]
  cases colonAt : indexOf expr ':' pos with
  | none => rfl
  | some colon =>
    have nsPrefix := substring_slice (indexOf_spec colonAt).1 (Nat.le_of_lt (indexOf_lt colonAt))
    by_cases before : colon < slash
    · dsimp only
      rw [if_pos before, if_pos before, nsPrefix]
      rfl
    · dsimp only
      rw [if_neg before, if_neg before]
      rfl

theorem splitPart_java (expr : Text) (pos : Nat) :
    (splitPart expr pos).toOption = (shapeAt expr pos).java := by
  unfold shapeAt
  cases found : indexOf expr '/' pos with
  | none =>
    unfold splitPart
    rw [found]
    rfl
  | some slash =>
    have inside := indexOf_lt found
    obtain ⟨_, ordered⟩ := prefixAt_start found
    have isOpen : ∀ i, indexOf expr '[' pos = some i → expr[i]? = some '[' :=
      fun i h => (indexOf_spec h).2.1
    have rest := splitLocalName_java (prefixAt expr pos slash).1 ordered
      (Nat.le_of_lt inside) isOpen
    dsimp only
    rw [← rest, splitPart_slash found]

end Semaine.Xml
