import Semaine.Xml.PathShape

/-! What the splitter in C++ makes of the part at a position. -/
namespace Semaine.Xml
open JavaText

namespace Cpp

theorem find_some {s : Text} {c : Char} {pos i : Nat} (found : indexOf s c pos = some i) :
    find s c pos = i := by
  unfold find
  rw [Int.toNat_natCast, found]

theorem find_none {s : Text} {c : Char} {pos : Nat} (absent : indexOf s c pos = none) :
    find s c pos = -1 := by
  unfold find
  rw [Int.toNat_natCast, absent]

theorem substr_slice (s : Text) {start stop : Nat} (ordered : start ≤ stop) :
    substr s start (stop - start) = slice s start stop := by
  have count : (stop : Int) - start = (stop - start : Nat) := (Int.ofNat_sub ordered).symm
  unfold substr slice
  rw [count, if_neg (Int.not_lt.mpr (Int.natCast_nonneg _)), Int.toNat_natCast, Int.toNat_natCast,
    List.drop_take]

theorem at_iff {s : Text} {c : Char} (notNull : c ≠ '\x00') (i : Nat) :
    at_ s i = c ↔ s[i]? = some c := by
  unfold at_
  rw [Int.toNat_natCast]
  cases s[i]? with
  | none => simp [notNull.symm]
  | some d => simp

theorem moreThanOneByte_iff (s : Text) (first second : Nat) :
    moreThanOneByte s first second = true ↔
      first < second ∧ 1 < units Char.utf8Size (slice s (first + 1) second) := by
  unfold moreThanOneByte slice
  simp only [Int.toNat_natCast, Bool.and_eq_true, decide_eq_true_eq, Int.ofNat_lt]

theorem noSlash_iff (s : Text) (i : Nat) :
    ((i : Int) ≥ s.length ∨ at_ s i ≠ '/') ↔ s[i]? ≠ some '/' := by
  rw [ne_eq, at_iff (by decide) i]
  constructor
  · rintro (beyond | other) same
    · rw [List.getElem?_eq_none (by omega)] at same
      cases same
    · exact other same
  · exact Or.inr

end Cpp

def Test.cpp : Test → Option (Text × Text × Int)
  | .closed attName attValue foreign slash =>
    if foreign then none else some (attName, attValue.getD [], slash)
  | _ => none

namespace Cpp

theorem splitPredicate_noAt {expr : Text} {openSqB : Nat} (noAt : expr[openSqB + 1]? ≠ some '@') :
    (splitPredicate expr openSqB).toOption = none := by
  have other : at_ expr (openSqB + 1) ≠ '@' := fun same =>
    noAt ((at_iff (by decide) (openSqB + 1)).mp same)
  unfold splitPredicate
  rw [if_pos other]
  rfl

theorem splitPredicate_unclosed {expr : Text} {openSqB : Nat}
    (isAt : expr[openSqB + 1]? = some '@') (unclosed : indexOf expr ']' openSqB = none)
    (slash : expr[0]? = some '/') :
    ∃ attName, splitPredicate expr openSqB = .ok (attName, [], 0) := by
  have same : at_ expr (openSqB + 1) = '@' := (at_iff (by decide) (openSqB + 1)).mpr isAt
  have noValue : ¬ (find expr '=' openSqB ≠ -1 ∧
      moreThanOneByte expr (find expr '=' openSqB) (-1) = true) := by
    rintro ⟨_, more⟩
    unfold moreThanOneByte at more
    simp only [Bool.and_eq_true, decide_eq_true_eq] at more
    have least : -1 ≤ find expr '=' openSqB := by
      unfold find
      split <;> omega
    omega
  have noSlash : ¬ (((0 : Nat) : Int) ≥ expr.length ∨ at_ expr ((0 : Nat) : Int) ≠ '/') := by
    rw [noSlash_iff, not_not]
    exact slash
  unfold splitPredicate
  rw [if_neg (not_not.mpr same), find_none unclosed]
  dsimp only [bind, Except.bind]
  rw [if_neg noValue]
  exact ⟨_, if_neg noSlash⟩

theorem splitPredicate_nameOnly {expr : Text} {openSqB closeSqB : Nat}
    (isAt : expr[openSqB + 1]? = some '@') (afterClose : openSqB + 2 ≤ closeSqB)
    (closed : indexOf expr ']' openSqB = some closeSqB)
    (noValue : ∀ equal, indexOf expr '=' openSqB = some equal → equal < closeSqB →
      units Char.utf8Size (slice expr (equal + 1) closeSqB) ≤ 1) :
    (splitPredicate expr openSqB).toOption =
      if expr[closeSqB + 1]? = some '/' then
        some (slice expr (openSqB + 2) closeSqB, [], ((closeSqB + 1 : Nat) : Int))
      else none := by
  have same : at_ expr (openSqB + 1) = '@' := (at_iff (by decide) (openSqB + 1)).mpr isAt
  have short : ¬ (find expr '=' openSqB ≠ -1 ∧
      moreThanOneByte expr (find expr '=' openSqB) closeSqB = true) := by
    rintro ⟨_, more⟩
    cases found : indexOf expr '=' openSqB with
    | none =>
      rw [find_none found] at *
      contradiction
    | some equal =>
      rw [find_some found, moreThanOneByte_iff] at more
      exact absurd more.2 (Nat.not_lt.mpr (noValue equal found more.1))
  have attName := substr_slice expr afterClose
  unfold splitPredicate
  rw [if_neg (not_not.mpr same), find_some closed]
  dsimp only [bind, Except.bind]
  rw [if_neg short]
  by_cases slash : expr[closeSqB + 1]? = some '/'
  · have noSlash := (noSlash_iff expr (closeSqB + 1)).not.mpr (not_not.mpr slash)
    rw [if_pos slash]
    refine (congrArg Except.toOption (if_neg noSlash)).trans ?_
    exact congrArg (fun name => some (name, [], ((closeSqB + 1 : Nat) : Int))) attName
  · have noSlash := (noSlash_iff expr (closeSqB + 1)).mpr slash
    rw [if_neg slash]
    exact congrArg Except.toOption (if_pos noSlash)

theorem splitPredicate_value {expr : Text} {openSqB closeSqB equal : Nat}
    (isAt : expr[openSqB + 1]? = some '@') (afterEqual : openSqB + 2 ≤ equal)
    (closed : indexOf expr ']' openSqB = some closeSqB)
    (found : indexOf expr '=' openSqB = some equal) (before : equal < closeSqB)
    (long : 1 < units Char.utf8Size (slice expr (equal + 1) closeSqB)) :
    (splitPredicate expr openSqB).toOption =
      if expr[equal + 1]? = some '\'' ∧ expr[closeSqB - 1]? = some '\'' ∧
          expr[closeSqB + 1]? = some '/' then
        some (slice expr (openSqB + 2) equal, substr expr (equal + 2) (closeSqB - 1 - (equal + 2)),
          ((closeSqB + 1 : Nat) : Int))
      else none := by
  have same : at_ expr (openSqB + 1) = '@' := (at_iff (by decide) (openSqB + 1)).mpr isAt
  have isLong : find expr '=' openSqB ≠ -1 ∧
      moreThanOneByte expr (find expr '=' openSqB) closeSqB = true := by
    rw [find_some found, moreThanOneByte_iff]
    exact ⟨by omega, before, long⟩
  have attName := substr_slice expr afterEqual
  have first := at_iff (s := expr) (c := '\'') (by decide) (equal + 1)
  have last := at_iff (s := expr) (c := '\'') (by decide) (closeSqB - 1)
  have position : ((closeSqB - 1 : Nat) : Int) = (closeSqB : Int) - 1 := by omega
  rw [position] at last
  unfold splitPredicate
  rw [if_neg (not_not.mpr same), find_some closed]
  dsimp only [bind, Except.bind]
  rw [if_pos isLong, find_some found]
  by_cases quoted : expr[equal + 1]? = some '\'' ∧ expr[closeSqB - 1]? = some '\''
  · have noThrow : ¬ (at_ expr (equal + 1) ≠ '\'' ∨ at_ expr (closeSqB - 1) ≠ '\'') :=
      not_or.mpr ⟨not_not.mpr (first.mpr quoted.1), not_not.mpr (last.mpr quoted.2)⟩
    rw [if_neg noThrow]
    by_cases slash : expr[closeSqB + 1]? = some '/'
    · have noSlash := (noSlash_iff expr (closeSqB + 1)).not.mpr (not_not.mpr slash)
      have accepted : expr[equal + 1]? = some '\'' ∧ expr[closeSqB - 1]? = some '\'' ∧
        expr[closeSqB + 1]? = some '/' := ⟨quoted.1, quoted.2, slash⟩
      rw [if_pos accepted]
      refine (congrArg Except.toOption (if_neg noSlash)).trans ?_
      exact congrArg (fun name => some (name, _, ((closeSqB + 1 : Nat) : Int))) attName
    · have noSlash := (noSlash_iff expr (closeSqB + 1)).mpr slash
      have refused : ¬ (expr[equal + 1]? = some '\'' ∧ expr[closeSqB - 1]? = some '\'' ∧
        expr[closeSqB + 1]? = some '/') := fun accepted => slash accepted.2.2
      rw [if_neg refused]
      exact congrArg Except.toOption (if_pos noSlash)
  · have throws : at_ expr (equal + 1) ≠ '\'' ∨ at_ expr (closeSqB - 1) ≠ '\'' := by
      rw [ne_eq, ne_eq, ← not_and_or]
      exact fun both => quoted ⟨first.mp both.1, last.mp both.2⟩
    have refused : ¬ (expr[equal + 1]? = some '\'' ∧ expr[closeSqB - 1]? = some '\'' ∧
      expr[closeSqB + 1]? = some '/') := fun accepted => quoted ⟨accepted.1, accepted.2.1⟩
    rw [if_pos throws, if_neg refused]
    rfl

theorem valueAt_short {expr : Text} {openSqB closeSqB : Nat}
    (noValue : ∀ equal, indexOf expr '=' openSqB = some equal → equal < closeSqB →
      units Char.utf8Size (slice expr (equal + 1) closeSqB) ≤ 1) :
    valueAt expr openSqB closeSqB = .absent false := by
  unfold valueAt
  cases found : indexOf expr '=' openSqB with
  | none => rfl
  | some equal =>
    dsimp only
    by_cases before : equal < closeSqB
    · rw [if_pos before]
      have short := noValue equal found before
      cases value : slice expr (equal + 1) closeSqB with
      | nil => rfl
      | cons c rest =>
        rw [value] at short
        cases rest with
        | nil =>
          have one : c.utf8Size = 1 := by
            have positive := Char.utf8Size_pos c
            simp only [units, List.map_cons, List.map_nil, List.sum_cons, List.sum_nil] at short
            omega
          exact if_pos one
        | cons d rest =>
          have long := units_more Char.utf8Size_pos c d rest
          omega
    · exact if_neg before

theorem valueAt_long {expr : Text} {openSqB closeSqB equal : Nat}
    (found : indexOf expr '=' openSqB = some equal) (before : equal < closeSqB)
    (long : 1 < units Char.utf8Size (slice expr (equal + 1) closeSqB)) :
    if expr[equal + 1]? = some '\'' ∧ expr[closeSqB - 1]? = some '\'' then
      valueAt expr openSqB closeSqB = .quoted equal ∧ equal + 2 ≤ closeSqB - 1
    else
      valueAt expr openSqB closeSqB = .malformed ∨ valueAt expr openSqB closeSqB = .absent true := by
  unfold valueAt
  rw [found]
  dsimp only
  rw [if_pos before]
  cases value : slice expr (equal + 1) closeSqB with
  | nil =>
    rw [value] at long
    cases long
  | cons c rest =>
    rw [value] at long
    cases rest with
    | nil =>
      simp only [units, List.map_cons, List.map_nil, List.sum_cons, List.sum_nil] at long
      have notAscii : c.utf8Size ≠ 1 := by omega
      have noQuote : expr[equal + 1]? ≠ some '\'' := by
        rw [slice_head value]
        rintro same
        cases same
        exact notAscii rfl
      rw [if_neg fun both => noQuote both.1]
      dsimp only
      rw [if_neg notAscii]
      split
      · exact Or.inr rfl
      · exact Or.inl rfl
    | cons d rest =>
      by_cases quoted : expr[equal + 1]? = some '\'' ∧ expr[closeSqB - 1]? = some '\''
      · rw [if_pos quoted]
        exact ⟨if_pos quoted, quotes_apart value⟩
      · rw [if_neg quoted]
        exact Or.inl (if_neg quoted)

theorem splitPredicate_cpp {expr : Text} {openSqB : Nat} (isOpen : expr[openSqB]? = some '[')
    (closes : testAt expr openSqB ≠ .unclosed) :
    (splitPredicate expr openSqB).toOption = (testAt expr openSqB).cpp := by
  unfold testAt at closes ⊢
  by_cases isAt : expr[openSqB + 1]? = some '@'
  · rw [if_neg (not_not.mpr isAt)] at closes ⊢
    cases closed : indexOf expr ']' openSqB with
    | none =>
      rw [closed] at closes
      exact absurd rfl closes
    | some closeSqB =>
      have afterClose := indexOf_after isOpen isAt (by decide) (by decide) closed
      dsimp only
      by_cases noValue : ∀ equal, indexOf expr '=' openSqB = some equal → equal < closeSqB →
          units Char.utf8Size (slice expr (equal + 1) closeSqB) ≤ 1
      · rw [splitPredicate_nameOnly isAt afterClose closed noValue, valueAt_short noValue]
        by_cases slash : expr[closeSqB + 1]? = some '/'
        · rw [if_pos slash, if_neg (not_not.mpr slash)]
          rfl
        · rw [if_neg slash, if_pos slash]
          rfl
      · simp only [not_forall, Nat.not_le] at noValue
        obtain ⟨equal, found, before, long⟩ := noValue
        have afterEqual := indexOf_after isOpen isAt (by decide) (by decide) found
        have shape := valueAt_long found before long
        rw [splitPredicate_value isAt afterEqual closed found before long]
        by_cases slash : expr[closeSqB + 1]? = some '/'
        · rw [if_neg (not_not.mpr slash)]
          by_cases quoted : expr[equal + 1]? = some '\'' ∧ expr[closeSqB - 1]? = some '\''
          · rw [if_pos quoted] at shape
            obtain ⟨isQuoted, apart⟩ := shape
            have attValue := substr_slice expr apart
            rw [if_pos ⟨quoted.1, quoted.2, slash⟩, isQuoted]
            have position : ((closeSqB - 1 : Nat) : Int) = (closeSqB : Int) - 1 := by omega
            rw [position] at attValue
            exact congrArg
              (fun value => some (slice expr (openSqB + 2) equal, value, ((closeSqB + 1 : Nat) : Int)))
              attValue
          · rw [if_neg quoted] at shape
            rw [if_neg fun all => quoted ⟨all.1, all.2.1⟩]
            obtain isMalformed | isForeign := shape
            · rw [isMalformed]
              rfl
            · rw [isForeign]
              rfl
        · rw [if_neg fun all => slash all.2.2, if_pos slash]
          rfl
  · rw [if_pos isAt, splitPredicate_noAt isAt]
    rfl

end Cpp

/-- A part as the splitter in C++ returns it, where what is missing is empty. -/
def PathPart.texts (p : PathPart) : List Text :=
  [p.nsPrefix.getD [], p.localName, p.attName.getD [], p.attValue.getD []]

/-- What the splitter in C++ makes of a position, unless brackets are not closed there. -/
def Shape.cpp : Shape → Option (Option (List Text × Int))
  | .stop => some none
  | .part p foreign next => if foreign then none else some (some (p.texts, next))
  | _ => none

namespace Cpp

theorem prefixAt_cpp (expr : Text) (pos slash : Nat) :
    (if find expr ':' pos ≠ -1 ∧ find expr ':' pos < slash then
        substr expr pos (find expr ':' pos - pos) else []) = (prefixAt expr pos slash).1.getD [] ∧
      (if find expr ':' pos ≠ -1 ∧ find expr ':' pos < slash then find expr ':' pos + 1 else pos) =
        ((prefixAt expr pos slash).2 : Int) := by
  unfold prefixAt
  cases found : indexOf expr ':' pos with
  | none =>
    have noColon : ¬ ((-1 : Int) ≠ -1 ∧ (-1 : Int) < slash) := fun both => both.1 rfl
    rw [find_none found, if_neg noColon, if_neg noColon]
    exact ⟨rfl, rfl⟩
  | some colon =>
    have after := (indexOf_spec found).1
    rw [find_some found, substr_slice expr after]
    dsimp only
    by_cases before : colon < slash
    · have detach : (colon : Int) ≠ -1 ∧ (colon : Int) < slash := by omega
      rw [if_pos detach, if_pos detach, if_pos before]
      exact ⟨rfl, rfl⟩
    · have attached : ¬ ((colon : Int) ≠ -1 ∧ (colon : Int) < slash) := by omega
      rw [if_neg attached, if_neg attached, if_neg before]
      exact ⟨rfl, rfl⟩

def splitLocalname (expr nsPrefix : Text) (pos nextSlashPos nextOpenSqB : Int) :
    Except Text (Option (List Text × Int)) := do
  if nextOpenSqB ≠ -1 ∧ nextOpenSqB < nextSlashPos then
    if nextOpenSqB ≤ pos then
      throw ("Wrong square bracket location in XPath expression ".toList ++ expr)
    let localname := substr expr pos (nextOpenSqB - pos)
    let (attName, attValue, nextSlashPos) ← splitPredicate expr nextOpenSqB
    return some ([nsPrefix, localname, attName, attValue], nextSlashPos + 1)
  else
    let localname := substr expr pos (nextSlashPos - pos)
    return some ([nsPrefix, localname, [], []], nextSlashPos + 1)

theorem splitPart_slash {expr : Text} {pos slash : Nat}
    (found : indexOf expr '/' pos = some slash) :
    splitPart expr pos =
      splitLocalname expr ((prefixAt expr pos slash).1.getD []) (prefixAt expr pos slash).2 slash
        (find expr '[' pos) := by
  obtain ⟨nsPrefix, start⟩ := prefixAt_cpp expr pos slash
  rw [← nsPrefix, ← start]
  unfold splitPart
  rw [find_some found]
  exact if_neg (by omega)

theorem splitLocalname_plain {expr nsPrefix : Text} {start slash : Nat} {nextOpenSqB : Int}
    (ordered : start ≤ slash) (noBracket : ¬ (nextOpenSqB ≠ -1 ∧ nextOpenSqB < slash)) :
    splitLocalname expr nsPrefix start slash nextOpenSqB =
      .ok (some ([nsPrefix, slice expr start slash, [], []], (slash + 1 : Nat))) := by
  unfold splitLocalname
  rw [if_neg noBracket, substr_slice expr ordered]
  rfl

theorem splitLocalname_bracket {expr nsPrefix : Text} {start slash openSqB : Nat}
    (before : openSqB < slash) (after : start < openSqB) :
    splitLocalname expr nsPrefix start slash openSqB =
      (splitPredicate expr openSqB).map fun (attName, attValue, next) =>
        some ([nsPrefix, slice expr start openSqB, attName, attValue], next + 1) := by
  have bracket : (openSqB : Int) ≠ -1 ∧ (openSqB : Int) < slash := by omega
  unfold splitLocalname
  rw [if_pos bracket, if_neg (by omega), substr_slice expr (Nat.le_of_lt after)]
  cases splitPredicate expr openSqB <;> rfl

theorem splitLocalname_cpp {expr : Text} {nsPrefix : Option Text} {pos start slash : Nat}
    (ordered : start ≤ slash)
    (closes : partAt expr nsPrefix start slash (indexOf expr '[' pos) ≠ .unclosed) :
    (splitLocalname expr (nsPrefix.getD []) start slash (find expr '[' pos)).toOption =
      (partAt expr nsPrefix start slash (indexOf expr '[' pos)).cpp := by
  unfold partAt at closes ⊢
  cases found : indexOf expr '[' pos with
  | none =>
    rw [find_none found, splitLocalname_plain ordered fun both => both.1 rfl]
    rfl
  | some openSqB =>
    rw [found] at closes
    rw [find_some found]
    dsimp only at closes ⊢
    by_cases before : openSqB < slash
    · rw [if_pos before] at closes ⊢
      by_cases wrong : openSqB ≤ start
      · have bracket : (openSqB : Int) ≠ -1 ∧ (openSqB : Int) < slash := by omega
        unfold splitLocalname
        rw [if_pos wrong, if_pos bracket, if_pos (by omega)]
        rfl
      · rw [if_neg wrong] at closes ⊢
        rw [splitLocalname_bracket before (Nat.lt_of_not_le wrong)]
        have closes' : testAt expr openSqB ≠ .unclosed := by
          intro unclosed
          rw [unclosed] at closes
          exact closes rfl
        have test := splitPredicate_cpp (indexOf_spec found).2.1 closes'
        have mapped : ∀ result : Except Text (Text × Text × Int), ∀ f : _ → Option (List Text × Int),
            (result.map f).toOption = result.toOption.map f := by
          intro result f
          cases result <;> rfl
        rw [mapped, test]
        cases shape : testAt expr openSqB with
        | malformed => rfl
        | unclosed => exact absurd shape closes'
        | closed attName attValue foreign slash => cases foreign <;> rfl
    · rw [if_neg before, splitLocalname_plain ordered (by omega)]
      rfl

theorem splitPart_cpp {expr : Text} {pos : Nat} (closes : shapeAt expr pos ≠ .unclosed) :
    (splitPart expr pos).toOption = (shapeAt expr pos).cpp := by
  unfold shapeAt at closes ⊢
  cases found : indexOf expr '/' pos with
  | none =>
    unfold splitPart
    rw [find_none found]
    rfl
  | some slash =>
    rw [found] at closes
    rw [splitPart_slash found]
    exact splitLocalname_cpp (prefixAt_start found).2 closes

theorem testAt_unclosed {expr : Text} {openSqB : Nat} (unclosed : testAt expr openSqB = .unclosed) :
    expr[openSqB + 1]? = some '@' ∧ indexOf expr ']' openSqB = none := by
  unfold testAt at unclosed
  by_cases isAt : expr[openSqB + 1]? = some '@'
  · rw [if_neg (not_not.mpr isAt)] at unclosed
    cases closed : indexOf expr ']' openSqB with
    | none => exact ⟨isAt, rfl⟩
    | some closeSqB =>
      rw [closed] at unclosed
      dsimp only at unclosed
      split at unclosed
      · cases unclosed
      · split at unclosed <;> cases unclosed
  · rw [if_pos isAt] at unclosed
    cases unclosed

theorem partAt_unclosed {expr : Text} {nsPrefix : Option Text} {start slash : Nat}
    {bracket : Option Nat} (unclosed : partAt expr nsPrefix start slash bracket = .unclosed) :
    ∃ openSqB, bracket = some openSqB ∧ openSqB < slash ∧ start < openSqB ∧
      testAt expr openSqB = .unclosed := by
  unfold partAt at unclosed
  cases bracket with
  | none => cases unclosed
  | some openSqB =>
    dsimp only at unclosed
    by_cases before : openSqB < slash
    · rw [if_pos before] at unclosed
      by_cases wrong : openSqB ≤ start
      · rw [if_pos wrong] at unclosed
        cases unclosed
      · rw [if_neg wrong] at unclosed
        cases shape : testAt expr openSqB with
        | malformed =>
          rw [shape] at unclosed
          cases unclosed
        | unclosed => exact ⟨openSqB, rfl, before, Nat.lt_of_not_le wrong, shape⟩
        | closed attName attValue foreign slash =>
          rw [shape] at unclosed
          cases unclosed
    · rw [if_neg before] at unclosed
      cases unclosed

theorem splitPart_unclosed {expr : Text} {pos : Nat} (unclosed : shapeAt expr pos = .unclosed)
    (starts : expr[0]? = some '/') : ∃ part, splitPart expr pos = .ok (some (part, 1)) := by
  unfold shapeAt at unclosed
  cases found : indexOf expr '/' pos with
  | none =>
    rw [found] at unclosed
    cases unclosed
  | some slash =>
    rw [found] at unclosed
    obtain ⟨openSqB, bracket, before, after, test⟩ := partAt_unclosed unclosed
    obtain ⟨isAt, noClose⟩ := testAt_unclosed test
    obtain ⟨attName, result⟩ := splitPredicate_unclosed isAt noClose starts
    rw [splitPart_slash found, find_some bracket, splitLocalname_bracket before after, result]
    exact ⟨_, rfl⟩

end Cpp

end Semaine.Xml
