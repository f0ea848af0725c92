import Semaine.Library.JavaSplit

/-! Regular expressions that consist of a literal text between classes of characters: what
`java.util.regex` documents about their first match. -/
namespace JavaText

def isBoundary (c : Char) : Bool := isSpace c || c = '.' || c = ',' || c = '?' || c = '!'

/-- The characters before which `$` may match, other than at the end of a text. -/
def isLineEnd (c : Char) : Bool :=
  c = '\n' || c = '\r' || c = '\u0085' || c = '\u2028' || c = '\u2029'

def hasMeaning (c : Char) : Bool := "\\^$.|?*+()[]\x7b\x7d".toList.contains c

/-- A text without the characters that have a meaning in a regular expression. -/
def IsLiteral (s : Text) : Prop := ∀ c ∈ s, hasMeaning c = false

instance (s : Text) : Decidable (IsLiteral s) := List.decidableBAll (hasMeaning · = false) s

abbrev Matcher := Text → Option Nat

/-- The first position at which there is a match, and the position after it. -/
def search (matcher : Matcher) (s : Text) : Option (Nat × Nat) :=
  match matcher s with
  | some n => some (0, n)
  | none =>
    match s with
    | [] => none
    | _ :: rest => (search matcher rest).map fun (start, stop) => (start + 1, stop + 1)

theorem search_some {matcher : Matcher} {s : Text} {start stop : Nat}
    (found : search matcher s = some (start, stop)) :
    start ≤ s.length ∧ ∃ n, matcher (s.drop start) = some n ∧ stop = start + n := by
  induction s generalizing start stop with
  | nil =>
    unfold search at found
    cases here : matcher [] with
    | some n =>
      rw [here] at found
      cases found
      exact ⟨Nat.le_refl 0, _, here, (Nat.zero_add _).symm⟩
    | none =>
      rw [here] at found
      cases found
  | cons c rest ih =>
    unfold search at found
    cases here : matcher (c :: rest) with
    | some n =>
      rw [here] at found
      cases found
      exact ⟨Nat.zero_le _, _, here, (Nat.zero_add _).symm⟩
    | none =>
      rw [here] at found
      obtain ⟨⟨start, stop⟩, later, same⟩ := Option.map_eq_some_iff.mp found
      cases same
      obtain ⟨inside, n, matched, rfl⟩ := ih later
      exact ⟨Nat.succ_le_succ inside, n, matched, Nat.add_right_comm start n 1⟩

theorem search_none {matcher : Matcher} {s : Text} (absent : search matcher s = none) {i : Nat}
    (inside : i ≤ s.length) : matcher (s.drop i) = none := by
  induction s generalizing i with
  | nil =>
    unfold search at absent
    rw [List.drop_nil]
    cases here : matcher [] with
    | some n =>
      rw [here] at absent
      cases absent
    | none => rfl
  | cons c rest ih =>
    unfold search at absent
    cases here : matcher (c :: rest) with
    | some n =>
      rw [here] at absent
      cases absent
    | none =>
      rw [here] at absent
      cases i with
      | zero => exact here
      | succ i =>
        rw [List.drop_succ_cons]
        exact ih (Option.map_eq_none_iff.mp absent) (Nat.le_of_succ_le_succ inside)

/-- `^literal[\s.,\?!]` at its only place. -/
def startMatcher (literal : Text) : Matcher := fun s =>
  if literal.isPrefixOf s then
    match s.drop literal.length with
    | d :: _ => if isBoundary d then some (literal.length + 1) else none
    | [] => none
  else none

def innerMatcher (literal : Text) : Matcher
  | [] => none
  | c :: s => if isSpace c then (startMatcher literal s).map (· + 1) else none

/-- `[\s]literal[\s.,\?!]*$` in a text of one line. -/
def endMatcher (literal : Text) : Matcher
  | [] => none
  | c :: s =>
    if isSpace c && literal.isPrefixOf s && (s.drop literal.length).all isBoundary then
      some (s.length + 1)
    else none

def innerPattern (literal : Text) : Text :=
  "[\\s]".toList ++ literal ++ "[\\s.,\\?!]".toList

def startPattern (literal : Text) : Text := "^".toList ++ literal ++ "[\\s.,\\?!]".toList

def endPattern (literal : Text) : Text := "[\\s]".toList ++ literal ++ "[\\s.,\\?!]*$".toList

structure RegexEngine (compile : Text → Except Thrown (Text → Option (Nat × Nat))) : Prop where
  within : ∀ {pattern find s start stop}, compile pattern = .ok find →
    find s = some (start, stop) → start ≤ stop ∧ stop ≤ s.length
  inner : ∀ {literal}, IsLiteral literal → ∃ find, compile (innerPattern literal) = .ok find ∧
    ∀ s, find s = search (innerMatcher literal) s
  start : ∀ {literal}, IsLiteral literal → ∃ find, compile (startPattern literal) = .ok find ∧
    ∀ s, find s = (startMatcher literal s).map (0, ·)
  ending : ∀ {literal}, IsLiteral literal → ∃ find, compile (endPattern literal) = .ok find ∧
    ∀ s, (∀ c ∈ s, isLineEnd c = false) → find s = search (endMatcher literal) s

theorem startMatcher_some {literal s : Text} {n : Nat} :
    startMatcher literal s = some n ↔
      n = literal.length + 1 ∧ ∃ d rest, s = literal ++ d :: rest ∧ isBoundary d = true := by
  unfold startMatcher
  constructor
  · intro matched
    split at matched
    · rename_i starts
      obtain ⟨rest, rfl⟩ := List.isPrefixOf_iff_prefix.mp starts
      rw [List.drop_left] at matched
      cases rest with
      | nil => cases matched
      | cons d rest =>
        simp only at matched
        split at matched
        · rename_i boundary
          cases matched
          exact ⟨rfl, d, rest, rfl, boundary⟩
        · cases matched
    · cases matched
  · rintro ⟨rfl, d, rest, rfl, boundary⟩
    rw [if_pos (List.isPrefixOf_iff_prefix.mpr (List.prefix_append _ _)), List.drop_left]
    simp only [boundary, if_true]

theorem innerMatcher_some {literal s : Text} {n : Nat} :
    innerMatcher literal s = some n ↔ n = literal.length + 2 ∧
      ∃ c d rest, s = c :: (literal ++ d :: rest) ∧ isSpace c = true ∧ isBoundary d = true := by
  constructor
  · intro matched
    cases s with
    | nil => cases matched
    | cons c s =>
      rw [innerMatcher] at matched
      split at matched
      · rename_i space
        obtain ⟨m, starts, rfl⟩ := Option.map_eq_some_iff.mp matched
        obtain ⟨rfl, d, rest, rfl, boundary⟩ := startMatcher_some.mp starts
        exact ⟨rfl, c, d, rest, rfl, space, boundary⟩
      · cases matched
  · rintro ⟨rfl, c, d, rest, rfl, space, boundary⟩
    have starts : startMatcher literal (literal ++ d :: rest) = some (literal.length + 1) :=
      startMatcher_some.mpr ⟨rfl, d, rest, rfl, boundary⟩
    rw [innerMatcher, if_pos space, starts]
    rfl

theorem endMatcher_some {literal s : Text} {n : Nat} :
    endMatcher literal s = some n ↔ n = s.length ∧
      ∃ c rest, s = c :: (literal ++ rest) ∧ isSpace c = true ∧ rest.all isBoundary = true := by
  constructor
  · intro matched
    cases s with
    | nil => cases matched
    | cons c s =>
      rw [endMatcher] at matched
      split at matched
      · rename_i all
        rw [Bool.and_eq_true, Bool.and_eq_true, List.isPrefixOf_iff_prefix] at all
        obtain ⟨⟨space, rest, rfl⟩, boundaries⟩ := all
        rw [List.drop_left] at boundaries
        cases matched
        exact ⟨rfl, c, rest, rfl, space, boundaries⟩
      · cases matched
  · rintro ⟨rfl, c, rest, rfl, space, boundaries⟩
    have starts : literal.isPrefixOf (literal ++ rest) = true :=
      List.isPrefixOf_iff_prefix.mpr (List.prefix_append _ _)
    rw [endMatcher, List.drop_left, space, starts, boundaries]
    rfl

/-- The part of a pattern between so many characters at its front and at its back. -/
def middle (front back : Nat) (pattern : Text) : Text :=
  (pattern.drop front).take (pattern.length - (front + back))

theorem middle_append (front literal back : Text) :
    middle front.length back.length (front ++ literal ++ back) = literal := by
  unfold middle
  rw [List.append_assoc, List.drop_left, List.length_append, List.length_append]
  have length : front.length + (literal.length + back.length) - (front.length + back.length) =
      literal.length := by omega
  rw [length, List.take_left]

theorem middle_inner (literal : Text) : middle 4 9 (innerPattern literal) = literal :=
  middle_append "[\\s]".toList literal "[\\s.,\\?!]".toList

theorem middle_start (literal : Text) : middle 1 9 (startPattern literal) = literal :=
  middle_append "^".toList literal "[\\s.,\\?!]".toList

theorem middle_end (literal : Text) : middle 4 11 (endPattern literal) = literal :=
  middle_append "[\\s]".toList literal "[\\s.,\\?!]*$".toList

def literalCompile (pattern : Text) : Except Thrown (Text → Option (Nat × Nat)) :=
  if pattern = innerPattern (middle 4 9 pattern) ∧ IsLiteral (middle 4 9 pattern) then
    .ok (search (innerMatcher (middle 4 9 pattern)))
  else if pattern = startPattern (middle 1 9 pattern) ∧ IsLiteral (middle 1 9 pattern) then
    .ok fun s => (startMatcher (middle 1 9 pattern) s).map (0, ·)
  else if pattern = endPattern (middle 4 11 pattern) ∧ IsLiteral (middle 4 11 pattern) then
    .ok (search (endMatcher (middle 4 11 pattern)))
  else .error .patternSyntax

theorem literalCompile_ok {pattern : Text} {find : Text → Option (Nat × Nat)}
    (compiled : literalCompile pattern = .ok find) : ∃ literal,
      find = search (innerMatcher literal) ∨
      (find = fun s => (startMatcher literal s).map (0, ·)) ∨
      find = search (endMatcher literal) := by
  unfold literalCompile at compiled
  split at compiled
  · cases compiled
    exact ⟨_, .inl rfl⟩
  · split at compiled
    · cases compiled
      exact ⟨_, .inr (.inl rfl)⟩
    · split at compiled
      · cases compiled
        exact ⟨_, .inr (.inr rfl)⟩
      · cases compiled

theorem search_within {matcher : Matcher} {s : Text} {start stop : Nat}
    (within : ∀ rest n, matcher rest = some n → n ≤ rest.length)
    (found : search matcher s = some (start, stop)) : start ≤ stop ∧ stop ≤ s.length := by
  obtain ⟨inside, n, matched, rfl⟩ := search_some found
  have fits := within _ _ matched
  rw [List.length_drop] at fits
  omega

theorem innerPattern_last (literal : Text) : (innerPattern literal).getLast? = some ']' := by
  have last : "[\\s.,\\?!]".toList.getLast? = some ']' := by decide
  rw [innerPattern, List.getLast?_append, last, Option.some_or]

theorem endPattern_last (literal : Text) : (endPattern literal).getLast? = some '$' := by
  have last : "[\\s.,\\?!]*$".toList.getLast? = some '$' := by decide
  rw [endPattern, List.getLast?_append, last, Option.some_or]

theorem literalEngine : RegexEngine literalCompile where
  within := by
    intro pattern find s start stop compiled found
    obtain ⟨literal, rfl | rfl | rfl⟩ := literalCompile_ok compiled
    · apply search_within _ found
      intro rest n matched
      obtain ⟨rfl, c, d, others, rfl, _, _⟩ := innerMatcher_some.mp matched
      simp only [List.length_cons, List.length_append]
      omega
    · obtain ⟨n, matched, same⟩ := Option.map_eq_some_iff.mp found
      obtain ⟨rfl, d, rest, rfl, _⟩ := startMatcher_some.mp matched
      cases same
      simp only [List.length_cons, List.length_append]
      omega
    · apply search_within _ found
      intro rest n matched
      exact Nat.le_of_eq (endMatcher_some.mp matched).1
  inner := by
    intro literal plain
    refine ⟨search (innerMatcher literal), ?_, fun _ => rfl⟩
    unfold literalCompile
    rw [middle_inner, if_pos ⟨rfl, plain⟩]
  start := by
    intro literal plain
    refine ⟨fun s => (startMatcher literal s).map (0, ·), ?_, fun _ => rfl⟩
    have other : ¬ (startPattern literal = innerPattern (middle 4 9 (startPattern literal)) ∧
        IsLiteral (middle 4 9 (startPattern literal))) := by
      rintro ⟨same, _⟩
      cases (List.cons.inj same).1
    unfold literalCompile
    rw [if_neg other, middle_start, if_pos ⟨rfl, plain⟩]
  ending := by
    intro literal plain
    refine ⟨search (endMatcher literal), ?_, fun _ _ => rfl⟩
    have noInner : ¬ (endPattern literal = innerPattern (middle 4 9 (endPattern literal)) ∧
        IsLiteral (middle 4 9 (endPattern literal))) := by
      rintro ⟨same, _⟩
      have last := congrArg List.getLast? same
      rw [endPattern_last, innerPattern_last] at last
      cases last
    have noStart : ¬ (endPattern literal = startPattern (middle 1 9 (endPattern literal)) ∧
        IsLiteral (middle 1 9 (endPattern literal))) := by
      rintro ⟨same, _⟩
      cases (List.cons.inj same).1
    unfold literalCompile
    rw [if_neg noInner, if_neg noStart, middle_end, if_pos ⟨rfl, plain⟩]

end JavaText
