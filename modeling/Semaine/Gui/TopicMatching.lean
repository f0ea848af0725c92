import Semaine.Gui.ComponentInfo
import Semaine.Library.JavaSplit

/-! Which patterns match a topic, and when a component receives the topics that its patterns
match. -/
namespace Semaine.Gui
open JavaText

def segments (s : Text) : List Text := s.splitOn '.'

/-- A segment matches itself, an asterisk any segment, and a final `>` what is left. -/
inductive MatchSegments : List Text → List Text → Prop where
  | nil : MatchSegments [] []
  | rest (topic : List Text) : MatchSegments [['>']] topic
  | any {pattern topic : List Text} (segment : Text) (later : MatchSegments pattern topic) :
    MatchSegments (['*'] :: pattern) (segment :: topic)
  | same {pattern topic : List Text} (segment : Text) (later : MatchSegments pattern topic) :
    MatchSegments (segment :: pattern) (segment :: topic)

def MatchTopic (pattern topic : Text) : Prop := MatchSegments (segments pattern) (segments topic)

def IsTopic (topic : Text) : Prop := ∀ segment ∈ segments topic, segment ≠ []

/-- What is accepted without a match: a pattern with an asterisk that matches without the dots at
its end, and a pattern that ends in `.>` before another text than a segment. -/
def Overmatched (pattern topic : Text) : Prop :=
  ('*' ∈ pattern ∧ split pattern '.' ≠ segments pattern ∧
    MatchSegments (split pattern '.') (segments topic)) ∨
  ('*' ∉ pattern ∧ ∃ front c rest, pattern = front ++ ['.', '>'] ∧ topic = front ++ c :: rest ∧
    c ≠ '.')

/-- A single `>` is compared as an ordinary text. -/
def Undermatched (pattern topic : Text) : Prop := pattern = ['>'] ∧ topic ≠ ['>']

def tried : List Text → List Text
  | [] => []
  | pattern :: rest => if '*' ∈ pattern then [pattern] else pattern :: tried rest

theorem compare_cons (p t : Text) (ps ts : List Text) (n : Nat) :
    ((List.range (n + 1)).all fun i =>
        (p :: ps)[i]? = some ['*'] || (p :: ps)[i]? = (t :: ts)[i]?) =
      ((p = ['*'] || p = t) &&
        (List.range n).all fun i => ps[i]? = some ['*'] || ps[i]? = ts[i]?) := by
  rw [List.range_succ_eq_map, List.all_cons, List.all_map]
  simp [Function.comp_def]

theorem piecesMatch_cons {p t : Text} {ps ts : List Text} (more : ps ≠ []) :
    piecesMatch (p :: ps) (t :: ts) = ((p = ['*'] || p = t) && piecesMatch ps ts) := by
  obtain ⟨q, qs, rfl⟩ := List.exists_cons_of_ne_nil more
  unfold piecesMatch
  simp only [List.getLast?_cons_cons, List.length_cons, Nat.add_sub_cancel]
  split
  · rw [compare_cons]
    split
    · rename_i fewer
      rw [if_pos (Nat.lt_of_succ_lt_succ fewer), Bool.and_false]
    · rename_i enough
      rw [if_neg fun fewer => enough (Nat.succ_lt_succ fewer)]
  · split
    · rename_i differ
      rw [if_pos fun same => differ (congrArg Nat.succ same), Bool.and_false]
    · rename_i same
      rw [if_neg fun differ => differ (Nat.succ.inj (not_not.mp same)), compare_cons]

theorem matchSegments_cons {p t : Text} {ps ts : List Text} (more : ps ≠ []) :
    MatchSegments (p :: ps) (t :: ts) ↔ (p = ['*'] ∨ p = t) ∧ MatchSegments ps ts := by
  constructor
  · intro matched
    cases matched with
    | rest => exact absurd rfl more
    | any _ later => exact ⟨.inl rfl, later⟩
    | same _ later => exact ⟨.inr rfl, later⟩
  · rintro ⟨rfl | rfl, later⟩
    · exact .any t later
    · exact .same p later

theorem piecesMatch_iff (pattern topic : List Text) (given : pattern ≠ []) :
    piecesMatch pattern topic = true ↔ MatchSegments pattern topic := by
  induction pattern generalizing topic with
  | nil => exact absurd rfl given
  | cons p ps ih =>
    cases ps with
    | nil =>
      by_cases last : p = ['>']
      · have accepted : piecesMatch [p] topic = true := by
          unfold piecesMatch
          rw [last]
          rfl
        rw [accepted, last]
        exact ⟨fun _ => .rest topic, fun _ => rfl⟩
      · have other : ¬ some p = some ['>'] := fun same => last (Option.some.inj same)
        have compared : piecesMatch [p] topic =
            if 1 ≠ topic.length then false else p = ['*'] || some p = topic[0]? := by
          unfold piecesMatch
          rw [List.getLast?_singleton, if_neg other]
          simp
        rw [compared]
        constructor
        · intro accepted
          split at accepted
          · cases accepted
          · rename_i single
            obtain ⟨t, rfl⟩ := List.length_eq_one_iff.mp (not_not.mp single).symm
            rw [Bool.or_eq_true, decide_eq_true_iff, decide_eq_true_iff] at accepted
            rcases accepted with star | same
            · rw [star]
              exact .any t .nil
            · cases same
              exact .same p .nil
        · intro matched
          cases matched with
          | rest => exact absurd rfl last
          | any t later =>
            cases later
            rfl
          | same _ later =>
            cases later
            simp
    | cons q qs =>
      have more : q :: qs ≠ [] := List.cons_ne_nil q qs
      cases topic with
      | nil =>
        have refused : piecesMatch (p :: q :: qs) [] = false := by
          unfold piecesMatch
          split
          · exact if_pos (Nat.succ_pos _)
          · exact if_pos (Nat.succ_ne_zero _)
        rw [refused]
        constructor
        · intro impossible
          cases impossible
        · intro impossible
          cases impossible
      | cons t ts =>
        rw [piecesMatch_cons more, matchSegments_cons more, Bool.and_eq_true, ih ts more,
          Bool.or_eq_true, decide_eq_true_iff, decide_eq_true_iff]

theorem segments_join (s : Text) : ['.'].intercalate (segments s) = s :=
  List.intercalate_splitOn '.'

theorem segments_injective {s t : Text} (h : segments s = segments t) : s = t := by
  have joined := congrArg (['.'].intercalate) h
  rw [segments_join, segments_join] at joined
  exact joined

theorem segments_append (s t : Text) : segments (s ++ '.' :: t) = segments s ++ segments t :=
  List.splitOn_append_cons_self s t

theorem segments_given (s : Text) : segments s ≠ [] := List.splitOn_ne_nil _ _

theorem mem_join {c : Char} (inside : c ≠ '.') (pieces : List Text) :
    c ∈ ['.'].intercalate pieces ↔ ∃ segment ∈ pieces, c ∈ segment := by
  induction pieces with
  | nil => simp
  | cons first pieces ih =>
    cases pieces with
    | nil => simp
    | cons second pieces =>
      rw [List.intercalate_cons_cons, List.append_assoc, List.mem_append, List.mem_append, ih,
        List.mem_singleton, List.exists_mem_cons_iff]
      simp [inside]

theorem mem_segments {s : Text} {c : Char} (inside : c ≠ '.') :
    (∃ segment ∈ segments s, c ∈ segment) ↔ c ∈ s := by
  rw [← mem_join inside, segments_join]

theorem split_topic {topic : Text} (given : IsTopic topic) : split topic '.' = segments topic := by
  have nonempty : topic ≠ [] := by
    rintro rfl
    exact given [] (by decide) rfl
  unfold split
  rw [if_neg nonempty]
  change (segments topic).rdropWhile _ = segments topic
  rw [List.rdropWhile_eq_self_iff]
  intro whole empty
  exact given _ (List.getLast_mem whole) (List.isEmpty_iff.mp empty)

theorem MatchSegments.refl : ∀ topic, MatchSegments topic topic
  | [] => .nil
  | segment :: later => .same segment (refl later)

theorem MatchSegments.empty {pattern topic : List Text} (matched : MatchSegments pattern topic)
    (empty : [] ∈ pattern) : [] ∈ topic := by
  induction matched with
  | nil => exact empty
  | rest topic =>
    rw [List.mem_singleton] at empty
    cases empty
  | any segment later ih =>
    rw [List.mem_cons] at empty
    rcases empty with impossible | inside
    · cases impossible
    · exact .tail _ (ih inside)
  | same segment later ih =>
    rw [List.mem_cons] at empty
    rcases empty with rfl | inside
    · exact .head _
    · exact .tail _ (ih inside)

theorem MatchSegments.ordinary {pattern topic : List Text} (matched : MatchSegments pattern topic)
    (plain : ['*'] ∉ pattern) (last : pattern.getLast? ≠ some ['>']) : pattern = topic := by
  induction matched with
  | nil => rfl
  | rest topic => exact absurd rfl last
  | any segment later ih => exact absurd (.head _) plain
  | @same pattern topic segment later ih =>
    have others : ['*'] ∉ pattern := fun member => plain (.tail _ member)
    cases pattern with
    | nil =>
      cases later
      rfl
    | cons next pattern =>
      rw [List.getLast?_cons_cons] at last
      rw [ih others last]

theorem matchSegments_prefix {front topic : List Text} (plain : ['*'] ∉ front) :
    MatchSegments (front ++ [['>']]) topic ↔ ∃ rest, topic = front ++ rest := by
  induction front generalizing topic with
  | nil => exact ⟨fun _ => ⟨topic, rfl⟩, fun _ => .rest topic⟩
  | cons p front ih =>
    have others : ['*'] ∉ front := fun member => plain (.tail _ member)
    have noStar : p ≠ ['*'] := fun same => plain (same ▸ .head _)
    cases topic with
    | nil =>
      constructor
      · intro impossible
        cases front <;> cases impossible
      · rintro ⟨rest, impossible⟩
        cases impossible
    | cons t topic =>
      rw [List.cons_append, matchSegments_cons (by simp), ih others]
      constructor
      · rintro ⟨same, rest, rfl⟩
        exact ⟨rest, by rw [same.resolve_left noStar, List.cons_append]⟩
      · rintro ⟨rest, same⟩
        rw [List.cons_append, List.cons.injEq] at same
        exact ⟨.inr same.1.symm, rest, same.2⟩

variable {pattern topic : Text}

theorem star_accepted (given : IsTopic topic) (star : '*' ∈ pattern) :
    piecesMatch (split pattern '.') (split topic '.') = true ↔
      MatchTopic pattern topic ∨ Overmatched pattern topic := by
  have nonempty : pattern ≠ [] := List.ne_nil_of_mem star
  have cut : split pattern '.' = (segments pattern).rdropWhile (·.isEmpty) := by
    unfold split
    rw [if_neg nonempty]
    rfl
  have pieces : split pattern '.' ≠ [] := by
    obtain ⟨segment, member, inside⟩ := (mem_segments (by decide)).mpr star
    rw [cut, Ne, List.rdropWhile_eq_nil_iff]
    intro blank
    have empty := List.isEmpty_iff.mp (blank segment member)
    rw [empty] at inside
    cases inside
  rw [split_topic given, piecesMatch_iff _ _ pieces]
  constructor
  · intro accepted
    by_cases whole : split pattern '.' = segments pattern
    · rw [whole] at accepted
      exact .inl accepted
    · exact .inr (.inl ⟨star, whole, accepted⟩)
  · rintro (matched | ⟨_, _, accepted⟩ | ⟨plain, _⟩)
    · have noEmpty : [] ∉ segments pattern := by
        intro empty
        exact given [] (matched.empty empty) rfl
      have whole : split pattern '.' = segments pattern := by
        rw [cut, List.rdropWhile_eq_self_iff]
        intro some empty
        exact noEmpty (List.isEmpty_iff.mp empty ▸ List.getLast_mem some)
      rw [whole]
      exact matched
    · exact accepted
    · exact absurd star plain

theorem plain_segments (plain : '*' ∉ pattern) : ['*'] ∉ segments pattern :=
  fun member => plain ((mem_segments (by decide)).mp ⟨['*'], member, .head _⟩)

theorem prefix_accepted {front : Text} (plain : '*' ∉ front ++ ['.', '>']) :
    startsWith topic front = true ↔
      MatchTopic (front ++ ['.', '>']) topic ∨ Overmatched (front ++ ['.', '>']) topic := by
  have noStar : ['*'] ∉ segments front :=
    plain_segments fun member => plain (List.mem_append_left _ member)
  have pieces : segments (front ++ ['.', '>']) = segments front ++ [['>']] :=
    segments_append front ['>']
  unfold MatchTopic startsWith
  rw [pieces, matchSegments_prefix noStar, List.isPrefixOf_iff_prefix]
  constructor
  · rintro ⟨rest, rfl⟩
    cases rest with
    | nil => exact .inl ⟨[], by simp⟩
    | cons c rest =>
      by_cases dot : c = '.'
      · rw [dot]
        exact .inl ⟨segments rest, segments_append front rest⟩
      · exact .inr (.inr ⟨plain, front, c, rest, rfl, rfl, dot⟩)
  · rintro (⟨rest, same⟩ | ⟨star, _⟩ | ⟨_, front', c, rest, same, rfl, _⟩)
    · cases rest with
      | nil =>
        rw [List.append_nil] at same
        exact (segments_injective same) ▸ List.prefix_rfl
      | cons next rest =>
        have joined := segments_join topic
        rw [same, intercalate_append ['.'] (segments_given front) (List.cons_ne_nil next rest),
          segments_join, List.append_assoc] at joined
        exact ⟨_, joined⟩
    · exact absurd star plain
    · have fronts := List.append_cancel_right same
      rw [fronts]
      exact ⟨c :: rest, rfl⟩

theorem exact_accepted (plain : '*' ∉ pattern) (other : ¬ ['.', '>'] <:+ pattern) :
    pattern = topic ↔ MatchTopic pattern topic ∧ ¬ Undermatched pattern topic := by
  constructor
  · rintro rfl
    exact ⟨.refl _, fun ⟨same, different⟩ => different same⟩
  · rintro ⟨matched, found⟩
    by_cases single : pattern = ['>']
    · by_contra different
      exact found ⟨single, fun same => different (single.trans same.symm)⟩
    · have last : (segments pattern).getLast? ≠ some ['>'] := by
        intro last
        obtain ⟨front, pieces⟩ := List.getLast?_eq_some_iff.mp last
        have joined := segments_join pattern
        rw [pieces] at joined
        cases front with
        | nil => exact single joined.symm
        | cons first front =>
          rw [intercalate_append ['.'] (List.cons_ne_nil first front) (List.cons_ne_nil _ _),
            List.append_assoc] at joined
          exact other ⟨_, joined⟩
      exact segments_injective (matched.ordinary (plain_segments plain) last)

def Accepted (pattern topic : Text) : Prop :=
  (MatchTopic pattern topic ∧ ¬ Undermatched pattern topic) ∨ Overmatched pattern topic

theorem accepted_of_longer (longer : pattern ≠ ['>']) :
    Accepted pattern topic ↔ MatchTopic pattern topic ∨ Overmatched pattern topic := by
  unfold Accepted
  rw [and_iff_left fun found => longer found.1]

theorem tried_subset {patterns : List Text} (member : pattern ∈ tried patterns) :
    pattern ∈ patterns := by
  induction patterns with
  | nil => exact member
  | cons first rest ih =>
    unfold tried at member
    split at member
    · rw [List.mem_singleton] at member
      exact member ▸ .head _
    · rcases List.mem_cons.mp member with same | later
      · exact same ▸ .head _
      · exact .tail _ (ih later)

theorem receives_iff (given : IsTopic topic) (patterns : List Text) :
    receives topic patterns = true ↔ ∃ pattern ∈ tried patterns, Accepted pattern topic := by
  induction patterns with
  | nil =>
    constructor
    · intro impossible
      cases impossible
    · rintro ⟨pattern, impossible, _⟩
      cases impossible
  | cons pattern rest ih =>
    unfold receives tried
    split
    · rename_i star
      have longer : pattern ≠ ['>'] := by
        rintro rfl
        exact absurd star (by decide)
      rw [star_accepted given star, ← accepted_of_longer longer]
      simp
    · rename_i plain
      have first : (if ['.', '>'].isSuffixOf pattern then
          startsWith topic (pattern.take (pattern.length - 2)) || receives topic rest
        else pattern = topic || receives topic rest) = true ↔
          Accepted pattern topic ∨ receives topic rest = true := by
        split
        · rename_i ends
          obtain ⟨front, rfl⟩ := List.isSuffixOf_iff_suffix.mp ends
          have longer : front ++ ['.', '>'] ≠ ['>'] := by
            intro same
            have lengths := congrArg List.length same
            rw [List.length_append] at lengths
            cases lengths
          have cut : (front ++ ['.', '>']).take ((front ++ ['.', '>']).length - 2) = front := by
            rw [List.length_append]
            exact List.take_left
          rw [cut, Bool.or_eq_true, prefix_accepted plain, accepted_of_longer longer]
        · rename_i other
          have notSuffix : ¬ ['.', '>'] <:+ pattern :=
            fun suffix => other (List.isSuffixOf_iff_suffix.mpr suffix)
          have never : ¬ Overmatched pattern topic := by
            rintro (⟨star, _⟩ | ⟨_, front, _, _, same, _⟩)
            · exact plain star
            · exact notSuffix ⟨front, same.symm⟩
          rw [Bool.or_eq_true, decide_eq_true_iff, exact_accepted plain notSuffix]
          unfold Accepted
          rw [or_iff_left never]
      rw [first, ih, List.exists_mem_cons_iff]

/-- The patterns that are tried are enough: if any pattern matches, one of them is accepted, and
none of them is accepted wrongly unless another pattern matches. -/
structure Enough (patterns : List Text) (topic : Text) : Prop where
  found : (∃ pattern ∈ patterns, MatchTopic pattern topic) → ∃ pattern ∈ tried patterns,
    (MatchTopic pattern topic ∧ ¬ Undermatched pattern topic) ∨ Overmatched pattern topic
  covered : (∃ pattern ∈ tried patterns, Overmatched pattern topic) →
    ∃ pattern ∈ patterns, MatchTopic pattern topic

/-- A component receives the topics that its patterns match if and only if the patterns up to the
first one with an asterisk are enough. -/
theorem canReceive_iff (given : IsTopic topic) (patterns : List Text) :
    (canReceive (some patterns) topic = true ↔ ∃ pattern ∈ patterns, MatchTopic pattern topic) ↔
      Enough patterns topic := by
  unfold canReceive
  rw [receives_iff given]
  constructor
  · intro right
    constructor
    · exact right.mpr
    · rintro ⟨pattern, member, covered⟩
      exact right.mp ⟨pattern, member, .inr covered⟩
  · intro enough
    constructor
    · rintro ⟨pattern, member, ⟨matched, _⟩ | covered⟩
      · exact ⟨pattern, tried_subset member, matched⟩
      · exact enough.covered ⟨pattern, member, covered⟩
    · exact enough.found

theorem canReceive_asterisk :
    canReceive (some ["a.*".toList, "b".toList]) "a.c".toList = true ↔
      ∃ pattern ∈ ["a.*".toList, "b".toList], MatchTopic pattern "a.c".toList := by
  have matched : MatchTopic "a.*".toList "a.c".toList := .same "a".toList (.any "c".toList .nil)
  exact (canReceive_iff (by unfold IsTopic; decide) ["a.*".toList, "b".toList]).mpr
    { found := fun _ => ⟨_, .head _, .inl ⟨matched, fun found => absurd found.1 (by decide)⟩⟩
      covered := fun _ => ⟨_, .head _, matched⟩ }

/-- A pattern with an asterisk before the one that matches. -/
theorem earlierPattern_decides : ¬ ∀ (patterns : List Text) (topic : Text), IsTopic topic →
    (canReceive (some patterns) topic = true ↔ ∃ pattern ∈ patterns, MatchTopic pattern topic) := by
  intro right
  have received := (right ["a.*".toList, "b".toList] "b".toList (by unfold IsTopic; decide)).mpr
    ⟨"b".toList, .tail _ (.head _), .refl _⟩
  revert received
  decide

end Semaine.Gui
