import Semaine.Dialogue.SpokenWords
import Semaine.Dialogue.UtteranceActionProposer

/-! The speech marks that are found for a phrase of a response text. -/
namespace Semaine.Dialogue
open JavaText Semaine.Xml

def wordsUpTo (s : Text) (i : Nat) : Nat := (split (s.take i) ' ').length + 1

section
variable {before after : List SpokenWord} (given : before ≠ []) (given' : after ≠ [])
include given given'

theorem wordsUpTo_blank :
    wordsUpTo (spokenText (before ++ after)) (spokenText before).length = before.length + 1 := by
  unfold wordsUpTo
  rw [spokenText_append given given', List.take_left, split_spokenText given, List.length_map]

theorem wordsUpTo_inner {phrase : List Text} (areWords : ∀ u ∈ phrase, IsWord u) {d : Char}
    {rest : Text} (begins : Begins phrase after (d :: rest)) :
    wordsUpTo (spokenText (before ++ after))
        ((spokenText before).length + ((literal phrase).length + 2)) =
      before.length + phrase.length + 1 := by
  have text := spokenText_append given given'
  rw [← begins.text] at text
  have spaced : Spaced (spokenText (before ++ after)) := spaced_spokenText (by simp [given])
  have inside : (spokenText before).length + ((literal phrase).length + 2) ≤
      (spokenText (before ++ after)).length := by
    rw [text]
    simp only [List.length_append, List.length_cons]
    omega
  have earlier : (spokenText (before ++ after)).take
      ((spokenText before).length + ((literal phrase).length + 2) - 1) =
        spokenText before ++ ' ' :: literal phrase := by
    have regroup : spokenText before ++ ' ' :: (literal phrase ++ d :: rest) =
        (spokenText before ++ ' ' :: literal phrase) ++ d :: rest := by simp
    rw [text, regroup]
    apply List.take_left'
    simp only [List.length_append, List.length_cons]
    omega
  have first := count_spokenText given
  have second := count_literal begins.given.1 areWords
  unfold wordsUpTo
  rw [length_split_take spaced inside, earlier, List.count_append, List.count_cons_self]
  omega

end

theorem wordsUpTo_first {phrase : List Text} {words : List SpokenWord}
    (areWords : ∀ u ∈ phrase, IsWord u) {d : Char} {rest : Text}
    (begins : Begins phrase words (d :: rest)) :
    wordsUpTo (spokenText words) ((literal phrase).length + 1) = phrase.length + 1 := by
  have text := begins.text
  have spaced : Spaced (spokenText words) := spaced_spokenText begins.given.2
  have inside : (literal phrase).length + 1 ≤ (spokenText words).length := by
    rw [← text]
    simp only [List.length_append, List.length_cons]
    omega
  have earlier : (spokenText words).take ((literal phrase).length + 1 - 1) = literal phrase := by
    rw [← text, Nat.add_sub_cancel, List.take_left]
  have count := count_literal begins.given.1 areWords
  unfold wordsUpTo
  rw [length_split_take spaced inside, earlier]
  omega

theorem blank_of_space {words : List SpokenWord} {c : Char} (member : c ∈ spokenText words)
    (space : isSpace c = true) : c = ' ' := by
  rcases mem_spokenText member with blank | ⟨w, _, inside⟩
  · exact blank
  · have visible := w.noBlank c inside
    rw [isBlank_of_isSpace space] at visible
    cases visible

section
variable {phrase : List Text} (given : phrase ≠ []) (areWords : ∀ u ∈ phrase, IsWord u)
  {words : List SpokenWord} (spoken : words ≠ [])
include given areWords spoken

theorem cut_at {start : Nat} {c : Char} {x : Text}
    (here : (spokenText words).drop start = c :: (literal phrase ++ x)) (space : isSpace c = true)
    (ends : Ends x) : ∃ before after, words = before ++ after ∧ before ≠ [] ∧ after ≠ [] ∧
      start = (spokenText before).length ∧ Begins phrase after x := by
  have shape := (List.take_append_drop start (spokenText words)).symm
  rw [here] at shape
  have blank : c = ' ' := blank_of_space (by rw [shape]; simp) space
  rw [blank] at shape
  obtain ⟨before, after, rfl, given1, given2, front, rest⟩ := spokenText_cut spoken shape
  refine ⟨before, after, rfl, given1, given2, ?_, begins_of_text given areWords ends rest⟩
  rw [← front, List.length_take]
  have inside := congrArg List.length here
  simp only [List.length_drop, List.length_cons] at inside
  omega

theorem inner_found {start stop : Nat}
    (found : search (innerMatcher (literal phrase)) (spokenText words) = some (start, stop)) :
    ∃ k x, 0 < k ∧ Begins phrase (words.drop k) x ∧
      wordsUpTo (spokenText words) start = k + 1 ∧
      wordsUpTo (spokenText words) stop = k + phrase.length + 1 := by
  obtain ⟨_, n, matched, rfl⟩ := search_some found
  obtain ⟨rfl, c, d, rest, here, space, boundary⟩ := innerMatcher_some.mp matched
  have ends : Ends (d :: rest) := by
    intro e first
    cases first
    exact boundary
  obtain ⟨before, after, rfl, given1, given2, rfl, begins⟩ :=
    cut_at given areWords spoken here space ends
  refine ⟨before.length, d :: rest, List.length_pos_of_ne_nil given1, ?_,
    wordsUpTo_blank given1 given2, wordsUpTo_inner given1 given2 areWords begins⟩
  rw [List.drop_left]
  exact begins

theorem ending_found {start stop : Nat}
    (found : search (endMatcher (literal phrase)) (spokenText words) = some (start, stop)) :
    ∃ k x, 0 < k ∧ Begins phrase (words.drop k) x ∧
      wordsUpTo (spokenText words) start = k + 1 ∧ words.length = k + phrase.length := by
  obtain ⟨_, n, matched, rfl⟩ := search_some found
  obtain ⟨rfl, c, rest, here, space, boundaries⟩ := endMatcher_some.mp matched
  have ends : Ends rest := by
    intro e first
    exact List.all_eq_true.mp boundaries e (List.mem_of_mem_head? first)
  obtain ⟨before, after, rfl, given1, given2, rfl, begins⟩ :=
    cut_at given areWords spoken here space ends
  have lengths := begins.boundary_iff.mp boundaries
  refine ⟨before.length, rest, List.length_pos_of_ne_nil given1, ?_,
    wordsUpTo_blank given1 given2, ?_⟩
  · rw [List.drop_left]
    exact begins
  · rw [List.length_append, lengths]

end

theorem drop_blank {words : List SpokenWord} {k : Nat} (positive : 0 < k)
    (inside : k < words.length) : ∃ start, start ≤ (spokenText words).length ∧
      (spokenText words).drop start = ' ' :: spokenText (words.drop k) := by
  have given : words.take k ≠ [] := by
    apply List.ne_nil_of_length_pos
    rw [List.length_take]
    omega
  have given' : words.drop k ≠ [] := by
    apply List.ne_nil_of_length_pos
    rw [List.length_drop]
    omega
  have text := spokenText_append given given'
  rw [List.take_append_drop] at text
  refine ⟨(spokenText (words.take k)).length, ?_, ?_⟩
  · rw [text, List.length_append]
    exact Nat.le_add_right _ _
  · rw [text, List.drop_left]

theorem nowhere {phrase : List Text} {words : List SpokenWord}
    (noInner : search (innerMatcher (literal phrase)) (spokenText words) = none)
    (noStart : startMatcher (literal phrase) (spokenText words) = none)
    (noEnd : search (endMatcher (literal phrase)) (spokenText words) = none)
    {k : Nat} {x : Text} (begins : Begins phrase (words.drop k) x) : k = 0 ∧ x = [] := by
  have text := begins.text
  cases k with
  | zero =>
    refine ⟨rfl, ?_⟩
    cases x with
    | nil => rfl
    | cons d rest =>
      have boundary := begins.ends d rfl
      have matched := startMatcher_some.mpr ⟨rfl, d, rest, text.symm, boundary⟩
      rw [List.drop_zero, noStart] at matched
      cases matched
  | succ k =>
    have inside : k + 1 < words.length := by
      have some := List.length_pos_of_ne_nil begins.given.2
      rw [List.length_drop] at some
      omega
    obtain ⟨start, within, here⟩ := drop_blank (Nat.succ_pos k) inside
    rw [← text] at here
    cases x with
    | nil =>
      have matched := endMatcher_some.mpr ⟨rfl, ' ', [], here, rfl, rfl⟩
      rw [search_none noEnd within] at matched
      cases matched
    | cons d rest =>
      have boundary := begins.ends d rfl
      have matched := innerMatcher_some.mpr ⟨rfl, ' ', d, rest, here, rfl, boundary⟩
      rw [search_none noInner within] at matched
      cases matched

variable {env : Environment}

theorem noLineEnd_spokenText {words : List SpokenWord} :
    ∀ c ∈ spokenText words, isLineEnd c = false := by
  intro c member
  rcases mem_spokenText member with rfl | ⟨w, _, inside⟩
  · rfl
  · rcases List.mem_append.mp inside with letter | mark
    · exact (isWordCharacter_cases (w.isWord.2 c letter)).2.2
    · have isMark := w.isMark c (Option.mem_toList.mp mark)
      unfold isPunctuation at isMark
      simp only [Bool.or_eq_true, decide_eq_true_eq] at isMark
      rcases isMark with ((rfl | rfl) | rfl) | rfl <;> rfl

theorem matchedMarks_compiled {value : Text}
    {find findStart findEnd : Text → Option (Nat × Nat)}
    (compiled : env.compile (innerPattern (trim value)) = .ok find)
    (compiledStart : env.compile (startPattern (trim value)) = .ok findStart)
    (compiledEnd : env.compile (endPattern (trim value)) = .ok findEnd) (s : Text) :
    matchedMarks env s value = .ok (match find s with
      | some (start, stop) => some (wordsUpTo s start, wordsUpTo s stop)
      | none =>
        match findStart s with
        | some (_, stop) => some (1, wordsUpTo s stop)
        | none =>
          (findEnd s).map fun found => (wordsUpTo s found.1, (split s ' ').length + 1)) := by
  unfold innerPattern at compiled
  unfold startPattern at compiledStart
  unfold endPattern at compiledEnd
  unfold matchedMarks
  rw [compiled, compiledStart, compiledEnd]
  simp only [bind, Except.bind]
  cases find s with
  | some found => rfl
  | none =>
    cases findStart s with
    | some found => rfl
    | none => cases findEnd s <;> rfl

theorem matchedMarks_phrase (engine : RegexEngine env.compile) {phrase : List Text}
    (given : phrase ≠ []) (areWords : ∀ u ∈ phrase, IsWord u) (plain : IsLiteral (literal phrase))
    {words : List SpokenWord} (spoken : words ≠ []) :
    (∃ k x, Begins phrase (words.drop k) x ∧ (0 < k ∨ x ≠ []) ∧
        matchedMarks env (spokenText words) (literal phrase) =
          .ok (some (k + 1, k + phrase.length + 1))) ∨
      ((∀ k x, Begins phrase (words.drop k) x → k = 0 ∧ x = []) ∧
        matchedMarks env (spokenText words) (literal phrase) = .ok none) := by
  obtain ⟨find, compiled, finds⟩ := engine.inner plain
  obtain ⟨findStart, compiledStart, findsStart⟩ := engine.start plain
  obtain ⟨findEnd, compiledEnd, findsEnd⟩ := engine.ending plain
  rw [← trim_literal given areWords] at compiled compiledStart compiledEnd
  rw [matchedMarks_compiled compiled compiledStart compiledEnd, finds, findsStart,
    findsEnd _ noLineEnd_spokenText]
  cases inner : search (innerMatcher (literal phrase)) (spokenText words) with
  | some found =>
    obtain ⟨k, x, positive, begins, first, last⟩ := inner_found given areWords spoken inner
    refine .inl ⟨k, x, begins, .inl positive, ?_⟩
    simp only [first, last]
  | none =>
    cases atStart : startMatcher (literal phrase) (spokenText words) with
    | some n =>
      obtain ⟨rfl, d, rest, text, boundary⟩ := startMatcher_some.mp atStart
      have ends : Ends (d :: rest) := by
        intro e first
        cases first
        exact boundary
      have begins := begins_of_text given areWords ends text.symm
      refine .inl ⟨0, d :: rest, begins, .inr (List.cons_ne_nil d rest), ?_⟩
      simp only [Option.map_some, wordsUpTo_first areWords begins, Nat.zero_add]
    | none =>
      cases atEnd : search (endMatcher (literal phrase)) (spokenText words) with
      | some found =>
        obtain ⟨k, x, positive, begins, first, lengths⟩ :=
          ending_found given areWords spoken atEnd
        refine .inl ⟨k, x, begins, .inl positive, ?_⟩
        simp only [Option.map_none, Option.map_some, first, split_spokenText spoken, List.length_map,
          lengths]
      | none =>
        exact .inr ⟨fun k x begins => nowhere inner atStart atEnd begins, rfl⟩

end Semaine.Dialogue
