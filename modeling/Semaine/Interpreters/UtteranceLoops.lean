import Semaine.Interpreters.UtteranceInterpreter
import Semaine.Library.RegexWords

/-! The loops over the words of the user end, and what they count. -/
namespace Semaine.Interpreters
open JavaText Semaine.Dialogue

namespace UtteranceInterpreter

def patterns : List Text := feelingPatterns ++ changePatterns

def Rewrite.parses : Rewrite → Bool
  | pattern p _ => (Regex.parse p.toList).isSome
  | plain _ _ => true

theorem patterns_parse : patterns.all (fun p => (Regex.parse p).isSome) = true ∧
    (beforeTagging ++ afterTagging).all Rewrite.parses = true := by
  decide +kernel

def lineLoops : List Loop :=
  [agreeLoop, disagreeLoop, peopleLoop, theyLoop, notPeopleLoop, youKnowLoop, youLoop,
    pragmaticLoop, othersLoop, speakerLoop, speakerVerbLoop, wordLoop "(laugh)",
    negatedLoop "(laugh)"] ++ selfLoops.map Prod.fst ++ futureLoops

theorem lineLoops_shape :
    lineLoops.all (fun l => decide (Regex.Anywhere l.whole l.part) &&
      decide (2 ≤ l.part.minLength)) = true := by
  decide +kernel

theorem single_letters (w : Text) : ∀ r ∈ Regex.letters w, r.items = [r] := by
  intro r member
  obtain ⟨c, _, rfl⟩ := List.mem_map.mp member
  rfl

theorem minLength_letters (w : Text) : ((Regex.letters w).map Regex.minLength).sum = w.length := by
  induction w with
  | nil => rfl
  | cons c w ih =>
    change 1 + ((Regex.letters w).map Regex.minLength).sum = w.length + 1
    rw [ih, Nat.add_comm]

theorem wordLoop_whole {word : String} (literal : IsLiteral word.toList) :
    (wordLoop word).whole =
      Regex.sequence (Regex.dots :: Regex.letters word.toList ++ [Regex.dots]) := by
  have text : (wordLoop word).pattern = ".*".toList ++ word.toList ++ ".*".toList := rfl
  have opens : ({} : Regex.Parsing).scan ".*".toList =
      some (({} : Regex.Parsing).addAll [Regex.dots]) := by rfl
  unfold Loop.whole regex
  rw [text, (Regex.parse_word literal opens).2]
  rfl

theorem wordLoop_part {word : String} (literal : IsLiteral word.toList) :
    (wordLoop word).part = Regex.literal word.toList := by
  have text : (wordLoop word).replacePattern = [] ++ word.toList ++ [] := rfl
  unfold Loop.part regex
  have opens : ({} : Regex.Parsing).scan [] = some (({} : Regex.Parsing).addAll []) := rfl
  rw [text, List.append_nil, (Regex.parse_word literal opens).1]
  rfl

def negation : List Regex :=
  [.alt (Regex.literal "not ".toList) (Regex.literal "n't ".toList),
    Regex.upTo (.seq (.seq (.char .visible) (.star (.char .visible)))
      (.seq (.char (.oneOf [' '])) (.star (.char (.oneOf [' ']))))) 3]

def negationText : Text := "((not )|(n't ))((\\S)+ +)\x7b0,3\x7d".toList

theorem negation_opens :
    ({} : Regex.Parsing).scan negationText = some (({} : Regex.Parsing).addAll negation) ∧
      ({} : Regex.Parsing).scan (".*".toList ++ negationText) =
        some (({} : Regex.Parsing).addAll (Regex.dots :: negation)) :=
  ⟨by rfl, by rfl⟩

theorem negatedLoop_whole {word : String} (literal : IsLiteral word.toList) :
    (negatedLoop word).whole = Regex.sequence
      (Regex.dots :: (negation ++ Regex.letters word.toList) ++ [Regex.dots]) := by
  have text : (negatedLoop word).pattern =
      ".*".toList ++ negationText ++ word.toList ++ ".*".toList := rfl
  unfold Loop.whole regex
  rw [text, (Regex.parse_word literal negation_opens.2).2]
  rfl

theorem negatedLoop_part {word : String} (literal : IsLiteral word.toList) :
    (negatedLoop word).part = Regex.sequence (negation ++ Regex.letters word.toList) := by
  have text : (negatedLoop word).replacePattern = negationText ++ word.toList ++ [] := rfl
  unfold Loop.part regex
  rw [text, List.append_nil, (Regex.parse_word literal negation_opens.1).1]
  rfl

theorem wordLoop_shape {word : String} (literal : IsLiteral word.toList) :
    Regex.Anywhere (wordLoop word).whole (wordLoop word).part := by
  rw [wordLoop_whole literal, wordLoop_part literal]
  exact Regex.anywhere_sequence (single_letters _)

theorem wordLoop_shortens {word : String} (literal : IsLiteral word.toList)
    (long : 2 ≤ word.toList.length) :
    Regex.Shortens (wordLoop word).whole (wordLoop word).part := by
  apply (wordLoop_shape literal).shortens
  rw [wordLoop_part literal, Regex.literal, Regex.minLength_sequence, minLength_letters]
  exact long

theorem negatedLoop_shortens {word : String} (literal : IsLiteral word.toList)
    (long : 2 ≤ word.toList.length) :
    Regex.Shortens (negatedLoop word).whole (negatedLoop word).part := by
  have single : ∀ r ∈ negation ++ Regex.letters word.toList, r.items = [r] := by
    intro r member
    rcases List.mem_append.mp member with front | letter
    · simp only [negation, List.mem_cons, List.not_mem_nil, or_false] at front
      rcases front with rfl | rfl
      · rfl
      · rfl
    · exact single_letters _ r letter
  rw [negatedLoop_whole literal, negatedLoop_part literal]
  apply (Regex.anywhere_sequence single).shortens
  rw [Regex.minLength_sequence, List.map_append, List.sum_append, minLength_letters]
  omega

/-- The part of the pattern of the loop, which has fewer alternatives than the replaced part. -/
def notPragmaticPart : Regex :=
  regex ("((not )|(n['']t )|( appearing )|( she)|( she[''])|( he)|( he[''])|( them ))".toList ++
    "((\\S)+ +)\x7b0,4\x7d".toList ++ pragmaticWords)

theorem notPragmatic_shortens : Regex.Shortens notPragmaticLoop.whole notPragmaticLoop.part := by
  have shape : Regex.Anywhere notPragmaticLoop.whole notPragmaticPart := by decide +kernel
  have narrower : Regex.Narrower notPragmaticPart.items notPragmaticLoop.part.items := by
    decide +kernel
  have long : 2 ≤ notPragmaticLoop.part.minLength := by decide +kernel
  exact shape.shortens_of_narrower narrower long

def countedWords : List String := negativeWords ++ positiveWords

def countingLoops : List Loop :=
  notPragmaticLoop :: lineLoops ++ countedWords.map wordLoop ++ countedWords.map negatedLoop

def bare (word : String) : Text := word.toList.filter fun c => !hasMeaning c

theorem countedWords_shape :
    countedWords.all (fun word => (decide (word = "(laugh)") ||
      decide (IsLiteral word.toList) && decide (2 ≤ word.toList.length)) &&
        !(bare word).contains ' ') = true := by
  rfl

theorem lineLoops_shorten {l : Loop} (member : l ∈ lineLoops) : Regex.Shortens l.whole l.part := by
  have checked := List.all_eq_true.mp lineLoops_shape l member
  rw [Bool.and_eq_true, decide_eq_true_eq, decide_eq_true_eq] at checked
  exact checked.1.shortens checked.2

theorem countedWords_cases {word : String} (member : word ∈ countedWords) :
    word = "(laugh)" ∨ IsLiteral word.toList ∧ 2 ≤ word.toList.length := by
  have checked := List.all_eq_true.mp countedWords_shape word member
  rw [Bool.and_eq_true] at checked
  simpa using checked.1

theorem bare_plain {word : String} (member : word ∈ countedWords) : ' ' ∉ bare word := by
  have checked := List.all_eq_true.mp countedWords_shape word member
  rw [Bool.and_eq_true] at checked
  simpa using checked.2

theorem countingLoops_shorten {l : Loop} (member : l ∈ countingLoops) :
    Regex.Shortens l.whole l.part := by
  simp only [countingLoops, List.cons_append, List.append_assoc, List.mem_cons, List.mem_append,
    List.mem_map] at member
  rcases member with rfl | line | ⟨word, counted, rfl⟩ | ⟨word, counted, rfl⟩
  · exact notPragmatic_shortens
  · exact lineLoops_shorten line
  · rcases countedWords_cases counted with rfl | ⟨literal, long⟩
    · exact lineLoops_shorten (by simp [lineLoops])
    · exact wordLoop_shortens literal long
  · rcases countedWords_cases counted with rfl | ⟨literal, long⟩
    · exact lineLoops_shorten (by simp [lineLoops])
    · exact negatedLoop_shortens literal long

/-- Every loop ends, after at most as many turns as the utterance has characters, with a text that
its pattern does not match. -/
theorem countingLoops_end : ∀ l ∈ countingLoops, ∀ utterance : Text,
    Regex.Turns l.whole l.part utterance (l.run utterance).1 (l.run utterance).2 ∧
      l.whole.isMatch (l.run utterance).2 = false ∧
      (l.run utterance).1 + (l.run utterance).2.length ≤ utterance.length := by
  intro l member utterance
  have shortens := countingLoops_shorten member
  have turns := Regex.turns_countMatches shortens utterance
  exact ⟨turns, turns.ends, turns.length_le shortens⟩

theorem countingLoops_end_agree :
    agreeLoop.whole.isMatch (agreeLoop.run "yes yes".toList).2 = false :=
  (countingLoops_end agreeLoop (by simp [countingLoops, lineLoops]) "yes yes".toList).2.1

theorem laugh_shape : (wordLoop "(laugh)").part = Regex.literal (bare "(laugh)") := by
  rfl

theorem wordLoop_literal {word : String} (member : word ∈ countedWords) :
    (wordLoop word).part = Regex.literal (bare word) ∧
      Regex.Anywhere (wordLoop word).whole (wordLoop word).part := by
  rcases countedWords_cases member with rfl | ⟨literal, _⟩
  · have checked := List.all_eq_true.mp lineLoops_shape (wordLoop "(laugh)") (by simp [lineLoops])
    rw [Bool.and_eq_true, decide_eq_true_eq] at checked
    exact ⟨laugh_shape, checked.1⟩
  · have same : bare word = word.toList := by
      apply List.filter_eq_self.mpr
      intro c inside
      rw [literal c inside]
      rfl
    rw [same]
    exact ⟨wordLoop_part literal, wordLoop_shape literal⟩

/-- In an utterance of one line, a word is counted as often as it can stand in it without
overlaps. -/
theorem wordLoop_greatest {word : String} (member : word ∈ countedWords) {utterance : Text}
    (line : ∀ c ∈ utterance, isLineEnd c = false) :
    IsGreatest {n | Regex.Apart (bare word) n utterance} ((wordLoop word).run utterance).1 := by
  obtain ⟨part, shape⟩ := wordLoop_literal member
  have counting : wordLoop word ∈ countingLoops := by
    simp only [countingLoops, List.mem_append, List.mem_map]
    exact .inl (.inr ⟨word, member, rfl⟩)
  have turns := Regex.turns_countMatches (countingLoops_shorten counting) utterance
  rw [part] at shape turns
  have greatest := turns.isGreatest shape (bare_plain member) line
  unfold Loop.run
  rw [part]
  exact greatest

theorem wordLoop_greatest_good :
    IsGreatest {n | Regex.Apart (bare "good") n "good good".toList}
      ((wordLoop "good").run "good good".toList).1 :=
  wordLoop_greatest (by simp [countedWords, positiveWords]) (by simp [isLineEnd])

end UtteranceInterpreter
end Semaine.Interpreters
