import Semaine.Library.LiteralPatterns

/-! Response texts as sequences of words, and how the words up to a position are counted. -/
namespace Semaine.Dialogue
open JavaText

def isPunctuation (c : Char) : Bool := c = '.' || c = ',' || c = '?' || c = '!'

def isWordCharacter (c : Char) : Bool := !isBlank c && !isPunctuation c && !isLineEnd c

def IsWord (letters : Text) : Prop := letters ≠ [] ∧ ∀ c ∈ letters, isWordCharacter c = true

structure SpokenWord where
  letters : Text
  punctuation : Option Char := none
  isWord : IsWord letters
  isMark : ∀ c ∈ punctuation, isPunctuation c = true

def SpokenWord.text (w : SpokenWord) : Text := w.letters ++ w.punctuation.toList

def spokenText (words : List SpokenWord) : Text := [' '].intercalate (words.map SpokenWord.text)

theorem isWordCharacter_cases {c : Char} (h : isWordCharacter c = true) :
    isBlank c = false ∧ isPunctuation c = false ∧ isLineEnd c = false := by
  unfold isWordCharacter at h
  simpa [and_assoc] using h

theorem SpokenWord.given (w : SpokenWord) : w.text ≠ [] := by
  unfold SpokenWord.text
  intro empty
  exact w.isWord.1 (List.append_eq_nil_iff.mp empty).1

theorem SpokenWord.noBlank (w : SpokenWord) : ∀ c ∈ w.text, isBlank c = false := by
  intro c member
  unfold SpokenWord.text at member
  rcases List.mem_append.mp member with letter | mark
  · exact (isWordCharacter_cases (w.isWord.2 c letter)).1
  · have isMark := w.isMark c (Option.mem_toList.mp mark)
    unfold isPunctuation at isMark
    simp only [Bool.or_eq_true, decide_eq_true_eq] at isMark
    rcases isMark with ((rfl | rfl) | rfl) | rfl <;> decide

theorem spokenText_cons (w : SpokenWord) (words : List SpokenWord) (given : words ≠ []) :
    spokenText (w :: words) = w.text ++ ' ' :: spokenText words := by
  unfold spokenText
  rw [List.map_cons, List.intercalate_cons_of_ne_nil (by simpa using given), List.append_assoc,
    List.singleton_append]

theorem spokenText_single (w : SpokenWord) : spokenText [w] = w.text :=
  List.intercalate_singleton

theorem mem_spokenText {c : Char} {words : List SpokenWord} (member : c ∈ spokenText words) :
    c = ' ' ∨ ∃ w ∈ words, c ∈ w.text := by
  induction words with
  | nil => cases member
  | cons w words ih =>
    cases words with
    | nil =>
      rw [spokenText_single] at member
      exact .inr ⟨w, .head _, member⟩
    | cons next words =>
      rw [spokenText_cons w _ (List.cons_ne_nil next words), List.mem_append,
        List.mem_cons] at member
      rcases member with own | blank | later
      · exact .inr ⟨w, .head _, own⟩
      · exact .inl blank
      · exact (ih later).imp_right fun ⟨v, inside, here⟩ => ⟨v, .tail _ inside, here⟩

theorem splitOn_spokenText {words : List SpokenWord} (given : words ≠ []) :
    (spokenText words).splitOn ' ' = words.map SpokenWord.text := by
  apply List.splitOn_intercalate
  · intro text member blank
    obtain ⟨w, _, rfl⟩ := List.mem_map.mp member
    exact absurd (w.noBlank ' ' blank) (by decide)
  · simpa using given

theorem length_splitOn (s : Text) : (s.splitOn ' ').length = s.count ' ' + 1 := by
  induction s with
  | nil => rfl
  | cons c s ih =>
    rw [List.splitOn_cons_eq_if_modifyHead, List.count_cons]
    split
    · rw [List.length_cons, ih]
    · rw [List.length_modifyHead, ih]

theorem splitOn_blank (s : Text) : (s ++ [' ']).splitOn ' ' = s.splitOn ' ' ++ [[]] :=
  List.splitOn_append_cons_self s []

theorem splitOn_last {c : Char} (visible : c ≠ ' ') (s : Text) :
    ∃ pieces last, (s ++ [c]).splitOn ' ' = pieces ++ [last] ∧ last ≠ [] := by
  induction s with
  | nil =>
    refine ⟨[], [c], ?_, List.cons_ne_nil c []⟩
    exact List.splitOn_eq_singleton (by simpa using Ne.symm visible)
  | cons d s ih =>
    obtain ⟨pieces, last, split, given⟩ := ih
    rw [List.cons_append, List.splitOn_cons_eq_if_modifyHead, split]
    split
    · exact ⟨[] :: pieces, last, rfl, given⟩
    · cases pieces with
      | nil => exact ⟨[], d :: last, rfl, List.cons_ne_nil d last⟩
      | cons piece pieces => exact ⟨(d :: piece) :: pieces, last, rfl, given⟩

theorem split_visible {c : Char} (visible : c ≠ ' ') (s : Text) :
    split (s ++ [c]) ' ' = (s ++ [c]).splitOn ' ' := by
  obtain ⟨pieces, last, split, given⟩ := splitOn_last visible s
  unfold JavaText.split
  rw [if_neg (by simp), split]
  exact List.rdropWhile_concat_neg _ _ _ (by simpa using given)

theorem split_blank {c : Char} (visible : c ≠ ' ') (s : Text) :
    split (s ++ [c] ++ [' ']) ' ' = (s ++ [c]).splitOn ' ' := by
  obtain ⟨pieces, last, split, given⟩ := splitOn_last visible s
  unfold JavaText.split
  rw [if_neg (by simp), splitOn_blank, List.rdropWhile_concat_pos _ _ _ rfl, split]
  exact List.rdropWhile_concat_neg _ _ _ (by simpa using given)

def Spaced (s : Text) : Prop :=
  ∀ front rest, s = front ++ ' ' :: rest → ∃ front' c, front = front' ++ [c] ∧ c ≠ ' '

theorem length_split_take {s : Text} (spaced : Spaced s) {i : Nat} (inside : i ≤ s.length) :
    (split (s.take i) ' ').length = (s.take (i - 1)).count ' ' + 1 := by
  cases i with
  | zero => rfl
  | succ i =>
    obtain ⟨c, rest, shape, taken⟩ : ∃ c rest, s = s.take i ++ c :: rest ∧
        s.take (i + 1) = s.take i ++ [c] := by
      refine ⟨s[i], s.drop (i + 1), ?_, List.take_succ_eq_append_getElem inside⟩
      rw [List.getElem_cons_drop, List.take_append_drop]
    rw [taken, Nat.add_sub_cancel]
    by_cases blank : c = ' '
    · subst blank
      obtain ⟨front, d, before, visible⟩ := spaced _ _ shape
      rw [before, split_blank visible, length_splitOn]
    · rw [split_visible blank, length_splitOn, List.count_append]
      simp [blank]

theorem spaced_of_pieces {s : Text} (given : ∀ piece ∈ s.splitOn ' ', piece ≠ []) :
    Spaced s := by
  rintro front rest rfl
  rw [List.splitOn_append_cons_self] at given
  rcases List.eq_nil_or_concat' front with rfl | ⟨front, c, rfl⟩
  · exact absurd rfl (given [] (List.mem_append_left _ (.head _)))
  · refine ⟨front, c, rfl, ?_⟩
    rintro rfl
    rw [splitOn_blank] at given
    have empty : [] ∈ front.splitOn ' ' ++ [[]] := List.mem_append_right _ (.head _)
    exact given [] (List.mem_append_left _ empty) rfl

section
variable {words : List SpokenWord}

theorem spokenText_pieces (given : words ≠ []) :
    ∀ piece ∈ (spokenText words).splitOn ' ', piece ≠ [] := by
  intro piece member
  rw [splitOn_spokenText given] at member
  obtain ⟨w, _, rfl⟩ := List.mem_map.mp member
  exact w.given

theorem spaced_spokenText (given : words ≠ []) : Spaced (spokenText words) :=
  spaced_of_pieces (spokenText_pieces given)

theorem spokenText_given (given : words ≠ []) : spokenText words ≠ [] := by
  intro empty
  have pieces := spokenText_pieces given
  rw [empty] at pieces
  exact pieces [] (.head _) rfl

theorem split_spokenText (given : words ≠ []) :
    split (spokenText words) ' ' = words.map SpokenWord.text := by
  have pieces := spokenText_pieces given
  unfold split
  rw [if_neg (spokenText_given given), ← splitOn_spokenText given, List.rdropWhile_eq_self_iff]
  intro some empty
  exact pieces _ (List.getLast_mem some) (List.isEmpty_iff.mp empty)

theorem count_spokenText (given : words ≠ []) :
    (spokenText words).count ' ' + 1 = words.length := by
  rw [← length_splitOn, splitOn_spokenText given, List.length_map]

end

theorem isBlank_of_isSpace {c : Char} (h : isSpace c = true) : isBlank c = true := by
  unfold isSpace at h
  simp only [Bool.or_eq_true, decide_eq_true_eq] at h
  rcases h with ((((rfl | rfl) | rfl) | rfl) | rfl) | rfl <;> rfl

theorem isBoundary_letter {c : Char} (h : isWordCharacter c = true) : isBoundary c = false := by
  obtain ⟨visible, letter, _⟩ := isWordCharacter_cases h
  have space : isSpace c = false := by
    rw [Bool.eq_false_iff]
    intro space
    rw [isBlank_of_isSpace space] at visible
    cases visible
  unfold isPunctuation at letter
  unfold isBoundary
  rw [space]
  simpa using letter

theorem isBoundary_mark {c : Char} (h : isPunctuation c = true) : isBoundary c = true := by
  unfold isPunctuation at h
  unfold isBoundary
  simp only [Bool.or_eq_true] at h ⊢
  tauto

def Ends (s : Text) : Prop := ∀ c ∈ s.head?, isBoundary c = true

theorem letters_unique {u v x y : Text} (hu : ∀ c ∈ u, isWordCharacter c = true)
    (hv : ∀ c ∈ v, isWordCharacter c = true) (hx : Ends x) (hy : Ends y)
    (same : u ++ x = v ++ y) : u = v ∧ x = y := by
  induction u generalizing v with
  | nil =>
    cases v with
    | nil => exact ⟨rfl, same⟩
    | cons c v =>
      have boundary := hx c (by rw [List.nil_append] at same; rw [same]; rfl)
      rw [isBoundary_letter (hv c (.head v))] at boundary
      cases boundary
  | cons c u ih =>
    cases v with
    | nil =>
      have boundary := hy c (by rw [List.nil_append] at same; rw [← same]; rfl)
      rw [isBoundary_letter (hu c (.head u))] at boundary
      cases boundary
    | cons d v =>
      obtain ⟨rfl, rest⟩ := List.cons.inj same
      obtain ⟨rfl, follow⟩ := ih (fun e member => hu e (.tail c member))
        (fun e member => hv e (.tail c member)) rest
      exact ⟨rfl, follow⟩

def SpokenWord.rest (w : SpokenWord) : List SpokenWord → Text
  | [] => w.punctuation.toList
  | next :: words => w.punctuation.toList ++ ' ' :: spokenText (next :: words)

theorem spokenText_letters (w : SpokenWord) (words : List SpokenWord) :
    spokenText (w :: words) = w.letters ++ w.rest words := by
  cases words with
  | nil => exact spokenText_single w
  | cons next words =>
    rw [spokenText_cons w (next :: words) (List.cons_ne_nil next words)]
    exact List.append_assoc ..

theorem SpokenWord.rest_ends (w : SpokenWord) (words : List SpokenWord) : Ends (w.rest words) := by
  intro c first
  cases mark : w.punctuation with
  | some d =>
    have isMark := isBoundary_mark (w.isMark d mark)
    cases words <;>
    · unfold SpokenWord.rest at first
      rw [mark] at first
      cases first
      exact isMark
  | none =>
    cases words with
    | nil =>
      unfold SpokenWord.rest at first
      rw [mark] at first
      cases first
    | cons next words =>
      unfold SpokenWord.rest at first
      rw [mark] at first
      cases first
      decide

/-- A phrase stands at the start of some words with no punctuation between its words, and a text
follows it. -/
inductive Begins : List Text → List SpokenWord → Text → Prop where
  | last (w : SpokenWord) (words : List SpokenWord) : Begins [w.letters] (w :: words) (w.rest words)
  | next {phrase : List Text} {words : List SpokenWord} {x : Text} (w : SpokenWord)
    (unbroken : w.punctuation = none) (later : Begins phrase words x) :
    Begins (w.letters :: phrase) (w :: words) x

def literal (phrase : List Text) : Text := [' '].intercalate phrase

theorem begins_of_text {phrase : List Text} (given : phrase ≠ [])
    (areWords : ∀ u ∈ phrase, IsWord u)
    {x : Text} (ends : Ends x) {words : List SpokenWord}
    (same : literal phrase ++ x = spokenText words) : Begins phrase words x := by
  induction phrase generalizing words with
  | nil => exact absurd rfl given
  | cons u phrase ih =>
    obtain ⟨nonempty, letters⟩ := areWords u (.head phrase)
    cases words with
    | nil =>
      have empty : u = [] := by
        have nothing := (List.append_eq_nil_iff.mp same).1
        cases phrase with
        | nil =>
          rw [literal, List.intercalate_singleton] at nothing
          exact nothing
        | cons v phrase =>
          rw [literal, List.intercalate_cons_cons, List.append_assoc] at nothing
          exact (List.append_eq_nil_iff.mp nothing).1
      exact absurd empty nonempty
    | cons w words =>
      rw [spokenText_letters] at same
      cases phrase with
      | nil =>
        rw [literal, List.intercalate_singleton] at same
        obtain ⟨rfl, rfl⟩ := letters_unique letters w.isWord.2 ends (w.rest_ends words) same
        exact .last w words
      | cons v phrase =>
        rw [literal, List.intercalate_cons_cons, List.append_assoc, List.append_assoc] at same
        have blank : Ends ([' '] ++ ([' '].intercalate (v :: phrase) ++ x)) := by
          intro c first
          cases first
          decide
        obtain ⟨rfl, rest⟩ := letters_unique letters w.isWord.2 blank (w.rest_ends words) same
        have unbroken : w.punctuation = none := by
          cases mark : w.punctuation with
          | none => rfl
          | some c =>
            have isMark := w.isMark c mark
            have first : c = ' ' := by
              cases words <;>
              · unfold SpokenWord.rest at rest
                rw [mark] at rest
                exact (List.cons.inj rest).1.symm
            rw [first] at isMark
            cases isMark
        cases words with
        | nil =>
          unfold SpokenWord.rest at rest
          rw [unbroken] at rest
          cases rest
        | cons next words =>
          unfold SpokenWord.rest at rest
          rw [unbroken] at rest
          have later := ih (List.cons_ne_nil v phrase)
            (fun u member => areWords u (.tail _ member)) (List.cons.inj rest).2
          exact .next w unbroken later

theorem Begins.given {phrase : List Text} {words : List SpokenWord} {x : Text}
    (begins : Begins phrase words x) : phrase ≠ [] ∧ words ≠ [] := by
  cases begins <;> exact ⟨List.cons_ne_nil _ _, List.cons_ne_nil _ _⟩

theorem Begins.text {phrase : List Text} {words : List SpokenWord} {x : Text}
    (begins : Begins phrase words x) : literal phrase ++ x = spokenText words := by
  induction begins with
  | last w words =>
    rw [literal, List.intercalate_singleton, spokenText_letters]
  | @next phrase words x w unbroken later ih =>
    obtain ⟨given, given'⟩ := later.given
    have own : w.text = w.letters := by
      unfold SpokenWord.text
      rw [unbroken]
      exact List.append_nil _
    rw [spokenText_cons w words given', own, ← ih, literal, List.intercalate_cons_of_ne_nil given,
      List.append_assoc, List.append_assoc]
    rfl

theorem Begins.ends {phrase : List Text} {words : List SpokenWord} {x : Text}
    (begins : Begins phrase words x) : Ends x := by
  induction begins with
  | last w words => exact w.rest_ends words
  | next w unbroken later ih => exact ih

theorem Begins.letters {phrase : List Text} {words : List SpokenWord} {x : Text}
    (begins : Begins phrase words x) :
    (words.take phrase.length).map SpokenWord.letters = phrase := by
  induction begins with
  | last w words => rfl
  | next w unbroken later ih =>
    rw [List.length_cons, List.take_succ_cons, List.map_cons, ih]

theorem Begins.boundary_iff {phrase : List Text} {words : List SpokenWord} {x : Text}
    (begins : Begins phrase words x) :
    x.all isBoundary = true ↔ phrase.length = words.length := by
  induction begins with
  | last w words =>
    cases words with
    | nil =>
      have all : (w.rest []).all isBoundary = true := by
        rw [List.all_eq_true]
        intro c member
        exact isBoundary_mark (w.isMark c (Option.mem_toList.mp member))
      exact ⟨fun _ => rfl, fun _ => all⟩
    | cons next words =>
      constructor
      · intro all
        obtain ⟨c, letters, shape⟩ := List.exists_cons_of_ne_nil next.isWord.1
        have inside : c ∈ w.rest (next :: words) := by
          rw [SpokenWord.rest, spokenText_letters, shape]
          simp
        have boundary := List.all_eq_true.mp all c inside
        rw [isBoundary_letter (next.isWord.2 c (by rw [shape]; exact .head letters))] at boundary
        cases boundary
      · intro lengths
        cases lengths
  | next w unbroken later ih =>
    rw [ih, List.length_cons, List.length_cons, Nat.succ_inj]

theorem spokenText_cut {words : List SpokenWord} (given : words ≠ []) {front rest : Text}
    (same : spokenText words = front ++ ' ' :: rest) : ∃ before after, words = before ++ after ∧
      before ≠ [] ∧ after ≠ [] ∧ front = spokenText before ∧ rest = spokenText after := by
  have pieces := splitOn_spokenText given
  rw [same, List.splitOn_append_cons_self] at pieces
  obtain ⟨before, after, rfl, front', rest'⟩ := List.map_eq_append_iff.mp pieces.symm
  have joined (s : Text) {ws : List SpokenWord} (h : ws.map SpokenWord.text = s.splitOn ' ') :
      ws ≠ [] ∧ s = spokenText ws := by
    refine ⟨?_, ?_⟩
    · rintro rfl
      exact List.splitOn_ne_nil _ _ h.symm
    · unfold spokenText
      rw [h, List.intercalate_splitOn]
  obtain ⟨given1, rfl⟩ := joined front front'
  obtain ⟨given2, rfl⟩ := joined rest rest'
  exact ⟨before, after, rfl, given1, given2, rfl, rfl⟩

theorem spokenText_append {before after : List SpokenWord} (given : before ≠ [])
    (given' : after ≠ []) :
    spokenText (before ++ after) = spokenText before ++ ' ' :: spokenText after := by
  unfold spokenText
  rw [List.map_append, intercalate_append [' '] (by simpa using given) (by simpa using given'),
    List.append_assoc, List.singleton_append]

theorem count_literal {phrase : List Text} (given : phrase ≠ [])
    (areWords : ∀ u ∈ phrase, IsWord u) : (literal phrase).count ' ' + 1 = phrase.length := by
  unfold literal
  rw [← length_splitOn, List.splitOn_intercalate]
  · intro u member blank
    have letter := (isWordCharacter_cases ((areWords u member).2 ' ' blank)).1
    cases letter
  · exact given

theorem trim_literal {phrase : List Text} (given : phrase ≠ [])
    (areWords : ∀ u ∈ phrase, IsWord u) : trim (literal phrase) = literal phrase := by
  have visible := visible_words given (fun u member => (areWords u member).1)
    (fun u member c inside => (isWordCharacter_cases ((areWords u member).2 c inside)).1)
  exact visible.trim_self

end Semaine.Dialogue
