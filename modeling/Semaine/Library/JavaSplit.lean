import Semaine.Library.JavaText

/-! `String.split` with the regular expressions for ends of lines and for white space. -/
namespace JavaText

def isSpace (c : Char) : Bool :=
  c = ' ' || c = '\t' || c = '\n' || c = '\x0b' || c = '\x0c' || c = '\r'

def pushFront (c : Char) : List Text → List Text
  | [] => [[c]]
  | piece :: pieces => (c :: piece) :: pieces

/-- All pieces between matches of `\r\n|\r|\n`. -/
def linePieces : Text → List Text
  | [] => [[]]
  | '\r' :: '\n' :: rest => [] :: linePieces rest
  | '\r' :: rest => [] :: linePieces rest
  | '\n' :: rest => [] :: linePieces rest
  | c :: rest => pushFront c (linePieces rest)

/-- `s.split("\r\n|\r|\n")`: the empty pieces at the end are dropped. -/
def splitLines (s : Text) : List Text :=
  if s = [] then [[]] else (linePieces s).rdropWhile (·.isEmpty)

/-- All pieces between matches of `\s+`: only the first and the last one can be empty. -/
def spacePieces : Text → List Text
  | [] => [[]]
  | c :: rest =>
    if isSpace c then [] :: spacePieces (rest.dropWhile isSpace)
    else pushFront c (spacePieces rest)
termination_by s => s.length
decreasing_by
  · have shorter := (List.dropWhile_sublist isSpace (l := rest)).length_le
    simp only [List.length_cons]
    omega
  · simp

def splitSpaces (s : Text) : List Text :=
  if s = [] then [[]] else (spacePieces s).rdropWhile (·.isEmpty)

theorem linePieces_cons {c : Char} (notReturn : c ≠ '\r') (notNewline : c ≠ '\n') (rest : Text) :
    linePieces (c :: rest) = pushFront c (linePieces rest) := by
  rw [linePieces]
  · intro others same
    exact absurd same notReturn
  · exact notReturn
  · exact notNewline

theorem linePieces_append {line : Text} (plain : ∀ c ∈ line, c ≠ '\r' ∧ c ≠ '\n') (rest : Text) :
    linePieces (line ++ '\n' :: rest) = line :: linePieces rest := by
  induction line with
  | nil => rw [List.nil_append, linePieces]
  | cons c line ih =>
    obtain ⟨notReturn, notNewline⟩ := plain c (.head line)
    have later := ih fun d member => plain d (.tail c member)
    rw [List.cons_append, linePieces_cons notReturn notNewline, later]
    rfl

theorem linePieces_lines {lines : List Text}
    (plain : ∀ line ∈ lines, ∀ c ∈ line, c ≠ '\r' ∧ c ≠ '\n') :
    linePieces (lines.flatMap (· ++ ['\n'])) = lines ++ [[]] := by
  induction lines with
  | nil => rfl
  | cons line lines ih =>
    have later := ih fun other member => plain other (.tail line member)
    rw [List.flatMap_cons, List.append_assoc, List.singleton_append,
      linePieces_append (plain line (.head lines)), later]
    rfl

theorem splitLines_lines {lines : List Text} (some : lines ≠ [])
    (nonempty : ∀ line ∈ lines, line ≠ [])
    (plain : ∀ line ∈ lines, ∀ c ∈ line, c ≠ '\r' ∧ c ≠ '\n') :
    splitLines (lines.flatMap (· ++ ['\n'])) = lines := by
  have given : lines.flatMap (· ++ ['\n']) ≠ [] := by
    obtain ⟨line, others, rfl⟩ := List.exists_cons_of_ne_nil some
    simp
  unfold splitLines
  rw [if_neg given, linePieces_lines plain, List.rdropWhile_concat_pos _ _ _ rfl,
    List.rdropWhile_eq_self_iff]
  intro last empty
  exact nonempty _ (List.getLast_mem last) (List.isEmpty_iff.mp empty)

theorem spacePieces_plain {word : Text} (plain : ∀ c ∈ word, isSpace c = false) :
    spacePieces word = [word] := by
  induction word with
  | nil => rw [spacePieces]
  | cons c word ih =>
    have own := plain c (.head word)
    have later := ih fun d member => plain d (.tail c member)
    rw [spacePieces, if_neg (by simp [own]), later]
    rfl

theorem spacePieces_append {word : Text} (plain : ∀ c ∈ word, isSpace c = false) (rest : Text) :
    spacePieces (word ++ ' ' :: rest) = word :: spacePieces (rest.dropWhile isSpace) := by
  induction word with
  | nil => rw [List.nil_append, spacePieces, if_pos (by decide)]
  | cons c word ih =>
    have own := plain c (.head word)
    have later := ih fun d member => plain d (.tail c member)
    rw [List.cons_append, spacePieces, if_neg (by simp [own]), later]
    rfl

theorem dropWhile_plain {word : Text} (plain : ∀ c ∈ word, isSpace c = false) :
    word.dropWhile isSpace = word := by
  cases word with
  | nil => rfl
  | cons c word => rw [List.dropWhile_cons_of_neg (by simp [plain c (.head word)])]

theorem splitSpaces_words {first second : Text} (plain : ∀ c ∈ first, isSpace c = false)
    (nonempty : second ≠ []) (plain' : ∀ c ∈ second, isSpace c = false) :
    splitSpaces (first ++ ' ' :: second) = [first, second] := by
  unfold splitSpaces
  rw [if_neg (by simp), spacePieces_append plain, dropWhile_plain plain', spacePieces_plain plain',
    List.rdropWhile_eq_self_iff]
  intro last
  simpa using nonempty

theorem notMem_piece {sep : Char} (s : Text) {piece : Text} (h : piece ∈ s.splitOn sep) :
    sep ∉ piece := by
  induction s generalizing piece with
  | nil =>
    rw [List.splitOn_nil, List.mem_singleton] at h
    rw [h]
    exact List.not_mem_nil
  | cons c rest ih =>
    rw [List.splitOn_cons_eq_if_modifyHead] at h
    split at h
    · rw [List.mem_cons] at h
      cases h with
      | inl isEmpty =>
        rw [isEmpty]
        exact List.not_mem_nil
      | inr later => exact ih later
    · rename_i other
      cases pieces : rest.splitOn sep with
      | nil => exact absurd pieces (List.splitOn_ne_nil sep rest)
      | cons head others =>
        rw [pieces, List.modifyHead_cons, List.mem_cons] at h
        rw [pieces] at ih
        cases h with
        | inl isHead =>
          have notHead : sep ∉ head := ih (List.mem_cons_self)
          have notFirst : sep ≠ c := by
            intro same
            simp [same] at other
          rw [isHead, List.mem_cons, not_or]
          exact ⟨notFirst, notHead⟩
        | inr later => exact ih (List.mem_cons_of_mem _ later)

theorem notMem_split {sep : Char} {s piece : Text} (h : piece ∈ split s sep) : sep ∉ piece := by
  unfold split at h
  split at h
  · rw [List.mem_singleton.mp h]
    exact List.not_mem_nil
  · exact notMem_piece s ((List.rdropWhile_prefix _ _).subset h)

theorem intercalate_append {α : Type} (sep : List α) {front rest : List (List α)}
    (given : front ≠ []) (given' : rest ≠ []) :
    sep.intercalate (front ++ rest) = sep.intercalate front ++ sep ++ sep.intercalate rest := by
  induction front with
  | nil => exact absurd rfl given
  | cons first front ih =>
    cases front with
    | nil =>
      rw [List.singleton_append, List.intercalate_cons_of_ne_nil given', List.intercalate_singleton]
    | cons second front =>
      have later := ih (List.cons_ne_nil second front)
      rw [List.cons_append, List.intercalate_cons_of_ne_nil (by simp), later,
        List.intercalate_cons_cons]
      simp only [List.append_assoc]

theorem flatMap_blank {words : List Text} (some : words ≠ []) :
    words.flatMap (· ++ [' ']) = [' '].intercalate words ++ [' '] := by
  induction words with
  | nil => exact absurd rfl some
  | cons word words ih =>
    cases words with
    | nil => simp
    | cons next words =>
      have later := ih (List.cons_ne_nil next words)
      rw [List.flatMap_cons, later, List.intercalate_cons_cons, ← List.append_assoc]

structure Visible (s : Text) : Prop where
  head : ∃ c rest, s = c :: rest ∧ isBlank c = false
  last : ∃ c rest, s = rest ++ [c] ∧ isBlank c = false

theorem Visible.trim_self {s : Text} (h : Visible s) : trim s = s := by
  obtain ⟨c, rest, rfl, visible⟩ := h.head
  obtain ⟨d, before, same, visible'⟩ := h.last
  unfold trim
  rw [List.dropWhile_cons_of_neg (by simp [visible]), same]
  exact List.rdropWhile_concat_neg _ _ _ (by simp [visible'])

theorem Visible.trim_blank {s : Text} (h : Visible s) : trim (s ++ [' ']) = s := by
  obtain ⟨c, rest, rfl, visible⟩ := h.head
  obtain ⟨d, before, same, visible'⟩ := h.last
  have front : (c :: rest ++ [' ']).dropWhile isBlank = c :: rest ++ [' '] :=
    List.dropWhile_cons_of_neg (by simp [visible])
  unfold trim
  rw [front, List.rdropWhile_concat_pos _ _ _ (by decide), same]
  exact List.rdropWhile_concat_neg _ _ _ (by simp [visible'])

theorem visible_word {word : Text} (nonempty : word ≠ []) (plain : ∀ c ∈ word, isBlank c = false) :
    Visible word := by
  constructor
  · obtain ⟨c, rest, rfl⟩ := List.exists_cons_of_ne_nil nonempty
    exact ⟨c, rest, rfl, plain c (.head rest)⟩
  · obtain ⟨rest, c, rfl⟩ := List.eq_nil_or_concat' word |>.resolve_left nonempty
    exact ⟨c, rest, rfl, plain c (List.mem_append_right rest (.head []))⟩

theorem visible_words {words : List Text} (some : words ≠ []) (nonempty : ∀ word ∈ words, word ≠ [])
    (plain : ∀ word ∈ words, ∀ c ∈ word, isBlank c = false) :
    Visible ([' '].intercalate words) := by
  induction words with
  | nil => exact absurd rfl some
  | cons word words ih =>
    have own := visible_word (nonempty word (.head words)) (plain word (.head words))
    cases words with
    | nil => simpa using own
    | cons next words =>
      have later := ih (List.cons_ne_nil next words)
        (fun other member => nonempty other (.tail word member))
        (fun other member => plain other (.tail word member))
      obtain ⟨c, rest, rfl, visible⟩ := own.head
      obtain ⟨d, before, same, visible'⟩ := later.last
      rw [List.intercalate_cons_cons]
      constructor
      · exact ⟨c, _, rfl, visible⟩
      · rw [same, ← List.append_assoc]
        exact ⟨d, _, rfl, visible'⟩

theorem split_trim_words {words : List Text} (some : words ≠ [])
    (nonempty : ∀ word ∈ words, word ≠ [])
    (plain : ∀ word ∈ words, ∀ c ∈ word, isBlank c = false) :
    trim (words.flatMap (· ++ [' '])) = [' '].intercalate words ∧
      split ([' '].intercalate words) ' ' = words := by
  have visible := visible_words some nonempty plain
  refine ⟨?_, ?_⟩
  · rw [flatMap_blank some]
    exact visible.trim_blank
  · obtain ⟨c, rest, shape, _⟩ := visible.head
    have given : [' '].intercalate words ≠ [] := by
      rw [shape]
      exact List.cons_ne_nil c rest
    unfold split
    rw [if_neg given, List.splitOn_intercalate, List.rdropWhile_eq_self_iff]
    · intro last empty
      exact nonempty _ (List.getLast_mem last) (List.isEmpty_iff.mp empty)
    · intro word member blank
      exact absurd (plain word member ' ' blank) (by decide)
    · exact some

end JavaText
