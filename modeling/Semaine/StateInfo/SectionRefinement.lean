import Semaine.Library.Outcome
import Semaine.StateInfo.SectionLines

/-! Each of the two readers of a section takes from its lines what they say when they are taken
apart as that reader does. -/
namespace Semaine.StateInfo.Section
open JavaText Semaine.Xml

def separated (isSeparator : Char → Bool) (line : Text) : Option (Text × Text) :=
  match line.dropWhile (fun c => !isSeparator c) with
  | [] => none
  | rest => some (line.takeWhile (fun c => !isSeparator c), rest.dropWhile isSeparator)

def trimBoth (e : Text × Text) : Text × Text := (trim e.1, trim e.2)

def splits (expr : Text) : Bool := (splitXPathIntoParts expr).toOption.isSome

/-- In Java a tab separates a short name from its expression, but no prefix from its URI. What is
after the separators may be empty. -/
def java : Reader where
  definition line := (separated (fun c => c = ' ' || c = '=' || c = ':') line).map trimBoth
  shortName line :=
    (separated (fun c => c = '\t' || c = ' ' || c = '=' || c = ':') line).map trimBoth
  accepts := splits

/-- In C++ something has to follow the separators. The splitter is taken to judge as the one in
Java. -/
def cpp : Reader where
  definition line := (separated Cpp.delims line).filter (fun e => e.2 ≠ [])
  shortName line := (separated Cpp.delims line).filter (fun e => e.2 ≠ [])
  accepts := splits

theorem splitOnce_separated (isSeparator : Char → Bool) (line : Text) :
    splitOnce isSeparator line =
      match separated isSeparator line with
      | none => [line]
      | some (first, second) => [first, second] := by
  unfold splitOnce separated
  rw [List.span_eq_takeWhile_dropWhile]
  cases rest : line.dropWhile (fun c => !isSeparator c) with
  | nil =>
    have whole := List.takeWhile_append_dropWhile (p := fun c => !isSeparator c) (l := line)
    rw [rest, List.append_nil] at whole
    dsimp only
    rw [whole]
  | cons c rest => rfl

def javaReading (readNamespacePrefixes readShortNames : Bool) (c : Content) : Reading where
  readNamespacePrefixes := readNamespacePrefixes
  readShortNames := readShortNames
  namespacePrefixes := c.definitions.putAll
  shortNames := c.entries

variable (type : StateType) (ns sn : Bool) (c : Content)

theorem javaReading_ns : (javaReading ns sn c).readNamespacePrefixes = ns := rfl

theorem javaReading_sn : (javaReading ns sn c).readShortNames = sn := rfl

theorem addShortName_java (e : Text × Text) :
    ((javaReading ns sn c).addShortName type e.1 e.2).toOption =
      (if java.accepts e.2 then c.add e else none).map (javaReading ns sn) := by
  have accepts : java.accepts e.2 = (splitXPathIntoParts e.2).toOption.isSome := rfl
  rw [accepts]
  unfold Reading.addShortName
  cases split : splitXPathIntoParts e.2 with
  | error thrown => cases thrown <;> rfl
  | ok path =>
    have accepted : (Except.ok path : Except Thrown XPath).toOption.isSome = true := rfl
    rw [if_pos accepted]
    dsimp only [asConfiguration, bind, Except.bind]
    have names : (javaReading ns sn c).shortNames = c.entries := rfl
    rw [names]
    unfold Content.add
    by_cases oldName : e.1 ∈ c.entries.map Prod.fst
    · obtain ⟨other, found⟩ := List.exists_lookup oldName
      rw [found, if_pos (Or.inl oldName)]
      rfl
    · rw [List.lookup_eq_none_of_notMem oldName]
      cases found : c.entries.find? (fun other => other.2 = e.2) with
      | some other =>
        have same : other.2 = e.2 := by simpa using List.find?_some found
        have oldExpr : e.2 ∈ c.entries.map Prod.snd :=
          List.mem_map.mpr ⟨other, List.mem_of_find?_eq_some found, same⟩
        rw [if_pos (Or.inr oldExpr)]
        rfl
      | none =>
        have new : ¬ (e.1 ∈ c.entries.map Prod.fst ∨ e.2 ∈ c.entries.map Prod.snd) := by
          rintro (name | expr)
          · exact oldName name
          · obtain ⟨other, member, same⟩ := List.mem_map.mp expr
            have different := List.find?_eq_none.mp found other member
            exact different (decide_eq_true same)
        rw [if_neg new]
        rfl

theorem readLine_definition {line : Text} (notPrefixes : line ≠ "[namespace prefixes]".toList)
    (notNames : line ≠ "[short names]".toList) :
    ((javaReading true sn c).readLine type line).toOption =
      (java.read c (.definition line)).map (javaReading true sn) := by
  unfold Reading.readLine
  rw [if_neg notPrefixes, if_neg notNames, javaReading_ns, if_pos rfl, splitOnce_separated]
  have read : java.definition line =
    (separated (fun c => c = ' ' || c = '=' || c = ':') line).map trimBoth := rfl
  rw [Reader.read, read]
  cases separated (fun c => c = ' ' || c = '=' || c = ':') line with
  | none => rfl
  | some e =>
    have added := List.putAll_concat c.definitions (trimBoth e)
    simp only [Option.map_some, javaReading]
    rw [added]
    rfl

theorem readLine_shortName {line : Text} (notPrefixes : line ≠ "[namespace prefixes]".toList)
    (notNames : line ≠ "[short names]".toList) :
    ((javaReading false true c).readLine type line).toOption =
      (java.read c (.shortName line)).map (javaReading false true) := by
  unfold Reading.readLine
  rw [if_neg notPrefixes, if_neg notNames, javaReading_ns, javaReading_sn,
    if_neg Bool.false_ne_true, if_pos rfl, splitOnce_separated]
  have read : java.shortName line =
    (separated (fun c => c = '\t' || c = ' ' || c = '=' || c = ':') line).map trimBoth := rfl
  rw [Reader.read, read]
  cases separated (fun c => c = '\t' || c = ' ' || c = '=' || c = ':') line with
  | none => rfl
  | some e => exact addShortName_java type false true c (trimBoth e)

theorem readLine_shortNames :
    ((javaReading ns sn c).readLine type "[short names]".toList).toOption =
      (java.read c .shortNames).map (javaReading false true) := by
  unfold Reading.readLine
  rw [if_neg (by decide), if_pos rfl]
  have prefixes : (javaReading ns sn c).namespacePrefixes = c.definitions.putAll := rfl
  rw [Reader.read, prefixes]
  by_cases none : c.definitions = []
  · rw [if_pos (List.putAll_isEmpty.mpr none), if_pos none]
    rfl
  · rw [if_neg (List.putAll_isEmpty.not.mpr none), if_neg none]
    rfl

theorem continue_java {first : Except Failure Reading} {next : Option Content}
    {rest : List Text} {ls : List Line} {ns sn : Bool}
    (same : first.toOption = next.map (javaReading ns sn))
    (later : ∀ c, (rest.foldlM (Reading.readLine type) (javaReading ns sn c)).toOption.map
        (fun r => (r.namespacePrefixes, r.shortNames)) =
      (ls.foldlM java.read c).map fun c => (c.definitions.putAll, c.entries)) :
    (first.bind fun r => rest.foldlM (Reading.readLine type) r).toOption.map
        (fun r => (r.namespacePrefixes, r.shortNames)) =
      (next.bind fun c => ls.foldlM java.read c).map fun c => (c.definitions.putAll, c.entries) := by
  cases next with
  | none =>
    obtain ⟨e, rfl⟩ := Outcome.error_of_toOption same
    rfl
  | some c =>
    rw [Outcome.ok_of_toOption same]
    exact later c

theorem readLines_java (section' : List Text) :
    ((section'.foldlM (Reading.readLine type) (javaReading ns sn c)).toOption.map
        fun r => (r.namespacePrefixes, r.shortNames)) =
      ((linesOf ns sn section').foldlM java.read c).map
        fun c => (c.definitions.putAll, c.entries) := by
  induction section' generalizing ns sn c with
  | nil => rfl
  | cons line rest ih =>
    rw [List.foldlM_cons]
    unfold linesOf
    by_cases isPrefixes : line = "[namespace prefixes]".toList
    · rw [if_pos isPrefixes]
      have step : (javaReading ns sn c).readLine type line = .ok (javaReading true sn c) :=
        if_pos isPrefixes
      rw [step]
      exact ih true sn c
    · rw [if_neg isPrefixes]
      by_cases isNames : line = "[short names]".toList
      · rw [if_pos isNames, List.foldlM_cons, isNames]
        exact continue_java type (readLine_shortNames type ns sn c) (ih false true)
      · rw [if_neg isNames]
        cases ns with
        | true =>
          rw [if_pos rfl, List.foldlM_cons]
          exact continue_java type (readLine_definition type sn c isPrefixes isNames) (ih true sn)
        | false =>
          rw [if_neg Bool.false_ne_true]
          cases sn with
          | true =>
            rw [if_pos rfl, List.foldlM_cons]
            exact continue_java type (readLine_shortName type c isPrefixes isNames) (ih false true)
          | false =>
            rw [if_neg Bool.false_ne_true]
            have step : (javaReading false false c).readLine type line =
                .ok (javaReading false false c) := by
              unfold Reading.readLine
              rw [if_neg isPrefixes, if_neg isNames]
              rfl
            rw [step]
            exact ih false false c

theorem dropWhile_findIdx {q : Char → Bool} {s : Text} {i : Nat} (found : s.findIdx? q = some i) :
    s.takeWhile (fun c => !q c) = s.take i ∧ s.dropWhile (fun c => !q c) = s.drop i := by
  obtain ⟨_, index⟩ := List.findIdx?_eq_some_iff_findIdx_eq.mp found
  rw [List.takeWhile_eq_take_findIdx_not, List.dropWhile_eq_drop_findIdx_not]
  simp only [Bool.not_not, index, and_self]

theorem dropWhile_findIdx_none {q : Char → Bool} {s : Text} (absent : s.findIdx? q = none) :
    s.dropWhile (fun c => !q c) = [] := by
  rw [List.dropWhile_eq_nil_iff]
  intro c member
  rw [List.findIdx?_eq_none_iff.mp absent c member]
  rfl

/-- What `find_first_of` and `find_first_not_of` take from a line. -/
def taken (line : Text) : Option (Text × Text) :=
  match Cpp.findFirstOf line, Cpp.findFirstNotOf line (Cpp.findFirstOf line) with
  | some sepStart, some secondStart => some (line.take sepStart, line.drop secondStart)
  | _, _ => none

theorem separated_at {isSeparator : Char → Bool} {line : Text} {i : Nat}
    (found : line.findIdx? isSeparator = some i) :
    separated isSeparator line = some (line.take i, (line.drop i).dropWhile isSeparator) := by
  obtain ⟨before, after⟩ := dropWhile_findIdx found
  have inside := (List.findIdx?_eq_some_iff_findIdx_eq.mp found).1
  unfold separated
  rw [before, after, List.drop_eq_getElem_cons inside]

theorem taken_separated (line : Text) :
    taken line = (separated Cpp.delims line).filter (fun e => e.2 ≠ []) := by
  unfold taken Cpp.findFirstNotOf
  cases first : Cpp.findFirstOf line with
  | none =>
    unfold separated
    rw [dropWhile_findIdx_none first]
    rfl
  | some sepStart =>
    rw [separated_at first, Option.bind_some]
    cases second : (line.drop sepStart).findIdx? (fun c => !Cpp.delims c) with
    | none =>
      have empty := dropWhile_findIdx_none second
      simp only [Bool.not_not] at empty
      rw [empty]
      rfl
    | some k =>
      obtain ⟨inside, _⟩ := List.findIdx?_eq_some_iff_findIdx_eq.mp second
      have rest := (dropWhile_findIdx second).2
      simp only [Bool.not_not, List.drop_drop] at rest
      have something : line.drop (sepStart + k) ≠ [] := by
        rw [List.length_drop] at inside
        rw [ne_eq, List.drop_eq_nil_iff]
        omega
      rw [rest, Option.filter_some_pos]
      · rfl
      · exact decide_eq_true something

def cppReading (readNamespacePrefixes readShortNames : Bool) (c : Content) : Cpp.Reading where
  readNamespacePrefixes := readNamespacePrefixes
  readShortNames := readShortNames
  namespacePrefixes := c.definitions.putAll
  shortNames := c.entries.putAll
  expr2shortname := (c.entries.map Prod.swap).putAll

theorem cppReading_ns : (cppReading ns sn c).readNamespacePrefixes = ns := rfl

theorem cppReading_sn : (cppReading ns sn c).readShortNames = sn := rfl

theorem mem_swapped {l : List (Text × Text)} {x : Text} :
    x ∈ (l.map Prod.swap).putAll ↔ x ∈ l.map Prod.snd := by
  rw [List.mem_putAll, List.map_map]
  rfl

theorem addShortName_cpp (e : Text × Text) :
    ((cppReading ns sn c).addShortName type e.1 e.2).toOption =
      (c.add e).map (cppReading ns sn) := by
  have names : (cppReading ns sn c).shortNames = c.entries.putAll := rfl
  have expressions : (cppReading ns sn c).expr2shortname = (c.entries.map Prod.swap).putAll := rfl
  unfold Cpp.Reading.addShortName Content.add
  rw [names, expressions]
  by_cases oldName : e.1 ∈ c.entries.map Prod.fst
  · have found := AList.lookup_isSome.mpr (List.mem_putAll.mpr oldName)
    rw [if_pos found, if_pos (Or.inl oldName)]
    rfl
  · have absent := (AList.lookup_isSome.trans List.mem_putAll).not.mpr oldName
    rw [if_neg absent]
    by_cases oldExpr : e.2 ∈ c.entries.map Prod.snd
    · obtain ⟨other, found⟩ :=
        Option.isSome_iff_exists.mp (AList.lookup_isSome.mpr (mem_swapped.mpr oldExpr))
      rw [found, if_pos (Or.inr oldExpr)]
      rfl
    · have unused := Option.not_isSome_iff_eq_none.mp
        ((AList.lookup_isSome.trans mem_swapped).not.mpr oldExpr)
      rw [unused, if_neg (not_or.mpr ⟨oldName, oldExpr⟩)]
      have added := List.putAll_concat c.entries e
      have swapped := List.putAll_concat (c.entries.map Prod.swap) e.swap
      simp only [Option.map_some, cppReading, List.map_append, List.map_cons, List.map_nil]
      rw [added, swapped]
      rfl

variable (turns : Nat)

theorem readLine_cpp_definition {line : Text} (notPrefixes : line ≠ "[namespace prefixes]".toList)
    (notNames : line ≠ "[short names]".toList) :
    ∃ result, (cppReading true sn c).readLine turns type line = some result ∧
      result.toOption = (cpp.read c (.definition line)).map (cppReading true sn) := by
  have read : cpp.definition line = taken line := (taken_separated line).symm
  unfold Cpp.Reading.readLine
  rw [if_neg notPrefixes, if_neg notNames, cppReading_ns, if_pos rfl, Reader.read, read]
  unfold taken
  generalize Cpp.findFirstNotOf line (Cpp.findFirstOf line) = second
  generalize Cpp.findFirstOf line = first
  cases first with
  | none => exact ⟨_, rfl, rfl⟩
  | some sepStart =>
    cases second with
    | none => exact ⟨_, rfl, rfl⟩
    | some secondStart =>
      have added := List.putAll_concat c.definitions (line.take sepStart, line.drop secondStart)
      refine ⟨_, rfl, ?_⟩
      simp only [Option.map_some, cppReading]
      rw [added]
      rfl

/-- The splitter has an end within the turns and judges as the one in Java. -/
def Judged (turns : Nat) (line : Text) : Prop :=
  ∀ e, cpp.shortName line = some e → ∃ result,
    Xml.Cpp.splitXPathIntoParts turns e.2 = some result ∧ result.toOption.isSome = splits e.2

theorem readLine_cpp_shortName {line : Text} (notPrefixes : line ≠ "[namespace prefixes]".toList)
    (notNames : line ≠ "[short names]".toList) (judged : Judged turns line) :
    ∃ result, (cppReading false true c).readLine turns type line = some result ∧
      result.toOption = (cpp.read c (.shortName line)).map (cppReading false true) := by
  have read : cpp.shortName line = taken line := (taken_separated line).symm
  unfold Judged at judged
  unfold Cpp.Reading.readLine
  rw [if_neg notPrefixes, if_neg notNames, cppReading_ns, cppReading_sn,
    if_neg Bool.false_ne_true, if_pos rfl, Reader.read]
  rw [read] at judged ⊢
  unfold taken at judged ⊢
  generalize Cpp.findFirstNotOf line (Cpp.findFirstOf line) = second at judged ⊢
  generalize Cpp.findFirstOf line = first at judged ⊢
  cases first with
  | none => exact ⟨_, rfl, rfl⟩
  | some sepStart =>
    cases second with
    | none => exact ⟨_, rfl, rfl⟩
    | some secondStart =>
      obtain ⟨result, ended, verdict⟩ := judged _ rfl
      have accepts : cpp.accepts (line.drop secondStart) = result.toOption.isSome := verdict.symm
      dsimp only at ended ⊢
      rw [ended, Option.bind_some, accepts]
      cases result with
      | error message => exact ⟨_, rfl, rfl⟩
      | ok parts =>
        have added := addShortName_cpp type false true c (line.take sepStart, line.drop secondStart)
        exact ⟨_, rfl, added⟩

theorem readLine_cpp_shortNames :
    ∃ result, (cppReading ns sn c).readLine turns type "[short names]".toList = some result ∧
      result.toOption = (cpp.read c .shortNames).map (cppReading false true) := by
  have prefixes : (cppReading ns sn c).namespacePrefixes = c.definitions.putAll := rfl
  unfold Cpp.Reading.readLine
  rw [if_neg (by decide), if_pos rfl, Reader.read, prefixes]
  by_cases none : c.definitions = []
  · rw [if_pos (List.putAll_isEmpty.mpr none), if_pos none]
    exact ⟨_, rfl, rfl⟩
  · rw [if_neg (List.putAll_isEmpty.not.mpr none), if_neg none]
    exact ⟨_, rfl, rfl⟩

theorem continue_cpp {line : Text} {r : Cpp.Reading} {next : Option Content} {rest : List Text}
    {ls : List Line} {ns sn : Bool}
    (first : ∃ result, r.readLine turns type line = some result ∧
      result.toOption = next.map (cppReading ns sn))
    (later : ∀ c, ∃ result, Cpp.Reading.readLines turns type rest (cppReading ns sn c) = some result ∧
      (result.toOption.map fun r => (r.namespacePrefixes, r.shortNames)) =
        (ls.foldlM cpp.read c).map fun c => (c.definitions.putAll, c.entries.putAll)) :
    ∃ result, Cpp.Reading.readLines turns type (line :: rest) r = some result ∧
      (result.toOption.map fun r => (r.namespacePrefixes, r.shortNames)) =
        (next.bind fun c => ls.foldlM cpp.read c).map
          fun c => (c.definitions.putAll, c.entries.putAll) := by
  obtain ⟨result, read, same⟩ := first
  unfold Cpp.Reading.readLines
  rw [read]
  cases next with
  | none =>
    obtain ⟨message, rfl⟩ := Outcome.error_of_toOption same
    exact ⟨.error message, rfl, rfl⟩
  | some c =>
    rw [Outcome.ok_of_toOption same]
    exact later c

theorem readLines_cpp {section' : List Text}
    (judged : ∀ line, .shortName line ∈ linesOf ns sn section' → Judged turns line) :
    ∃ result, Cpp.Reading.readLines turns type section' (cppReading ns sn c) = some result ∧
      (result.toOption.map fun r => (r.namespacePrefixes, r.shortNames)) =
        ((linesOf ns sn section').foldlM cpp.read c).map
          fun c => (c.definitions.putAll, c.entries.putAll) := by
  induction section' generalizing ns sn c with
  | nil => exact ⟨_, rfl, rfl⟩
  | cons line rest ih =>
    unfold linesOf at judged ⊢
    by_cases isPrefixes : line = "[namespace prefixes]".toList
    · rw [if_pos isPrefixes] at judged ⊢
      have step : (cppReading ns sn c).readLine turns type line =
          some (.ok (cppReading true sn c)) := if_pos isPrefixes
      unfold Cpp.Reading.readLines
      rw [step]
      exact ih true sn c judged
    · rw [if_neg isPrefixes] at judged ⊢
      by_cases isNames : line = "[short names]".toList
      · rw [if_pos isNames] at judged ⊢
        rw [List.foldlM_cons]
        have step := readLine_cpp_shortNames type ns sn c turns
        rw [← isNames] at step
        exact continue_cpp type turns step fun c =>
          ih false true c fun line member => judged line (.tail _ member)
      · rw [if_neg isNames] at judged ⊢
        cases ns with
        | true =>
          rw [if_pos rfl] at judged ⊢
          rw [List.foldlM_cons]
          exact continue_cpp type turns
            (readLine_cpp_definition type sn c turns isPrefixes isNames) fun c =>
              ih true sn c fun line member => judged line (.tail _ member)
        | false =>
          rw [if_neg Bool.false_ne_true] at judged ⊢
          cases sn with
          | true =>
            rw [if_pos rfl] at judged ⊢
            rw [List.foldlM_cons]
            exact continue_cpp type turns
              (readLine_cpp_shortName type c turns isPrefixes isNames (judged line (.head _)))
              fun c => ih false true c fun line member => judged line (.tail _ member)
          | false =>
            rw [if_neg Bool.false_ne_true] at judged ⊢
            have step : (cppReading false false c).readLine turns type line =
                some (.ok (cppReading false false c)) := by
              unfold Cpp.Reading.readLine
              rw [if_neg isPrefixes, if_neg isNames]
              rfl
            unfold Cpp.Reading.readLines
            rw [step]
            exact ih false false c judged

end Semaine.StateInfo.Section
