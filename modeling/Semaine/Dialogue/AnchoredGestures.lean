import Semaine.Dialogue.GestureTags

/-! Whether the gesture tags of a response are anchored at the words of their phrases, and whether
they name existing marks, the first before the second. -/
namespace Semaine.Dialogue
open JavaText Semaine.Xml

/-- A match takes in the first character of a word that stands behind a blank. -/
def CoversBeginning (s : Text) (start stop : Nat) : Prop :=
  ∃ p, s[p]? = some ' ' ∧ start ≤ p + 1 ∧ p + 1 < stop

def IsKeyword (value : Text) : Prop :=
  value = "_start".toList ∨ value = "_end".toList ∨ value = "_all".toList

instance (value : Text) : Decidable (IsKeyword value) := inferInstanceAs (Decidable (_ ∨ _))

/-- Of the three patterns of a value the first that is found in a text covers the beginning of a
word; a match of the second, from the start of the text, need not. -/
def MatchCovers (compile : Text → Except Thrown (Text → Option (Nat × Nat))) (s value : Text) :
    Prop :=
  ∀ find findStart findEnd, compile (innerPattern (trim value)) = .ok find →
    compile (startPattern (trim value)) = .ok findStart →
    compile (endPattern (trim value)) = .ok findEnd →
      (∀ start stop, find s = some (start, stop) → CoversBeginning s start stop) ∧
      (find s = none → findStart s = none → ∀ start stop, findEnd s = some (start, stop) →
        CoversBeginning s start s.length)

theorem count_take_lt (s : Text) (a b : Nat) :
    (s.take a).count ' ' < (s.take b).count ' ' ↔ ∃ p, s[p]? = some ' ' ∧ a ≤ p ∧ p < b := by
  constructor
  · intro fewer
    have later : a ≤ b := by
      apply Nat.le_of_not_lt
      intro before
      have sub := (List.take_sublist_take_left (l := s) (Nat.le_of_lt before)).count_le ' '
      omega
    have whole := List.take_append_drop a (s.take b)
    rw [List.take_take, Nat.min_eq_left later] at whole
    rw [← whole, List.count_append] at fewer
    have member : ' ' ∈ (s.take b).drop a := List.count_pos_iff.mp (by omega)
    obtain ⟨i, here⟩ := List.mem_iff_getElem?.mp member
    rw [List.getElem?_drop, List.getElem?_take] at here
    split at here
    · exact ⟨a + i, here, Nat.le_add_right a i, by assumption⟩
    · cases here
  · rintro ⟨p, here, after, before⟩
    have shorter : (s.take a).count ' ' ≤ (s.take p).count ' ' :=
      (List.take_sublist_take_left after).count_le ' '
    have longer : (s.take (p + 1)).count ' ' ≤ (s.take b).count ' ' :=
      (List.take_sublist_take_left before).count_le ' '
    have one : (s.take (p + 1)).count ' ' = (s.take p).count ' ' + 1 := by
      rw [List.take_add_one, here, List.count_append]
      rfl
    omega

section
variable {words : List SpokenWord} (given : words ≠ [])
include given

theorem wordsUpTo_count {i : Nat} (inside : i ≤ (spokenText words).length) :
    wordsUpTo (spokenText words) i = ((spokenText words).take (i - 1)).count ' ' + 2 := by
  unfold wordsUpTo
  rw [length_split_take (spaced_spokenText given) inside]

theorem wordsUpTo_lt {start stop : Nat} (inside : start ≤ (spokenText words).length)
    (inside' : stop ≤ (spokenText words).length) :
    wordsUpTo (spokenText words) start < wordsUpTo (spokenText words) stop ↔
      CoversBeginning (spokenText words) start stop := by
  rw [wordsUpTo_count given inside, wordsUpTo_count given inside', Nat.add_lt_add_iff_right,
    count_take_lt]
  unfold CoversBeginning
  constructor
  · rintro ⟨p, blank, after, before⟩
    exact ⟨p, blank, by omega, by omega⟩
  · rintro ⟨p, blank, after, before⟩
    exact ⟨p, blank, by omega, by omega⟩

theorem lastMark_spokenText : lastMark (spokenText words) = words.length + 1 := by
  unfold lastMark
  rw [split_spokenText given, List.length_map]

theorem wordsUpTo_length :
    wordsUpTo (spokenText words) (spokenText words).length = words.length + 1 := by
  unfold wordsUpTo
  rw [List.take_length, split_spokenText given, List.length_map]

theorem wordsUpTo_le {i : Nat} (inside : i ≤ (spokenText words).length) :
    wordsUpTo (spokenText words) i ≤ words.length + 1 := by
  rw [← wordsUpTo_length given, wordsUpTo_count given inside,
    wordsUpTo_count given (Nat.le_refl _), Nat.add_le_add_iff_right]
  exact (List.take_sublist_take_left (Nat.sub_le_sub_right inside 1)).count_le ' '

omit given in
theorem wordsUpTo_pos (s : Text) (i : Nat) : 1 ≤ wordsUpTo s i := Nat.succ_pos _

def Increasing (words : List SpokenWord) (span : Nat × Nat) : Prop :=
  1 ≤ span.1 ∧ span.1 < span.2 ∧ span.2 ≤ words.length + 1

theorem matchedMarks_increasing {env : Environment} (engine : RegexEngine env.compile)
    (value : Text) :
    (∀ span, matchedMarks env (spokenText words) value = .ok (some span) →
      Increasing words span) ↔ MatchCovers env.compile (spokenText words) value := by
  constructor
  · intro increasing find findStart findEnd compiled compiledStart compiledEnd
    have marks := matchedMarks_compiled compiled compiledStart compiledEnd (spokenText words)
    refine ⟨?_, ?_⟩
    · intro start stop found
      obtain ⟨ordered, inside⟩ := engine.within compiled found
      rw [found] at marks
      have before := (increasing _ marks).2.1
      exact (wordsUpTo_lt given (ordered.trans inside) inside).mp before
    · intro noInner noStart start stop found
      obtain ⟨ordered, inside⟩ := engine.within compiledEnd found
      rw [noInner, noStart, found] at marks
      have before : wordsUpTo (spokenText words) start < lastMark (spokenText words) :=
        (increasing _ marks).2.1
      rw [lastMark_spokenText given, ← wordsUpTo_length given] at before
      exact (wordsUpTo_lt given (ordered.trans inside) (Nat.le_refl _)).mp before
  · intro covers span matched
    obtain ⟨find, compiled, rest⟩ := Outcome.bind_ok matched
    obtain ⟨findStart, compiledStart, rest⟩ := Outcome.bind_ok rest
    obtain ⟨findEnd, compiledEnd, _⟩ := Outcome.bind_ok rest
    obtain ⟨inner, ending⟩ := covers find findStart findEnd compiled compiledStart compiledEnd
    rw [matchedMarks_compiled compiled compiledStart compiledEnd] at matched
    cases found : find (spokenText words) with
    | some place =>
      obtain ⟨start, stop⟩ := place
      obtain ⟨ordered, inside⟩ := engine.within compiled found
      rw [found] at matched
      cases matched
      exact ⟨wordsUpTo_pos _ start,
        (wordsUpTo_lt given (ordered.trans inside) inside).mpr (inner start stop found),
        wordsUpTo_le given inside⟩
    | none =>
      cases foundStart : findStart (spokenText words) with
      | some place =>
        obtain ⟨start, stop⟩ := place
        obtain ⟨_, inside⟩ := engine.within compiledStart foundStart
        rw [found, foundStart] at matched
        cases matched
        refine ⟨Nat.le_refl 1, ?_, wordsUpTo_le given inside⟩
        rw [wordsUpTo_count given inside]
        omega
      | none =>
        rw [found, foundStart] at matched
        obtain ⟨place, foundEnd, rfl⟩ := Option.map_eq_some_iff.mp (Except.ok.inj matched)
        obtain ⟨start, stop⟩ := place
        obtain ⟨ordered, inside⟩ := engine.within compiledEnd foundEnd
        have before := (wordsUpTo_lt given (ordered.trans inside) (Nat.le_refl _)).mpr
          (ending found foundStart start stop foundEnd)
        rw [wordsUpTo_length given, ← lastMark_spokenText given] at before
        exact ⟨wordsUpTo_pos _ start, before, Nat.le_of_eq (lastMark_spokenText given)⟩

theorem tagMarks_keyword (env : Environment) {value : Text} (keyword : IsKeyword value) :
    ∃ span, tagMarks env (spokenText words) value (lastMark (spokenText words)) =
        .ok (some span) ∧ Increasing words span ∧
      (∀ k, span = (k + 1, k + 2) ↔ k = 0 ∧ words.length = 1) := by
  have some := List.length_pos_of_ne_nil given
  rw [lastMark_spokenText given]
  unfold tagMarks Increasing
  rcases keyword with rfl | rfl | rfl
  · refine ⟨_, if_pos rfl, by dsimp only; omega, ?_⟩
    intro k
    rw [Prod.mk.injEq]
    omega
  · rw [if_neg (by decide)]
    refine ⟨_, if_pos rfl, by dsimp only; omega, ?_⟩
    intro k
    rw [Prod.mk.injEq]
    omega
  · rw [if_neg (by decide), if_neg (by decide)]
    refine ⟨_, if_pos rfl, by dsimp only; omega, ?_⟩
    intro k
    rw [Prod.mk.injEq]
    omega

omit given in
theorem tagMarks_value {env : Environment} {s value : Text} (noKeyword : ¬ IsKeyword value)
    (marks : Nat) : tagMarks env s value marks = matchedMarks env s value := by
  unfold IsKeyword at noKeyword
  obtain ⟨noStart, noEnd, noAll⟩ := by simpa only [not_or] using noKeyword
  unfold tagMarks
  rw [if_neg noStart, if_neg noEnd, if_neg noAll]

theorem tagMarks_increasing {env : Environment} (engine : RegexEngine env.compile)
    (value : Text) :
    (∀ span, tagMarks env (spokenText words) value (lastMark (spokenText words)) =
      .ok (some span) → Increasing words span) ↔
      IsKeyword value ∨ MatchCovers env.compile (spokenText words) value := by
  by_cases keyword : IsKeyword value
  · refine iff_of_true ?_ (.inl keyword)
    intro span matched
    obtain ⟨own, marks, increasing, _⟩ := tagMarks_keyword given env keyword
    cases marks.symm.trans matched
    exact increasing
  · rw [tagMarks_value keyword, matchedMarks_increasing given engine, or_iff_right keyword]

end

/-- The phrase stands at some word of the text, as a sequence of whole words. -/
def OccursAt (phrase : List Text) (words : List SpokenWord) (k : Nat) : Prop :=
  ((words.drop k).take phrase.length).map SpokenWord.letters = phrase

def Unbroken (phrase : List Text) (words : List SpokenWord) : Prop :=
  ∃ k x, Begins phrase (words.drop k) x

theorem OccursAt.fits {phrase : List Text} (given : phrase ≠ []) {words : List SpokenWord}
    {k : Nat} (occurs : OccursAt phrase words k) : k + phrase.length ≤ words.length := by
  have lengths := congrArg List.length occurs
  rw [List.length_map, List.length_take, List.length_drop] at lengths
  have some := List.length_pos_of_ne_nil given
  omega

theorem whole_text {phrase : List Text} {words : List SpokenWord}
    (whole : literal phrase = spokenText words) {k : Nat} {x : Text}
    (begins : Begins phrase (words.drop k) x) : k = 0 ∧ x = [] := by
  have text := begins.text
  rw [whole] at text
  cases k with
  | zero =>
    rw [List.drop_zero] at text
    exact ⟨rfl, List.append_right_eq_self.mp text⟩
  | succ k =>
    have inside : k + 1 < words.length := by
      have some := List.length_pos_of_ne_nil begins.given.2
      rw [List.length_drop] at some
      omega
    obtain ⟨start, within, here⟩ := drop_blank (Nat.succ_pos k) inside
    rw [← text] at here
    have lengths := congrArg List.length here
    rw [List.length_drop, List.length_cons, List.length_append] at lengths
    omega

theorem found_iff {phrase : List Text} {words : List SpokenWord} :
    (∃ k x, Begins phrase (words.drop k) x ∧ (0 < k ∨ x ≠ [])) ↔
      Unbroken phrase words ∧ literal phrase ≠ spokenText words := by
  constructor
  · rintro ⟨k, x, begins, apart⟩
    refine ⟨⟨k, x, begins⟩, ?_⟩
    intro whole
    obtain ⟨rfl, rfl⟩ := whole_text whole begins
    rcases apart with positive | some
    · exact absurd positive (Nat.lt_irrefl 0)
    · exact some rfl
  · rintro ⟨⟨k, x, begins⟩, apart⟩
    refine ⟨k, x, begins, ?_⟩
    by_contra nothing
    rw [not_or, Nat.not_lt, Nat.le_zero, not_not] at nothing
    obtain ⟨rfl, rfl⟩ := nothing
    have text := begins.text
    rw [List.append_nil, List.drop_zero] at text
    exact apart text

theorem keyword_single {phrase : List Text} (given : phrase ≠ [])
    (areWords : ∀ u ∈ phrase, IsWord u) (keyword : IsKeyword (literal phrase)) :
    phrase.length = 1 := by
  have count := count_literal given areWords
  have none : (literal phrase).count ' ' = 0 := by
    rcases keyword with same | same | same
    · rw [same]
      decide
    · rw [same]
      decide
    · rw [same]
      decide
  omega

/-- The start and the end are the marks around some words of the text at which the phrase
stands. -/
def Anchored (doc : Document) (words : List SpokenWord) (phrase : List Text)
    (start stop : Text) : Prop :=
  ∃ k, OccursAt phrase words k ∧ MarkAfter doc (words.map SpokenWord.text) k start ∧
    MarkAfter doc (words.map SpokenWord.text) (k + phrase.length) stop

def InOrder (doc : Document) (words : List SpokenWord) (start stop : Text) : Prop :=
  ∃ i j, i < j ∧ MarkAfter doc (words.map SpokenWord.text) i start ∧
    MarkAfter doc (words.map SpokenWord.text) j stop

section
variable {doc : Document} {words : List SpokenWord} {counter : Nat}
  (spoken : speechNodes doc = markNodes counter (words.map SpokenWord.text) 1)
include spoken

theorem inOrder_iff {span : Nat × Nat} :
    InOrder doc words (markName counter span.1) (markName counter span.2) ↔
      Increasing words span := by
  unfold InOrder Increasing
  simp only [markAfter_iff spoken, List.length_map]
  constructor
  · rintro ⟨i, j, before, ⟨inside, first⟩, inside', second⟩
    omega
  · rintro ⟨positive, before, inside⟩
    exact ⟨span.1 - 1, span.2 - 1, by omega, by omega, by omega⟩

theorem anchored_iff {phrase : List Text} (given : phrase ≠ []) {span : Nat × Nat} :
    Anchored doc words phrase (markName counter span.1) (markName counter span.2) ↔
      ∃ k, OccursAt phrase words k ∧ span = (k + 1, k + phrase.length + 1) := by
  obtain ⟨first, second⟩ := span
  unfold Anchored
  simp only [markAfter_iff spoken, List.length_map, Prod.mk.injEq]
  constructor
  · rintro ⟨k, occurs, ⟨_, rfl⟩, _, rfl⟩
    exact ⟨k, occurs, rfl, rfl⟩
  · rintro ⟨k, occurs, rfl, rfl⟩
    have fits := occurs.fits given
    exact ⟨k, occurs, ⟨by omega, rfl⟩, fits, rfl⟩

end

theorem IsGesture.unique {node : Node} {name type start stop name' type' start' stop' : Text}
    (first : IsGesture name type start stop node)
    (second : IsGesture name' type' start' stop' node) : start = start' ∧ stop = stop' := by
  obtain ⟨tag, rfl, _, _, starts, stops⟩ := first
  obtain ⟨tag', same, _, _, starts', stops'⟩ := second
  cases same
  rw [starts] at starts'
  rw [stops] at stops'
  exact ⟨Option.some.inj starts', Option.some.inj stops'⟩

def Environment.withTable (env : Environment) (table : ResponseTable) : Environment :=
  { env with table := table }

/-- In every call with an argument that stands for a tag, unless another argument ends it, a
document is returned that has the tag, anchored at the phrase. -/
def EmitsAnchored (env : Environment) (words : List SpokenWord) (phrase : List Text)
    (argName name type : Text) : Prop :=
  ∀ (table : ResponseTable) (p : UtteranceActionProposer) (request : Request)
    (response : Response) (hash : Text),
    getResponse table p.history request.draws request.argNames request.argValues =
      .ok (some response) →
    createHash response request.argNames request.argValues = .ok hash →
    response.response = spokenText words →
    (argName, literal phrase) ∈ response.arguments request.argNames request.argValues →
    (∀ argument ∈ response.arguments request.argNames request.argValues,
      argument ≠ (argName, literal phrase) →
        Usable (env.withTable table) (spokenText words) (lastMark (spokenText words)) argument) →
    ∃ doc, p.constructFMLDocument (env.withTable table) request =
        .ok (some (response, hash, doc)) ∧
      ∃ node ∈ tagNodes doc, ∃ start stop, IsGesture name type start stop node ∧
        Anchored doc words phrase start stop

theorem constructFMLDocument_iff {env : Environment} {p : UtteranceActionProposer}
    {request : Request} {response : Response} {hash : Text} {doc : Document} :
    p.constructFMLDocument env request = .ok (some (response, hash, doc)) ↔
      getResponse env.table p.history request.draws request.argNames request.argValues =
          .ok (some response) ∧
        createHash response request.argNames request.argValues = .ok hash ∧
        fmlDocument env p.character p.output_counter response request.argNames
          request.argValues = .ok doc := by
  constructor
  · intro constructed
    obtain ⟨found, chosen, rest⟩ := Outcome.bind_ok constructed
    cases found with
    | none => cases rest
    | some response' =>
      obtain ⟨hash', hashed, rest⟩ := Outcome.bind_ok rest
      obtain ⟨doc', built, rest⟩ := Outcome.bind_ok rest
      cases rest
      exact ⟨chosen, hashed, built⟩
  · rintro ⟨chosen, hashed, built⟩
    unfold UtteranceActionProposer.constructFMLDocument
    rw [chosen]
    simp only [bind, Except.bind]
    rw [hashed]
    dsimp only
    rw [built]
    rfl

theorem getResponse_single (response : Response) (argName value : Text)
    (other : argName ≠ "response2".toList) :
    getResponse { responses := AList.insert [] response ∅, responseGroups := ∅ } [] (0, 0)
      ["response".toList, argName] [[], value] = .ok (some response) := by
  have first : argument ["response".toList, argName] [[], value] "response".toList =
      some (.ok []) := rfl
  have none : argument ["response".toList, argName] [[], value] "response2".toList = none := by
    have second : (decide (argName = "response2".toList)) = false := decide_eq_false other
    unfold argument
    rw [List.findIdx?_cons, List.findIdx?_cons, List.findIdx?_nil, second]
    rfl
  unfold getResponse
  rw [first]
  simp only [bind, Except.bind, ResponseTable.find, AList.lookup_insert, none]
  rfl

theorem tagMarks_anchored_iff (env : Environment) (engine : RegexEngine env.compile)
    {words : List SpokenWord} (spoken : words ≠ []) {phrase : List Text} (given : phrase ≠ [])
    (areWords : ∀ u ∈ phrase, IsWord u) (plain : IsLiteral (literal phrase))
    (occurs : ∃ k, OccursAt phrase words k) :
    (∃ k, OccursAt phrase words k ∧
      tagMarks env (spokenText words) (literal phrase) (lastMark (spokenText words)) =
        .ok (some (k + 1, k + phrase.length + 1))) ↔
      if IsKeyword (literal phrase) then words.length = 1
      else Unbroken phrase words ∧ literal phrase ≠ spokenText words := by
  split
  · rename_i keyword
    have single := keyword_single given areWords keyword
    obtain ⟨span, marks, _, exact_iff⟩ := tagMarks_keyword spoken env keyword
    rw [marks, single]
    constructor
    · rintro ⟨k, _, same⟩
      exact ((exact_iff k).mp (Option.some.inj (Except.ok.inj same))).2
    · intro one
      obtain ⟨k, here⟩ := occurs
      have fits := here.fits given
      have first : k = 0 := by omega
      subst first
      exact ⟨0, here, congrArg (Except.ok ∘ some) ((exact_iff 0).mpr ⟨rfl, one⟩)⟩
  · rename_i noKeyword
    rw [tagMarks_value noKeyword, ← found_iff]
    rcases matchedMarks_phrase engine given areWords plain spoken with
      ⟨k, x, begins, apart, marks⟩ | ⟨nowhere, marks⟩
    · exact iff_of_true ⟨k, begins.letters, marks⟩ ⟨k, x, begins, apart⟩
    · rw [marks]
      refine iff_of_false ?_ ?_
      · rintro ⟨k, _, same⟩
        cases same
      · rintro ⟨k, x, begins, apart⟩
        obtain ⟨rfl, rfl⟩ := nowhere k x begins
        rcases apart with positive | some
        · exact absurd positive (Nat.lt_irrefl 0)
        · exact some rfl

section
variable {env : Environment} {character : Option Text} {counter : Nat}
  {words : List SpokenWord}

theorem emitsAnchored_iff (engine : RegexEngine env.compile) (spoken : words ≠ [])
    {argName name type : Text} (named : tagName argName = some (name, type))
    {phrase : List Text} (given : phrase ≠ []) (areWords : ∀ u ∈ phrase, IsWord u)
    (plain : IsLiteral (literal phrase)) (occurs : ∃ k, OccursAt phrase words k) :
    EmitsAnchored env words phrase argName name type ↔
      IsElementName env.dom name ∧ if IsKeyword (literal phrase) then words.length = 1
        else Unbroken phrase words ∧ literal phrase ≠ spokenText words := by
  have texts : split (spokenText words) ' ' = words.map SpokenWord.text := split_spokenText spoken
  constructor
  · intro emits
    let response : Response := { id := [], response := spokenText words }
    let request : Request :=
      { argNames := ["response".toList, argName], argValues := [[], literal phrase] }
    let table : ResponseTable :=
      { responses := AList.insert [] response ∅, responseGroups := ∅ }
    have arguments : response.arguments request.argNames request.argValues =
        [("response".toList, []), (argName, literal phrase)] := rfl
    have noTag : tagName "response".toList = none := by decide
    have chosen := getResponse_single response argName (literal phrase) (tagName_other named)
    obtain ⟨hash, hashed⟩ : ∃ hash, createHash response request.argNames request.argValues =
        .ok hash := ⟨_, rfl⟩
    obtain ⟨doc, constructed, node, member, start, stop, gesture, anchored⟩ :=
      emits table {} request response hash chosen hashed rfl
        (by rw [arguments]; exact .tail _ (.head _)) (by
          rw [arguments]
          intro argument among other name' type' named'
          rcases List.mem_cons.mp among with rfl | own
          · cases noTag.symm.trans named'
          · exact absurd (List.mem_singleton.mp own) other)
    obtain ⟨_, _, built⟩ := constructFMLDocument_iff.mp constructed
    have usable := fmlDocument_ok_iff.mp ⟨doc, built⟩ (argName, literal phrase)
      (by rw [arguments]; exact .tail _ (.head _)) name type named
    obtain ⟨found, marks, valid⟩ := usable
    obtain ⟨nodes, ofArguments, _⟩ := fmlDocument_nodes built
    obtain ⟨argument, among, name', type', span, ⟨named', marks'⟩, gesture'⟩ :=
      ofArguments node member
    rw [arguments] at among
    rcases List.mem_cons.mp among with rfl | own
    · cases noTag.symm.trans named'
    · rw [List.mem_singleton.mp own] at named' marks'
      cases named.symm.trans named'
      cases marks.symm.trans marks'
      obtain ⟨rfl, rfl⟩ := gesture.unique gesture'
      rw [show response.response = spokenText words from rfl, texts] at nodes
      obtain ⟨k, here, rfl⟩ := (anchored_iff nodes given).mp anchored
      have condition := (tagMarks_anchored_iff (env.withTable table) engine spoken given areWords
        plain occurs).mp ⟨k, here, marks⟩
      exact ⟨valid (Option.some_ne_none _), condition⟩
  · rintro ⟨valid, condition⟩ table p request response hash chosen hashed same among others
    obtain ⟨k, here, marks⟩ := (tagMarks_anchored_iff (env.withTable table) engine spoken given
      areWords plain occurs).mpr condition
    have usable : ∀ argument ∈ response.arguments request.argNames request.argValues,
        Usable (env.withTable table) response.response (lastMark response.response) argument := by
      intro argument member
      rw [same]
      by_cases own : argument = (argName, literal phrase)
      · subst own
        intro name' type' named'
        cases named.symm.trans named'
        exact ⟨_, marks, fun _ => valid⟩
      · exact others argument member own
    obtain ⟨doc, built⟩ := fmlDocument_ok_iff.mpr usable
    obtain ⟨nodes, _, hasNode⟩ := fmlDocument_nodes built
    rw [same] at nodes hasNode
    rw [texts] at nodes
    obtain ⟨node, member, gesture⟩ := hasNode _ among name type _ ⟨named, marks⟩
    exact ⟨doc, constructFMLDocument_iff.mpr ⟨chosen, hashed, built⟩, node, member, _, _, gesture,
      (anchored_iff nodes given).mpr ⟨k, here, rfl⟩⟩

theorem allInOrder_iff (engine : RegexEngine env.compile) (spoken : words ≠ [])
    {response : Response} {argNames argValues : List Text} {doc : Document}
    (same : response.response = spokenText words)
    (built : fmlDocument env character counter response argNames argValues = .ok doc) :
    (∀ node ∈ tagNodes doc, ∃ name type start stop, IsGesture name type start stop node ∧
      InOrder doc words start stop) ↔
      ∀ argument ∈ response.arguments argNames argValues, tagName argument.1 ≠ none →
        IsKeyword argument.2 ∨ MatchCovers env.compile (spokenText words) argument.2 := by
  obtain ⟨nodes, ofArguments, hasNode⟩ := fmlDocument_nodes built
  rw [same] at nodes ofArguments hasNode
  rw [split_spokenText spoken] at nodes
  constructor
  · intro inOrder argument among given
    obtain ⟨⟨name, type⟩, named⟩ := Option.ne_none_iff_exists'.mp given
    rw [← tagMarks_increasing spoken engine]
    intro span marks
    obtain ⟨node, member, gesture⟩ := hasNode argument among name type span ⟨named, marks⟩
    obtain ⟨name', type', start, stop, gesture', ordered⟩ := inOrder node member
    obtain ⟨rfl, rfl⟩ := gesture'.unique gesture
    exact (inOrder_iff nodes).mp ordered
  · intro covers node member
    obtain ⟨argument, among, name, type, span, ⟨named, marks⟩, gesture⟩ :=
      ofArguments node member
    have given : tagName argument.1 ≠ none := by
      rw [named]
      exact Option.some_ne_none _
    have increasing := (tagMarks_increasing spoken engine argument.2).mpr
      (covers argument among given) span marks
    exact ⟨name, type, _, _, gesture, (inOrder_iff nodes).mpr increasing⟩

/-- The tag of a phrase is emitted and anchored if and only if the phrase stands unbroken in the
text and is not the whole text; tags have their marks in order if and only if every match covers
the beginning of a word. -/
theorem gestures_anchored_iff (engine : RegexEngine env.compile) (spoken : words ≠ []) :
    (∀ argName name type, tagName argName = some (name, type) → ∀ phrase : List Text,
      phrase ≠ [] → (∀ u ∈ phrase, IsWord u) → IsLiteral (literal phrase) →
      (∃ k, OccursAt phrase words k) →
        (EmitsAnchored env words phrase argName name type ↔
          IsElementName env.dom name ∧ if IsKeyword (literal phrase) then words.length = 1
            else Unbroken phrase words ∧ literal phrase ≠ spokenText words)) ∧
    ∀ (p : UtteranceActionProposer) (request : Request) (response : Response) (hash : Text)
      (doc : Document), p.constructFMLDocument env request = .ok (some (response, hash, doc)) →
      response.response = spokenText words →
        ((∀ node ∈ tagNodes doc, ∃ name type start stop, IsGesture name type start stop node ∧
          InOrder doc words start stop) ↔
        ∀ argument ∈ response.arguments request.argNames request.argValues,
          tagName argument.1 ≠ none → IsKeyword argument.2 ∨
            MatchCovers env.compile (spokenText words) argument.2) := by
  refine ⟨?_, ?_⟩
  · intro argName name type named phrase given areWords plain occurs
    exact emitsAnchored_iff engine spoken named given areWords plain occurs
  · intro p request response hash doc constructed same
    exact allInOrder_iff engine spoken same (constructFMLDocument_iff.mp constructed).2.2

end

/-- Patterns are literal, names are of ASCII letters, and there is one response. -/
def literalEnvironment (responseString : Text) : Environment where
  dom := { isXMLName := isAsciiName, asciiName := fun _ h => h }
  compile := literalCompile
  table :=
    { responses := AList.insert [] { id := [], response := responseString } ∅
      responseGroups := ∅ }
  voiceLocale := fun _ => none

theorem isWord_yes : IsWord "yes".toList :=
  ⟨by decide, List.all_eq_true.mp (by decide)⟩

theorem isPunctuation_comma : ∀ c ∈ some ',', isPunctuation c = true := by
  intro c comma
  cases comma
  decide

def spokenYes (punctuation : Option Char) (isMark : ∀ c ∈ punctuation, isPunctuation c = true) :
    SpokenWord where
  letters := "yes".toList
  punctuation := punctuation
  isWord := isWord_yes
  isMark := isMark

theorem gestures_anchored_yes :
    EmitsAnchored (literalEnvironment "yes, yes".toList)
      [spokenYes (some ',') isPunctuation_comma, spokenYes none nofun] ["yes".toList]
      "gesture:nod".toList "gesture".toList "nod".toList := by
  have anchored := @gestures_anchored_iff (literalEnvironment "yes, yes".toList)
    [spokenYes (some ',') isPunctuation_comma, spokenYes none nofun] literalEngine
    (List.cons_ne_nil _ _)
  have areWords : ∀ u ∈ ["yes".toList], IsWord u := List.forall_mem_singleton.mpr isWord_yes
  have condition := anchored.1 "gesture:nod".toList "gesture".toList "nod".toList (by decide)
    ["yes".toList] (List.cons_ne_nil _ _) areWords (by decide) ⟨0, rfl⟩
  apply condition.mpr
  refine ⟨⟨by decide, by decide⟩, ?_⟩
  rw [if_neg (by decide)]
  have begins := Begins.last (spokenYes (some ',') isPunctuation_comma) [spokenYes none nofun]
  exact ⟨⟨0, _, begins⟩, by decide⟩

/-- The tag of a phrase that is the whole text is left out. -/
theorem gestures_anchored_wholeText :
    OccursAt ["yes".toList] [spokenYes none nofun] 0 ∧
    ∃ response hash doc, response.response = spokenText [spokenYes none nofun] ∧
      UtteranceActionProposer.constructFMLDocument (literalEnvironment "yes".toList) {}
        { argNames := ["response".toList, "gesture:nod".toList]
          argValues := [[], "yes".toList] } = .ok (some (response, hash, doc)) ∧
      tagNodes doc = [] := by
  let response : Response := { id := [], response := "yes".toList }
  have arguments : response.arguments ["response".toList, "gesture:nod".toList]
      [[], "yes".toList] = [("response".toList, []), ("gesture:nod".toList, "yes".toList)] := rfl
  have noTag : tagName "response".toList = none := by decide
  have noMarks : tagMarks (literalEnvironment "yes".toList) "yes".toList "yes".toList 2 =
      .ok none := by decide
  have usable : ∀ argument ∈ response.arguments ["response".toList, "gesture:nod".toList]
      [[], "yes".toList],
      Usable (literalEnvironment "yes".toList) response.response (lastMark response.response)
        argument := by
    rw [arguments]
    intro argument among name type named
    rcases List.mem_cons.mp among with rfl | own
    · cases noTag.symm.trans named
    · rw [List.mem_singleton.mp own]
      exact ⟨none, noMarks, fun given => absurd rfl given⟩
  have exists_doc : ∃ doc, fmlDocument (literalEnvironment "yes".toList) none 1 response
      ["response".toList, "gesture:nod".toList] [[], "yes".toList] = .ok doc :=
    fmlDocument_ok_iff.mpr usable
  obtain ⟨doc, built⟩ := exists_doc
  obtain ⟨_, ofArguments, _⟩ := fmlDocument_nodes built
  refine ⟨rfl, response, _, doc, rfl, constructFMLDocument_iff.mpr ⟨?_, rfl, built⟩, ?_⟩
  · exact getResponse_single response "gesture:nod".toList "yes".toList (by decide)
  · rw [List.eq_nil_iff_forall_not_mem]
    intro node member
    obtain ⟨argument, among, name, type, span, ⟨named, marks⟩, _⟩ := ofArguments node member
    rw [arguments] at among
    rcases List.mem_cons.mp among with rfl | own
    · cases noTag.symm.trans named
    · rw [List.mem_singleton.mp own] at marks
      cases noMarks.symm.trans marks

end Semaine.Dialogue
