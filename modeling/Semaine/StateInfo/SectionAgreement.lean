import Semaine.StateInfo.SectionRefinement

/-! When the reader in Java and the one in C++ get the same from a section of the configuration. -/
namespace Semaine.StateInfo.Section
open JavaText Semaine.Xml

variable {type : StateType}

theorem readLine_more {r : Cpp.Reading} {line : Text} {turns : Nat}
    {result : Except Text Cpp.Reading} (more : Nat)
    (ended : r.readLine turns type line = some result) :
    r.readLine (turns + more) type line = some result := by
  unfold Cpp.Reading.readLine at ended ⊢
  by_cases isPrefixes : line = "[namespace prefixes]".toList
  · rw [if_pos isPrefixes] at ended ⊢
    exact ended
  · rw [if_neg isPrefixes] at ended ⊢
    by_cases isNames : line = "[short names]".toList
    · rw [if_pos isNames] at ended ⊢
      exact ended
    · rw [if_neg isNames] at ended ⊢
      by_cases definition : r.readNamespacePrefixes = true
      · rw [if_pos definition] at ended ⊢
        exact ended
      · rw [if_neg definition] at ended ⊢
        by_cases shortName : r.readShortNames = true
        · rw [if_pos shortName] at ended ⊢
          generalize Cpp.findFirstNotOf line (Cpp.findFirstOf line) = second at ended ⊢
          generalize Cpp.findFirstOf line = first at ended ⊢
          cases first with
          | none => exact ended
          | some sepStart =>
            cases second with
            | none => exact ended
            | some secondStart =>
              dsimp only at ended ⊢
              cases split : Xml.Cpp.splitXPathIntoParts turns (line.drop secondStart) with
              | none =>
                rw [split] at ended
                cases ended
              | some parts =>
                rw [split] at ended
                rw [Xml.Cpp.splitXPathIntoParts_more more split]
                exact ended
        · rw [if_neg shortName] at ended ⊢
          exact ended

theorem readLines_more {ls : List Text} {r : Cpp.Reading} {turns : Nat}
    {result : Except Text Cpp.Reading} (more : Nat)
    (ended : Cpp.Reading.readLines turns type ls r = some result) :
    Cpp.Reading.readLines (turns + more) type ls r = some result := by
  induction ls generalizing r with
  | nil => exact ended
  | cons line rest ih =>
    unfold Cpp.Reading.readLines at ended ⊢
    cases first : r.readLine turns type line with
    | none =>
      rw [first] at ended
      cases ended
    | some next =>
      rw [first] at ended
      rw [readLine_more more first]
      cases next with
      | error message => exact ended
      | ok r => exact ih ended

theorem returns_unique {section' : List Text} {first second : Except Text Cpp.XPathInfoMapper}
    (one : Cpp.Returns type section' first) (other : Cpp.Returns type section' second) :
    first = second := by
  obtain ⟨turns, one⟩ := one
  obtain ⟨turns', other⟩ := other
  obtain ⟨result, read, rfl⟩ := Option.map_eq_some_iff.mp one
  obtain ⟨result', read', rfl⟩ := Option.map_eq_some_iff.mp other
  have more := readLines_more turns' read
  have more' := readLines_more turns read'
  rw [Nat.add_comm, more] at more'
  cases more'
  rfl

theorem judged_more {turns : Nat} {line : Text} (more : Nat) (judged : Judged turns line) :
    Judged (turns + more) line := by
  intro e read
  obtain ⟨result, ended, verdict⟩ := judged e read
  exact ⟨result, Xml.Cpp.splitXPathIntoParts_more more ended, verdict⟩

theorem judged_of_agree {line : Text}
    (agree : ∀ e, cpp.shortName line = some e → Agree e.2) : ∃ turns, Judged turns line := by
  unfold Judged
  cases read : cpp.shortName line with
  | none => exact ⟨0, nofun⟩
  | some e =>
    obtain ⟨_, message, thrown, turns, ended⟩ | ⟨path, accepted, turns, ended⟩ := agree e read
    · refine ⟨turns, fun e' same => ?_⟩
      cases same
      refine ⟨_, ended, ?_⟩
      unfold splits
      rw [thrown]
      rfl
    · refine ⟨turns, fun e' same => ?_⟩
      cases same
      refine ⟨_, ended, ?_⟩
      unfold splits
      rw [accepted]
      rfl

theorem judged_all {ls : List Line}
    (each : ∀ line, .shortName line ∈ ls → ∃ turns, Judged turns line) :
    ∃ turns, ∀ line, .shortName line ∈ ls → Judged turns line := by
  induction ls with
  | nil => exact ⟨0, nofun⟩
  | cons l ls ih =>
    obtain ⟨turns, later⟩ := ih fun line member => each line (.tail l member)
    cases l with
    | shortName line =>
      obtain ⟨turns', first⟩ := each line (.head ls)
      refine ⟨turns + turns', fun line' member => ?_⟩
      cases member with
      | head =>
        rw [Nat.add_comm]
        exact judged_more turns first
      | tail _ member => exact judged_more turns' (later line' member)
    | shortNames =>
      refine ⟨turns, fun line member => ?_⟩
      cases member with
      | tail _ member => exact later line member
    | definition line =>
      refine ⟨turns, fun line member => ?_⟩
      cases member with
      | tail _ member => exact later line member

/-- Every expression compiles in the context of all prefixes that are defined. -/
def Compiles {Compiled : Type} (compile : NamespaceContext → Text → Option Compiled)
    (ls : List Line) : Prop :=
  ∀ e ∈ entriesOf java ls, (compile (definitionsOf java ls).putAll e.2).isSome = true

section
variable {Compiled : Type} (compile : NamespaceContext → Text → Option Compiled)

theorem new_compiles {context : NamespaceContext} {shortNames : List (Text × Text)}
    (compiles : ∀ e ∈ shortNames, (compile context e.2).isSome = true) :
    ∃ m, Java.XPathInfoMapper.new compile context shortNames = .ok m ∧
      m.namespaceContext = context ∧ m.name2exprString = shortNames := by
  unfold Java.XPathInfoMapper.new
  cases mapped : shortNames.mapM (Java.compileEntry compile context) with
  | ok s2x => exact ⟨_, rfl, rfl, rfl⟩
  | error refusal =>
    obtain ⟨e, member, fails⟩ := Outcome.mapM_error mapped
    obtain ⟨xpathExpr, compiled⟩ := Option.isSome_iff_exists.mp (compiles e member)
    unfold Java.compileEntry at fails
    rw [compiled] at fails
    cases fails

theorem new_fails {context : NamespaceContext} {shortNames : List (Text × Text)}
    (fails : ¬ ∀ e ∈ shortNames, (compile context e.2).isSome = true) :
    ∃ refusal, Java.XPathInfoMapper.new compile context shortNames = .error refusal := by
  unfold Java.XPathInfoMapper.new
  cases mapped : shortNames.mapM (Java.compileEntry compile context) with
  | error refusal => exact ⟨refusal, rfl⟩
  | ok s2x =>
    refine absurd (fun e member => ?_) fails
    obtain ⟨entry, compiled⟩ := Outcome.mapM_each mapped e member
    unfold Java.compileEntry at compiled
    cases result : compile context e.2 with
    | none =>
      rw [result] at compiled
      cases compiled
    | some xpathExpr => rfl

theorem java_reads (type : StateType) (section' : List Text) :
    ((section'.foldlM (Reading.readLine type) {}).toOption.map
        fun r => (r.namespacePrefixes, r.shortNames)) =
      ((lines section').foldlM java.read {}).map
        fun c => (c.definitions.putAll, c.entries) :=
  readLines_java type false false {} section'

theorem java_sound (type : StateType) {section' : List Text} (sound : Sound java (lines section'))
    (compiles : Compiles compile (lines section')) :
    ∃ m, Java.getXPathExpressions compile type section' = .ok m ∧
      m.namespaceContext = (definitionsOf java (lines section')).putAll ∧
      m.name2exprString = entriesOf java (lines section') := by
  have reads := java_reads type section'
  rw [(read_iff _ _).mpr ⟨sound, rfl⟩] at reads
  obtain ⟨r, read, same⟩ := Option.map_eq_some_iff.mp reads
  obtain ⟨prefixes, names⟩ := Prod.mk.inj same
  unfold Java.getXPathExpressions
  rw [Outcome.ok_of_toOption read]
  dsimp only
  rw [prefixes, names]
  exact new_compiles compile compiles

theorem java_unsound (type : StateType) {section' : List Text}
    (fault : ¬ (Sound java (lines section') ∧ Compiles compile (lines section'))) :
    ∃ refusal, Java.getXPathExpressions compile type section' = .error refusal := by
  have reads := java_reads type section'
  unfold Java.getXPathExpressions
  cases read : section'.foldlM (Reading.readLine type) {} with
  | error f => exact ⟨_, rfl⟩
  | ok r =>
    rw [read] at reads
    obtain ⟨c, content, same⟩ := Option.map_eq_some_iff.mp reads.symm
    obtain ⟨sound, rfl⟩ := (read_iff _ _).mp content
    obtain ⟨prefixes, names⟩ := Prod.mk.inj same
    dsimp only
    rw [← prefixes, ← names]
    exact new_fails compile fun compiles => fault ⟨sound, compiles⟩

end

theorem cpp_ends (type : StateType) {section' : List Text}
    (agree : ∀ line, .shortName line ∈ lines section' →
      ∀ e, cpp.shortName line = some e → Agree e.2) :
    ∃ result, Cpp.Returns type section' result ∧
      result.toOption.map (fun m => (m.namespaceContext, m.names2exprString)) =
        ((lines section').foldlM cpp.read {}).map
          fun c => (c.definitions.putAll, c.entries.putAll) := by
  obtain ⟨turns, judged⟩ := judged_all fun line member => judged_of_agree (agree line member)
  obtain ⟨result, read, same⟩ := readLines_cpp type false false {} turns judged
  have ended : Cpp.getXPathExpressions turns type section' = some (result.map _) :=
    congrArg _ read
  refine ⟨_, ⟨turns, ended⟩, ?_⟩
  have content : ((lines section').foldlM cpp.read {}).map _ = _ := same.symm
  rw [content]
  cases result <;> rfl

theorem cpp_sound (type : StateType) {section' : List Text}
    (agree : ∀ line, .shortName line ∈ lines section' →
      ∀ e, cpp.shortName line = some e → Agree e.2) (sound : Sound cpp (lines section')) :
    ∃ m, Cpp.Returns type section' (.ok m) ∧
      m.namespaceContext = (definitionsOf cpp (lines section')).putAll ∧
      m.names2exprString = (entriesOf cpp (lines section')).putAll := by
  obtain ⟨result, returned, same⟩ := cpp_ends type agree
  rw [(read_iff _ _).mpr ⟨sound, rfl⟩] at same
  obtain ⟨m, accepted, content⟩ := Option.map_eq_some_iff.mp same
  rw [Outcome.ok_of_toOption accepted] at returned
  obtain ⟨prefixes, names⟩ := Prod.mk.inj content
  exact ⟨m, returned, prefixes, names⟩

theorem cpp_unsound (type : StateType) {section' : List Text}
    (agree : ∀ line, .shortName line ∈ lines section' →
      ∀ e, cpp.shortName line = some e → Agree e.2) (fault : ¬ Sound cpp (lines section')) :
    ∃ message, Cpp.Returns type section' (.error message) := by
  obtain ⟨result, returned, same⟩ := cpp_ends type agree
  cases result with
  | error message => exact ⟨message, returned⟩
  | ok m =>
    obtain ⟨c, content, _⟩ := Option.map_eq_some_iff.mp same.symm
    exact absurd ((read_iff _ _).mp content).1 fault

def SectionsAgree {Compiled : Type} (compile : NamespaceContext → Text → Option Compiled)
    (type : StateType) (section' : List Text) : Prop :=
  (∃ refusal message, Java.getXPathExpressions compile type section' = .error refusal ∧
      Cpp.Returns type section' (.error message)) ∨
    ∃ m n, Java.getXPathExpressions compile type section' = .ok m ∧
      Cpp.Returns type section' (.ok n) ∧
      (∀ p, m.namespaceContext.lookup p = n.namespaceContext.lookup p) ∧
      ∀ name, m.name2exprString.lookup name = n.names2exprString.lookup name

def SameDefinitions (ls : List Line) : Prop :=
  ∀ p, (definitionsOf java ls).putAll.lookup p = (definitionsOf cpp ls).putAll.lookup p

def SameShortNames (ls : List Line) : Prop :=
  ∀ line, .shortName line ∈ ls → java.shortName line = cpp.shortName line

theorem mem_entriesOf {r : Reader} {ls : List Line} {e : Text × Text} :
    e ∈ entriesOf r ls ↔ ∃ line, .shortName line ∈ ls ∧ r.shortName line = some e := by
  unfold entriesOf
  rw [List.mem_filterMap]
  constructor
  · rintro ⟨l, member, read⟩
    cases l with
    | shortName line => exact ⟨line, member, read⟩
    | shortNames => cases read
    | definition line => cases read
  · rintro ⟨line, member, read⟩
    exact ⟨.shortName line, member, read⟩

theorem shortName_trimmed {line : Text} {e : Text × Text} (read : cpp.shortName line = some e) :
    java.shortName line = some (trimBoth e) := by
  have taken : separated Cpp.delims line = some e := (Option.filter_eq_some_iff.mp read).1
  have trimmed : java.shortName line = (separated Cpp.delims line).map trimBoth := rfl
  rw [trimmed, taken]
  rfl

theorem trimmed_shortName {line : Text} {e : Text × Text} (read : java.shortName line = some e) :
    trimBoth e = e := by
  obtain ⟨e', _, rfl⟩ := Option.map_eq_some_iff.mp read
  unfold trimBoth
  rw [trim_trim, trim_trim]

theorem entries_same_iff {ls : List Line} (sound : Sound cpp ls) :
    (∀ name, (entriesOf java ls).lookup name = (entriesOf cpp ls).putAll.lookup name) ↔
      SameShortNames ls := by
  constructor
  · intro same line member
    obtain ⟨e, read, _⟩ := sound.entries line member
    have isEntry : e ∈ entriesOf cpp ls := mem_entriesOf.mpr ⟨line, member, read⟩
    have inCpp := List.lookup_of_mem sound.names isEntry
    have inJava := same e.1
    rw [List.putAll_lookup sound.names, inCpp] at inJava
    obtain ⟨line', _, read'⟩ := mem_entriesOf.mp (List.mem_of_lookup inJava)
    rw [shortName_trimmed read, read, trimmed_shortName read']
  · intro same name
    have entries : entriesOf java ls = entriesOf cpp ls := by
      apply List.filterMap_congr
      intro l member
      cases l with
      | shortName line => exact same line member
      | shortNames => rfl
      | definition line => rfl
    rw [entries, List.putAll_lookup sound.names]

/-- Both readers find a fault, or neither does and they take the same from the lines. -/
theorem sectionsAgree_iff {Compiled : Type} (compile : NamespaceContext → Text → Option Compiled)
    (type : StateType) (section' : List Text)
    (judged : ∀ line, .shortName line ∈ lines section' →
      ∀ e, cpp.shortName line = some e → Agree e.2) :
    SectionsAgree compile type section' ↔
      (Sound java (lines section') ∧ Compiles compile (lines section') ↔
          Sound cpp (lines section')) ∧
        (Sound cpp (lines section') →
          SameDefinitions (lines section') ∧ SameShortNames (lines section')) := by
  constructor
  · rintro (⟨refusal, message, thrown, refused⟩ | ⟨m, n, accepted, returned, prefixes, names⟩)
    · have javaFault : ¬ (Sound java (lines section') ∧ Compiles compile (lines section')) := by
        rintro ⟨sound, compiles⟩
        obtain ⟨m, accepted, _⟩ := java_sound compile type sound compiles
        rw [thrown] at accepted
        cases accepted
      have cppFault : ¬ Sound cpp (lines section') := by
        intro sound
        obtain ⟨n, returned, _⟩ := cpp_sound type judged sound
        cases returns_unique returned refused
      exact ⟨iff_of_false javaFault cppFault, fun sound => absurd sound cppFault⟩
    · have javaSound : Sound java (lines section') ∧ Compiles compile (lines section') := by
        by_contra fault
        obtain ⟨refusal, thrown⟩ := java_unsound compile type fault
        rw [accepted] at thrown
        cases thrown
      have cppSound : Sound cpp (lines section') := by
        by_contra fault
        obtain ⟨message, refused⟩ := cpp_unsound type judged fault
        cases returns_unique returned refused
      obtain ⟨m', accepted', context, expressions⟩ := java_sound compile type javaSound.1 javaSound.2
      obtain ⟨n', returned', context', expressions'⟩ := cpp_sound type judged cppSound
      rw [accepted] at accepted'
      cases accepted'
      cases returns_unique returned returned'
      rw [context, context'] at prefixes
      rw [expressions, expressions'] at names
      exact ⟨iff_of_true javaSound cppSound,
        fun _ => ⟨prefixes, (entries_same_iff cppSound).mp names⟩⟩
  · rintro ⟨verdicts, same⟩
    by_cases cppSound : Sound cpp (lines section')
    · obtain ⟨javaSound, compiles⟩ := verdicts.mpr cppSound
      obtain ⟨definitions, shortNames⟩ := same cppSound
      obtain ⟨m, accepted, context, expressions⟩ := java_sound compile type javaSound compiles
      obtain ⟨n, returned, context', expressions'⟩ := cpp_sound type judged cppSound
      refine Or.inr ⟨m, n, accepted, returned, ?_, ?_⟩
      · rw [context, context']
        exact definitions
      · rw [expressions, expressions']
        exact (entries_same_iff cppSound).mpr shortNames
    · obtain ⟨refusal, thrown⟩ := java_unsound compile type (verdicts.not.mpr cppSound)
      obtain ⟨message, refused⟩ := cpp_unsound type judged cppSound
      exact Or.inl ⟨refusal, message, thrown, refused⟩

def compileParts (_ : NamespaceContext) (expr : Text) : Option XPath :=
  (splitXPathIntoParts expr).toOption

def genderSection : List Text :=
  ["[UserState]".toList, "[namespace prefixes]".toList,
    "semaine http://www.semaine-project.eu/semaineml".toList, "[short names]".toList,
    "gender \t/semaine:user-state/semaine:gender/@name".toList]

def genderContent : Content where
  definitions := [("semaine".toList, "http://www.semaine-project.eu/semaineml".toList)]
  entries := [("gender".toList, "/semaine:user-state/semaine:gender/@name".toList)]

def genderPath : XPath where
  parts := [{ nsPrefix := some "semaine".toList, localName := "user-state".toList },
    { nsPrefix := some "semaine".toList, localName := "gender".toList }]
  last := .attribute "name".toList

theorem gender_agree : SectionsAgree compileParts .userState genderSection := by
  have inJava : (lines genderSection).foldlM java.read {} = some genderContent := by decide
  have inCpp : (lines genderSection).foldlM cpp.read {} = some genderContent := by decide
  obtain ⟨javaSound, javaContent⟩ := (read_iff _ _).mp inJava
  obtain ⟨cppSound, cppContent⟩ := (read_iff _ _).mp inCpp
  have same := javaContent.symm.trans cppContent
  injection same with definitions entries
  have judged : ∀ line, .shortName line ∈ lines genderSection →
      ∀ e, cpp.shortName line = some e → Agree e.2 := by
    intro line member e read
    have isEntry : e ∈ genderContent.entries := by
      rw [cppContent]
      exact mem_entriesOf.mpr ⟨line, member, read⟩
    obtain rfl := List.mem_singleton.mp isEntry
    exact Or.inr ⟨genderPath, rfl, 4, by decide⟩
  apply (sectionsAgree_iff compileParts .userState genderSection judged).mpr
  have compiles : Compiles compileParts (lines genderSection) := by
    intro e member
    have isEntry : e ∈ genderContent.entries := by
      rw [javaContent]
      exact member
    obtain rfl := List.mem_singleton.mp isEntry
    decide
  refine ⟨iff_of_true ⟨javaSound, compiles⟩ cppSound, fun _ => ⟨fun p => ?_, ?_⟩⟩
  · rw [definitions]
  · refine (entries_same_iff cppSound).mp fun name => ?_
    rw [entries, List.putAll_lookup cppSound.names]

def tabSection : List Text :=
  ["[UserState]".toList, "[namespace prefixes]".toList,
    "semaine\thttp://www.semaine-project.eu/semaineml".toList]

/-- In C++ it is defined. In Java another one is, with the beginning of the URI in its name. -/
theorem tab_disagree : ¬ SectionsAgree compileParts .userState tabSection := by
  have inJava : (Java.getXPathExpressions compileParts .userState tabSection).toOption.map
      (fun m => m.namespaceContext.lookup "semaine".toList) = some none := by decide
  have inCpp : (Cpp.getXPathExpressions 0 .userState tabSection).map (fun result =>
      result.toOption.map fun m => m.namespaceContext.lookup "semaine".toList) =
      some (some (some "http://www.semaine-project.eu/semaineml".toList)) := by decide
  obtain ⟨result, returned, mapped⟩ := Option.map_eq_some_iff.mp inCpp
  rintro (⟨refusal, _, thrown, _⟩ | ⟨m, n, accepted, returned', prefixes, _⟩)
  · rw [thrown] at inJava
    cases inJava
  · rw [returns_unique ⟨0, returned⟩ returned'] at mapped
    rw [accepted] at inJava
    have undefined : m.namespaceContext.lookup "semaine".toList = none := Option.some.inj inJava
    have defined : n.namespaceContext.lookup "semaine".toList = some _ := Option.some.inj mapped
    rw [← prefixes, undefined] at defined
    cases defined

end Semaine.StateInfo.Section
