import Semaine.Emotion.EmotionFusion
import Semaine.Library.Association
import Semaine.Library.Outcome
import Semaine.StateInfo.StateInfo

/-! `eu.semaine.components.dialogue.interpreters.AgentMentalStateInterpreter`, and the
predispositions of the characters with which it starts. Numbers are exact. -/
namespace Semaine.Interpreters
open JavaText JavaFloat Semaine.Xml Semaine.Emotion Semaine.StateInfo

/-- The predispositions by vocabulary and name; null where the configuration has none. -/
structure CharacterConfigInfo where
  predispositions : Option (List (Text × Number))

/-- `Float.parseFloat`, and how a float is written. -/
structure FloatTexts where
  parseFloat : Text → Option Number
  toText : Number → Text

def dimensionKey (vocabularyURI name : Text) : Text := vocabularyURI ++ "|".toList ++ name

def readDimension (floats : FloatTexts) (vocabularyURI : Text) (dimension : Element) :
    Except Failure (Text × Number) := do
  let name := dimension.getAttribute EmotionML.name
  if name = [] then throw (.systemConfiguration "Dimension has no name".toList)
  let valueString := dimension.getAttribute EmotionML.value
  match floats.parseFloat valueString with
  | none => throw (.systemConfiguration ("Value '".toList ++ valueString ++
      "' of dimension '".toList ++ name ++ "' is not a float number".toList))
  | some value =>
    if Number.lt value (.val 0) || Number.lt (.val 1) value then
      throw (.systemConfiguration ("Value '".toList ++ floats.toText value ++
        "' of dimension '".toList ++ name ++
        "' is outside of the valid value range [0, 1]".toList))
    return (dimensionKey vocabularyURI name, value)

def readEmotion (floats : FloatTexts) (emotion : Element) :
    Except Failure (List (Text × Number)) := do
  let vocabularyURI := emotion.getAttribute "dimension-set".toList
  if vocabularyURI = [] then
    throw (.systemConfiguration
      "Emotion definition does not have a valid vocabulary URI in attribute dimension-set".toList)
  let positions ← (getChildrenByLocalNameNS emotion EmotionML.dimension
    (some EmotionML.namespaceURI)).mapError Failure.thrown
  (elementsAt emotion positions).mapM (readDimension floats vocabularyURI)

def fillPredispositions (floats : FloatTexts) (predispositionElement : Element) :
    Except Failure (List (Text × Number)) := do
  let positions ← (getChildrenByLocalNameNS predispositionElement EmotionML.emotion
    (some EmotionML.namespaceURI)).mapError Failure.thrown
  let values ← (elementsAt predispositionElement positions).mapM (readEmotion floats)
  return values.flatten.reverse

def CharacterConfigInfo.getEmotionalPredisposition (info : CharacterConfigInfo)
    (vocabularyURI dimension : Text) : Number :=
  match info.predispositions with
  | none => .val (-1)
  | some values => (values.lookup (dimensionKey vocabularyURI dimension)).getD (.val (-1))

def InUnit (value : Number) : Prop := ∃ q, value = .val q ∧ 0 ≤ q ∧ q ≤ 1

theorem fillPredispositions_range {floats : FloatTexts} {element : Element}
    {values : List (Text × Number)} (done : fillPredispositions floats element = .ok values) :
    ∀ e ∈ values, e.2 = .nan ∨ InUnit e.2 := by
  have dimension (uri : Text) (d : Element) (e : Text × Number)
      (read : readDimension floats uri d = .ok e) : e.2 = .nan ∨ InUnit e.2 := by
    unfold readDimension at read
    dsimp only at read
    split at read
    · cases read
    · simp only [bind, Except.bind, pure, Except.pure] at read
      split at read
      · cases read
      · next value parsed =>
        split at read
        · cases read
        · next inside =>
          cases read
          cases value with
          | nan => exact Or.inl rfl
          | val q =>
            simp only [Number.lt, Bool.or_eq_true, decide_eq_true_eq, not_or, not_lt] at inside
            exact Or.inr ⟨q, rfl, inside.1, inside.2⟩
  have emotion (d : Element) (values : List (Text × Number))
      (read : readEmotion floats d = .ok values) : ∀ e ∈ values, e.2 = .nan ∨ InUnit e.2 := by
    unfold readEmotion at read
    dsimp only at read
    split at read
    · cases read
    · obtain ⟨positions, _, read⟩ := Outcome.bind_ok read
      exact Outcome.mapM_all read (dimension _)
  obtain ⟨positions, _, done⟩ := Outcome.bind_ok done
  obtain ⟨lists, read, done⟩ := Outcome.bind_ok done
  cases done
  intro e member
  obtain ⟨l, inner, member⟩ := List.mem_flatten.mp (List.mem_reverse.mp member)
  exact Outcome.mapM_all read emotion l inner e member

inductive MentalState where
  | agreement | acceptance | belief | liking | understanding | interest
  | anger | sadness | amusement | happiness | contempt | anticipation | solidarity | antagonism
  deriving DecidableEq, Repr

namespace MentalState

def values : List MentalState :=
  [agreement, acceptance, belief, liking, understanding, interest, anger, sadness, amusement,
   happiness, contempt, anticipation, solidarity, antagonism]

def toText : MentalState → Text
  | agreement => "agreement".toList
  | acceptance => "acceptance".toList
  | belief => "belief".toList
  | liking => "liking".toList
  | understanding => "understanding".toList
  | interest => "interest".toList
  | anger => "anger".toList
  | sadness => "sadness".toList
  | amusement => "amusement".toList
  | happiness => "happiness".toList
  | contempt => "contempt".toList
  | anticipation => "anticipation".toList
  | solidarity => "solidarity".toList
  | antagonism => "antagonism".toList

/-- `state2VocabularyURI`: communicative functions and listener meanings. -/
def vocabularyURI (mental : MentalState) : Text :=
  if mental ∈ [agreement, acceptance, belief, liking, understanding, interest] then
    "http://www.semaine-project.eu/emo/dimension/communicative-functions.xml".toList
  else "http://www.semaine-project.eu/emo/dimension/listener-meanings.xml".toList

theorem mem_values (mental : MentalState) : mental ∈ values := by
  cases mental <;> decide

end MentalState

abbrev MentalStates := MentalState → Option Number

def MentalStates.isEmpty (m : MentalStates) : Bool := MentalState.values.all fun k => (m k).isNone

def characters : List Text :=
  ["Poppy".toList, "Prudence".toList, "Obadiah".toList, "Spike".toList]

def predispositionsOf (info : CharacterConfigInfo) : MentalStates := fun mental =>
  let predisposition := info.getEmotionalPredisposition mental.vocabularyURI mental.toText
  if predisposition ≠ .val (-1) then some predisposition else none

structure AgentMentalStateInterpreter where
  baseMentalStates : List (Text × MentalStates)
  mentalState : MentalStates
  currChar : Option Text

def initializeBaseMentalStates (getInfo : Text → Option CharacterConfigInfo) :
    Except Thrown (List (Text × MentalStates)) := do
  let entries ← characters.mapM fun ch =>
    match getInfo ch with
    | none => throw .nullPointer
    | some info => pure (ch, predispositionsOf info)
  return entries.filter fun e => !e.2.isEmpty

inductive StateMessage where
  | context (info : List (Text × Text))
  | user (info : List (Text × Text))
  | other

namespace AgentMentalStateInterpreter

def new (getInfo : Text → Option CharacterConfigInfo) :
    Except Thrown AgentMentalStateInterpreter := do
  let baseMentalStates ← initializeBaseMentalStates getInfo
  return { baseMentalStates := baseMentalStates, mentalState := fun _ => none, currChar := none }

def resetMentalState (s : AgentMentalStateInterpreter) : AgentMentalStateInterpreter × Bool :=
  match s.currChar with
  | none => (s, false)
  | some ch =>
    match s.baseMentalStates.lookup ch with
    | some base => ({ s with mentalState := base }, true)
    | none => ({ s with mentalState := fun _ => none }, false)

def updateCharacter (info : List (Text × Text)) (s : AgentMentalStateInterpreter) :
    AgentMentalStateInterpreter × Bool :=
  match info.lookup "character".toList with
  | some ch => { s with currChar := some ch }.resetMentalState
  | none => (s, false)

def addTo (key : MentalState) (by_ : Number) (m : MentalStates) : MentalStates :=
  match m key with
  | some value => Function.update m key (some (Number.add value by_))
  | none => m

def addToAll (by_ : Number) (s : AgentMentalStateInterpreter) : AgentMentalStateInterpreter :=
  { s with mentalState :=
      addTo .understanding by_ (addTo .liking by_ (addTo .agreement by_ s.mentalState)) }

def step : Number := .val (1 / 20)
def stepBack : Number := .val (-1 / 20)

/-- What a high or a low value does for a character that likes high ones, or does not. -/
def follow (value : Number) (likes : Bool) (s : AgentMentalStateInterpreter) :
    AgentMentalStateInterpreter × Bool :=
  let (s, changed) :=
    if Number.lt (.val (1 / 2)) value then
      (s.addToAll (if likes then step else stepBack), true)
    else (s, false)
  if Number.lt value (.val (-1 / 2)) then
    (s.addToAll (if likes then stepBack else step), true)
  else (s, changed)

def likesArousal (ch : Text) : Bool := ch = "Poppy".toList || ch = "Spike".toList

def likesValence (ch : Text) : Bool := ch = "Poppy".toList || ch = "Prudence".toList

def notANumber (text : Text) : Text :=
  if trim text = [] then "empty String".toList
  else "For input string: \"".toList ++ trim text ++ "\"".toList

variable (parseFloat : Text → Option Number)

def updateDimension (name : Text) (likes : Bool) (info : List (Text × Text))
    (s : AgentMentalStateInterpreter) : Except Thrown (AgentMentalStateInterpreter × Bool) :=
  match info.lookup name with
  | none => .ok (s, false)
  | some text =>
    match parseFloat text with
    | none => .error (.illegalArgument (notANumber text))
    | some value => .ok (s.follow value likes)

def updateEmotions (info : List (Text × Text)) (s : AgentMentalStateInterpreter) :
    Except Thrown (AgentMentalStateInterpreter × Bool) :=
  match s.currChar with
  | none => .ok (s, false)
  | some ch => do
    let (s, aroused) ← s.updateDimension parseFloat "arousal".toList (likesArousal ch) info
    let (s, pleased) ← s.updateDimension parseFloat "valence".toList (likesValence ch) info
    return (s, aroused || pleased)

def sendMentalState (s : AgentMentalStateInterpreter) : Option MentalStates :=
  if s.mentalState.isEmpty then none else some s.mentalState

def react (m : StateMessage) (s : AgentMentalStateInterpreter) :
    Except Thrown (AgentMentalStateInterpreter × Option MentalStates) := do
  let (s, stateChanged) ← match m with
    | .context info => pure (s.updateCharacter info)
    | .user info => s.updateEmotions parseFloat info
    | .other => pure (s, false)
  return (s, if stateChanged then s.sendMentalState else none)

/-- The state after these messages. An exception ends the thread of the component. -/
def reactAll (s : AgentMentalStateInterpreter) (ms : List StateMessage) :
    Except Thrown AgentMentalStateInterpreter :=
  ms.foldlM (fun s m => (s.react parseFloat m).map Prod.fst) s

def followed : List MentalState := [.agreement, .liking, .understanding]

def direction (value : Number) : Int :=
  if Number.lt (.val (1 / 2)) value then 1 else if Number.lt value (.val (-1 / 2)) then -1 else 0

def dimensionSignal (name : Text) (likes : Bool) (info : List (Text × Text)) : Int :=
  match (info.lookup name).bind parseFloat with
  | some value => if likes then direction value else -direction value
  | none => 0

def signal (ch : Text) : StateMessage → Int
  | .user info =>
    dimensionSignal parseFloat "arousal".toList (likesArousal ch) info +
      dimensionSignal parseFloat "valence".toList (likesValence ch) info
  | .context _ => 0
  | .other => 0

end AgentMentalStateInterpreter

def StateMessage.character : StateMessage → Option Text
  | .context info => info.lookup "character".toList
  | _ => none

namespace AgentMentalStateInterpreter
variable (parseFloat : Text → Option Number)

def tally (counted : Option (Text × Int)) (m : StateMessage) : Option (Text × Int) :=
  match m.character with
  | some ch => some (ch, 0)
  | none => counted.map fun c => (c.1, c.2 + signal parseFloat c.1 m)

def tallied (ms : List StateMessage) : Option (Text × Int) := ms.foldl (tally parseFloat) none

theorem tallied_concat (ms : List StateMessage) (m : StateMessage) :
    tallied parseFloat (ms ++ [m]) = tally parseFloat (tallied parseFloat ms) m := by
  simp [tallied]

theorem tally_eq_none {counted : Option (Text × Int)} {m : StateMessage}
    (unknown : tally parseFloat counted m = none) : m.character = none ∧ counted = none := by
  unfold tally at unknown
  cases given : m.character with
  | some ch =>
    rw [given] at unknown
    cases unknown
  | none =>
    rw [given] at unknown
    exact ⟨rfl, Option.map_eq_none_iff.mp unknown⟩

def baseOf (s : AgentMentalStateInterpreter) (ch : Text) : MentalStates :=
  (s.baseMentalStates.lookup ch).getD fun _ => none

def driven (base : MentalStates) (n : Int) : MentalStates := fun key =>
  if key ∈ followed then (base key).map fun value => Number.add value (.val (n / 20))
  else base key

theorem driven_zero (base : MentalStates) : driven base 0 = base := by
  funext key
  unfold driven
  split
  · cases base key with
    | none => rfl
    | some value => cases value <;> simp [Number.add, Number.lift]
  · rfl

theorem add_assoc_val (value : Number) (a b : Rat) :
    Number.add (Number.add value (.val a)) (.val b) = Number.add value (.val (a + b)) := by
  cases value with
  | nan => rfl
  | val q => simp [Number.add, Number.lift, add_assoc]

theorem addTo_apply (key : MentalState) (by_ : Number) (m : MentalStates) (k : MentalState) :
    addTo key by_ m k = if k = key then (m k).map fun value => Number.add value by_ else m k := by
  unfold addTo
  by_cases same : k = key
  · subst same
    rw [if_pos rfl]
    cases held : m k with
    | none => simp [held]
    | some value => simp
  · rw [if_neg same]
    cases m key with
    | none => rfl
    | some value => simp [same]

theorem addToAll_driven {s : AgentMentalStateInterpreter} {base : MentalStates} {n : Int}
    (held : s.mentalState = driven base n) (d : Int) :
    s.addToAll (.val (d / 20)) = { s with mentalState := driven base (n + d) } := by
  unfold addToAll
  congr 1
  funext key
  have sum : (n : Rat) / 20 + d / 20 = ((n + d : Int) : Rat) / 20 := by
    push_cast
    ring
  simp only [addTo_apply, held, driven, followed]
  cases key <;> simp [Function.comp_def, add_assoc_val, sum]

theorem follow_driven {s : AgentMentalStateInterpreter} {base : MentalStates} {n : Int}
    (held : s.mentalState = driven base n) (value : Number) (likes : Bool) :
    s.follow value likes =
      ({ s with mentalState :=
          driven base (n + if likes then direction value else -direction value) },
       decide (direction value ≠ 0)) := by
  have up : s.addToAll step = { s with mentalState := driven base (n + 1) } := by
    rw [← addToAll_driven held 1, Int.cast_one, step]
  have down : s.addToAll stepBack = { s with mentalState := driven base (n + -1) } := by
    rw [← addToAll_driven held (-1), Int.cast_neg, Int.cast_one, stepBack]
  have same : s = { s with mentalState := driven base (n + 0) } := by
    rw [add_zero, ← held]
  unfold follow direction
  cases high : Number.lt (.val (1 / 2)) value with
  | true =>
    have low : Number.lt value (.val (-1 / 2)) = false := by
      cases value with
      | nan => rfl
      | val q =>
        simp only [Number.lt, decide_eq_true_eq] at high
        simp only [Number.lt, decide_eq_false_iff_not, not_lt]
        linarith
    cases likes with
    | true => simp [low, up]
    | false => simp [low, down]
  | false =>
    cases low : Number.lt value (.val (-1 / 2)) with
    | true =>
      cases likes with
      | true => simp [down]
      | false => simp [up]
    | false =>
      cases likes with
      | true => simpa using same
      | false => simpa using same

theorem updateDimension_driven {s s' : AgentMentalStateInterpreter} {base : MentalStates}
    {n : Int} (held : s.mentalState = driven base n) {name : Text} {likes : Bool}
    {info : List (Text × Text)} {changed : Bool}
    (done : s.updateDimension parseFloat name likes info = .ok (s', changed)) :
    s' =
        { s with mentalState := driven base (n + dimensionSignal parseFloat name likes info) } ∧
      (changed = false → dimensionSignal parseFloat name likes info = 0) := by
  unfold updateDimension at done
  unfold dimensionSignal
  cases given : info.lookup name with
  | none =>
    simp only [given, Except.ok.injEq, Prod.mk.injEq] at done
    obtain ⟨rfl, rfl⟩ := done
    simp [← held]
  | some text =>
    simp only [given] at done
    cases parsed : parseFloat text with
    | none =>
      simp only [parsed] at done
      cases done
    | some value =>
      simp only [parsed, follow_driven held, Except.ok.injEq, Prod.mk.injEq] at done
      obtain ⟨rfl, rfl⟩ := done
      constructor
      · simp [parsed]
      · intro unchanged
        have none : direction value = 0 := by simpa using unchanged
        simp [parsed, none]

structure Follows (ch : Text) (m : StateMessage) (s s' : AgentMentalStateInterpreter)
    (sent : Option MentalStates) : Prop where
  base : s'.baseMentalStates = s.baseMentalStates
  currChar : s'.currChar = some ch
  mentalState : ∀ base n, s.mentalState = driven base n →
    s'.mentalState = driven base (n + signal parseFloat ch m)
  published : sent = none ∨ sent = some s'.mentalState
  unpublished : sent = none →
    signal parseFloat ch m = 0 ∨ s'.mentalState.isEmpty = true

theorem send_cases (s : AgentMentalStateInterpreter) (changed : Bool) :
    ((if changed then s.sendMentalState else none) = none ∧
      (changed = false ∨ s.mentalState.isEmpty = true)) ∨
    ((if changed then s.sendMentalState else none) = some s.mentalState ∧
      s.mentalState.isEmpty = false) := by
  unfold sendMentalState
  cases changed with
  | false => exact Or.inl ⟨rfl, Or.inl rfl⟩
  | true =>
    cases empty : s.mentalState.isEmpty with
    | true => exact Or.inl ⟨rfl, Or.inr rfl⟩
    | false => exact Or.inr ⟨rfl, rfl⟩

theorem react_character {s s' : AgentMentalStateInterpreter} {m : StateMessage} {ch : Text}
    {published : Option MentalStates} (given : m.character = some ch)
    (done : s.react parseFloat m = .ok (s', published)) :
    s' = { s with currChar := some ch, mentalState := s.baseOf ch } ∧
      (published = none ∨ published = some s'.mentalState) := by
  cases m with
  | user info => cases given
  | other => cases given
  | context info =>
    have found : info.lookup "character".toList = some ch := given
    simp only [react, updateCharacter, found, resetMentalState] at done
    unfold baseOf
    cases held : s.baseMentalStates.lookup ch with
    | none =>
      simp only [held] at done
      cases done
      exact ⟨rfl, Or.inl rfl⟩
    | some base =>
      simp only [held] at done
      cases done
      refine ⟨rfl, ?_⟩
      rcases send_cases { s with currChar := some ch, mentalState := base } true with
        ⟨nothing, _⟩ | ⟨sent, _⟩
      · exact Or.inl nothing
      · exact Or.inr sent

theorem react_unknown {s s' : AgentMentalStateInterpreter} {m : StateMessage}
    {published : Option MentalStates} (given : m.character = none) (unknown : s.currChar = none)
    (done : s.react parseFloat m = .ok (s', published)) : s' = s ∧ published = none := by
  cases m with
  | user info =>
    simp only [react, updateEmotions, unknown] at done
    cases done
    exact ⟨rfl, rfl⟩
  | other =>
    cases done
    exact ⟨rfl, rfl⟩
  | context info =>
    have missing : info.lookup "character".toList = none := given
    simp only [react, updateCharacter, missing] at done
    cases done
    exact ⟨rfl, rfl⟩

theorem react_follows {s s' : AgentMentalStateInterpreter} {m : StateMessage} {ch : Text}
    {published : Option MentalStates} (given : m.character = none)
    (known : s.currChar = some ch) (done : s.react parseFloat m = .ok (s', published)) :
    Follows parseFloat ch m s s' published := by
  cases m with
  | other =>
    cases done
    exact ⟨rfl, known, fun base n held => by rw [signal, add_zero, held], Or.inl rfl,
      fun _ => Or.inl rfl⟩
  | context info =>
    have missing : info.lookup "character".toList = none := given
    simp only [react, updateCharacter, missing] at done
    cases done
    exact ⟨rfl, known, fun base n held => by rw [signal, add_zero, held], Or.inl rfl,
      fun _ => Or.inl rfl⟩
  | user info =>
    simp only [react, updateEmotions, known] at done
    cases first : s.updateDimension parseFloat "arousal".toList (likesArousal ch) info with
    | error e =>
      rw [first] at done
      cases done
    | ok result =>
      obtain ⟨s1, aroused⟩ := result
      rw [first] at done
      cases second : s1.updateDimension parseFloat "valence".toList (likesValence ch) info with
      | error e =>
        simp only [bind, Except.bind, second] at done
        cases done
      | ok result =>
        obtain ⟨s2, pleased⟩ := result
        simp only [bind, Except.bind, second, pure, Except.pure, Except.ok.injEq,
          Prod.mk.injEq] at done
        obtain ⟨rfl, rfl⟩ := done
        have start : s.mentalState = driven s.mentalState 0 := (driven_zero _).symm
        obtain ⟨after1, still1⟩ := updateDimension_driven parseFloat start first
        have middle : s1.mentalState =
            driven s.mentalState (0 + dimensionSignal parseFloat "arousal".toList
              (likesArousal ch) info) := by rw [after1]
        obtain ⟨after2, still2⟩ := updateDimension_driven parseFloat middle second
        constructor
        · rw [after2, after1]
        · rw [after2, after1]
          exact known
        · intro base n held
          have first' := (updateDimension_driven parseFloat held first).1
          have middle' : s1.mentalState =
              driven base (n + dimensionSignal parseFloat "arousal".toList
                (likesArousal ch) info) := by rw [first']
          rw [(updateDimension_driven parseFloat middle' second).1, signal, ← add_assoc]
        · rcases send_cases s2 (aroused || pleased) with ⟨nothing, _⟩ | ⟨sent, _⟩
          · exact Or.inl nothing
          · exact Or.inr sent
        · intro nothing
          rcases send_cases s2 (aroused || pleased) with ⟨_, unchanged | empty⟩ | ⟨sent, _⟩
          · obtain ⟨calm, neutral⟩ := Bool.or_eq_false_iff.mp unchanged
            rw [signal, still1 calm, still2 neutral]
            exact Or.inl rfl
          · exact Or.inr empty
          · rw [sent] at nothing
            cases nothing

def Holds (start : AgentMentalStateInterpreter) (counted : Option (Text × Int))
    (s : AgentMentalStateInterpreter) : Prop :=
  s.baseMentalStates = start.baseMentalStates ∧
  match counted with
  | none => s.currChar = none
  | some (ch, n) => s.currChar = some ch ∧ s.mentalState = driven (start.baseOf ch) n

theorem Holds.react {start s s' : AgentMentalStateInterpreter} {counted : Option (Text × Int)}
    {m : StateMessage} {published : Option MentalStates} (held : Holds start counted s)
    (done : s.react parseFloat m = .ok (s', published)) :
    Holds start (tally parseFloat counted m) s' := by
  obtain ⟨base, held⟩ := held
  cases given : m.character with
  | some ch =>
    obtain ⟨rfl, _⟩ := react_character parseFloat given done
    simp only [tally, given, Holds]
    refine ⟨base, trivial, ?_⟩
    rw [driven_zero, baseOf, base, baseOf]
  | none =>
    cases counted with
    | none =>
      obtain ⟨rfl, _⟩ := react_unknown parseFloat given held done
      simp only [tally, given, Holds, Option.map_none]
      exact ⟨base, held⟩
    | some c =>
      obtain ⟨ch, n⟩ := c
      obtain ⟨known, values⟩ := held
      have follows := react_follows parseFloat given known done
      simp only [tally, given, Holds, Option.map_some]
      exact ⟨follows.base.trans base, follows.currChar, follows.mentalState _ n values⟩

theorem reactAll_concat {start s' : AgentMentalStateInterpreter} {ms : List StateMessage}
    {m : StateMessage} (done : start.reactAll parseFloat (ms ++ [m]) = .ok s') :
    ∃ s published, start.reactAll parseFloat ms = .ok s ∧
      s.react parseFloat m = .ok (s', published) := by
  rw [reactAll, List.foldlM_append] at done
  cases before : start.reactAll parseFloat ms with
  | error e =>
    rw [reactAll] at before
    rw [before] at done
    cases done
  | ok s =>
    rw [reactAll] at before
    rw [before] at done
    cases last : s.react parseFloat m with
    | error e =>
      simp only [bind, Except.bind, List.foldlM_cons, last, Except.map] at done
      cases done
    | ok result =>
      obtain ⟨s2, published⟩ := result
      simp only [bind, Except.bind, List.foldlM_cons, List.foldlM_nil, last, Except.map, pure,
        Except.pure, Except.ok.injEq] at done
      subst done
      exact ⟨s, published, rfl, last⟩

theorem holds_reactAll {start s : AgentMentalStateInterpreter} (new : start.currChar = none)
    {ms : List StateMessage} (done : start.reactAll parseFloat ms = .ok s) :
    Holds start (tallied parseFloat ms) s := by
  induction ms using List.reverseRecOn generalizing s with
  | nil =>
    cases done
    exact ⟨rfl, new⟩
  | append_singleton ms m ih =>
    obtain ⟨before, published, first, last⟩ := reactAll_concat parseFloat done
    rw [tallied_concat]
    exact (ih first).react parseFloat last

def Configured (getInfo : Text → Option CharacterConfigInfo) : Prop :=
  ∀ ch info, getInfo ch = some info →
    ∀ values, info.predispositions = some values → ∀ e ∈ values, InUnit e.2

theorem predispositionsOf_inUnit {info : CharacterConfigInfo}
    (range : ∀ values, info.predispositions = some values → ∀ e ∈ values, InUnit e.2)
    {key : MentalState} {value : Number} (held : predispositionsOf info key = some value) :
    InUnit value := by
  unfold predispositionsOf CharacterConfigInfo.getEmotionalPredisposition at held
  cases given : info.predispositions with
  | none => simp [given] at held
  | some values =>
    simp only [given] at held
    cases found : values.lookup (dimensionKey key.vocabularyURI key.toText) with
    | none => simp [found] at held
    | some v =>
      simp only [found, Option.getD_some] at held
      split at held
      · cases held
        exact range values given _ (List.mem_of_lookup found)
      · cases held

theorem new_baseOf {getInfo : Text → Option CharacterConfigInfo} (configured : Configured getInfo)
    {start : AgentMentalStateInterpreter} (created : new getInfo = .ok start) :
    start.currChar = none ∧
      ∀ ch key value, start.baseOf ch key = some value → InUnit value := by
  obtain ⟨base, initialized, made⟩ := Outcome.bind_ok created
  cases made
  refine ⟨rfl, ?_⟩
  obtain ⟨entries, read, kept⟩ := Outcome.bind_ok initialized
  cases kept
  have each : ∀ e ∈ entries, ∀ key value, e.2 key = some value → InUnit value := by
    apply Outcome.mapM_all (P := fun e : Text × MentalStates =>
      ∀ key value, e.2 key = some value → InUnit value) read
    intro ch e made
    cases given : getInfo ch with
    | none =>
      rw [given] at made
      cases made
    | some info =>
      rw [given] at made
      cases made
      intro key value held
      exact predispositionsOf_inUnit (configured ch info given) held
  intro ch key value held
  unfold baseOf at held
  cases found : (entries.filter fun e => !e.2.isEmpty).lookup ch with
  | none => simp [found] at held
  | some m =>
    have member := List.mem_of_mem_filter (List.mem_of_lookup found)
    simp only [found, Option.getD_some] at held
    exact each _ member key value held

/-- Every value that is published in the course of these messages is in its range. -/
def PublishesInRange (start : AgentMentalStateInterpreter) (ms : List StateMessage) : Prop :=
  ∀ before m s s' values, before ++ [m] <+: ms → start.reactAll parseFloat before = .ok s →
    s.react parseFloat m = .ok (s', some values) →
    ∀ key value, values key = some value → InUnit value

/-- The signals since the last character never drive a value out of its range. -/
def StaysInRange (start : AgentMentalStateInterpreter) (ms : List StateMessage) : Prop :=
  ∀ before s ch n, before <+: ms → start.reactAll parseFloat before = .ok s →
    tallied parseFloat before = some (ch, n) →
    ∀ key ∈ followed, ∀ q : Rat, start.baseOf ch key = some (.val q) →
      0 ≤ q + n / 20 ∧ q + n / 20 ≤ 1

theorem driven_followed {base : MentalStates} {key : MentalState} (mem : key ∈ followed) {q : Rat}
    (held : base key = some (.val q)) (n : Int) :
    driven base n key = some (.val (q + n / 20)) := by
  rw [driven, if_pos mem, held]
  rfl

theorem not_isEmpty {m : MentalStates} {key : MentalState} {value : Number}
    (held : m key = some value) : m.isEmpty = false := by
  cases empty : m.isEmpty with
  | false => rfl
  | true =>
    have none := List.all_eq_true.mp empty key key.mem_values
    rw [held] at none
    cases none

theorem stays_of_publishes {start : AgentMentalStateInterpreter} (new : start.currChar = none)
    (range : ∀ ch key value, start.baseOf ch key = some value → InUnit value)
    {ms : List StateMessage} (publishes : PublishesInRange parseFloat start ms) :
    StaysInRange parseFloat start ms := by
  intro before
  induction before using List.reverseRecOn with
  | nil =>
    intro s ch n _ _ counted
    cases counted
  | append_singleton before m ih =>
    intro s' ch n isBefore done counted key mem q held
    obtain ⟨s, published, first, last⟩ := reactAll_concat parseFloat done
    have holds := holds_reactAll parseFloat new first
    rw [tallied_concat] at counted
    cases given : m.character with
    | some c =>
      simp only [tally, given, Option.some.injEq, Prod.mk.injEq] at counted
      obtain ⟨rfl, rfl⟩ := counted
      obtain ⟨r, same, low, high⟩ := range _ _ _ held
      cases same
      simp [low, high]
    | none =>
      simp only [tally, given, Option.map_eq_some_iff, Prod.mk.injEq] at counted
      obtain ⟨⟨c, n0⟩, earlier, rfl, rfl⟩ := counted
      rw [earlier] at holds
      obtain ⟨_, known, values⟩ := holds
      have follows := react_follows parseFloat given known last
      have after := follows.mentalState _ _ values
      have value : s'.mentalState key = some (.val (q + (n0 + signal parseFloat c m : Int) / 20)) :=
        by rw [after, driven_followed mem held]
      cases published with
      | some sent =>
        rcases follows.published with nothing | same
        · cases nothing
        · cases same
          obtain ⟨r, equal, low, high⟩ :=
            publishes before m s s' s'.mentalState isBefore first last key _ value
          cases equal
          exact ⟨low, high⟩
      | none =>
        rcases follows.unpublished rfl with still | empty
        · rw [still, add_zero]
          have shorter := (List.prefix_append before [m]).trans isBefore
          exact ih s c n0 shorter first earlier key mem q held
        · rw [not_isEmpty value] at empty
          cases empty

theorem publishes_of_stays {start : AgentMentalStateInterpreter} (new : start.currChar = none)
    (range : ∀ ch key value, start.baseOf ch key = some value → InUnit value)
    {ms : List StateMessage} (stays : StaysInRange parseFloat start ms) :
    PublishesInRange parseFloat start ms := by
  intro before m s s' sent isBefore first last key value held
  have holds := holds_reactAll parseFloat new first
  have after := holds.react parseFloat last
  have done : start.reactAll parseFloat (before ++ [m]) = .ok s' := by
    rw [reactAll, List.foldlM_append]
    rw [reactAll] at first
    rw [first]
    simp only [bind, Except.bind, List.foldlM_cons, List.foldlM_nil, last, Except.map, pure,
      Except.pure]
  have counted : tallied parseFloat (before ++ [m]) =
      tally parseFloat (tallied parseFloat before) m := tallied_concat parseFloat before m
  have sentAll : sent = s'.mentalState := by
    cases given : m.character with
    | some ch =>
      rcases (react_character parseFloat given last).2 with nothing | same
      · cases nothing
      · exact Option.some.inj same
    | none =>
      cases known : s.currChar with
      | none =>
        have nothing := (react_unknown parseFloat given known last).2
        cases nothing
      | some ch =>
        rcases (react_follows parseFloat given known last).published with nothing | same
        · cases nothing
        · exact Option.some.inj same
  subst sentAll
  cases result : tally parseFloat (tallied parseFloat before) m with
  | none =>
    obtain ⟨given, unknown⟩ := tally_eq_none parseFloat result
    rw [unknown] at holds
    cases (react_unknown parseFloat given holds.2 last).2
  | some c =>
    obtain ⟨ch, n⟩ := c
    rw [result] at after counted
    obtain ⟨_, _, values⟩ := after
    by_cases mem : key ∈ followed
    · cases base : start.baseOf ch key with
      | none =>
        rw [values, driven, if_pos mem, base] at held
        cases held
      | some b =>
        obtain ⟨q, rfl, _, _⟩ := range ch key b base
        rw [values, driven_followed mem base] at held
        cases held
        exact ⟨_, rfl, stays _ s' ch n isBefore done counted key mem q base⟩
    · rw [values, driven, if_neg mem] at held
      exact range ch key value held

theorem publishesInRange_iff {getInfo : Text → Option CharacterConfigInfo}
    (configured : Configured getInfo) {start : AgentMentalStateInterpreter}
    (created : new getInfo = .ok start) (ms : List StateMessage) :
    PublishesInRange parseFloat start ms ↔ StaysInRange parseFloat start ms := by
  obtain ⟨fresh, range⟩ := new_baseOf configured created
  constructor
  · exact stays_of_publishes parseFloat fresh range
  · exact publishes_of_stays parseFloat fresh range

def agreeing : CharacterConfigInfo where
  predispositions := some
    [(dimensionKey MentalState.agreement.vocabularyURI MentalState.agreement.toText, .val 1)]

theorem agreeing_configured : Configured fun _ => some agreeing := by
  intro ch info given values present e member
  cases given
  cases present
  obtain rfl := List.mem_singleton.mp member
  exact ⟨1, rfl, by decide, by decide⟩

def agreeingStart : AgentMentalStateInterpreter where
  baseMentalStates := characters.map fun ch => (ch, predispositionsOf agreeing)
  mentalState := fun _ => none
  currChar := none

theorem agreeingStart_new : new (fun _ => some agreeing) = .ok agreeingStart := by
  have present : (predispositionsOf agreeing).isEmpty = false := by decide
  simp [new, initializeBaseMentalStates, agreeingStart, characters, present, pure, Except.pure,
    bind, Except.bind]

def readOne (text : Text) : Option Number := if text = ['1'] then some (.val 1) else none

def excited : List StateMessage :=
  [.context [("character".toList, "Poppy".toList)], .user [("arousal".toList, ['1'])]]

theorem publishesInRange_iff_excited :
    PublishesInRange readOne agreeingStart excited ↔ StaysInRange readOne agreeingStart excited :=
  publishesInRange_iff readOne agreeing_configured agreeingStart_new excited

theorem excited_out_of_range :
    Configured (fun _ => some agreeing) ∧ new (fun _ => some agreeing) = .ok agreeingStart ∧
    ¬ PublishesInRange readOne agreeingStart excited := by
  refine ⟨agreeing_configured, agreeingStart_new, ?_⟩
  intro publishes
  obtain ⟨fresh, range⟩ := new_baseOf agreeing_configured agreeingStart_new
  have stays := stays_of_publishes readOne fresh range publishes
  have finished : (agreeingStart.reactAll readOne excited).toOption.isSome = true := by
    decide
  obtain ⟨s, done⟩ := Option.isSome_iff_exists.mp finished
  have counted : tallied readOne excited = some ("Poppy".toList, 1) := by decide +kernel
  have base : agreeingStart.baseOf "Poppy".toList .agreement = some (.val 1) := by decide
  have bounds := stays excited s _ _ (List.prefix_refl _) (Outcome.ok_of_toOption done) counted
    .agreement (by decide) 1 base
  norm_num at bounds

end AgentMentalStateInterpreter

end Semaine.Interpreters
