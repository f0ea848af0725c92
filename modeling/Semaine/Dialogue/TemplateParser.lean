import Semaine.Dialogue.Update
import Semaine.Dialogue.Verdicts

/-! `eu.semaine.components.dialogue.behaviourselection.TemplateParser`: templates with the effects
and behaviours that are written in a template file. -/
namespace Semaine.Dialogue
open JavaText JavaFloat

/-- A method that templates can call. An exception in it is reported as such. -/
structure Method (IS : Type) where
  name : Text
  invoke : List Text → IS → IS × Bool

/-- An action proposer, with the names and the values of arguments; the flag is an exception. -/
structure BehaviourClass (IS : Type) where
  execute : List Text → List Text → IS → IS × Bool
  prepare : List Text → List Text → IS → IS × Bool

/-- What templates find at run time: how a double is written, the methods of the function classes
and the behaviour classes by their names. -/
structure Classes (D : Type) where
  doubleToString : D → Text
  methods : List (Method (InformationState D))
  getBehaviourClass : Text → Option (BehaviourClass (InformationState D))

structure Function (D : Type) where
  name : Text
  arguments : List (AbstractValue D)

structure BehaviourCall (D : Type) where
  behaviourClassName : Text
  quality : D
  argNames : List Text
  argValues : List (AbstractValue D)

section
variable {D : Type} (chars : Characters) (ops : Arithmetic D) (classes : Classes D)

def Item.text : Item D → Text
  | .list _ => "List".toList
  | .record _ => "Record".toList
  | .double value => classes.doubleToString value
  | .integer value => (toString value).toList
  | .string value => value
  | _ => []

/-- `toString` of a value that may be null. -/
def textOf : Option (Value D) → Except Failure Text
  | some value => .ok (value.text classes)
  | none => .error .runtime

def Function.args (is : InformationState D) (f : Function D) : Except Failure (List Text) := do
  let argValues ← f.arguments.mapM (·.getValue chars ops is)
  argValues.mapM (textOf classes)

def Function.apply (f : Function D) : Evaluation (InformationState D) := fun is =>
  match classes.methods.find? (·.name = f.name) with
  | none => (is, some .templateRun)
  | some method =>
    match f.args chars ops classes is with
    | .error e => (is, some e)
    | .ok args =>
      match method.invoke args is with
      | (is, true) => (is, some .templateRun)
      | (is, false) => (is, none)

def BehaviourCall.values (is : InformationState D) (b : BehaviourCall D) :
    Except Failure (List Text) :=
  b.argValues.mapM fun av => (av.getValue chars ops is).bind (textOf classes)

/-- `execute` and `prepare`: a behaviour class that is null ends in a NullPointerException. -/
def BehaviourCall.run (b : BehaviourCall D)
    (call : BehaviourClass (InformationState D) → List Text → List Text →
      InformationState D → InformationState D × Bool) : Evaluation (InformationState D) := fun is =>
  match b.values chars ops classes is with
  | .error e => (is, some e)
  | .ok values =>
    match classes.getBehaviourClass b.behaviourClassName with
    | none => (is, some .runtime)
    | some behaviour =>
      match call behaviour b.argNames values is with
      | (is, true) => (is, some .runtime)
      | (is, false) => (is, none)

def BehaviourCall.behaviour (b : BehaviourCall D) : Behaviour (InformationState D) D where
  quality := b.quality
  execute := b.run chars ops classes BehaviourClass.execute
  prepare := b.run chars ops classes BehaviourClass.prepare

/-- An `update` or a `remove`, or a named argument. -/
structure NameValueElement where
  name : Option Text := none
  value : Option Text := none

structure FunctionElement where
  name : Option Text := none
  value : Option Text := none
  arguments : List (Option Text) := []

structure BehaviourElement where
  class_ : Option Text := none
  quality : Option Text := none
  arguments : List NameValueElement := []

structure EffectsElement where
  updates : List NameValueElement := []
  removes : List NameValueElement := []
  functions : List FunctionElement := []

structure ChoiceElement where
  probability : Option Text := none
  effects : List EffectsElement := []
  behaviours : List BehaviourElement := []

structure PreconditionsElement where
  compares : List CompareElement := []
  indicators : List IndicatorElement := []
  triggers : List CompareElement := []

structure TemplateElement where
  id : Option Text := none
  preconditions : List PreconditionsElement := []
  effects : List EffectsElement := []
  behaviours : List BehaviourElement := []
  optional : List (List ChoiceElement) := []

def templateParse {A : Type} (message : Text) : Except ParseFailure A :=
  .error (.templateParse message)

/-- `Update.parseUpdate`; an attribute that is missing is empty. -/
def parseUpdate (e : NameValueElement) : Except ParseFailure (Effect (InformationState D)) :=
  match e.name with
  | none => templateParse "Missing Name attribute in Update-rule.".toList
  | some name =>
    match Update.new chars ops name (e.value.getD []) with
    | .ok update => .ok ⟨update.apply chars ops⟩
    | .error _ => .error .runtime

def parseFunction (e : FunctionElement) : Except ParseFailure (Effect (InformationState D)) := do
  if e.name.isNone && e.value.isNone then
    templateParse "Missing Name or Value attribute in Function-rule.".toList
  let arguments ← e.arguments.mapM fun argument =>
    match argument with
    | none => templateParse "Missing Value attribute in Function-argument.".toList
    | some value => newValue chars ops value
  return ⟨Function.apply chars ops classes { name := e.name.getD [], arguments := arguments }⟩

def parseQuality (quality : Text) : Except ParseFailure D :=
  let quality := if quality = [] then "0.5".toList else quality
  match ops.parseDouble quality with
  | some d => .ok d
  | none => templateParse
      ("Quality-number '".toList ++ quality ++ "' could not be parsed to a Double.".toList)

def parseBehaviour (e : BehaviourElement) :
    Except ParseFailure (Behaviour (InformationState D) D) :=
  match e.class_ with
  | none => templateParse "Missing Behaviourclass in Behaviour-Element.".toList
  | some behaviourClass => do
    let quality ← parseQuality ops (e.quality.getD [])
    let argValues ← e.arguments.mapM fun argument =>
      if argument.name.isNone && argument.value.isNone then
        templateParse "Missing Name or Value attribute in Behaviour-argument.".toList
      else newValue chars ops (argument.value.getD [])
    return BehaviourCall.behaviour chars ops classes
      { behaviourClassName := behaviourClass
        quality := quality
        argNames := e.arguments.map fun argument => argument.name.getD []
        argValues := argValues }

def onlyBlock {A : Type} (message : Text) : List A → Except ParseFailure (Option A)
  | [] => .ok none
  | [block] => .ok (some block)
  | _ => templateParse message

def moreThanOne (id : Text) (block : String) : Text :=
  "Template '".toList ++ id ++ "' has more than 1 <".toList ++ block.toList ++ "> element.".toList

def parseEffects (block : Option EffectsElement) :
    Except ParseFailure (List (Effect (InformationState D))) :=
  match block with
  | none => .ok []
  | some block => do
    let updates ← block.updates.mapM (parseUpdate chars ops)
    let removes ← block.removes.mapM (parseUpdate chars ops)
    let functions ← block.functions.mapM (parseFunction chars ops classes)
    return updates ++ removes ++ functions

def parseProbability (chance : Text) : Except ParseFailure D :=
  match ops.parseDouble chance with
  | some d => .ok d
  | none => templateParse
      ("Probability '".toList ++ chance ++ "' could not be converted to a Double".toList)

/-- The constructor of a choice comes first, and a choice without a behaviour ends in a
NullPointerException. -/
def parseChoice (id : Text) (e : ChoiceElement) :
    Except ParseFailure (Choice (InformationState D) D) :=
  match e.probability with
  | none => templateParse
      ("Template '".toList ++ id ++ "' is missing a probability in a Choice-element".toList)
  | some probability => do
    let chance ← parseProbability ops probability
    let block ← onlyBlock (moreThanOne id "c_effects") e.effects
    let effects ← parseEffects chars ops classes block
    match ← onlyBlock (moreThanOne id "c_behaviour") e.behaviours with
    | none => throw .runtime
    | some behaviour =>
      let behaviour ← parseBehaviour chars ops classes behaviour
      return { chance := chance, effects := effects, behaviour := some behaviour }

def comparePrecondition (c : Compare D) : Precondition (InformationState D) :=
  (Condition.compare c).precondition chars ops

def indicatorPrecondition (i : Indicator D) : Precondition (InformationState D) :=
  (Condition.indicator i).precondition chars ops

def parseTemplateElement (e : TemplateElement) :
    Except ParseFailure (Template (InformationState D) D) :=
  match e.id with
  | none => templateParse "Template found without an 'id'-element".toList
  | some id => do
    match ← onlyBlock (moreThanOne id "preconditions") e.preconditions with
    | none => throw .runtime
    | some block =>
      let compares ← block.compares.mapM (parsePrecondition chars ops)
      let indicators ← block.indicators.mapM (parseIndicator chars ops)
      let triggers ← block.triggers.mapM (parsePrecondition chars ops)
      let effectsBlock ← onlyBlock (moreThanOne id "effects") e.effects
      let effects ← parseEffects chars ops classes effectsBlock
      let behaviourBlock ← onlyBlock (moreThanOne id "behaviour") e.behaviours
      let behaviour ← match behaviourBlock with
        | none => pure none
        | some behaviour => some <$> parseBehaviour chars ops classes behaviour
      let optional ← e.optional.mapM (·.mapM (parseChoice chars ops classes id))
      return {
        id := id
        compares := compares.map (comparePrecondition chars ops)
        indicators := indicators.map (indicatorPrecondition chars ops)
        triggers := triggers.map (comparePrecondition chars ops)
        effects := effects
        behaviour := behaviour
        optional := optional }

/-- The templates of a file; one that raises a TemplateParseException is left out, and any other
exception ends the reading of the file. -/
def parseTemplates : List TemplateElement →
    Except ParseFailure (List (Template (InformationState D) D))
  | [] => .ok []
  | e :: rest =>
    match parseTemplateElement chars ops classes e with
    | .ok template => (parseTemplates rest).map (template :: ·)
    | .error (.templateParse _) => parseTemplates rest
    | .error .runtime => .error .runtime

end

end Semaine.Dialogue
