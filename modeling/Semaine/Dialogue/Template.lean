import Semaine.Library.JavaFloat
import Semaine.Library.JavaText

/-! `eu.semaine.components.dialogue.behaviourselection.template.Template`: whether the
preconditions of a template hold, and which effects and which behaviour it then stands for. -/
namespace Semaine.Dialogue
open JavaText JavaFloat

/-- A TemplateRunException is caught by the controller, any other exception is not. -/
inductive Failure where
  | templateRun
  | runtime
  deriving DecidableEq, Repr

/-- What an evaluation leaves of the information state, and how it failed, if it did. -/
abbrev Evaluation (IS : Type) := IS → IS × Option Failure

structure Effect (IS : Type) where
  apply : Evaluation IS

structure Behaviour (IS D : Type) where
  quality : D
  execute : Evaluation IS
  prepare : Evaluation IS

/-- `isValid` reads the information state and does not change it; `none` is an exception. -/
structure Precondition (IS : Type) where
  isValid : IS → Option Bool

structure Choice (IS D : Type) where
  chance : D
  effects : List (Effect IS) := []
  behaviour : Option (Behaviour IS D) := none

structure Template (IS D : Type) where
  id : Text
  compares : List (Precondition IS) := []
  indicators : List (Precondition IS) := []
  triggers : List (Precondition IS) := []
  effects : List (Effect IS) := []
  behaviour : Option (Behaviour IS D) := none
  optional : List (List (Choice IS D)) := []

structure TemplateState (IS D : Type) where
  place : Nat
  template : Template IS D
  comparesSatisfied : Bool
  indicatorsSatisfied : Bool
  triggersSatisfied : Bool
  totalNrOfPreconditions : Nat
  nrOfMissingPreconditions : Nat
  effects : List (Effect IS)
  behaviour : Option (Behaviour IS D)
  quality : D

section
variable {IS D : Type} (doubles : Doubles D)

def missing (is : IS) : List (Precondition IS) → Option Nat
  | [] => some 0
  | c :: rest => do
    let result ← c.isValid is
    let others ← missing is rest
    return if result then others else others + 1

def choose : List (Choice IS D) → D → Option (Choice IS D)
  | [], _ => none
  | choice :: rest, chance =>
    let left := doubles.sub chance choice.chance
    if doubles.lt left (doubles.ofInt 0) then some choice else choose rest left

/-- One choice for each block of options, with the random number drawn for the block. -/
def choices (draws : Nat → D) (optional : List (List (Choice IS D))) : List (Choice IS D) :=
  optional.zipIdx.filterMap fun option => choose doubles option.1 (draws option.2)

def Template.currEffects (t : Template IS D) (chosen : List (Choice IS D)) : List (Effect IS) :=
  chosen.flatMap Choice.effects ++ t.effects

/-- A later behaviour overwrites an earlier one, and that of the template all others. -/
def Template.currBehaviour (t : Template IS D) (chosen : List (Choice IS D)) :
    Option (Behaviour IS D) :=
  t.behaviour.or (chosen.reverse.findSome? Choice.behaviour)

def Template.checkTemplate (t : Template IS D) (draws : Nat → D) (place : Nat) (is : IS) :
    Option (TemplateState IS D) := do
  let compares ← missing is t.compares
  let indicators ← missing is t.indicators
  let triggers ← missing is t.triggers
  let nrMissing := compares + indicators + triggers
  let chosen := if nrMissing = 0 then choices doubles draws t.optional else []
  return {
    place := place
    template := t
    comparesSatisfied := compares = 0
    indicatorsSatisfied := indicators = 0
    triggersSatisfied := triggers = 0
    totalNrOfPreconditions := t.compares.length + t.indicators.length + t.triggers.length
    nrOfMissingPreconditions := nrMissing
    effects := t.currEffects chosen
    behaviour := t.currBehaviour chosen
    quality := ((t.currBehaviour chosen).map Behaviour.quality).getD (doubles.ofInt 0) }

end
end Semaine.Dialogue
