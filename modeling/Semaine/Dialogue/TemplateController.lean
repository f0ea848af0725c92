import Semaine.Dialogue.Template

/-! `eu.semaine.components.dialogue.behaviourselection.TemplateController`: checking all
templates, running the best of those with a behaviour and applying the pure updates. -/
namespace Semaine.Dialogue
open JavaText JavaFloat

inductive Evaluated where
  | effect (place index : Nat)
  | execute (place : Nat)
  | prepare (place : Nat)
  deriving DecidableEq, Repr

/-- The information state, what has been evaluated so far and how it failed, and the exception
that ends the call, if there is one. -/
structure Course (IS : Type) where
  is : IS
  trace : List (Evaluated × Option Failure) := []
  thrown : Option Failure := none

namespace Course
variable {IS D : Type}

def evaluate (c : Course IS) (what : Evaluated) (evaluation : Evaluation IS) : Course IS :=
  if c.thrown.isSome then c
  else
    { is := (evaluation c.is).1
      trace := c.trace ++ [(what, (evaluation c.is).2)]
      thrown := if (evaluation c.is).2 = some .runtime then some .runtime else none }

def throwRuntime (c : Course IS) : Course IS := { c with thrown := some .runtime }

def lastFailure (c : Course IS) : Option Failure := (c.trace.getLast?.bind (·.2))

def applyEffects (c : Course IS) (s : TemplateState IS D) : Course IS :=
  s.effects.zipIdx.foldl (fun c e => c.evaluate (.effect s.place e.2) e.1.apply) c

def executeBehaviour (c : Course IS) (s : TemplateState IS D) : Course IS :=
  match s.behaviour with
  | some b => c.evaluate (.execute s.place) b.execute
  | none => if c.thrown.isSome then c else c.throwRuntime

end Course

structure TemplateController (IS D : Type) where
  templates : List (Template IS D) := []
  recentRunTemplates : List Text := []

/-- The course of the call, the state that is returned and the history afterwards. -/
structure Checked (IS D : Type) where
  course : Course IS
  executed : Option (TemplateState IS D) := none
  recentRunTemplates : List Text

section
variable {IS D : Type} (doubles : Doubles D)

def addRecentBehaviour (recentRunTemplates : List Text) (s : TemplateState IS D) : List Text :=
  let all := recentRunTemplates ++ [s.template.id]
  if all.length > 5 then all.tail else all

def modifyQualityBasedOnHistory (recentRunTemplates : List Text)
    (states : List (TemplateState IS D)) : List (TemplateState IS D) :=
  states.map fun s =>
    match recentRunTemplates.findIdx? (· = s.template.id) with
    | some index =>
      { s with quality :=
          doubles.sub s.quality (doubles.mul (doubles.ofInt (index + 1)) doubles.tenth) }
    | none => s

def bestOf (qualityOf : TemplateState IS D → D) :
    List (TemplateState IS D) → D → Option (TemplateState IS D) → Option (TemplateState IS D)
  | [], _, best => best
  | s :: rest, quality, best =>
    if doubles.lt quality (qualityOf s) then bestOf qualityOf rest (qualityOf s) (some s)
    else bestOf qualityOf rest quality best

def getBestTemplate (states : List (TemplateState IS D)) : Option (TemplateState IS D) :=
  bestOf doubles TemplateState.quality states (doubles.ofInt (-9999)) none

/-- The template to prepare: the first one unless another has a quality above -1. -/
def bestToPrepare (states : List (TemplateState IS D)) : Option (TemplateState IS D) :=
  bestOf doubles (fun s => (s.behaviour.map Behaviour.quality).getD (doubles.ofInt 0)) states
    (doubles.ofInt (-1)) states.head?

def isISUpdate (s : TemplateState IS D) : Bool :=
  s.comparesSatisfied && s.indicatorsSatisfied && s.triggersSatisfied &&
    (!s.effects.isEmpty && s.behaviour.isNone)

def isToRun (s : TemplateState IS D) : Bool :=
  s.comparesSatisfied && s.indicatorsSatisfied && s.triggersSatisfied &&
    !(!s.effects.isEmpty && s.behaviour.isNone)

def isToPrepare (s : TemplateState IS D) : Bool :=
  s.comparesSatisfied && s.indicatorsSatisfied && !s.triggersSatisfied && s.behaviour.isSome

/-- The one template to run, or the best one after the history has been taken into account. -/
def selectTemplate (recentRunTemplates : List Text) :
    List (TemplateState IS D) → Option (TemplateState IS D)
  | [s] => some s
  | states =>
    getBestTemplate doubles (modifyQualityBasedOnHistory doubles recentRunTemplates states)

/-- Apply the effects of the selected template and execute its behaviour. Without a selected
template there is a NullPointerException. -/
def runSelected (recentRunTemplates : List Text) (c : Course IS) :
    Option (TemplateState IS D) → Checked IS D
  | none => { course := c.throwRuntime, recentRunTemplates := recentRunTemplates }
  | some s =>
    let c := (c.applyEffects s).executeBehaviour s
    { course := c
      executed := if c.thrown.isNone && c.lastFailure.isNone then some s else none
      recentRunTemplates :=
        if c.thrown.isNone then addRecentBehaviour recentRunTemplates s else recentRunTemplates }

def prepareBest (c : Course IS) (states : List (TemplateState IS D)) : Course IS :=
  match bestToPrepare doubles states with
  | none => c
  | some s =>
    match s.behaviour with
    | some b => c.evaluate (.prepare s.place) b.prepare
    | none => c

def applyUpdates (c : Course IS) (updates : List (TemplateState IS D)) : Course IS :=
  updates.foldl Course.applyEffects c

def runOrPrepare (recentRunTemplates : List Text) (is : IS) (states : List (TemplateState IS D)) :
    Checked IS D :=
  let templatesToRun := states.filter isToRun
  if templatesToRun.length > 0 then
    runSelected recentRunTemplates { is := is }
      (selectTemplate doubles recentRunTemplates templatesToRun)
  else
    { course := prepareBest doubles { is := is } (states.filter isToPrepare)
      recentRunTemplates := recentRunTemplates }

/-- The states of the templates from a place on; the random draws are given for each template. -/
def checkAll (draws : Nat → Nat → D) (is : IS) :
    List (Template IS D) → Nat → Option (List (TemplateState IS D))
  | [], _ => some []
  | t :: rest, place => do
    let state ← t.checkTemplate doubles (draws place) place is
    let others ← checkAll draws is rest (place + 1)
    return state :: others

/-- `checkTemplates`; `none` is an exception while the preconditions are checked. -/
def TemplateController.checkTemplates (c : TemplateController IS D) (draws : Nat → Nat → D)
    (is : IS) : Option (Checked IS D) := do
  let states ← checkAll doubles draws is c.templates 0
  let checked := runOrPrepare doubles c.recentRunTemplates is states
  return { checked with course := applyUpdates checked.course (states.filter isISUpdate) }

end
end Semaine.Dialogue
