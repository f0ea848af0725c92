import Semaine.Library.BinaryHeap
import Semaine.Library.JavaFloat
import Semaine.Xml.XMLTool

/-! `eu.semaine.components.emotion.EmotionFusion`: data points about the same emotion are collected
in a data set until enough of them have come in or the data set is too old. A data set is known
by a reference, the number of data sets created before it. -/
namespace Semaine.Emotion
open JavaText JavaFloat Semaine.Xml

namespace EmotionML

def namespaceURI : Text := "http://www.w3.org/2009/10/emotionml".toList
def emotion : Text := "emotion".toList
def category : Text := "category".toList
def dimension : Text := "dimension".toList
def appraisal : Text := "appraisal".toList
def actionTendency : Text := "action-tendency".toList
def intensity : Text := "intensity".toList
def name : Text := "name".toList
def value : Text := "value".toList
def confidence : Text := "confidence".toList

def getVocabularyAttributeForDescription (description : Text) : Option Text :=
  if description = category then some "category-set".toList
  else if description = dimension then some "dimension-set".toList
  else if description = appraisal then some "appraisal-set".toList
  else if description = actionTendency then some "action-tendency-set".toList
  else none

end EmotionML

namespace EMMA

def namespaceURI : Text := "http://www.w3.org/2003/04/emma".toList
def interpretation : Text := "interpretation".toList

end EMMA

inductive SEMAINEMessage where
  | emma (document : Document)
  | other

def elementsAt (node : Element) (positions : List Nat) : List Element :=
  positions.filterMap fun i => node.children[i]?.bind Node.asElement

def getTopLevelInterpretation (document : Document) : Except Thrown (Option Element) := do
  let position ← getChildElementByLocalNameNS document EMMA.interpretation (some EMMA.namespaceURI)
  return (elementsAt document position.toList).head?

def getEmotionElements (interpretation : Element) : Except Thrown (List Element) := do
  let positions ← getChildrenByLocalNameNS interpretation EmotionML.emotion
    (some EmotionML.namespaceURI)
  return elementsAt interpretation positions

structure Config where
  maxDelay : Int
  targetNumDataPoints : Int

def orNull (s : Option Text) : Text := s.getD "null".toList

def createKey (descriptionType : Text) (vocabularyURI name : Option Text) : Text :=
  descriptionType ++ " ".toList ++ orNull name ++ " of ".toList ++ orNull vocabularyURI

/-- `numDataPoints` counts on where the int of the source wraps; it is read through `toInt`. -/
structure EmotionDataSet (F : Type) where
  descriptionType : Text
  vocabularyURI : Option Text
  name : Option Text
  creationTime : Int
  numDataPoints : Nat
  weightedMean : F
  weightedSumSqDiff : F
  sumOfWeights : F
  deriving DecidableEq

structure DataPoint (F : Type) where
  descriptionType : Text
  vocabularyURI : Option Text
  name : Option Text
  value : F
  confidence : F

variable {F : Type}

def DataPoint.key (p : DataPoint F) : Text := createKey p.descriptionType p.vocabularyURI p.name

namespace EmotionDataSet

def key (eds : EmotionDataSet F) : Text :=
  createKey eds.descriptionType eds.vocabularyURI eds.name

def new (fl : Floats F) (descriptionType : Text) (vocabularyURI name : Option Text)
    (creationTime : Int) : EmotionDataSet F where
  descriptionType := descriptionType
  vocabularyURI := vocabularyURI
  name := name
  creationTime := creationTime
  numDataPoints := 0
  weightedMean := fl.zero
  weightedSumSqDiff := fl.zero
  sumOfWeights := fl.zero

def addDataPoint (fl : Floats F) (eds : EmotionDataSet F) (value confidence : F) :
    EmotionDataSet F :=
  if fl.le confidence fl.zero then eds
  else
    let newSumOfWeights := fl.add eds.sumOfWeights confidence
    let delta := fl.sub value eds.weightedMean
    let weightedDelta := fl.div (fl.mul delta confidence) newSumOfWeights
    { eds with
      weightedMean := fl.add eds.weightedMean weightedDelta
      weightedSumSqDiff :=
        fl.add eds.weightedSumSqDiff (fl.mul (fl.mul eds.sumOfWeights delta) weightedDelta)
      sumOfWeights := newSumOfWeights
      numDataPoints := eds.numDataPoints + 1 }

def reachedTarget (config : Config) (eds : EmotionDataSet F) : Bool :=
  decide (config.targetNumDataPoints ≤ toInt eds.numDataPoints)

def ready (config : Config) (currentTime : Int) (eds : EmotionDataSet F) : Bool :=
  eds.reachedTarget config || decide (config.maxDelay ≤ currentTime - eds.creationTime)

def compareTo (config : Config) (eds o : EmotionDataSet F) : Ordering :=
  if eds.reachedTarget config && !o.reachedTarget config then .lt
  else if o.reachedTarget config && !eds.reachedTarget config then .gt
  else if eds.creationTime < o.creationTime then .lt
  else if eds.creationTime > o.creationTime then .gt
  else .eq

end EmotionDataSet

section
variable (fl : Floats F)

def trimToRange (value min max : F) : F :=
  if fl.lt value min then min else if fl.lt max value then max else value

def isEmotionMLMeaningful (vocabularyURI : Text) (descriptors : List Element) : Bool :=
  if vocabularyURI = [] ∧ descriptors.isEmpty then false
  else if vocabularyURI = [] ∧ !descriptors.isEmpty then false
  else if vocabularyURI ≠ [] ∧ descriptors.isEmpty then false
  else true

def parseValue (descriptor : Element) : Option F :=
  let value := (fl.parseFloat (descriptor.getAttribute EmotionML.value)).getD fl.nan
  if fl.isNaN value then none else some (trimToRange fl value fl.zero fl.one)

def parseConfidence (descriptor : Element) : F :=
  let confidence := (fl.parseFloat (descriptor.getAttribute EmotionML.confidence)).getD fl.one
  trimToRange fl confidence fl.zero fl.one

def parseDimension (descriptionType vocabularyURI : Text) (descriptor : Element) :
    Option (DataPoint F) :=
  let name := descriptor.getAttribute EmotionML.name
  if name = [] then none
  else (parseValue fl descriptor).map fun value =>
    { descriptionType := descriptionType
      vocabularyURI := some vocabularyURI
      name := some name
      value := value
      confidence := parseConfidence fl descriptor }

def getDescriptors (emotion : Element) (descriptionType : Text) :
    Except Thrown (Text × List Element) := do
  let vocabularyAttribute := EmotionML.getVocabularyAttributeForDescription descriptionType
  let vocabularyURI := emotion.getAttribute (vocabularyAttribute.getD [])
  let positions ← getChildrenByLocalNameNS emotion descriptionType (some EmotionML.namespaceURI)
  return (vocabularyURI, elementsAt emotion positions)

/-- The data points that `parseDimensions` enters. No parsing looks at the data sets. -/
def parseDimensions (emotion : Element) (descriptionType : Text) :
    Except Thrown (List (DataPoint F)) := do
  let (vocabularyURI, descriptors) ← getDescriptors emotion descriptionType
  if !isEmotionMLMeaningful vocabularyURI descriptors then return []
  return descriptors.filterMap (parseDimension fl descriptionType vocabularyURI)

def parseIntensity (emotion : Element) : Except Thrown (List (DataPoint F)) := do
  let position ← getChildElementByLocalNameNS emotion EmotionML.intensity
    (some EmotionML.namespaceURI)
  match (elementsAt emotion position.toList).head? with
  | none => return []
  | some intensity =>
    match parseValue fl intensity with
    | none => return []
    | some value =>
      return [{ descriptionType := EmotionML.intensity
                vocabularyURI := none
                name := none
                value := value
                confidence := parseConfidence fl intensity }]

def parseCategory (emotion : Element) : Except Thrown (List (DataPoint F)) := do
  let (vocabularyURI, descriptors) ← getDescriptors emotion EmotionML.category
  if !isEmotionMLMeaningful vocabularyURI descriptors then return []
  match descriptors with
  | [] => return []
  | category :: _ =>
    let name := category.getAttribute EmotionML.name
    if name = [] then return []
    return [{ descriptionType := EmotionML.category
              vocabularyURI := some vocabularyURI
              name := some name
              value := fl.nan
              confidence := parseConfidence fl category }]

def parseEmotion (emotion : Element) : List (Except Thrown (List (DataPoint F))) :=
  [parseDimensions fl emotion EmotionML.dimension,
   parseDimensions fl emotion EmotionML.appraisal,
   parseDimensions fl emotion EmotionML.actionTendency,
   parseIntensity fl emotion,
   parseCategory fl emotion]

def upToException : List (Except Thrown (List (DataPoint F))) → List (DataPoint F) × Option Thrown
  | [] => ([], none)
  | .error e :: _ => ([], some e)
  | .ok points :: rest =>
    let (more, thrown) := upToException rest
    (points ++ more, thrown)

def dataPoints (m : SEMAINEMessage) : List (DataPoint F) × Option Thrown :=
  match m with
  | .other => ([], none)
  | .emma document =>
    let emotions := do
      match ← getTopLevelInterpretation document with
      | none => return []
      | some interpretation => getEmotionElements interpretation
    match emotions with
    | .error e => ([], some e)
    | .ok emotions => upToException (emotions.flatMap (parseEmotion fl))

end

/-- The data sets by their references, how many have been created, and the two collections. -/
structure EmotionFusion (F : Type) where
  dataSet : Nat → EmotionDataSet F
  created : Nat
  emotionDataSets : AList (fun _ : Text => Nat)
  emotionDataSetQueue : List Nat

namespace EmotionFusion
variable (fl : Floats F) (config : Config)

def init : EmotionFusion F where
  dataSet _ := EmotionDataSet.new fl [] none none 0
  created := 0
  emotionDataSets := ∅
  emotionDataSetQueue := []

def compare (s : EmotionFusion F) (a b : Nat) : Ordering :=
  (s.dataSet a).compareTo config (s.dataSet b)

def create (time : Int) (p : DataPoint F) (s : EmotionFusion F) : EmotionFusion F where
  dataSet := Function.update s.dataSet s.created
    (EmotionDataSet.new fl p.descriptionType p.vocabularyURI p.name time)
  created := s.created + 1
  emotionDataSets := s.emotionDataSets.insert p.key s.created
  emotionDataSetQueue := s.emotionDataSetQueue

def enqueue (eds : Nat) (s : EmotionFusion F) : EmotionFusion F :=
  { s with emotionDataSetQueue := BinaryHeap.offer (s.compare config) s.emotionDataSetQueue eds }

def addTo (eds : Nat) (p : DataPoint F) (s : EmotionFusion F) : EmotionFusion F :=
  { s with dataSet :=
      Function.update s.dataSet eds ((s.dataSet eds).addDataPoint fl p.value p.confidence) }

/-- `clock n` is what `meta.getTime()` returns when data set number `n` is created. -/
def enterDataPoint (clock : Nat → Int) (s : EmotionFusion F) (p : DataPoint F) :
    EmotionFusion F :=
  match s.emotionDataSets.lookup p.key with
  | some eds => s.addTo fl eds p
  | none => ((s.create fl (clock s.created) p).enqueue config s.created).addTo fl s.created p

def react (clock : Nat → Int) (m : SEMAINEMessage) (s : EmotionFusion F) :
    EmotionFusion F × Option Thrown :=
  let (points, thrown) := dataPoints fl m
  (points.foldl (enterDataPoint fl config clock) s, thrown)

def remove (eds : Nat) (s : EmotionFusion F) : EmotionFusion F :=
  { s with
    emotionDataSetQueue := BinaryHeap.poll (s.compare config) s.emotionDataSetQueue
    emotionDataSets := s.emotionDataSets.erase (s.dataSet eds).key }

/-- The loop of `act`. Every round shortens the queue, so that its length is enough rounds. -/
def drain (currentTime : Int) : Nat → EmotionFusion F → List Nat → EmotionFusion F × List Nat
  | 0, s, toBeSent => (s, toBeSent)
  | rounds + 1, s, toBeSent =>
    match BinaryHeap.peek s.emotionDataSetQueue with
    | none => (s, toBeSent)
    | some eds =>
      if (s.dataSet eds).ready config currentTime then
        drain currentTime rounds (s.remove config eds) (toBeSent ++ [eds])
      else (s, toBeSent)

/-- The state after `act`, and the data sets that it gives to `createEmotionXML`. -/
def act (currentTime : Int) (s : EmotionFusion F) : EmotionFusion F × List Nat :=
  s.drain config currentTime s.emotionDataSetQueue.length []

end EmotionFusion

end Semaine.Emotion
