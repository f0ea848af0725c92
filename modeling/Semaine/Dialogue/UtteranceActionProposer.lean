import Semaine.Dialogue.Response
import Semaine.Xml.XMLTool

/-! `eu.semaine.components.dialogue.actionproposers.UtteranceActionProposer`: utterances are sent
out directly, or prepared under a hash of the response and its arguments and triggered later. -/
namespace Semaine.Dialogue
open JavaText Semaine.Xml

/-- What the proposer is configured with. A compiled regular expression gives the place of its
first match. `voiceLocale` is the language of a character's voice, if it has one. -/
structure Environment where
  dom : DOMImplementation
  compile : Text → Except Thrown (Text → Option (Nat × Nat))
  table : ResponseTable
  voiceLocale : Option Text → Option Text

def bmlNamespace : Text := "http://www.mindmakers.org/projects/BML".toList
def fmlNamespace : Text := "http://www.mindmakers.org/fml".toList
def ssmlNamespace : Text := "http://www.w3.org/2001/10/synthesis".toList

section
variable (env : Environment)

def speechID (counter : Nat) : Text := "speech_uap_".toList ++ ofNat counter

def markName (counter mark : Nat) : Text := speechID counter ++ ":tm".toList ++ ofNat mark

def markElement (counter mark : Nat) : Except Thrown Node := do
  let element ← childElementNS env.dom "mark".toList (some ssmlNamespace)
  let element ← element.setPrefix env.dom (some "ssml".toList)
  let element ← element.setAttribute env.dom "name".toList (markName counter mark)
  return element.toNode

def markedWords (counter : Nat) : List Text → Nat → Except Thrown (List Node)
  | [], mark => do return [← markElement env counter mark]
  | word :: words, mark => do
    let element ← markElement env counter mark
    let rest ← markedWords counter words (mark + 1)
    return element :: .text word :: rest

def matchedMarks (responseString argValue : Text) : Except Thrown (Option (Nat × Nat)) := do
  let wordsUpTo (i : Nat) : Nat := (split (responseString.take i) ' ').length + 1
  let pattern ← env.compile ("[\\s]".toList ++ trim argValue ++ "[\\s.,\\?!]".toList)
  let patternStart ← env.compile ("^".toList ++ trim argValue ++ "[\\s.,\\?!]".toList)
  let patternEnd ← env.compile ("[\\s]".toList ++ trim argValue ++ "[\\s.,\\?!]*$".toList)
  match pattern responseString with
  | some (startIndex, endIndex) => return some (wordsUpTo startIndex, wordsUpTo endIndex)
  | none =>
    match patternStart responseString with
    | some (_, endIndex) => return some (1, wordsUpTo endIndex)
    | none =>
      match patternEnd responseString with
      | some (startIndex, _) =>
        return some (wordsUpTo startIndex, (split responseString ' ').length + 1)
      | none => return none

/-- The marks that a tag reaches from and to; the last mark is `marks`. -/
def tagMarks (responseString argValue : Text) (marks : Nat) :
    Except Thrown (Option (Nat × Nat)) :=
  if argValue = "_start".toList then .ok (some (1, min 3 marks))
  else if argValue = "_end".toList then .ok (some (max 1 (marks - 2), marks))
  else if argValue = "_all".toList then .ok (some (1, marks))
  else matchedMarks env responseString argValue

def tagName (argName : Text) : Option (Text × Text) :=
  if argName ≠ "response".toList ∧ argName ≠ "response2".toList ∧ ':' ∈ argName then
    match split argName ':' with
    | [name, type] => some (name, type)
    | _ => none
  else none

def tagElement (parent : Element) (counter tagCounter : Nat) (name type : Text)
    (marks : Nat × Nat) : Except Thrown Node := do
  let element ← childElement env.dom parent name
  let element ← element.setAttribute env.dom "id".toList ("tag".toList ++ ofNat tagCounter)
  let element ← element.setAttribute env.dom "type".toList type
  let element ← element.setAttribute env.dom "start".toList (markName counter marks.1)
  let element ← element.setAttribute env.dom "end".toList (markName counter marks.2)
  let element ← element.setAttribute env.dom "importance".toList ['1']
  return element.toNode

/-- The arguments are added to the two elements, pitch accents to `bml` and the rest to `fml`.
An argument without a value, or one whose words do not occur, is skipped. -/
def addTags (responseString : Text) (counter marks : Nat) :
    List Text → List Text → Nat → Element × Element → Except Thrown (Element × Element)
  | [], _, _, elements => .ok elements
  | argName :: argNames, argValues, tagCounter, (bml, fml) => do
    match tagName argName, argValues.head? with
    | some (name, type), some argValue =>
      match ← tagMarks env responseString argValue marks with
      | none => addTags responseString counter marks argNames argValues.tail tagCounter (bml, fml)
      | some span =>
        if name = "pitchaccent".toList then do
          let tag ← tagElement env bml counter tagCounter name type span
          addTags responseString counter marks argNames argValues.tail (tagCounter + 1)
            (bml.appendChild tag, fml)
        else do
          let tag ← tagElement env fml counter tagCounter name type span
          addTags responseString counter marks argNames argValues.tail (tagCounter + 1)
            (bml, fml.appendChild tag)
    | _, _ => addTags responseString counter marks argNames argValues.tail tagCounter (bml, fml)

/-- A child of the root in its own namespace, with the id of the current utterance. -/
def blockElement (name namespaceURI : Text) (counter : Nat) : Except Thrown Element := do
  let element ← childElementNS env.dom name (some namespaceURI)
  let element ← element.setPrefix env.dom (some name)
  element.setAttribute env.dom "id".toList (name ++ "_uap_".toList ++ ofNat counter)

def getCharacterLocale (character : Option Text) : Text :=
  (env.voiceLocale character).getD "en-GB".toList

def speechElement (bml : Element) (character : Option Text) (counter : Nat)
    (responseString : Text) : Except Thrown Node := do
  let speech ← childElement env.dom bml "speech".toList
  let speech ← speech.setAttribute env.dom "id".toList (speechID counter)
  let speech ← speech.setAttribute env.dom "text".toList responseString
  let speech ← speech.setAttribute env.dom "language".toList (getCharacterLocale env character)
  let speech ← speech.setAttribute env.dom "voice".toList "activemary".toList
  let words ← markedWords env counter (split responseString ' ') 1
  return { speech with children := words }.toNode

/-- The document of `constructFMLDocument`, once the response is known. -/
def fmlDocument (character : Option Text) (counter : Nat) (response : Response)
    (argNames argValues : List Text) : Except Thrown Document := do
  let root ← newDocumentWithVersion env.dom "fml-apml".toList none "0.1".toList
  let bml ← blockElement env "bml".toList bmlNamespace counter
  let fml ← blockElement env "fml".toList fmlNamespace counter
  let speech ← speechElement env bml character counter response.response
  let marks := (split response.response ' ').length + 1
  let (bml, fml) ← addTags env response.response counter marks (argNames ++ response.argNames)
    (argValues ++ response.argValues) 1 (bml.appendChild speech, fml)
  return (root.appendChild bml.toNode).appendChild fml.toNode

end

/-- What a template asks for: the arguments of its behaviour, and the random draws. -/
structure Request where
  argNames : List Text
  argValues : List Text
  draws : Nat × Nat := (0, 0)

/-- The arguments of `createHash`: a response and the arguments it was asked for with. -/
structure Call where
  response : Response
  argNames : List Text
  argValues : List Text

def Request.call (request : Request) (response : Response) : Call where
  response := response
  argNames := request.argNames
  argValues := request.argValues

def Call.hash (c : Call) : Except Thrown Text := createHash c.response c.argNames c.argValues

/-- What has been sent, with the hash and the call that it was sent for. -/
inductive Sent where
  | direct (contentID hash : Text) (call : Call) (doc : Document)
  | prepare (contentID hash : Text) (call : Call) (doc : Document)
  | playCommand (contentID hash : Text) (call : Call)

structure UtteranceActionProposer where
  preparedResponses : AList (fun _ : Text => Text) := ∅
  preparingResponses : AList (fun _ : Text => Text) := ∅
  latestResponse : Option Response := none
  currResponse : Option Response := none
  currHash : Option Text := none
  output_counter : Nat := 1
  history : List Response := []
  historyQueue : List Text := []
  prevTime : Int := 0
  feedbackId : Text := []
  character : Option Text := none
  sent : List Sent := []

def contentID (counter : Nat) : Text := "bml_uap_".toList ++ ofNat counter

def keyOf (responses : AList (fun _ : Text => Text)) (id : Text) : Option Text :=
  (responses.entries.find? (fun e => e.2 = id)).map (·.1)

def removeId (responses : AList (fun _ : Text => Text)) (id : Text) :
    AList (fun _ : Text => Text) :=
  match keyOf responses id with
  | some keyToRemove => responses.erase keyToRemove
  | none => responses

namespace UtteranceActionProposer
section
variable (env : Environment)

/-- The response, its hash and its document, if there is a response for the arguments. -/
def constructFMLDocument (p : UtteranceActionProposer) (request : Request) :
    Except Thrown (Option (Response × Text × Document)) := do
  match ← getResponse env.table p.history request.draws request.argNames request.argValues with
  | none => return none
  | some response =>
    let hash ← createHash response request.argNames request.argValues
    let doc ← fmlDocument env p.character p.output_counter response request.argNames
      request.argValues
    return some (response, hash, doc)

def setCurrent (p : UtteranceActionProposer) (response : Response) (hash : Text) :
    UtteranceActionProposer :=
  { p with currResponse := some response, currHash := some hash }

def remember (historyQueue : List Text) (text : Text) : List Text :=
  if (historyQueue ++ [text]).length > 10 then (historyQueue ++ [text]).tail
  else historyQueue ++ [text]

def trigger (p : UtteranceActionProposer) (call : Call) (hash id : Text) :
    UtteranceActionProposer :=
  { p with
    latestResponse := some call.response
    history := p.history ++ [call.response]
    sent := p.sent ++ [.playCommand id hash call]
    preparedResponses := p.preparedResponses.erase hash
    feedbackId := id
    historyQueue := remember p.historyQueue call.response.response }

def sendDirectly (p : UtteranceActionProposer) (call : Call) (hash : Text)
    (doc : Document) : UtteranceActionProposer :=
  { p with
    latestResponse := some call.response
    history := p.history ++ [call.response]
    sent := p.sent ++ [.direct (contentID p.output_counter) hash call doc]
    feedbackId := contentID p.output_counter
    output_counter := p.output_counter + 1
    historyQueue := remember p.historyQueue call.response.response }

def execute (p : UtteranceActionProposer) (request : Request) :
    Except Thrown UtteranceActionProposer := do
  match ← p.constructFMLDocument env request with
  | none => return p
  | some (response, hash, doc) =>
    let p := p.setCurrent response hash
    match p.preparedResponses.lookup hash with
    | some id => return p.trigger (request.call response) hash id
    | none => return p.sendDirectly (request.call response) hash doc

def sendForPreparation (p : UtteranceActionProposer) (call : Call) (hash : Text)
    (doc : Document) : UtteranceActionProposer :=
  { p with
    sent := p.sent ++ [.prepare (contentID p.output_counter) hash call doc]
    preparingResponses := p.preparingResponses.insert hash (contentID p.output_counter)
    output_counter := p.output_counter + 1 }

def prepare (p : UtteranceActionProposer) (request : Request) :
    Except Thrown UtteranceActionProposer := do
  if p.preparingResponses.entries.length ≠ 0 then return p
  else
    match ← p.constructFMLDocument env request with
    | none => return p
    | some (response, hash, doc) =>
      let p := p.setCurrent response hash
      if (p.preparingResponses.lookup hash).isSome ∨ (p.preparedResponses.lookup hash).isSome then
        return p
      else return p.sendForPreparation (request.call response) hash doc

def onCallback (p : UtteranceActionProposer) (type id : Text) : UtteranceActionProposer :=
  if type = "ready".toList then
    match keyOf p.preparingResponses id with
    | some key =>
      { p with
        preparedResponses := p.preparedResponses.insert key id
        preparingResponses := p.preparingResponses.erase key }
    | none => p
  else if type = "deleted".toList then
    { p with
      preparingResponses := removeId p.preparingResponses id
      preparedResponses := removeId p.preparedResponses id }
  else p

def clearResponses (p : UtteranceActionProposer) : UtteranceActionProposer :=
  { p with preparedResponses := ∅, preparingResponses := ∅ }

def onCharacter (p : UtteranceActionProposer) (character : Text) : UtteranceActionProposer :=
  if p.character = some character then p
  else { p.clearResponses with character := some character }

/-- The start of `act`, which reads the clock twice. -/
def act (p : UtteranceActionProposer) (time prevTime : Int) : UtteranceActionProposer :=
  if time < p.prevTime then { p.clearResponses with prevTime := prevTime }
  else { p with prevTime := prevTime }

inductive Event where
  | prepare (request : Request)
  | execute (request : Request)
  | callback (type id : Text)
  | character (name : Text)
  | act (time prevTime : Int)

def step (p : UtteranceActionProposer) : Event → Except Thrown UtteranceActionProposer
  | .prepare request => p.prepare env request
  | .execute request => p.execute env request
  | .callback type id => .ok (p.onCallback type id)
  | .character name => .ok (p.onCharacter name)
  | .act time prevTime => .ok (p.act time prevTime)

end
end UtteranceActionProposer
end Semaine.Dialogue
