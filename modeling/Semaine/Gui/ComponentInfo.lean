import Semaine.Library.JavaText

/-! `eu.semaine.gui.monitor.ComponentInfo`: which topics a component receives. -/
namespace Semaine.Gui
open JavaText

/-- Compare the pieces of a pattern with those of a topic, one at a time. -/
def piecesMatch (recParts topicParts : List Text) : Bool :=
  let same (numParts : Nat) : Bool := (List.range numParts).all fun i =>
    recParts[i]? = some ['*'] || recParts[i]? = topicParts[i]?
  if recParts.getLast? = some ['>'] then
    let numParts := recParts.length - 1
    if topicParts.length < numParts then false else same numParts
  else if recParts.length ≠ topicParts.length then false
  else same recParts.length

/-- The loop over the patterns. A pattern with an asterisk decides for all that follow. -/
def receives (topicName : Text) : List Text → Bool
  | [] => false
  | receiveTopic :: rest =>
    if '*' ∈ receiveTopic then piecesMatch (split receiveTopic '.') (split topicName '.')
    else if ['.', '>'].isSuffixOf receiveTopic then
      startsWith topicName (receiveTopic.take (receiveTopic.length - 2)) || receives topicName rest
    else receiveTopic = topicName || receives topicName rest

def canReceive (receiveTopics : Option (List Text)) (topicName : Text) : Bool :=
  match receiveTopics with
  | none => false
  | some topics => receives topicName topics

end Semaine.Gui
