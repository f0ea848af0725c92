import Semaine.Library.Transition
import Semaine.Meta.WaitLoop
import Semaine.StateInfo.DialogHistory
import Semaine.Jms.FeatureBody
import Semaine.Mary.ArrivalOrder
import Semaine.Components.HandOverOrder
import Semaine.StateInfo.SectionAgreement
import Semaine.Dialogue.TriggeredUtterances
import Semaine.Dialogue.TemplateEffects
import Semaine.Dialogue.Recency
import Semaine.Dialogue.Update
import Semaine.Dialogue.RecordPaths
import Semaine.Dialogue.TurnCounters
import Semaine.Dialogue.AcceptedTemplates
import Semaine.Dialogue.FailedUpdates
import Semaine.Dialogue.Membership
import Semaine.Dialogue.ArithmeticValues
import Semaine.Emotion.Draining
import Semaine.Emotion.FusedConfidence
import Semaine.Interpreters.AgentMentalState
import Semaine.Interpreters.NonVerbalInterpreter
import Semaine.Interpreters.UserPresence
import Semaine.Util.FuzzySortPartition
import Semaine.Util.FuzzySortPositions
import Semaine.Xml.PathRejection
import Semaine.Xml.PathGrammar
import Semaine.Xml.ChildLookup
import Semaine.Dialogue.ReferencedPaths
import Semaine.Dialogue.ActFeatures
import Semaine.Dialogue.CombinedActs
import Semaine.Dialogue.ResponseChoice
import Semaine.Gui.TopicMatching
import Semaine.Dialogue.SpokenWords
import Semaine.Library.LiteralPatterns
import Semaine.Dialogue.GestureMarks
import Semaine.Dialogue.SpeechMarks
import Semaine.Dialogue.GestureTags
import Semaine.Dialogue.AnchoredGestures
import Semaine.Dialogue.AgentSpeech
import Semaine.Dialogue.UserWrites
import Semaine.Dialogue.SpeechFrame
import Semaine.Dialogue.SpeechPairing
import Semaine.Xml.PathReadBack
import Semaine.Library.Regex
import Semaine.Library.RegexLoops
import Semaine.Library.RegexParser
import Semaine.Library.RegexWords
import Semaine.Library.JavaIntegers
import Semaine.Interpreters.UtteranceInterpreter
import Semaine.Interpreters.UtteranceLoops
import Semaine.Interpreters.UtteranceFeatures
import Semaine.Library.JavaDoubles
import Semaine.Interpreters.TurnTakingInterpreter
import Semaine.Interpreters.TurnTaking
