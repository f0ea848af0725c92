import Semaine.Dialogue.UserState
import Semaine.Library.RegexParser
import Semaine.Library.RegexLoops

/-! `eu.semaine.components.dialogue.interpreters.UtteranceInterpreter`: the features of what the
user says. The tagger and the conversion to lower case are given. -/
namespace Semaine.Interpreters
open JavaText Semaine.Dialogue

namespace UtteranceInterpreter

def regex (pattern : Text) : Regex := (Regex.parse pattern).getD .empty

def hasMatch (s pattern : Text) : Bool := (regex pattern).isMatch s

structure Loop where
  pattern : Text
  replacePattern : Text

def Loop.whole (l : Loop) : Regex := regex l.pattern
def Loop.part (l : Loop) : Regex := regex l.replacePattern

def Loop.run (l : Loop) (s : Text) : Nat × Text := Regex.countMatches l.whole l.part s

def loop (pattern replacePattern : String) : Loop := ⟨pattern.toList, replacePattern.toList⟩

def length (s : Text) : Nat := units utf16Size s

/-- `s.substring(0, n)`, without half a character at its end. -/
def front : Nat → Text → Text
  | _, [] => []
  | n, c :: s => if utf16Size c ≤ n then c :: front (n - utf16Size c) s else []

/-- `s.lastIndexOf(word)`, with -1 if there is none. -/
def lastIndexOf (s word : Text) : Int :=
  match (List.range (s.length + 1)).reverse.find? fun i => startsWith (s.drop i) word with
  | some i => i
  | none => -1

structure TaggedAct where
  utterance : Text
  starttime : Int
  taggedUtterance : Text
  tags : List Text

def negativeWords : List String :=
  ["blah", "tired", "shouldn't", "tireder", "ill", "aggressive", "bloody", "horrible", "stressful",
    "insulted", "nerves", "stress", "hell", "terribly", "gloomy", "nasty", "git", "stupid",
    "pointless", "rude", "rubbish", "sick", "useless", "fool", "manic", "ridiculous", "miserable",
    "misunderstood", "grim", "angry", "bad", "loser", "shit", "wrong", "sad", "terrible"]

def positiveWords : List String :=
  ["good", "nice", "happy", "lovely", "(laugh)", "amazing", "great", "bright", "wonderful", "fine",
    "okay", "best", "thank", "smiling", "right"]

def fill (pattern word : String) : Text :=
  replaceAll "^1".toList word.toList pattern.length pattern.toList

def wordLoop (word : String) : Loop := ⟨fill ".*^1.*" word, fill "^1" word⟩

def negatedLoop (word : String) : Loop :=
  ⟨fill ".*((not )|(n't ))((\\S)+ +)\x7b0,3\x7d^1.*" word,
    fill "((not )|(n't ))((\\S)+ +)\x7b0,3\x7d^1" word⟩

def countWords (negated plain : List String) (utteranceOriginal : Text) : Nat :=
  (negated.map fun word => ((negatedLoop word).run utteranceOriginal).1).sum +
    (plain.map fun word => ((wordLoop word).run utteranceOriginal).1).sum

def getNumberOfPosWords (utteranceOriginal : Text) : Nat :=
  countWords negativeWords positiveWords utteranceOriginal

def getNumberOfNegWords (utteranceOriginal : Text) : Nat :=
  countWords positiveWords negativeWords utteranceOriginal

/-- More words of one kind than of the other, and enough of them for the length. -/
def prevails (utterance : Text) (count other : Nat) : Bool :=
  other < count && (length utterance < 50 && 1 ≤ count || length utterance < 100 && 2 ≤ count ||
    3 ≤ count)

def detectPolarity (act : TaggedAct) : Nat :=
  let posCount := getNumberOfPosWords act.utterance
  let negCount := getNumberOfNegWords act.utterance
  if prevails act.utterance posCount negCount then 2
  else if prevails act.utterance negCount posCount then 0
  else 1

variable (lower : Text → Text)

def agreeLoop : Loop :=
  loop ".*(((^| )yes)|((^| )yeah)|((^| )true)|((^| )right)|((^| )okay)).*"
    "(((^| )yes)|((^| )yeah)|((^| )true)|((^| )right)|((^| )okay))"

/-- `utterance.length() >= n && utterance.substring(0, n).toLowerCase().equals(word)` -/
def beginsWith (n : Nat) (word : String) (utterance : Text) : Bool :=
  n ≤ length utterance && lower (front n utterance) = word.toList

def detectAgree (act : TaggedAct) : Bool :=
  let (count, utterance) := agreeLoop.run act.utterance
  let count := count + (beginsWith lower 3 "yes" utterance).toNat
  let count := count + (beginsWith lower 4 "yeah" utterance ||
    beginsWith lower 4 "true" utterance || beginsWith lower 4 "okay" utterance).toNat
  let count := count + (beginsWith lower 5 "right" utterance).toNat
  1 ≤ count

def disagreeLoop : Loop := loop ".*(^| )no( |,|\\.|!).*" "(^| )no( |,|\\.|!)"

def detectDisagree (act : TaggedAct) : Bool :=
  let (count, _) := disagreeLoop.run (front 50 act.utterance)
  let count := count + (beginsWith lower 2 "no" act.utterance).toNat
  1 ≤ count

def peopleLoop : Loop := loop ".* people .*" " people "

def theyLoop : Loop :=
  loop ".*(( they )|( they[''])|( their )|( them )).*" "(( they )|( they[''])|( their )|( them ))"

def notPeopleLoop : Loop := loop ".*(( i )|( i[''] ) ).*" "(( i )|( i[''] ) )"

def detectAboutOtherPeople (act : TaggedAct) : Bool :=
  let (people, utterance) := peopleLoop.run act.utterance
  let (they, utterance) := theyLoop.run utterance
  let (negative, _) := notPeopleLoop.run utterance
  let count : Int := 3 * people + 2 * they
  let negCount : Int := 2 * negative
  4 ≤ count - negCount / 3

def detectAboutOtherCharacter (_ : TaggedAct) : Bool := false

def youKnowLoop : Loop := loop ".*you know.*" "you know"
def youLoop : Loop := loop ".*(( you )|( you['']re )).*" "(( you )|( you['']re ))"

def detectAboutCurrentCharacter (act : TaggedAct) : Bool :=
  let (_, utterance) := youKnowLoop.run act.utterance
  2 ≤ (youLoop.run utterance).1

def emotionalWords : List String :=
  ["happy", "sad", "going mad", "tired", "very well", "pleased", "cheerful", "upbeat", "angry",
    "good mood", "afraid", "fed up", "wind me up", "mood", "furious", "good frame of mind",
    "frustrated", "unhappy", "energetic", "better", "comfortable", "cross"]

def emotionalWordsString : Text := "|".toList.intercalate (emotionalWords.map String.toList)

def feelingPatterns : List Text :=
  [".*(\\s|^)i((['']m)| ((\\S)+ +)\x7b0,3\x7d(am|was|get)) +((\\S)+ +)\x7b0,6\x7d(".toList ++
      emotionalWordsString ++ ").*".toList,
    ".*(\\s|^)i ((\\S)+ +)\x7b0,3\x7dfeel.*".toList,
    ".*(\\s|^)i ((\\S)+ +)\x7b0,3\x7dfelt.*".toList,
    ".*(\\s|^)i ((\\S)+ +)\x7b0,5\x7dfeeling.*".toList,
    ".*(\\s|^)me ((\\S)+ +)\x7b0,5\x7d(".toList ++ emotionalWordsString ++ ").*".toList]

def detectAboutOwnFeelings (act : TaggedAct) : Bool := feelingPatterns.any (hasMatch act.utterance)

def pragmaticWords : Text :=
  "(sensible|pragmatic|reasonable|rational|practical|rationale|".toList ++
    "realistically|balance|objectively)".toList

def notPragmaticLoop : Loop where
  pattern :=
    ".*((not )|(n['']t )|( appearing )|( she)|( she[''])|( he)|( he[''])|( them ))".toList ++
      "((\\S)+ +)\x7b0,4\x7d".toList ++ pragmaticWords ++ ".*".toList
  replacePattern :=
    "((not )|(n['']t )|( you )|( you[''])|( appearing )|( she)|( she[''])|( he)|".toList ++
      "( he[''])|( them ))".toList ++ "((\\S)+ +)\x7b0,4\x7d".toList ++ pragmaticWords

def pragmaticLoop : Loop := ⟨".*".toList ++ pragmaticWords ++ ".*".toList, pragmaticWords⟩

def detectPragmatic (act : TaggedAct) : Bool :=
  let (_, utterance) := notPragmaticLoop.run act.utterance
  1 ≤ (pragmaticLoop.run utterance).1

def selfLoops : List (Loop × Nat) :=
  [(loop ".*(^| )i'(m|ve) .*" "(^| )i'(m|ve) ", 4),
    (loop ".*(^| )i(( )|(')|(')).*" "(^| )i(( )|(')|('))", 3),
    (loop ".* am .*" " am ", 1), (loop ".* my .*" " my ", 1), (loop ".* me .*" " me ", 1),
    (loop ".* have .*" " have ", 1)]

def weigh (loops : List (Loop × Nat)) (start : Nat × Text) : Nat × Text :=
  loops.foldl (fun (count, utterance) (l, weight) =>
    let (turns, utterance) := l.run utterance
    (count + weight * turns, utterance)) start

def detectTalkAboutSelf (act : TaggedAct) : Bool :=
  let (count, _) := weigh selfLoops (0, act.utterance)
  5 ≤ count || length act.utterance < 100 && 4 ≤ count

def futureLoops : List Loop :=
  [loop ".* going to .*" " going to ",
    loop ".*(( will )|('ll )|('ll)).*" "(( will )|('ll )|('ll))",
    loop ".* gonna .*" " gonna ",
    loop ".* i ((\\S)+ +)\x7b0,3\x7dneed ((\\S)+ +)\x7b0,3\x7dto .*"
      " i ((\\S)+ +)\x7b0,3\x7dneed ((\\S)+ +)\x7b0,3\x7dto ",
    loop ".* is (\\S)+ing .*" " is (\\S)+ing ",
    loop ".*(( tomorrow )|( next week )|( planning )|( coming )( i've got to )|( coming up )).*"
      "(( tomorrow )|( next week )|( planning )|( coming )( i've got to )|( coming up ))"]

/-- `if (utterance.matches(pattern)) while (utterance.matches(pattern))` -/
def runIfAny (l : Loop) (s : Text) : Nat × Text := if l.whole.isMatch s then l.run s else (0, s)

def detectFuture (act : TaggedAct) : Bool :=
  let (countScore, _) := futureLoops.foldl (fun (countScore, utterance) l =>
    let (turns, utterance) := runIfAny l utterance
    (countScore + turns, utterance)) (0, act.utterance)
  1 ≤ countScore

def isPastTag (tag : Text) : Bool := tag = "VBD".toList || tag = "VBN".toList

def isNonPastTag (tag : Text) : Bool :=
  tag = "VB".toList || tag = "VBP".toList || tag = "VBZ".toList

def lastVerbs (tags : List Text) : List Text :=
  (tags.reverse.filter fun t => isPastTag t || isNonPastTag t).take 2

def detectPast (act : TaggedAct) : Bool :=
  if containsText act.utterance "\\?".toList then false
  else if detectFuture act then false
  else
    let nrPastVerbs := act.tags.countP isPastTag
    let nrNonPastVerbs := act.tags.countP isNonPastTag
    if 2 ≤ nrPastVerbs || nrNonPastVerbs < nrPastVerbs then true
    else
      match lastVerbs act.tags with
      | [lastVerb, oneToLastVerb] => isPastTag lastVerb && isPastTag oneToLastVerb
      | _ => false

def othersPattern : Text :=
  "(( he )|( he')|( she )|( she')|( they )|( they')|( them )|( people )|".toList ++
    "( spike)|( poppy)|( prudence)|( obadiah))".toList

def othersLoop : Loop := ⟨".*".toList ++ othersPattern ++ ".*".toList, othersPattern⟩

def speakerLoop : Loop := loop ".*(( i )|( i')).*" "(( i )|( i'))"

def speakerVerbLoop : Loop :=
  loop ".* [iI]/PRP (\\S)+/VBP.*" " [iI]/PRP (\\S)+/VBP"

def detectAction (act : TaggedAct) : Bool :=
  if detectPast act || detectFuture act then
    let (speaker, utterance) := runIfAny speakerLoop act.utterance
    let (verbs, _) := runIfAny speakerVerbLoop act.taggedUtterance
    let (others, _) := runIfAny othersLoop utterance
    let count : Int := speaker + 3 * verbs - others
    3 ≤ count
  else false

def detectEvent (act : TaggedAct) : Bool :=
  if detectPast act || detectFuture act then
    let count := (!detectAction act).toNat
    let (others, _) := runIfAny othersLoop act.utterance
    2 ≤ count + others
  else false

def changePatterns : List Text :=
  [".*(speak|talk) to (someone|somebody) else.*".toList,
    ".*(switch|go( back)*) (to (someone|somebody) else|to another|".toList ++
      "to another character|character).*".toList,
    ".*talk to ((\\S)+ +)\x7b0,2\x7d(spike|poppy|obadiah|prudence).*".toList,
    ".*speak to ((\\S)+ +)\x7b0,2\x7d(spike|poppy|obadiah|prudence).*".toList,
    ".*switch to ((\\S)+ +)\x7b0,2\x7d(spike|poppy|obadiah|prudence).*".toList,
    ".*(speak|talk) to.*".toList,
    ".*(speak|talk).*(spike|poppy|obadiah|prudence).*".toList]

def detectChangeSpeaker (act : TaggedAct) : Bool :=
  changePatterns.any (hasMatch (lower act.utterance))

def detectTargetCharacter (act : TaggedAct) : Option String :=
  let utterance := lower act.utterance
  let i1 := lastIndexOf utterance "poppy".toList
  let i2 := lastIndexOf utterance "prudence".toList
  let i3 := lastIndexOf utterance "spike".toList
  let i4 := lastIndexOf utterance "obadiah".toList
  if i1 = -1 ∧ i2 = -1 ∧ i3 = -1 ∧ i4 = -1 then none
  else if i1 > i2 ∧ i1 > i3 ∧ i1 > i4 then some "Poppy"
  else if i2 > i1 ∧ i2 > i3 ∧ i2 > i4 then some "Prudence"
  else if i3 > i1 ∧ i3 > i2 ∧ i3 > i4 then some "Spike"
  else some "Obadiah"

/-- The two readings of the time are `meta.getTime()` at the two comparisons. -/
def detectLength (now later : Int) (act : TaggedAct) : DialogueAct.Length :=
  if toLong (now - act.starttime) < SHORT_LENGTH then .short
  else if LONG_LENGTH < toLong (later - act.starttime) then .long
  else .normal

/-- `replaceAll` with a regular expression, and `replace` with a text. -/
inductive Rewrite where
  | pattern (regex replacement : String)
  | plain (target replacement : String)

def Rewrite.apply : Rewrite → Text → Text
  | pattern p replacement, s => (regex p.toList).replaceEach replacement.toList s
  | plain target replacement, s => replaceAll target.toList replacement.toList s.length s

def beforeTagging : List Rewrite :=
  [.pattern "," " , ", .pattern "\\." " . ", .pattern ";" " ; ", .pattern ":" " : ",
    .pattern "!" " ! ", .pattern "\\?" " ? ",
    .plain "'" "'", .plain "‘" "'", .plain " I'll " " I will ", .pattern "^I'll " "I will ",
    .plain " i'll " " I will ", .pattern "^i'll " "I will ", .plain " I'm " " I am ",
    .pattern "^I'm " "I am ", .pattern "I've" "I have", .pattern "i've" "i have",
    .pattern "we've" "we have", .pattern " don't " " do not ", .plain " i'm " " I am ",
    .pattern "^i'm " "I am ", .plain " i'd " " I would ", .pattern "^i'd " "I would ",
    .plain " it's been " " it has been ", .pattern "^it's been " "it has been ",
    .plain " it's " " it is ", .pattern "^it's " "it is ", .plain " you're " " you are ",
    .plain "n't" " not", .pattern "t's " "t is ", .plain " i " " I ", .pattern "^i " "I ",
    .pattern " i'" " I'"]

def afterTagging : List Rewrite :=
  [.pattern "you/PRP +know/VBP" " ", .pattern "'cause/VB" "'cause/IN",
    .pattern "to/TO \\S+/VB" "to/TO verb/FW", .pattern "do/VBP" "do/FW"]

def rewrite (rewrites : List Rewrite) (s : Text) : Text :=
  rewrites.foldl (fun s r => r.apply s) s

variable (tag : Text → Text)

def getTaggedUtterance (str : Text) : Text :=
  rewrite afterTagging (tag (rewrite beforeTagging str))

/-- `strTemp.substring(strTemp.indexOf("/") + 1)` -/
def afterSlash (s : Text) : Text :=
  match indexOf s '/' 0 with
  | some i => s.drop (i + 1)
  | none => s

def getTags (taggedUtterance : Text) : List Text := (split taggedUtterance ' ').map afterSlash

def tagged (data : Text) (starttime : Int) : TaggedAct :=
  let taggedUtterance := getTaggedUtterance tag data
  { utterance := data
    starttime := starttime
    taggedUtterance := taggedUtterance
    tags := getTags taggedUtterance }

def analyseData (now later : Int) (data : Option Text) (starttime : Int) : DialogueAct :=
  let act := tagged tag (data.getD []) starttime
  let polarity := detectPolarity act
  { utterance := act.utterance
    starttime := act.starttime
    negative := polarity = 0
    positive := polarity = 2
    agree := detectAgree lower act
    disagree := detectDisagree lower act
    aboutOtherPeople := detectAboutOtherPeople act
    aboutOtherCharacter := detectAboutOtherCharacter act
    aboutCurrentCharacter := detectAboutCurrentCharacter act
    aboutOwnFeelings := detectAboutOwnFeelings act
    pragmatic := detectPragmatic act
    talkAboutSelf := detectTalkAboutSelf act
    future := detectFuture act
    past := detectPast act
    event := detectEvent act
    action := detectAction act
    changeSpeaker := detectChangeSpeaker lower act
    targetCharacter := (detectTargetCharacter lower act).elim [] String.toList
    length := detectLength now later act }

def sendDialogueAct (act : DialogueAct) : Option (List (Text × Text)) :=
  if length act.utterance < 1 then none
  else some
    [("userUtterance".toList, act.utterance),
      ("userUtteranceStartTime".toList, ofInt act.starttime),
      ("userUtteranceFeatures".toList, act.getFeatures)]

end UtteranceInterpreter
end Semaine.Interpreters
