import Semaine.Dialogue.UserState
import Semaine.Library.JavaSearch

/-! The features of an utterance are written as words into a message, and read back by searching
the text for them. -/
namespace Semaine.Dialogue
open JavaText

namespace DialogueAct

def featureNames : List String :=
  ["is_positive", "is_negative", "is_agree", "is_disagree", "about_other_people",
    "about_other_character", "about_current_character", "about_own_feelings", "talk_about_self",
    "pragmatic", "future", "past", "action", "event", "laugh", "change_speaker", "short", "long",
    "normal"]

theorem features_names (act : DialogueAct) : act.features.map Prod.snd = featureNames := rfl

def has (act : DialogueAct) (name : String) : Bool :=
  act.features.any fun feature => feature.1 && feature.2 == name

def targetWord (character : Text) : Text := "target:".toList ++ character

def targetWords (act : DialogueAct) : List Text :=
  if act.targetCharacter.length ≠ 0 then [targetWord act.targetCharacter] else []

def words (act : DialogueAct) : List Text := act.getFeatureList ++ act.targetWords

theorem separated_features (features : List (Bool × String)) :
    (features.flatMap fun (has, name) => if has then ' ' :: name.toList else []) =
      separated ' ' (features.filterMap fun (has, name) =>
        if has then some name.toList else none) := by
  unfold separated
  induction features with
  | nil => rfl
  | cons feature features ih =>
    obtain ⟨has, name⟩ := feature
    cases has with
    | true =>
      rw [List.flatMap_cons, ih]
      rfl
    | false => exact ih

theorem getFeatures_words (act : DialogueAct) : act.getFeatures = separated ' ' act.words := by
  have blank : " target:".toList = ' ' :: "target:".toList := rfl
  unfold getFeatures words targetWords
  rw [separated_features, blank]
  split
  · unfold separated
    rw [List.flatMap_append, List.flatMap_singleton]
    rfl
  · unfold separated
    rw [List.flatMap_append]
    rfl

theorem any_features {test : Text → Bool} {name : String} (features : List (Bool × String))
    (own : ∀ n ∈ features.map Prod.snd, test n.toList = (n == name)) :
    (features.filterMap fun (has, name) => if has then some name.toList else none).any test =
      features.any fun feature => feature.1 && feature.2 == name := by
  induction features with
  | nil => rfl
  | cons feature features ih =>
    obtain ⟨has, n⟩ := feature
    have first := own n (.head _)
    have later := ih fun m member => own m (.tail _ member)
    cases has with
    | true =>
      have both := congrArg₂ (· || ·) first later
      exact both
    | false => exact later

theorem any_featureList (act : DialogueAct) {test : Text → Bool} (name : String)
    (own : ∀ n ∈ featureNames, test n.toList = (n == name)) :
    act.getFeatureList.any test = act.has name := by
  exact any_features act.features (by
    rw [features_names]
    exact own)

theorem any_words {act : DialogueAct} (known : act.targetCharacter = [] ∨
    act.targetCharacter ∈ characters) {test : Text → Bool} {name : String}
    (own : ∀ n ∈ featureNames, test n.toList = (n == name))
    (others : ∀ c ∈ characters, test (targetWord c) = false) :
    act.words.any test = act.has name := by
  have target : act.targetWords.any test = false := by
    unfold targetWords
    rcases known with empty | member
    · rw [empty]
      rfl
    · have absent := others _ member
      split
      · rw [List.any_cons, absent]
        rfl
      · rfl
  unfold words
  rw [List.any_append, any_featureList act name own, target, Bool.or_false]

def strip (word : Text) : Text := replaceAll "disagree".toList [] word.length word

def remaining (f : Text) : Text :=
  if containsText f "disagree".toList then replaceAll "disagree".toList [] f.length f else f

theorem remaining_words (words : List Text) :
    remaining (separated ' ' words) = separated ' ' (words.map strip) := by
  have foreign : ' ' ∉ "disagree".toList := by decide
  have given : "disagree".toList ≠ [] := by decide
  unfold remaining
  split
  · exact replaceAll_separated foreign given [] words
  · rename_i absent
    rw [containsText_separated foreign given, List.any_eq_true] at absent
    have kept : words.map strip = words.map id := by
      apply List.map_congr_left
      intro word member
      apply replaceAll_absent
      rw [Bool.eq_false_iff]
      intro present
      exact absent ⟨word, member, present⟩
    rw [kept, List.map_id]

/-- What is looked for in the whole text, and in what remains of it, with the feature that it
finds. Nothing is sent as a word with "abou_self" in it. -/
def wholePatterns : List (String × String) :=
  [("positive", "is_positive"), ("negative", "is_negative"), ("disagree", "is_disagree")]

def remainingPatterns : List (String × String) :=
  [("agree", "is_agree"), ("about_other_people", "about_other_people"),
    ("about_other_character", "about_other_character"),
    ("about_current_character", "about_current_character"),
    ("about_own_feelings", "about_own_feelings"), ("pragmatic", "pragmatic"), ("abou_self", ""),
    ("future", "future"), ("past", "past"), ("event", "event"), ("action", "action"),
    ("laugh", "laugh"), ("change_speaker", "change_speaker"), ("long", "long"),
    ("short", "short")]

/-- Of the words that can be sent, a pattern is in that of its feature only. -/
def Finds (change : Text → Text) (pattern : Text) (name : String) : Prop :=
  ' ' ∉ pattern ∧ pattern ≠ [] ∧
    (∀ n ∈ featureNames, containsText (change n.toList) pattern = (n == name)) ∧
    ∀ c ∈ characters, containsText (change (targetWord c)) pattern = false

instance (change : Text → Text) (pattern : Text) (name : String) :
    Decidable (Finds change pattern name) := inferInstanceAs (Decidable (_ ∧ _ ∧ _ ∧ _))

theorem whole_finds : ∀ p ∈ wholePatterns, Finds id p.1.toList p.2 := by
  decide

theorem remaining_finds : ∀ p ∈ remainingPatterns, Finds strip p.1.toList p.2 := by
  decide

theorem contains_words {act : DialogueAct} (known : act.targetCharacter = [] ∨
    act.targetCharacter ∈ characters) {change : Text → Text} {pattern : Text} {name : String}
    (finds : Finds change pattern name) :
    containsText (separated ' ' (act.words.map change)) pattern = act.has name := by
  obtain ⟨foreign, given, own, others⟩ := finds
  rw [containsText_separated foreign given, List.any_map]
  exact any_words known own others

theorem contains_whole {act : DialogueAct} (known : act.targetCharacter = [] ∨
    act.targetCharacter ∈ characters) :
    ∀ p ∈ wholePatterns, containsText act.getFeatures p.1.toList = act.has p.2 := by
  intro p member
  have found := contains_words known (whole_finds p member)
  rw [List.map_id] at found
  rw [getFeatures_words, found]

theorem contains_remaining {act : DialogueAct} (known : act.targetCharacter = [] ∨
    act.targetCharacter ∈ characters) :
    ∀ p ∈ remainingPatterns,
      containsText (remaining act.getFeatures) p.1.toList = act.has p.2 := by
  intro p member
  rw [getFeatures_words, remaining_words]
  exact contains_words known (remaining_finds p member)

theorem target_remaining {act : DialogueAct} (known : act.targetCharacter = [] ∨
    act.targetCharacter ∈ characters) :
    (textAfter "target:".toList (remaining act.getFeatures)).getD [] = act.targetCharacter := by
  have foreign : ' ' ∉ "target:".toList := by decide
  have given : "target:".toList ≠ [] := by decide
  have none : (act.getFeatureList.map strip).any (containsText · "target:".toList) = false := by
    rw [List.any_map, any_featureList act "" (by decide)]
    unfold has features
    simp
  rw [getFeatures_words, remaining_words]
  unfold words targetWords
  rcases known with empty | member
  · have nothing : containsText (separated ' ' (act.getFeatureList.map strip)) "target:".toList =
        false := by
      rw [containsText_separated foreign given, none]
    rw [empty, if_neg (by decide), List.append_nil]
    unfold containsText at nothing
    rw [Option.isSome_eq_false_iff, Option.isNone_iff_eq_none] at nothing
    rw [nothing]
    rfl
  · have nonempty : act.targetCharacter.length ≠ 0 := by
      revert member
      generalize act.targetCharacter = target
      revert target
      decide
    have unchanged : strip (targetWord act.targetCharacter) = targetWord act.targetCharacter := by
      revert member
      generalize act.targetCharacter = target
      revert target
      decide
    have absent : ∀ word ∈ act.getFeatureList.map strip,
        containsText word "target:".toList = false := by
      intro word member
      rw [List.any_eq_false] at none
      simpa using none word member
    rw [if_pos nonempty, List.map_append, List.map_singleton, unchanged]
    have shape : separated ' ' (act.getFeatureList.map strip ++ [targetWord act.targetCharacter]) =
        separated ' ' (act.getFeatureList.map strip) ++
          ' ' :: ("target:".toList ++ act.targetCharacter) := by
      unfold separated
      rw [List.flatMap_append, List.flatMap_singleton]
      rfl
    rw [shape, textAfter_separated foreign given absent]
    rfl

theorem ofFeatures_getFeatures {act : DialogueAct} (known : act.targetCharacter = [] ∨
    act.targetCharacter ∈ characters) (utterance : Text) (starttime endtime : Int) :
    ofFeatures utterance starttime endtime act.getFeatures =
      { act with utterance := utterance, starttime := starttime, endtime := endtime,
                 talkAboutSelf := false } := by
  have whole := contains_whole known
  have rest := contains_remaining known
  have target := target_remaining known
  unfold remaining at target rest
  simp only [wholePatterns, remainingPatterns, List.forall_mem_cons, List.not_mem_nil,
    IsEmpty.forall_iff, implies_true, and_true] at whole rest
  obtain ⟨positive, negative, disagree⟩ := whole
  obtain ⟨agree, people, other, current, feelings, pragmatic, self, future, past, event, action,
    laugh, speaker, long, short⟩ := rest
  have length : (if act.has "long" then Length.long else if act.has "short" then .short else
      .normal) = act.length := by
    cases known : act.length <;> simp [has, features, known]
  unfold ofFeatures
  simp only [positive, negative, target, agree, people, other, current, feelings, pragmatic, self,
    future, past, event, action, laugh, speaker, long, short, length]
  rw [disagree]
  simp [has, features]

/-- An act is read back with its flags, its length and its target if and only if it is not about
the speaker. -/
theorem readBack_iff {act : DialogueAct} (known : act.targetCharacter = [] ∨
    act.targetCharacter ∈ characters) (utterance : Text) (starttime endtime : Int) :
    ofFeatures utterance starttime endtime act.getFeatures =
        { act with utterance := utterance, starttime := starttime, endtime := endtime } ↔
      act.talkAboutSelf = false := by
  rw [ofFeatures_getFeatures known]
  constructor
  · intro same
    exact (congrArg DialogueAct.talkAboutSelf same).symm
  · intro other
    rw [← other]

theorem readBack_disagree :
    ofFeatures "no".toList 3 4
        (getFeatures { utterance := [], starttime := 0, disagree := true,
                       targetCharacter := "Spike".toList }) =
      { utterance := "no".toList, starttime := 3, endtime := 4, disagree := true,
        targetCharacter := "Spike".toList } :=
  (readBack_iff (.inr (by decide)) "no".toList 3 4).mpr rfl

theorem talkAboutSelf_lost : ¬ ∀ act : DialogueAct,
    act.targetCharacter = [] ∨ act.targetCharacter ∈ characters →
    ofFeatures act.utterance act.starttime act.endtime act.getFeatures = act := by
  intro survives
  have same := survives { utterance := "me".toList, starttime := 0, talkAboutSelf := true }
    (.inl rfl)
  have read := congrArg DialogueAct.talkAboutSelf same
  revert read
  decide

end DialogueAct
end Semaine.Dialogue
