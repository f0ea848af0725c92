import Semaine.Dialogue.AgentSpeech
import Semaine.Dialogue.TurnCounters

/-! Changes of what is known about the user, and of nothing about the agent. -/
namespace Semaine.Dialogue
open JavaText JavaFloat Semaine.Xml Outcome Transition

def AGENT : Text := "Agent".toList
def USER : Text := "User".toList
def SPEAKINGSTATE : Text := "speakingState".toList

section
variable {D : Type}

/-- The agent speaks, and the variables of the user are kept in a record. -/
structure Speaking (is : InformationState D) : Prop where
  agent : ∃ fields, is.lookup AGENT = some (.record fields) ∧
    fields.lookup SPEAKINGSTATE = some (.string "speaking".toList)
  user : Records is USER

/-- A change of what is known about the user, and of nothing about the agent. -/
structure OfUser (is after : InformationState D) : Prop where
  agent : after.lookup AGENT = is.lookup AGENT
  user : Records is USER → Records after USER

theorem OfUser.refl (is : InformationState D) : OfUser is is := ⟨rfl, id⟩

theorem OfUser.trans {is middle after : InformationState D} (first : OfUser is middle)
    (second : OfUser middle after) : OfUser is after :=
  ⟨second.agent.trans first.agent, fun records => second.user (first.user records)⟩

theorem OfUser.speaking {is after : InformationState D} (change : OfUser is after)
    (speaking : Speaking is) : Speaking after := by
  obtain ⟨⟨fields, agent, state⟩, user⟩ := speaking
  exact ⟨⟨fields, change.agent.trans agent, state⟩, change.user user⟩

theorem ofUser_put {is : InformationState D} {name : Text} (i : Item D) (agent : AGENT ≠ name)
    (user : USER ≠ name) : OfUser is (put is name i) :=
  ⟨lookup_put_other is i agent, records_put_other i user⟩

theorem write_other {is after : InformationState D} {name : Text} {rest : List Text} {path : Text}
    {value : Item D} (pieces : segments path = name :: rest) (agent : AGENT ≠ dropDollar name)
    (user : USER ≠ dropDollar name) (done : is.write path value = .ok after) :
    OfUser is after := by
  have step := write_segments done
  rw [pieces] at step
  obtain ⟨_, x, isPut, _⟩ := set_record_cases step
  cases isPut
  exact ofUser_put x agent user

theorem write_userTurn {is after : InformationState D} {rest : Text} {path : Text}
    {value : Item D} (isPath : path = USERTURN ++ '.' :: rest)
    (done : is.write path value = .ok after) : OfUser is after := by
  have pieces : segments path = USERTURN :: segments rest := by
    rw [isPath, segments_dot (by decide)]
  exact write_other pieces (by decide) (by decide) done

theorem write_inRecord {is after : InformationState D} {name field : Text} {path : Text}
    {value : Item D} (pieces : segments path = [name, field]) (noDollar : dropDollar name = name)
    (fresh : newInRecord [field] = (.record [] : Item D)) (records : Records is name)
    (done : is.write path value = .ok after) :
    after = put is name (.record (put (fieldsOf is name) (dropDollar field) value)) := by
  have step := write_segments done
  rw [pieces] at step
  obtain ⟨inner, isPut, stepInner⟩ := set_inside step records noDollar (List.cons_ne_nil _ _) fresh
  obtain ⟨_, x, rfl, arrived⟩ := set_record_cases stepInner
  cases isPut
  rcases arrived with ⟨_, rfl⟩ | ⟨more, _⟩
  · rfl
  · exact absurd rfl more

theorem write_inRecord_ok {is : InformationState D} {name field : Text} {path : Text}
    (value : Item D) (pieces : segments path = [name, field]) (given : field ≠ [])
    (noDollar : dropDollar name = name) (fresh : newInRecord [field] = (.record [] : Item D))
    (records : Records is name) : is.write path value =
      .ok (put is name (.record (put (fieldsOf is name) (dropDollar field) value))) := by
  have inner : Item.set value [field] (.record (fieldsOf is name)) =
      (.record (put (fieldsOf is name) (dropDollar field) value), none) := by
    rw [Item.set, if_neg (fun missing => given missing.1)]
  have outer := set_into records noDollar (List.cons_ne_nil _ _) fresh inner
  unfold InformationState.write InformationState.set
  rw [pieces, outer]
  rfl

theorem write_user' {is after : InformationState D} {field : Text} {path : Text} {value : Item D}
    (pieces : segments path = [USER, field])
    (fresh : newInRecord [field] = (.record [] : Item D))
    (done : is.write path value = .ok after) : OfUser is after := by
  have step := write_segments done
  rw [pieces] at step
  obtain ⟨_, x, isPut, _⟩ := set_record_cases step
  refine ⟨?_, ?_⟩
  · cases isPut
    exact lookup_put_other is x (by decide)
  · intro records
    rw [write_inRecord pieces rfl fresh records done]
    exact records_put_same _ _ _

theorem write_agent {is after : InformationState D} {field : Text} {path : Text} {value : Item D}
    (pieces : segments path = [AGENT, field])
    (fresh : newInRecord [field] = (.record [] : Item D))
    (other : SPEAKINGSTATE ≠ dropDollar field) (speaking : Speaking is)
    (done : is.write path value = .ok after) : Speaking after := by
  obtain ⟨⟨fields, agent, state⟩, user⟩ := speaking
  have records : Records is AGENT := by
    intro i found
    cases agent.symm.trans found
    exact ⟨fields, rfl⟩
  have isFields : fieldsOf is AGENT = fields := by
    unfold fieldsOf
    rw [agent]
  have shape := write_inRecord pieces rfl fresh records done
  rw [shape]
  refine ⟨⟨_, lookup_put_same _ _ _, ?_⟩, records_put_other _ (by decide) user⟩
  rw [lookup_put_other _ _ other, isFields]
  exact state

def withField (is : InformationState D) (name field : Text) (value : Item D) :
    InformationState D :=
  put is name (.record (put (fieldsOf is name) field value))

theorem records_withField (is : InformationState D) (name field : Text) (value : Item D) :
    Records (withField is name field value) name :=
  records_put_same _ _ _

theorem fieldsOf_withField (is : InformationState D) (name field : Text) (value : Item D) :
    fieldsOf (withField is name field value) name = put (fieldsOf is name) field value :=
  fieldsOf_put_same _ _ _

/-- A property of the information state that does not depend on the turn of the user, on the
fields of the record of the user, and on other fields of the agent than its speaking state. -/
structure Stable (P : InformationState D → Prop) : Prop where
  ofUser : ∀ {is after}, OfUser is after → P is → P after
  agent : ∀ {is after path value} (field : Text), segments path = [AGENT, field] →
    newInRecord [field] = (.record [] : Item D) → SPEAKINGSTATE ≠ dropDollar field →
    is.write path value = .ok after → P is → P after

theorem stable_speaking : Stable (Speaking (D := D)) where
  ofUser change speaking := change.speaking speaking
  agent _ pieces fresh other done speaking := write_agent pieces fresh other speaking done

theorem stable_user : Stable fun is : InformationState D => Records is USER where
  ofUser change records := change.user records
  agent field pieces _ _ done records := by
    have step := write_segments done
    rw [pieces] at step
    obtain ⟨_, x, isPut, _⟩ := set_record_cases step
    cases isPut
    exact records_put_other x (by decide) records

theorem lookup_removeName_same (is : InformationState D) (name : Text) :
    (removeName is name).lookup name = none := by
  unfold removeName
  rw [List.lookup_eq_none_iff]
  intro entry member
  have other := of_decide_eq_true (List.mem_filter.mp member).2
  exact bne_iff_ne.mpr (Ne.symm other)

theorem ofUser_removeName {is : InformationState D} {name : Text} (agent : AGENT ≠ name)
    (user : USER ≠ name) : OfUser is (removeName is name) := by
  refine ⟨lookup_removeName_other is agent, ?_⟩
  intro records i found
  rw [lookup_removeName_other is user] at found
  exact records i found

theorem remove_userTurn (chars : Characters) {is after : InformationState D} {rest : List Text}
    {path : Text} (pieces : segments path = USERTURN :: rest)
    (done : InformationState.orThrow (is.remove chars path) = .ok after) : OfUser is after := by
  have removed := congrArg Prod.fst (orThrow_ok done)
  have noDollar : dropDollar USERTURN = USERTURN := rfl
  have gone : OfUser is (removeName is USERTURN) := ofUser_removeName (by decide) (by decide)
  have changed (i : Item D) : OfUser is (put is USERTURN i) :=
    ofUser_put i (by decide) (by decide)
  unfold InformationState.remove at removed
  rw [pieces] at removed
  cases rest with
  | nil =>
    rw [removeFromRecord, if_neg (by decide), noDollar] at removed
    change removeName is USERTURN = after at removed
    rw [← removed]
    exact gone
  | cons next others =>
    rw [removeFromRecord, noDollar] at removed
    cases found : is.lookup USERTURN with
    | none =>
      simp only [found] at removed
      rw [← removed]
      exact .refl is
    | some i =>
      cases i with
      | list | record =>
        simp only [found] at removed
        rw [← removed]
        exact changed _
      | noRecord | noList =>
        simp only [found] at removed
        rw [← removed]
        exact .refl is
      | string | integer | double | untyped =>
        simp only [found] at removed
        rw [← removed]
        exact gone

end

section
variable {F D : Type} {chars : Characters} {floats : FloatNumbers F D} {s t : UserTurn F D}

namespace UserTurn

theorem userStartsSpeaking_ofUser {time : Int}
    (done : s.userStartsSpeaking chars time = .ok t) : OfUser s.is t.is := by
  obtain ⟨state, _, done⟩ := bind_ok done
  split at done
  · cases done
    exact .refl _
  · obtain ⟨s', first, done⟩ := bind_ok done
    obtain ⟨s'', second, done⟩ := bind_ok done
    have speaking := write_user' rfl rfl (write_ok first)
    have time := write_user' rfl rfl (write_ok second)
    cases done
    exact speaking.trans time

theorem updateSpeaking_ofUser {m : UserStateMessage} (done : s.updateSpeaking chars m = .ok t) :
    OfUser s.is t.is := by
  unfold updateSpeaking at done
  split at done
  · exact userStartsSpeaking_ofUser done
  · split at done
    · obtain ⟨state, _, done⟩ := bind_ok done
      split at done
      · cases done
        exact .refl _
      · obtain ⟨s', first, second⟩ := bind_ok done
        exact (write_user' rfl rfl (write_ok first)).trans (write_user' rfl rfl (write_ok second))
    · cases done
      exact .refl _

theorem write_ofUser {path : Text} {value : Item D} (rest : Text)
    (isPath : path = USERTURN ++ '.' :: rest) (done : s.write path value = .ok t) :
    OfUser s.is t.is :=
  write_userTurn isPath (write_ok done)

theorem setEmotion_ofUser {emotion : Text} {type : EmotionType}
    (done : s.setEmotion floats emotion type = .ok t) : OfUser s.is t.is := by
  obtain ⟨s1, nrLow, done⟩ := bind_ok done
  obtain ⟨s2, nrHigh, done⟩ := bind_ok done
  obtain ⟨s3, average, done⟩ := bind_ok done
  obtain ⟨s4, low, high⟩ := bind_ok done
  have lows := (write_ofUser _ rfl nrLow).trans (write_ofUser _ rfl nrHigh)
  exact ((lows.trans (write_ofUser _ rfl average)).trans (write_ofUser _ rfl low)).trans
    (write_ofUser _ rfl high)

theorem summarizeEmotionEvents_ofUser (done : s.summarizeEmotionEvents floats = .ok t) :
    OfUser s.is t.is := by
  obtain ⟨s1, valence, done⟩ := bind_ok done
  obtain ⟨s2, arousal, done⟩ := bind_ok done
  obtain ⟨s3, interest, done⟩ := bind_ok done
  obtain ⟨s4, potency, intensity⟩ := bind_ok done
  have first := (setEmotion_ofUser valence).trans (setEmotion_ofUser arousal)
  have middle := first.trans (setEmotion_ofUser interest)
  exact (middle.trans (setEmotion_ofUser potency)).trans (setEmotion_ofUser intensity)

theorem updateEmotions_ofUser {m : UserStateMessage}
    (done : s.updateEmotions floats m = .ok t) : OfUser s.is t.is := by
  unfold updateEmotions at done
  split at done
  · cases done
    exact .refl _
  · split at done
    · cases done
    · have summarized := summarizeEmotionEvents_ofUser done
      exact ⟨summarized.agent, summarized.user⟩

theorem addFeatures_ofUser {features : List Text} (done : s.addFeatures features = .ok t) :
    OfUser s.is t.is := by
  induction features generalizing s with
  | nil =>
    cases done
    exact .refl _
  | cons contentFeature rest ih =>
    obtain ⟨s', added, done⟩ := bind_ok done
    exact (write_ofUser _ rfl added).trans (ih done)

theorem updateUtterances_ofUser {m : UserStateMessage}
    (done : s.updateUtterances chars m = .ok t) : OfUser s.is t.is := by
  unfold updateUtterances at done
  split at done
  · split at done
    · cases done
    · obtain ⟨s', act, speaking⟩ := bind_ok done
      refine OfUser.trans ?_ (userStartsSpeaking_ofUser speaking)
      unfold getCombinedUserDialogueAct at act
      split at act
      · cases act
        exact .refl _
      · obtain ⟨s1, utterance, act⟩ := bind_ok act
        obtain ⟨s2, starttime, act⟩ := bind_ok act
        obtain ⟨s3, endtime, act⟩ := bind_ok act
        obtain ⟨s4, target, act⟩ := bind_ok act
        obtain ⟨is, removed, features⟩ := bind_ok act
        have first := (write_ofUser _ rfl utterance).trans (write_ofUser _ rfl starttime)
        have middle := first.trans (write_ofUser _ rfl endtime)
        have last := middle.trans (write_ofUser _ rfl target)
        have pieces : segments "UserTurn.SemanticFeatures".toList =
            [USERTURN, "SemanticFeatures".toList] := rfl
        have gone := remove_userTurn chars pieces removed
        exact (last.trans gone).trans (addFeatures_ofUser features)
  · cases done
    exact .refl _

theorem updateHead_ofUser {m : UserStateMessage} (done : s.updateHead chars m = .ok t) :
    OfUser s.is t.is := by
  unfold updateHead at done
  split at done
  · cases done
    exact .refl _
  · obtain ⟨counter, _, done⟩ := bind_ok done
    obtain ⟨s', first, last⟩ := bind_ok done
    exact (write_ofUser _ rfl first).trans (write_ofUser _ rfl last)

theorem updatePitch_ofUser {m : UserStateMessage} (done : s.updatePitch chars m = .ok t) :
    OfUser s.is t.is := by
  unfold updatePitch at done
  split at done
  · cases done
    exact .refl _
  · obtain ⟨counter, _, done⟩ := bind_ok done
    obtain ⟨s', first, last⟩ := bind_ok done
    exact (write_ofUser _ rfl first).trans (write_ofUser _ rfl last)

theorem updateVocalization_ofUser {m : UserStateMessage}
    (done : s.updateVocalization chars m = .ok t) : OfUser s.is t.is := by
  unfold updateVocalization at done
  split at done
  · cases done
    exact .refl _
  · obtain ⟨counter, _, done⟩ := bind_ok done
    exact write_ofUser _ rfl done

theorem countActionUnits_ofUser {aus : List Text} (done : s.countActionUnits chars aus = .ok t) :
    OfUser s.is t.is := by
  induction aus generalizing s with
  | nil =>
    cases done
    exact .refl _
  | cons au rest ih =>
    unfold countActionUnits at done
    split at done
    · exact ih done
    · obtain ⟨counter, _, done⟩ := bind_ok done
      obtain ⟨s', written, done⟩ := bind_ok done
      exact (write_ofUser _ rfl written).trans (ih done)

theorem updateActionUnits_ofUser {m : UserStateMessage}
    (done : s.updateActionUnits chars m = .ok t) : OfUser s.is t.is := by
  unfold updateActionUnits at done
  split at done
  · cases done
    exact .refl _
  · obtain ⟨s', counted, done⟩ := bind_ok done
    have counts := countActionUnits_ofUser counted
    cases done
    exact counts

theorem react_ofUser {m : UserStateMessage} (done : s.react chars floats m = .ok t) :
    OfUser s.is t.is := by
  obtain ⟨s1, speaking, done⟩ := bind_ok done
  obtain ⟨s2, emotions, done⟩ := bind_ok done
  obtain ⟨s3, utterances, done⟩ := bind_ok done
  obtain ⟨s4, head, done⟩ := bind_ok done
  obtain ⟨s5, pitch, done⟩ := bind_ok done
  obtain ⟨s6, vocalization, units⟩ := bind_ok done
  have first := (updateSpeaking_ofUser speaking).trans (updateEmotions_ofUser emotions)
  have middle := first.trans (updateUtterances_ofUser utterances)
  have last := (middle.trans (updateHead_ofUser head)).trans (updatePitch_ofUser pitch)
  exact (last.trans (updateVocalization_ofUser vocalization)).trans
    (updateActionUnits_ofUser units)

end UserTurn

end

end Semaine.Dialogue
