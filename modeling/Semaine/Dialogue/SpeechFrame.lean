import Semaine.Dialogue.AgentSpeech
import Semaine.Dialogue.UserWrites

/-! Steps of the utterance proposer that leave the speech of the agent alone. -/
namespace Semaine.Dialogue
open JavaText JavaFloat Semaine.Xml Outcome Transition

section
variable {F D : Type} {chars : Characters} {floats : FloatNumbers F D} {env : Environment}

theorem getValueOfPath_lookup {is after : InformationState D} {path name : Text}
    {rest : List Text} (pieces : segments path = name :: rest) (noDollar : dropDollar name = name)
    (same : after.lookup name = is.lookup name) :
    after.getValueOfPath chars path = is.getValueOfPath chars path := by
  unfold InformationState.getValueOfPath
  rw [pieces, Item.getValueOfPath, Item.getValueOfPath, noDollar, same]

theorem getString_lookup {is after : InformationState D} {path name : Text} {rest : List Text}
    (pieces : segments path = name :: rest) (noDollar : dropDollar name = name)
    (same : after.lookup name = is.lookup name) :
    after.getString chars path = is.getString chars path := by
  unfold InformationState.getString
  rw [getValueOfPath_lookup pieces noDollar same]

theorem getString_field {is : InformationState D} {name field path : Text}
    (pieces : segments path = [name, field]) (records : Records is name)
    (given : name ≠ [] ∧ field ≠ []) (noDollar : dropDollar name = name) :
    is.getString chars path =
      .ok (((fieldsOf is name).lookup (dropDollar field)).bind Item.getString) := by
  unfold InformationState.getString InformationState.getValueOfPath
  rw [pieces, getValueOfPath_inside chars records given.1 noDollar, Item.getValueOfPath,
    if_neg (fun h => given.2 h.1)]
  cases (fieldsOf is name).lookup (dropDollar field) with
  | none => rfl
  | some i => cases i <;> rfl

namespace AgentSpeech
variable {s t : AgentSpeech F D}

theorem speakingState_speaking (speaking : Speaking s.is) :
    s.speakingState chars = .ok (some "speaking".toList) := by
  obtain ⟨⟨fields, agent, state⟩, _⟩ := speaking
  have records : Records s.is AGENT := by
    intro i found
    cases agent.symm.trans found
    exact ⟨fields, rfl⟩
  have isFields : fieldsOf s.is AGENT = fields := by
    unfold fieldsOf
    rw [agent]
  have pieces : segments "Agent.speakingState".toList = [AGENT, SPEAKINGSTATE] := rfl
  have noDollar : dropDollar SPEAKINGSTATE = SPEAKINGSTATE := rfl
  unfold speakingState
  rw [getString_field pieces records (by decide) rfl, isFields, noDollar, state]
  rfl

theorem put_ok {path : String} {value : Item D} (done : s.put path value = .ok t) :
    s.is.write path.toList value = .ok t.is ∧ t = { s with is := t.is } := by
  obtain ⟨turn, written, rfl⟩ := map_ok done
  obtain ⟨is, inner, same⟩ := map_ok written
  rw [← same]
  exact ⟨inner, rfl⟩

theorem remove_ok {path : Text} (done : s.remove chars path = .ok t) :
    InformationState.orThrow (s.is.remove chars path) = .ok t.is ∧ t = { s with is := t.is } := by
  obtain ⟨is, removed, rfl⟩ := map_ok done
  exact ⟨removed, rfl⟩

theorem onTurn_ok {change : UserTurn F D → Except Failure (UserTurn F D)}
    (done : s.onTurn change = .ok t) :
    change s.toUserTurn = .ok t.toUserTurn ∧ t = { s with toUserTurn := t.toUserTurn } := by
  obtain ⟨turn, changed, rfl⟩ := map_ok done
  exact ⟨changed, rfl⟩

theorem when_cases {condition : Bool} {change : AgentSpeech F D → Except Failure (AgentSpeech F D)}
    (done : s.when condition change = .ok t) :
    (condition = true ∧ change s = .ok t) ∨ (condition = false ∧ t = s) := by
  unfold AgentSpeech.when at done
  split at done
  · rename_i holds
    exact .inl ⟨holds, done⟩
  · rename_i fails
    exact .inr ⟨Bool.eq_false_iff.mpr fails, (Except.ok.inj done).symm⟩

theorem inDocument_ok {α : Type} {found : Except Thrown α} {a : α}
    (done : inDocument found = .ok a) : found = .ok a :=
  mapError_ok done

theorem segments_currTime : segments "currTime".toList = ["currTime".toList] := rfl

theorem featurePath_eq (featureName : Text) (kind : String) : featurePath featureName kind =
    USERTURN ++ '.' :: ("AudioFeatures.".toList ++ (featureName ++ '_' :: kind.toList)) := by
  have front : "UserTurn.AudioFeatures.".toList = USERTURN ++ '.' :: "AudioFeatures.".toList := by
    decide
  unfold featurePath
  rw [front, List.append_assoc, List.append_assoc, List.cons_append]

theorem prepare_feedbackId {p q : UtteranceActionProposer} {request : Request}
    (done : p.prepare env request = .ok q) : q.feedbackId = p.feedbackId := by
  unfold UtteranceActionProposer.prepare at done
  split at done
  · cases done
    rfl
  · obtain ⟨found, _, done⟩ := bind_ok done
    split at done
    · cases done
      rfl
    · dsimp only at done
      split at done
      · cases done
        rfl
      · cases done
        rfl

theorem onCallback_feedbackId (p : UtteranceActionProposer) (type id : Text) :
    (p.onCallback type id).feedbackId = p.feedbackId := by
  unfold UtteranceActionProposer.onCallback
  split
  · split <;> rfl
  · split <;> rfl

/-- A property of the information state goes on to hold, and the feedback id stays if nothing is
executed. -/
structure GoesOn (P : InformationState D → Prop) (idle : Prop) (s t : AgentSpeech F D) : Prop where
  holds : P s.is → P t.is
  feedbackId : idle → t.feedbackId = s.feedbackId

section
variable {P : InformationState D → Prop} {idle : Prop}

theorem GoesOn.refl (s : AgentSpeech F D) : GoesOn P idle s s := ⟨id, fun _ => rfl⟩

theorem GoesOn.trans {u : AgentSpeech F D} (first : GoesOn P idle s t)
    (second : GoesOn P idle t u) : GoesOn P idle s u where
  holds start := second.holds (first.holds start)
  feedbackId still := (second.feedbackId still).trans (first.feedbackId still)

theorem put_goesOn {path : String} {value : Item D} (done : s.put path value = .ok t)
    (keeps : ∀ after, s.is.write path.toList value = .ok after → P s.is → P after) :
    GoesOn P idle s t := by
  obtain ⟨written, same⟩ := put_ok done
  refine ⟨keeps _ written, fun _ => ?_⟩
  rw [same]

theorem when_goesOn {condition : Bool} {change : AgentSpeech F D → Except Failure (AgentSpeech F D)}
    (done : s.when condition change = .ok t) (keeps : change s = .ok t → GoesOn P idle s t) :
    GoesOn P idle s t := by
  rcases when_cases done with ⟨_, changed⟩ | ⟨_, rfl⟩
  · exact keeps changed
  · exact .refl t

theorem runPrepare_goesOn {request : Request} (done : s.runPrepare chars env request = .ok t) :
    GoesOn P idle s t := by
  obtain ⟨s1, character, done⟩ := bind_ok done
  obtain ⟨p, prepared, done⟩ := bind_ok done
  obtain ⟨name, _, character⟩ := bind_ok character
  cases character
  cases done
  have same := prepare_feedbackId (inDocument_ok prepared)
  exact ⟨id, fun _ => same⟩

def Tame (chars : Characters) (env : Environment) (F : Type) (P : InformationState D → Prop)
    (idle : Prop) : TemplateAction D → Prop
  | .effect change => ∀ is, P is → P (change is)
  | .execute request => ∀ (s t : AgentSpeech F D) (time : Int),
      s.runExecute chars env request time = .ok t → GoesOn P idle s t
  | .prepare _ => True

theorem runActions_goesOn {time : Int} {actions : List (TemplateAction D)}
    (tame : ∀ action ∈ actions, Tame chars env F P idle action)
    (done : s.runActions chars env time actions = .ok t) : GoesOn P idle s t := by
  induction actions generalizing s with
  | nil =>
    cases done
    exact .refl _
  | cons action actions ih =>
    obtain ⟨first, others⟩ := List.forall_mem_cons.mp tame
    cases action with
    | effect change =>
      have later := ih others done
      exact ⟨fun start => later.holds (first _ start), later.feedbackId⟩
    | execute request =>
      obtain ⟨s', executed, done⟩ := bind_ok done
      exact (first s s' time executed).trans (ih others done)
    | prepare request =>
      obtain ⟨s', prepared, done⟩ := bind_ok done
      exact (runPrepare_goesOn prepared).trans (ih others done)

theorem feature_goesOn (ofUser : ∀ is after, OfUser is after → P is → P after)
    {featureName : Text} {kind : String} {value : Item D}
    (done : s.onTurn (·.write (featurePath featureName kind) value) = .ok t) :
    GoesOn P idle s t := by
  obtain ⟨written, same⟩ := onTurn_ok done
  have change := write_userTurn (featurePath_eq featureName kind) (UserTurn.write_ok written)
  refine ⟨ofUser _ _ change, fun _ => ?_⟩
  rw [same]

theorem summarizeFeatures_goesOn (ofUser : ∀ is after, OfUser is after → P is → P after)
    {features : List (Text × List F)}
    (done : s.summarizeFeatures floats features = .ok t) : GoesOn P idle s t := by
  induction features generalizing s with
  | nil =>
    cases done
    exact .refl _
  | cons feature rest ih =>
    unfold summarizeFeatures at done
    split at done
    · exact ih done
    · obtain ⟨s1, low, done⟩ := bind_ok done
      obtain ⟨s2, high, done⟩ := bind_ok done
      obtain ⟨s3, avg, done⟩ := bind_ok done
      have written : GoesOn P idle s s2 :=
        (feature_goesOn ofUser low).trans (feature_goesOn ofUser high)
      exact (written.trans (feature_goesOn ofUser avg)).trans (ih done)

theorem summarizeFeatures_agent {features : List (Text × List F)}
    (done : s.summarizeFeatures floats features = .ok t) :
    t.is.lookup AGENT = s.is.lookup AGENT := by
  have unchanged : GoesOn (fun is => is.lookup AGENT = s.is.lookup AGENT) True s t :=
    summarizeFeatures_goesOn (fun _ _ change same => change.agent.trans same) done
  exact unchanged.holds rfl

variable (stable : Stable P)
include stable

theorem put_user_goesOn {path : String} {value : Item D} {field : Text}
    (pieces : segments path.toList = [USER, field])
    (fresh : newInRecord [field] = (.record [] : Item D)) (done : s.put path value = .ok t) :
    GoesOn P idle s t :=
  put_goesOn done fun _ written => stable.ofUser (write_user' pieces fresh written)

theorem put_agent_goesOn {path : String} {value : Item D} (field : Text)
    (pieces : segments path.toList = [AGENT, field])
    (fresh : newInRecord [field] = (.record [] : Item D)) (other : SPEAKINGSTATE ≠ dropDollar field)
    (done : s.put path value = .ok t) : GoesOn P idle s t :=
  put_goesOn done fun _ written => stable.agent field pieces fresh other written

theorem put_currTime_goesOn {value : Item D} (done : s.put "currTime" value = .ok t) :
    GoesOn P idle s t :=
  put_goesOn done fun _ written =>
    stable.ofUser (write_other segments_currTime (by decide) (by decide) written)

theorem removeFeature_goesOn {featureName : Text} {kind : String}
    (done : s.remove chars (featurePath featureName kind) = .ok t) : GoesOn P idle s t := by
  obtain ⟨removed, same⟩ := remove_ok done
  have pieces : segments (featurePath featureName kind) = USERTURN ::
      segments ("AudioFeatures.".toList ++ (featureName ++ '_' :: kind.toList)) := by
    rw [featurePath_eq, segments_dot (by decide)]
  refine ⟨stable.ofUser (remove_userTurn chars pieces removed), fun _ => ?_⟩
  rw [same]

theorem removeFeatures_goesOn {features : List (Text × List F)}
    (done : s.removeFeatures chars features = .ok t) : GoesOn P idle s t := by
  induction features generalizing s with
  | nil =>
    cases done
    exact .refl _
  | cons feature rest ih =>
    obtain ⟨s1, low, done⟩ := bind_ok done
    obtain ⟨s2, high, done⟩ := bind_ok done
    obtain ⟨s3, avg, done⟩ := bind_ok done
    have removed : GoesOn P idle s s2 :=
      (removeFeature_goesOn stable low).trans (removeFeature_goesOn stable high)
    exact (removed.trans (removeFeature_goesOn stable avg)).trans (ih done)

theorem checkTemplates_goesOn {check : TemplateCheck D} {time : Int}
    (tame : ∀ action ∈ check.actions, Tame chars env F P idle action)
    (done : s.checkTemplates chars env check time = .ok t) : GoesOn P idle s t := by
  unfold checkTemplates at done
  obtain ⟨s1, timed, done⟩ := bind_ok done
  obtain ⟨s2, ran, done⟩ := bind_ok done
  have before := (put_currTime_goesOn stable timed).trans (runActions_goesOn tame ran)
  split at done
  · split at done
    · cases done
    · have forgotten : GoesOn P idle s2 s2.forgetTurn := ⟨id, fun _ => rfl⟩
      exact (before.trans forgotten).trans (removeFeatures_goesOn stable done)
  · cases done
    exact before

theorem becomePresent_goesOn {defaultCharacter : Text}
    (done : s.becomePresent chars defaultCharacter = .ok t) : GoesOn P idle s t := by
  unfold becomePresent at done
  obtain ⟨s1, present, done⟩ := bind_ok done
  obtain ⟨s2, changed, done⟩ := bind_ok done
  obtain ⟨agent, _, done⟩ := bind_ok done
  obtain ⟨s3, character, done⟩ := bind_ok done
  have first : GoesOn P idle s s2 := (put_user_goesOn stable rfl rfl present).trans
    (put_user_goesOn stable rfl rfl changed)
  have named : GoesOn P idle s2 s3 := when_goesOn character fun written =>
    put_agent_goesOn stable "character".toList rfl rfl (by decide) written
  cases done
  exact first.trans ⟨named.holds, named.feedbackId⟩

theorem becomeAbsent_goesOn {time : Int} {check : TemplateCheck D}
    (tame : ∀ action ∈ check.actions, Tame chars env F P idle action)
    (done : s.becomeAbsent chars env time check = .ok t) : GoesOn P idle s t := by
  unfold becomeAbsent at done
  obtain ⟨s1, absent, done⟩ := bind_ok done
  obtain ⟨s2, changed, done⟩ := bind_ok done
  have written : GoesOn P idle s s2 := (put_user_goesOn stable rfl rfl absent).trans
    (put_user_goesOn stable rfl rfl changed)
  have checked := checkTemplates_goesOn stable tame done
  exact written.trans ⟨checked.holds, checked.feedbackId⟩

theorem onPresence_goesOn {info : List (Text × Text)} {time : Int} {defaultCharacter : Text}
    {check : TemplateCheck D} (tame : ∀ action ∈ check.actions, Tame chars env F P idle action)
    (done : s.onPresence chars env info time defaultCharacter check = .ok t) :
    GoesOn P idle s t := by
  unfold onPresence at done
  split at done
  · cases done
    exact .refl _
  · obtain ⟨known, _, done⟩ := bind_ok done
    obtain ⟨s1, zero, done⟩ := bind_ok done
    obtain ⟨present, _, done⟩ := bind_ok done
    refine (when_goesOn zero (put_user_goesOn stable rfl rfl)).trans ?_
    split at done
    · split at done
      · cases done
      · split at done
        · exact becomePresent_goesOn stable done
        · cases done
          exact .refl _
    · split at done
      · split at done
        · cases done
        · split at done
          · exact becomeAbsent_goesOn stable tame done
          · cases done
            exact .refl _
      · cases done
        exact .refl _

theorem onCharacterInfo_goesOn {info : List (Text × Text)}
    (done : s.onCharacterInfo chars info = .ok t) : GoesOn P idle s t := by
  unfold onCharacterInfo at done
  split at done
  · cases done
    exact .refl _
  · obtain ⟨character, _, done⟩ := bind_ok done
    split at done
    · cases done
      exact .refl _
    · obtain ⟨s1, named, done⟩ := bind_ok done
      obtain ⟨s2, changed, done⟩ := bind_ok done
      have first : GoesOn P idle s s1 :=
        put_agent_goesOn stable "character".toList rfl rfl (by decide) named
      have second : GoesOn P idle s1 s2 :=
        put_agent_goesOn stable "characterChanged".toList rfl rfl (by decide) changed
      cases done
      exact first.trans ⟨second.holds, second.feedbackId⟩

theorem storeInfo_goesOn {info : List (Text × Text)} {name path : String} (field : Text)
    (pieces : segments path.toList = [AGENT, field])
    (fresh : newInRecord [field] = (.record [] : Item D)) (other : SPEAKINGSTATE ≠ dropDollar field)
    (done : s.storeInfo info name path = .ok t) : GoesOn P idle s t := by
  unfold storeInfo at done
  split at done
  · cases done
    exact .refl _
  · exact put_agent_goesOn stable field pieces fresh other done

theorem onContext_goesOn {info : List (Text × Text)} {time : Int} {defaultCharacter : Text}
    {check : TemplateCheck D} (tame : ∀ action ∈ check.actions, Tame chars env F P idle action)
    (done : s.onContext chars env info time defaultCharacter check = .ok t) :
    GoesOn P idle s t := by
  obtain ⟨s1, presence, done⟩ := bind_ok done
  obtain ⟨s2, character, done⟩ := bind_ok done
  obtain ⟨s3, next, done⟩ := bind_ok done
  have first := (onPresence_goesOn stable tame presence).trans
    (onCharacterInfo_goesOn stable character)
  have stored : GoesOn P idle s2 s3 :=
    storeInfo_goesOn stable "nextCharacter".toList rfl rfl (by decide) next
  exact (first.trans stored).trans
    (storeInfo_goesOn stable "dialogContext".toList rfl rfl (by decide) done)

theorem onAgentState_goesOn {info : List (Text × Text)}
    (done : s.onAgentState chars info = .ok t) : GoesOn P idle s t := by
  unfold onAgentState at done
  split at done
  · obtain ⟨state, _, done⟩ := bind_ok done
    split at done
    · cases done
      exact .refl _
    · obtain ⟨user, _, done⟩ := bind_ok done
      exact put_agent_goesOn stable "speakingIntention".toList rfl rfl (by decide) done
  · cases done
    exact .refl _

end

end AgentSpeech

end

end Semaine.Dialogue
