import Semaine.Dialogue.SpeechFrame

/-! When the end of a speech brings back the agent that its start made speak. -/
namespace Semaine.Dialogue
open JavaText JavaFloat Semaine.Xml Outcome Transition

section
variable {F D : Type} {chars : Characters} {floats : FloatNumbers F D} {env : Environment}

namespace AgentSpeech
variable {s t : AgentSpeech F D}

structure SameButSent (s t : AgentSpeech F D) : Prop where
  is : t.is = s.is
  feedbackId : t.feedbackId = s.feedbackId
  turnActionUnits : t.turnActionUnits = s.turnActionUnits

theorem SameButSent.goesOn {P : InformationState D → Prop} {idle : Prop}
    (same : SameButSent s t) : GoesOn P idle s t :=
  ⟨fun holds => same.is ▸ holds, fun _ => same.feedbackId⟩

theorem sendData_same (s : AgentSpeech F D) (name value channel : Text) :
    SameButSent s (s.sendData name value channel) := by
  unfold sendData
  split <;> exact ⟨rfl, rfl, rfl⟩

theorem sendTurnState_same (s : AgentSpeech F D) (state : String) :
    SameButSent s (s.sendTurnState state) :=
  sendData_same s _ _ _

theorem sendEntry_same (s : AgentSpeech F D) (str : List Text) :
    SameButSent s (s.sendEntry str) := by
  unfold sendEntry
  split
  · exact sendData_same s _ _ _
  · exact ⟨rfl, rfl, rfl⟩

theorem sendQueue_same (s : AgentSpeech F D) : SameButSent s s.sendQueue := by
  have folded (queue : List (List Text)) (s : AgentSpeech F D) :
      SameButSent s (queue.foldl sendEntry s) := by
    induction queue generalizing s with
    | nil => exact ⟨rfl, rfl, rfl⟩
    | cons str queue ih =>
      rw [List.foldl_cons]
      have first := sendEntry_same s str
      have later := ih (s.sendEntry str)
      exact ⟨later.is.trans first.is, later.feedbackId.trans first.feedbackId,
        later.turnActionUnits.trans first.turnActionUnits⟩
  have sent := folded s.dataSendQueue s
  exact ⟨sent.is, sent.feedbackId, sent.turnActionUnits⟩

/-- A callback message of a type that carries an id: it is not about lips, and the rest of it can
be read. -/
structure IsCallback (chars : Characters) (type : String) (id : Text) (m : XMLMessage) : Prop where
  noLip : isLip m = false
  plain : m.datatype ≠ "FML".toList
  event : ∃ e, callbackEvent m = .ok (some e) ∧
    e.toTag.getAttribute? "type".toList = some type.toList ∧
    e.toTag.getAttribute? "id".toList = some id ∧
    (chars.parseLong (e.toTag.getAttribute "time".toList)).isSome = true

theorem callbackEvent_childOf {m : XMLMessage} {e : Element}
    (found : callbackEvent m = .ok (some e)) :
    childOf m.document "event".toList = .ok (some e) := by
  obtain ⟨position, _, found⟩ := bind_ok found
  cases position with
  | none => cases found
  | some i => exact found

theorem onPreparation_callback {type : String} {id : Text} {m : XMLMessage}
    (callback : IsCallback chars type id m) (noReady : type.toList ≠ "ready".toList)
    (noDeleted : type.toList ≠ "deleted".toList) (s : AgentSpeech F D) :
    s.onPreparation chars m = .ok s := by
  obtain ⟨e, found, typed, _, timed⟩ := callback.event
  obtain ⟨time, parsed⟩ := Option.isSome_iff_exists.mp timed
  have isType : e.toTag.getAttribute "type".toList = type.toList := by
    unfold Tag.getAttribute
    rw [typed]
    rfl
  have nothing (id' : Text) : s.toUtteranceActionProposer.onCallback type.toList id' =
      s.toUtteranceActionProposer := by
    unfold UtteranceActionProposer.onCallback
    rw [if_neg noReady, if_neg noDeleted]
  unfold onPreparation inDocument
  rw [callbackEvent_childOf found]
  simp only [Except.mapError, bind, Except.bind, parsed, isType, nothing]
  rfl

theorem onXml_callback {type : String} {id : Text} {m : XMLMessage}
    (callback : IsCallback chars type id m) (noReady : type.toList ≠ "ready".toList)
    (noDeleted : type.toList ≠ "deleted".toList) (time : Int) (s : AgentSpeech F D) :
    s.onXml chars m time = s.onSpeech chars m time := by
  unfold onXml
  have noMarkup : inDocument (lookForBackchannel m) = .ok () := by
    unfold lookForBackchannel
    rw [if_neg callback.plain]
    rfl
  cases spoke : s.onSpeech chars m time with
  | error e => rfl
  | ok t =>
    simp only [bind, Except.bind, noMarkup]
    exact onPreparation_callback callback noReady noDeleted t

theorem onXml_goesOn {P : InformationState D → Prop} {idle : Prop} {m : XMLMessage} {time : Int}
    (none : callbackEvent m = .ok none) (done : s.onXml chars m time = .ok t) :
    GoesOn P idle s t := by
  obtain ⟨s1, spoke, done⟩ := bind_ok done
  obtain ⟨_, _, done⟩ := bind_ok done
  have silent : s1 = s := by
    unfold onSpeech at spoke
    split at spoke
    · exact (Except.ok.inj spoke).symm
    · have notStarted : s.speechStarted chars m = .ok false := by
        unfold speechStarted inDocument
        rw [none]
        rfl
      have notReady : s.speechReady chars m = .ok Option.none := by
        unfold speechReady inDocument
        rw [none]
        rfl
      rw [notStarted] at spoke
      simp only [bind, Except.bind, AgentSpeech.when, Bool.false_eq_true, if_false,
        notReady] at spoke
      exact (Except.ok.inj spoke).symm
  rw [silent] at done
  obtain ⟨found, _, done⟩ := bind_ok done
  split at done
  · cases done
    exact .refl _
  · split at done
    · cases done
    · cases done
      exact ⟨fun holds => holds, fun _ => onCallback_feedbackId _ _ _⟩

/-- The agent listens, the turn of the user is over, and its variables are gone. -/
structure TurnEnded (chars : Characters) (s : AgentSpeech F D) : Prop where
  agent : s.speakingState chars = .ok (some "listening".toList)
  user : s.is.getString chars "User.speakingState".toList = .ok (some "waiting".toList)
  turn : s.is.lookup USERTURN = none
  actionUnits : s.turnActionUnits = []

theorem put_written {path : String} {value : Item D} {is : InformationState D}
    (written : s.is.write path.toList value = .ok is) :
    s.put path value = .ok { s with is := is } := by
  unfold AgentSpeech.put onTurn UserTurn.write
  dsimp only
  rw [written]
  rfl

theorem stopSpeaking_ended (agent : Records s.is AGENT) (user : Records s.is USER) (time : Int) :
    ∃ u, s.stopSpeaking chars time = .ok u ∧ TurnEnded chars u := by
  have statePieces : segments "Agent.speakingState".toList = [AGENT, SPEAKINGSTATE] := rfl
  have noDollar : dropDollar SPEAKINGSTATE = SPEAKINGSTATE := rfl
  have timePieces : segments "Agent.speakingStateTime".toList =
      [AGENT, "speakingStateTime".toList] := rfl
  have userPieces : segments "User.speakingState".toList = [USER, SPEAKINGSTATE] := rfl
  obtain ⟨is1, h1⟩ : ∃ is1, is1 = withField s.is AGENT SPEAKINGSTATE
    (.string "listening".toList) := ⟨_, rfl⟩
  obtain ⟨is2, h2⟩ : ∃ is2, is2 = withField is1 AGENT "speakingStateTime".toList
    (.integer (toInt time)) := ⟨_, rfl⟩
  obtain ⟨is3, h3⟩ : ∃ is3, is3 = withField is2 USER SPEAKINGSTATE
    (.string "waiting".toList) := ⟨_, rfl⟩
  have agent1 : Records is1 AGENT := h1 ▸ records_withField s.is AGENT _ _
  have user2 : Records is2 USER := by
    rw [h2, h1]
    exact records_put_other _ (by decide) (records_put_other _ (by decide) user)
  have first : s.put "Agent.speakingState" (.string "listening".toList) =
      .ok { s with is := is1 } := by
    rw [h1]
    exact put_written (write_inRecord_ok _ statePieces (by decide) rfl rfl agent)
  have second : AgentSpeech.put "Agent.speakingStateTime" (.integer (toInt time))
      { s with is := is1 } = .ok { s with is := is2 } := by
    rw [h2]
    exact put_written (write_inRecord_ok _ timePieces (by decide) rfl rfl agent1)
  have third : AgentSpeech.put "User.speakingState" (.string "waiting".toList)
      { s with is := is2 } = .ok { s with is := is3 } := by
    rw [h3]
    exact put_written (write_inRecord_ok _ userPieces (by decide) rfl rfl user2)
  have listened : s.listen time = .ok { s with is := is3 } := by
    unfold listen setSpeakingState putText
    rw [first]
    simp only [bind, Except.bind]
    rw [second]
    exact third
  have stopped : s.stopSpeaking chars time = .ok (sendQueue (sendTurnState "listening"
      { s with is := removeName is3 USERTURN, turnActionUnits := [] })) := by
    unfold stopSpeaking
    rw [listened]
    rfl
  have sent := sendTurnState_same
    { s with is := removeName is3 USERTURN, turnActionUnits := [] } "listening"
  have queued := sendQueue_same (sendTurnState "listening"
    { s with is := removeName is3 USERTURN, turnActionUnits := [] })
  have same := queued.is.trans sent.is
  have agentSame : (removeName is3 USERTURN).lookup AGENT = is2.lookup AGENT := by
    rw [lookup_removeName_other is3 (by decide), h3]
    exact lookup_put_other is2 _ (by decide)
  have userSame : (removeName is3 USERTURN).lookup USER = is3.lookup USER :=
    lookup_removeName_other is3 (by decide)
  refine ⟨_, stopped, ?_, ?_, ?_, queued.turnActionUnits.trans sent.turnActionUnits⟩
  · unfold speakingState
    rw [same, getString_lookup statePieces rfl agentSame,
      getString_field statePieces (h2 ▸ records_withField _ _ _ _) (by decide) rfl, noDollar, h2,
      fieldsOf_withField,
      lookup_put_other _ _ (by decide), h1, fieldsOf_withField, lookup_put_same]
    rfl
  · rw [same, getString_lookup userPieces rfl userSame,
      getString_field userPieces (h3 ▸ records_withField _ _ _ _) (by decide) rfl, noDollar, h3,
      fieldsOf_withField,
      lookup_put_same]
    rfl
  · rw [same]
    exact lookup_removeName_same is3 USERTURN

theorem onXml_end (speaking : Speaking s.is) {x : Text} {m : XMLMessage}
    (callback : IsCallback chars "end" x m) (time : Int) :
    s.onXml chars m time = s.when (x = s.feedbackId) (·.stopSpeaking chars time) := by
  obtain ⟨e, found, typed, identified, _⟩ := callback.event
  have read : s.speakingState chars = .ok (some "speaking".toList) :=
    speakingState_speaking speaking
  have notStart : hasType e "start" = false := by
    unfold hasType
    rw [typed]
    decide
  have isEnd : hasType e "end" = true := by
    unfold hasType
    rw [typed]
    decide
  have notStarted : s.speechStarted chars m = .ok false := by
    unfold speechStarted inDocument
    rw [found]
    simp only [Except.mapError, bind, Except.bind, read, notStart]
    rfl
  have ready : s.speechReady chars m = .ok (some x) := by
    unfold speechReady inDocument
    rw [found]
    simp only [Except.mapError, bind, Except.bind, read, isEnd, identified]
    rfl
  rw [onXml_callback callback (by decide) (by decide)]
  unfold onSpeech
  rw [if_neg (by rw [callback.noLip]; exact Bool.false_ne_true), notStarted]
  simp only [bind, Except.bind, AgentSpeech.when, Bool.false_eq_true, if_false, ready,
    Option.some.injEq]

theorem set_field_cases {value : Item D} {field : Text} {i inner : Item D}
    (done : Item.set value [field] i = (inner, none)) :
    (∃ fields, i = .record fields ∧
        inner = .record (Dialogue.put fields (dropDollar field) value)) ∨
      (∃ items items', i = .list items ∧ inner = .list items') ∨
      (inner = i ∧ ∀ fields, i ≠ .record fields) := by
  cases i with
  | record fields =>
    obtain ⟨_, x, rfl, arrived⟩ := set_record_cases done
    rcases arrived with ⟨_, rfl⟩ | ⟨more, _⟩
    · exact .inl ⟨fields, rfl, rfl⟩
    · exact absurd rfl more
  | list items =>
    obtain ⟨after, rfl⟩ := set_list done
    exact .inr (.inl ⟨items, after, rfl, rfl⟩)
  | string | integer | double | untyped =>
    cases done
    exact .inr (.inr ⟨rfl, nofun⟩)
  | noRecord | noList => cases done

theorem listIndex_speakingState (items : List (Item D)) :
    listIndex chars items SPEAKINGSTATE = -1 := by
  have digit : chars.digit 's' = none := by
    rw [chars.asciiDigit 's' (by decide)]
    rfl
  have letters : SPEAKINGSTATE = 's' :: "peakingState".toList := rfl
  have noNumber : chars.parseInt SPEAKINGSTATE = none := by
    rw [letters]
    simp [Characters.parseInt, signOf, digit]
  unfold listIndex
  dsimp only
  rw [noNumber, if_neg (by decide), if_neg (by decide)]
  rfl

theorem speaking_record {value : Item D} {is is1 is2 : InformationState D}
    (first : is.write "Agent.speakingState".toList (.string "speaking".toList) = .ok is1)
    (second : is1.write "Agent.speakingStateTime".toList value = .ok is2)
    (moved : is.getString chars "Agent.speakingState".toList ≠ .ok (some "speaking".toList))
    (now : is2.getString chars "Agent.speakingState".toList = .ok (some "speaking".toList))
    (user : Records is USER) : Speaking is2 := by
  have statePieces : segments "Agent.speakingState".toList = [AGENT, SPEAKINGSTATE] := rfl
  have timePieces : segments "Agent.speakingStateTime".toList =
      [AGENT, "speakingStateTime".toList] := rfl
  have noDollar : dropDollar AGENT = AGENT := rfl
  have step1 := write_segments first
  rw [statePieces] at step1
  obtain ⟨_, inner1, isPut1, arrived1⟩ := set_record_cases step1
  rw [noDollar] at isPut1 arrived1
  cases isPut1
  have step2 := write_segments second
  rw [timePieces] at step2
  obtain ⟨_, inner2, isPut2, arrived2⟩ := set_record_cases step2
  rw [noDollar] at isPut2 arrived2
  cases isPut2
  rw [lookup_put_same, Option.getD_some] at arrived2
  have set1 := (arrived1.resolve_left fun h => List.cons_ne_nil _ _ h.1).2
  have set2 := (arrived2.resolve_left fun h => List.cons_ne_nil _ _ h.1).2
  have user2 : Records (Dialogue.put (Dialogue.put is AGENT inner1) AGENT inner2) USER :=
    records_put_other _ (by decide) (records_put_other _ (by decide) user)
  have read (i : Item D) (state : InformationState D) (found : state.lookup AGENT = some i) :
      state.getString chars "Agent.speakingState".toList =
        (i.getValueOfPath chars [SPEAKINGSTATE]).map (·.bind Item.getString) := by
    unfold InformationState.getString InformationState.getValueOfPath
    rw [statePieces, Item.getValueOfPath, if_neg (by decide), noDollar, found]
  rw [read inner2 _ (lookup_put_same _ _ _)] at now
  have noItem (items : List (Item D)) :
      (Item.list items).getValueOfPath chars [SPEAKINGSTATE] = .ok none := by
    rw [Item.getValueOfPath, listIndex_speakingState, if_pos rfl]
  rcases set_field_cases set1 with ⟨fields, _, rfl⟩ | ⟨_, items, _, rfl⟩ | ⟨kept, noRecord⟩
  · rcases set_field_cases set2 with ⟨fields', same, rfl⟩ | ⟨_, _, other, _⟩ | ⟨_, noRecord⟩
    · cases same
      refine ⟨⟨_, lookup_put_same _ _ _, ?_⟩, user2⟩
      rw [lookup_put_other _ _ (by decide)]
      exact lookup_put_same _ _ _
    · cases other
    · exact absurd rfl (noRecord _)
  · rcases set_field_cases set2 with ⟨_, other, _⟩ | ⟨_, items', _, rfl⟩ | ⟨rfl, _⟩
    · cases other
    · rw [noItem] at now
      cases now
    · rw [noItem] at now
      cases now
  · cases found : is.lookup AGENT with
    | none =>
      rw [found] at noRecord
      exact absurd rfl (noRecord [])
    | some i =>
      rw [found, Option.getD_some] at kept noRecord
      subst kept
      rcases set_field_cases set2 with ⟨fields, other, _⟩ | ⟨_, items', _, rfl⟩ | ⟨rfl, _⟩
      · exact absurd other (noRecord fields)
      · rw [noItem] at now
        cases now
      · exact absurd ((read inner2 is found).trans now) moved

theorem putText_ok {path value : String} (done : s.putText path value = .ok t) :
    s.is.write path.toList (.string value.toList) = .ok t.is ∧ t = { s with is := t.is } :=
  put_ok done

theorem onXml_start {x : Text} {m : XMLMessage} {time : Int}
    (callback : IsCallback chars "start" x m) (done : s.onXml chars m time = .ok t)
    (moved : s.speakingState chars ≠ .ok (some "speaking".toList))
    (now : t.speakingState chars = .ok (some "speaking".toList)) (user : Records s.is USER) :
    Speaking t.is ∧ t.feedbackId = s.feedbackId := by
  obtain ⟨e, found, typed, _, _⟩ := callback.event
  have notEnd : hasType e "end" = false := by
    unfold hasType
    rw [typed]
    decide
  have notReady (u : AgentSpeech F D) {ready : Option Text}
      (read : u.speechReady chars m = .ok ready) : ready = none := by
    unfold speechReady inDocument at read
    rw [found] at read
    simp only [Except.mapError, bind, Except.bind, notEnd, Bool.false_and, Bool.false_eq_true,
      if_false] at read
    cases state : u.speakingState chars with
    | error e =>
      rw [state] at read
      cases read
    | ok known =>
      rw [state] at read
      cases known with
      | none => exact (Except.ok.inj read).symm
      | some known => exact (Except.ok.inj read).symm
  rw [onXml_callback callback (by decide) (by decide)] at done
  unfold onSpeech at done
  rw [if_neg (by rw [callback.noLip]; exact Bool.false_ne_true)] at done
  obtain ⟨started, _, done⟩ := bind_ok done
  obtain ⟨s1, speaks, done⟩ := bind_ok done
  obtain ⟨ready, read, done⟩ := bind_ok done
  rw [notReady s1 read] at done
  have same : t = s1 := by
    rcases when_cases done with ⟨some, _⟩ | ⟨_, same⟩
    · cases of_decide_eq_true some
    · exact same
  subst same
  rcases when_cases speaks with ⟨_, speaks⟩ | ⟨_, rfl⟩
  · obtain ⟨s2, set, speaks⟩ := bind_ok speaks
    obtain ⟨s3, first, second⟩ := bind_ok set
    obtain ⟨write1, same1⟩ := putText_ok first
    obtain ⟨write2, same2⟩ := put_ok second
    have sent := sendTurnState_same s2 "speaking"
    cases speaks
    have id : s2.feedbackId = s.feedbackId := by
      rw [same2, same1]
    have now2 : s2.is.getString chars "Agent.speakingState".toList =
        .ok (some "speaking".toList) := by
      rw [← sent.is]
      exact now
    have speaking := speaking_record write1 write2 moved now2 user
    refine ⟨?_, sent.feedbackId.trans id⟩
    rw [← sent.is] at speaking
    exact speaking
  · exact absurd now moved

/-- An action of a check that executes nothing, and after which the agent still speaks. -/
def Undisturbing : TemplateAction D → Prop
  | .effect change => ∀ is, Speaking is → Speaking (change is)
  | .execute _ => False
  | .prepare _ => True

theorem Undisturbing.tame {action : TemplateAction D} (quiet : Undisturbing action) :
    Tame chars env F Speaking True action := by
  cases action with
  | effect change => exact quiet
  | execute request => exact absurd quiet id
  | prepare request => trivial

def Quiet (chars : Characters) (s : AgentSpeech F D) : SpeechEvent F D → Prop
  | .act times _ => s.prevTime ≤ times.start ∧
      ∀ state stateTime, s.speakingState chars = .ok state →
        s.is.getInteger chars "Agent.speakingStateTime".toList = .ok stateTime →
        timedOut times.now state stateTime = false
  | .xml m _ => callbackEvent m = .ok none
  | .contextState _ _ _ check => ∀ action ∈ check.actions, Undisturbing action
  | _ => True

theorem onAct_goesOn {times : ActTimes} {check : TemplateCheck D}
    (quiet : Quiet chars s (.act times check)) (speaking : Speaking s.is)
    (done : s.onAct chars floats env times check = .ok t) : GoesOn Speaking True s t := by
  obtain ⟨noReset, noTimeout⟩ := quiet
  unfold onAct at done
  obtain ⟨s1, reset, done⟩ := bind_ok done
  obtain ⟨s2, summarized, done⟩ := bind_ok done
  obtain ⟨state, read, done⟩ := bind_ok done
  obtain ⟨stateTime, since, done⟩ := bind_ok done
  obtain ⟨s3, timed, done⟩ := bind_ok done
  obtain ⟨s4, checked, done⟩ := bind_ok done
  have kept : s1 = s := by
    rcases when_cases reset with ⟨earlier, _⟩ | ⟨_, same⟩
    · exact absurd (of_decide_eq_true earlier) (not_lt.mpr noReset)
    · exact same
  rw [kept] at summarized
  have summary : GoesOn Speaking True { s with prevTime := times.prevTime } s2 :=
    summarizeFeatures_goesOn (fun _ _ => stable_speaking.ofUser) summarized
  have speaking2 := summary.holds speaking
  have agent2 := summarizeFeatures_agent summarized
  have timePieces : segments "Agent.speakingStateTime".toList =
      [AGENT, "speakingStateTime".toList] := rfl
  have state2 := Except.ok.inj ((speakingState_speaking speaking2).symm.trans read)
  have notTimed : timedOut times.now state stateTime = false := by
    apply noTimeout state stateTime
    · rw [← state2]
      exact speakingState_speaking speaking
    · rw [← since]
      unfold InformationState.getInteger
      rw [getValueOfPath_lookup timePieces rfl agent2]
  have same3 : s3 = s2 := by
    rcases when_cases timed with ⟨timedOut, _⟩ | ⟨_, same⟩
    · rw [notTimed] at timedOut
      cases timedOut
    · exact same
  have same4 : s4 = s3 := by
    rcases when_cases checked with ⟨free, _⟩ | ⟨_, same⟩
    · obtain ⟨_, _, none | listening⟩ := of_decide_eq_true free
      · cases state2.trans none
      · cases state2.trans listening
    · exact same
  cases done
  rw [same4, same3]
  exact ⟨summary.holds, summary.feedbackId⟩

theorem step_goesOn {event : SpeechEvent F D} (quiet : Quiet chars s event)
    (speaking : Speaking s.is) (done : s.step chars floats env event = .ok t) :
    GoesOn Speaking True s t := by
  cases event with
  | act times check => exact onAct_goesOn quiet speaking done
  | features values =>
    cases done
    unfold onFeatures
    split <;> exact ⟨id, fun _ => rfl⟩
  | xml m time => exact onXml_goesOn quiet done
  | userState m =>
    obtain ⟨reacted, same⟩ := onTurn_ok done
    refine ⟨(UserTurn.react_ofUser reacted).speaking, fun _ => ?_⟩
    rw [same]
  | contextState info time defaultCharacter check =>
    exact onContext_goesOn stable_speaking (fun action member => (quiet action member).tame) done
  | agentState info => exact onAgentState_goesOn stable_speaking done

def UserRecord (is : InformationState D) : Prop := Records is USER

/-- An effect of a template that leaves the variables of the user in a record. -/
def KeepsUser : TemplateAction D → Prop
  | .effect change => ∀ is, UserRecord is → UserRecord (change is)
  | _ => True

def Keeps (s t : AgentSpeech F D) : Prop := UserRecord s.is → UserRecord t.is

theorem Keeps.trans {u : AgentSpeech F D} (first : Keeps s t) (second : Keeps t u) : Keeps s u :=
  fun records => second (first records)

theorem write_keeps {is after : InformationState D} {name : Text} {rest : List Text} {path : Text}
    {value : Item D} (pieces : segments path = name :: rest) (other : USER ≠ dropDollar name)
    (done : is.write path value = .ok after) : UserRecord is → UserRecord after := by
  intro records
  have step := write_segments done
  rw [pieces] at step
  obtain ⟨_, x, isPut, _⟩ := set_record_cases step
  cases isPut
  exact records_put_other x other records

theorem put_keeps {path : String} {value : Item D} {name : Text} {rest : List Text}
    (pieces : segments path.toList = name :: rest) (other : USER ≠ dropDollar name)
    (done : s.put path value = .ok t) : Keeps s t :=
  write_keeps pieces other (put_ok done).1

theorem put_user_keeps {path : String} {value : Item D} {field : Text}
    (pieces : segments path.toList = [USER, field])
    (fresh : newInRecord [field] = (.record [] : Item D)) (done : s.put path value = .ok t) :
    Keeps s t :=
  (write_user' pieces fresh (put_ok done).1).user

theorem setSpeakingState_keeps {state : String} {time : Int}
    (done : s.setSpeakingState state time = .ok t) : Keeps s t := by
  have statePieces : segments "Agent.speakingState".toList = [AGENT, SPEAKINGSTATE] := rfl
  have timePieces : segments "Agent.speakingStateTime".toList =
      [AGENT, "speakingStateTime".toList] := rfl
  unfold setSpeakingState at done
  obtain ⟨s1, first, second⟩ := bind_ok done
  exact Keeps.trans (put_keeps statePieces (by decide) first)
    (put_keeps timePieces (by decide) second)

theorem listen_keeps {time : Int} (done : s.listen time = .ok t) : Keeps s t := by
  have userPieces : segments "User.speakingState".toList = [USER, SPEAKINGSTATE] := rfl
  unfold listen at done
  obtain ⟨s1, first, second⟩ := bind_ok done
  exact (setSpeakingState_keeps first).trans (put_user_keeps userPieces rfl second)

theorem SameButSent.keeps (same : SameButSent s t) : Keeps s t :=
  fun records => same.is ▸ records

theorem startSpeaking_keeps {time : Int} (done : s.startSpeaking time = .ok t) : Keeps s t := by
  obtain ⟨s1, set, done⟩ := bind_ok done
  have sent := (sendTurnState_same s1 "speaking").keeps
  cases done
  exact (setSpeakingState_keeps set).trans sent

theorem stopSpeaking_keeps {time : Int} (done : s.stopSpeaking chars time = .ok t) :
    Keeps s t := by
  obtain ⟨s1, listened, done⟩ := bind_ok done
  obtain ⟨s2, removed, done⟩ := bind_ok done
  have turnPieces : segments "UserTurn".toList = USERTURN :: [] := rfl
  have gone : Keeps s1 s2 := (remove_userTurn chars turnPieces (remove_ok removed).1).user
  have sent := (sendTurnState_same { s2 with turnActionUnits := [] } "listening").keeps
  have queued := (sendQueue_same (sendTurnState "listening"
    { s2 with turnActionUnits := [] })).keeps
  cases done
  exact ((listen_keeps listened).trans gone).trans (sent.trans queued)

theorem onSpeech_keeps {m : XMLMessage} {time : Int} (done : s.onSpeech chars m time = .ok t) :
    Keeps s t := by
  unfold onSpeech at done
  split at done
  · cases done
    exact id
  · obtain ⟨started, _, done⟩ := bind_ok done
    obtain ⟨s1, speaks, done⟩ := bind_ok done
    obtain ⟨ready, _, done⟩ := bind_ok done
    have first : Keeps s s1 := by
      rcases when_cases speaks with ⟨_, speaks⟩ | ⟨_, rfl⟩
      · exact startSpeaking_keeps speaks
      · exact id
    rcases when_cases done with ⟨_, stops⟩ | ⟨_, rfl⟩
    · exact first.trans (stopSpeaking_keeps stops)
    · exact first

theorem onXml_keeps {m : XMLMessage} {time : Int} (done : s.onXml chars m time = .ok t) :
    Keeps s t := by
  obtain ⟨s1, spoke, done⟩ := bind_ok done
  obtain ⟨_, _, done⟩ := bind_ok done
  obtain ⟨found, _, done⟩ := bind_ok done
  have first := onSpeech_keeps spoke
  split at done
  · cases done
    exact first
  · split at done
    · cases done
    · cases done
      exact first

theorem sendSpeaking_keeps {response : Response} {time : Int}
    (done : s.sendSpeaking response time = .ok t) : Keeps s t := by
  have pieces1 : segments "Agent.speakingState".toList = [AGENT, SPEAKINGSTATE] := rfl
  have pieces2 : segments "Agent.speakingIntention".toList =
      [AGENT, "speakingIntention".toList] := rfl
  have pieces3 : segments "Agent.speakingStateTime".toList =
      [AGENT, "speakingStateTime".toList] := rfl
  have pieces4 : segments "ResponseHistory._addlast.id".toList =
      "ResponseHistory".toList :: ["_addlast".toList, "id".toList] := rfl
  have pieces5 : segments "ResponseHistory._last.response".toList =
      "ResponseHistory".toList :: ["_last".toList, "response".toList] := rfl
  unfold sendSpeaking at done
  obtain ⟨s1, state, done⟩ := bind_ok done
  obtain ⟨s2, intention, done⟩ := bind_ok done
  obtain ⟨s3, stateTime, done⟩ := bind_ok done
  obtain ⟨s4, added, last⟩ := bind_ok done
  have first := Keeps.trans (put_keeps pieces1 (by decide) state)
    (put_keeps pieces2 (by decide) intention)
  have second := first.trans (put_keeps pieces3 (by decide) stateTime)
  exact (second.trans (put_keeps pieces4 (by decide) added)).trans
    (put_keeps pieces5 (by decide) last)

theorem runExecute_keeps {request : Request} {time : Int}
    (done : s.runExecute chars env request time = .ok t) : Keeps s t := by
  obtain ⟨s1, named, done⟩ := bind_ok done
  obtain ⟨found, _, done⟩ := bind_ok done
  obtain ⟨name, _, named⟩ := bind_ok named
  cases named
  split at done
  · cases done
    exact id
  · obtain ⟨p, _, done⟩ := bind_ok done
    have spoken := sendSpeaking_keeps done
    exact spoken

theorem KeepsUser.tame {action : TemplateAction D} (keeps : KeepsUser action) :
    Tame chars env F UserRecord False action := by
  cases action with
  | effect change => exact keeps
  | execute request =>
    intro s t time done
    exact ⟨runExecute_keeps done, nofun⟩
  | prepare request => trivial

theorem onAct_keeps {times : ActTimes} {check : TemplateCheck D}
    (tame : ∀ action ∈ check.actions, KeepsUser action)
    (done : s.onAct chars floats env times check = .ok t) : Keeps s t := by
  unfold onAct at done
  obtain ⟨s1, reset, done⟩ := bind_ok done
  obtain ⟨s2, summarized, done⟩ := bind_ok done
  obtain ⟨state, _, done⟩ := bind_ok done
  obtain ⟨stateTime, _, done⟩ := bind_ok done
  obtain ⟨s3, timed, done⟩ := bind_ok done
  obtain ⟨s4, checked, done⟩ := bind_ok done
  have first : Keeps s s1 := by
    rcases when_cases reset with ⟨_, reset⟩ | ⟨_, rfl⟩
    · obtain ⟨s', listened, reset⟩ := bind_ok reset
      have sent := (sendTurnState_same s' "listening").keeps
      cases reset
      exact (listen_keeps listened).trans sent
    · exact id
  have summary : GoesOn UserRecord True { s1 with prevTime := times.prevTime } s2 :=
    summarizeFeatures_goesOn (fun _ _ => stable_user.ofUser) summarized
  have second : Keeps s2 s3 := by
    rcases when_cases timed with ⟨_, listens⟩ | ⟨_, rfl⟩
    · obtain ⟨s', listened, listens⟩ := bind_ok listens
      have sent := (sendTurnState_same s' "listening").keeps
      have queued := (sendQueue_same (s'.sendTurnState "listening")).keeps
      cases listens
      exact (listen_keeps listened).trans (sent.trans queued)
    · exact id
  have third : Keeps s3 s4 := by
    rcases when_cases checked with ⟨_, checked⟩ | ⟨_, rfl⟩
    · have ran := checkTemplates_goesOn stable_user
        (fun action member => (tame action member).tame) checked
      exact ran.holds
    · exact id
  cases done
  intro records
  exact third (second (summary.holds (first records)))

def UserKept : SpeechEvent F D → Prop
  | .act _ check => ∀ action ∈ check.actions, KeepsUser action
  | .contextState _ _ _ check => ∀ action ∈ check.actions, KeepsUser action
  | _ => True

theorem step_keeps {event : SpeechEvent F D} (kept : UserKept event)
    (done : s.step chars floats env event = .ok t) : Keeps s t := by
  cases event with
  | act times check => exact onAct_keeps kept done
  | features values =>
    cases done
    unfold onFeatures
    split <;> exact id
  | xml m time => exact onXml_keeps done
  | userState m => exact (UserTurn.react_ofUser (onTurn_ok done).1).user
  | contextState info time defaultCharacter check =>
    exact (onContext_goesOn stable_user (fun action member => (kept action member).tame) done).holds
  | agentState info =>
    have unchanged : GoesOn UserRecord True s t := onAgentState_goesOn stable_user done
    exact unchanged.holds

theorem addResponses_keeps {responses : List (Text × Response)}
    (done : s.addResponses responses = .ok t) : Keeps s t := by
  induction responses generalizing s with
  | nil =>
    cases done
    exact id
  | cons response rest ih =>
    obtain ⟨s1, written, done⟩ := bind_ok done
    have pieces : segments ("Responses.".toList ++ response.1 ++ "._addlast".toList) =
        "Responses".toList :: segments (response.1 ++ "._addlast".toList) := by
      have front : "Responses.".toList = "Responses".toList ++ ['.'] := by decide
      rw [front, List.append_assoc, List.append_assoc, List.singleton_append,
        segments_dot (by decide)]
    have first : Keeps s s1 :=
      write_keeps pieces (by decide) (UserTurn.write_ok (onTurn_ok written).1)
    exact first.trans (ih done)

theorem new_user {responseGroups : List (Text × List Response)} {time : Int}
    (done : AgentSpeech.new floats responseGroups time = .ok s) : UserRecord s.is := by
  unfold AgentSpeech.new at done
  obtain ⟨s1, present, done⟩ := bind_ok done
  obtain ⟨s2, responses, emotions⟩ := bind_ok done
  have userPieces : segments "User.present".toList = [USER, "present".toList] := rfl
  have first : UserRecord s1.is := put_user_keeps userPieces rfl present nofun
  have summarized := (onTurn_ok emotions).1
  have summary := UserTurn.summarizeEmotionEvents_ofUser summarized
  exact summary.user (addResponses_keeps responses first)

def Steps (chars : Characters) (floats : FloatNumbers F D) (env : Environment)
    (s : AgentSpeech F D) (event : SpeechEvent F D) (t : AgentSpeech F D) : Prop :=
  s.step chars floats env event = .ok t

theorem run_user {events : List (SpeechEvent F D)} (kept : ∀ event ∈ events, UserKept event)
    (user : UserRecord s.is) (run : Run (Steps chars floats env) s events t) :
    UserRecord t.is := by
  have guarded : Run (Guarded (fun _ => UserKept) (Steps chars floats env)) s events t :=
    run.guard fun event member _ => kept event member
  apply guarded.invariant (fun u => UserRecord u.is)
  · intro u event v records next
    exact step_keeps next.1 next.2 records
  · exact user

theorem quiet_run {events : List (SpeechEvent F D)} (speaking : Speaking s.is)
    (run : Run (Guarded (Quiet chars) (Steps chars floats env)) s events t) :
    Speaking t.is ∧ t.feedbackId = s.feedbackId := by
  apply run.invariant (fun u => Speaking u.is ∧ u.feedbackId = s.feedbackId)
  · rintro u event v ⟨speaks, id⟩ ⟨quiet, next⟩
    have goesOn := step_goesOn quiet speaks next
    exact ⟨goesOn.holds speaks, (goesOn.feedbackId trivial).trans id⟩
  · exact ⟨speaking, rfl⟩

/-- After a start the end with the same id ends the turn, whatever happens between the two that is
no timeout, no reset of the clock, no execution and no other callback. -/
def Paired (chars : Characters) (floats : FloatNumbers F D) (env : Environment)
    (s : AgentSpeech F D) (x : Text) : Prop :=
  ∀ between t, Run (Guarded (Quiet chars) (Steps chars floats env)) s between t →
    ∀ finish time, IsCallback chars "end" x finish →
      ∃ u, Steps chars floats env t (.xml finish time) u ∧ TurnEnded chars u

end AgentSpeech

def callbackMessage (type : String) (id : Text) : XMLMessage where
  text := []
  datatype := "EVENT".toList
  document :=
    { localName := "callback".toList
      namespaceURI := some semaineMLNamespace
      children := [.element
        { localName := "event".toList
          namespaceURI := some semaineMLNamespace
          attributes := ((AList.insert "time".toList ['0'] ∅).insert "id".toList id).insert
            "type".toList type.toList } []] }

theorem isCallback_message (chars : Characters) (type : String) (id : Text) :
    AgentSpeech.IsCallback chars type id (callbackMessage type id) where
  noLip := rfl
  plain := by
    have other : "EVENT".toList ≠ "FML".toList := by decide
    exact other
  event := by
    have zero : chars.digit '0' = some 0 := chars.asciiDigit '0' (by decide)
    refine ⟨_, rfl, AList.lookup_insert _, ?_, ?_⟩
    · exact (AList.lookup_insert_ne (by decide)).trans (AList.lookup_insert _)
    · have time : (chars.parseLong ['0']).isSome = true := by
        simp [Characters.parseLong, signOf, zero]
      exact time

open AgentSpeech in
/-- A start is paired with the end of the same id if and only if that is the feedback id. -/
theorem speech_paired_iff {responseGroups : List (Text × List Response)} {created : Int}
    {init s s' : AgentSpeech F D} (made : AgentSpeech.new floats responseGroups created = .ok init)
    {before : List (SpeechEvent F D)} (kept : ∀ event ∈ before, UserKept event)
    (run : Run (Steps chars floats env) init before s) {x : Text} {start : XMLMessage} {time : Int}
    (carries : IsCallback chars "start" x start)
    (started : Steps chars floats env s (.xml start time) s')
    (moved : s.speakingState chars ≠ .ok (some "speaking".toList))
    (now : s'.speakingState chars = .ok (some "speaking".toList)) :
    Paired chars floats env s' x ↔ x = s.feedbackId := by
  have user := run_user kept (new_user made) run
  obtain ⟨speaking, id⟩ := onXml_start carries started moved now user
  constructor
  · intro paired
    by_contra foreign
    obtain ⟨u, ended, turn⟩ := paired [] s' .nil (callbackMessage "end" x) time
      (isCallback_message chars "end" x)
    have refused : s'.onXml chars (callbackMessage "end" x) time = .ok s' := by
      rw [onXml_end speaking (isCallback_message chars "end" x), id]
      unfold AgentSpeech.when
      rw [if_neg (by simpa using foreign)]
    have same : u = s' := Except.ok.inj (ended.symm.trans refused)
    rw [same] at turn
    cases turn.agent.symm.trans now
  · rintro rfl between t quiet finish time' callback
    obtain ⟨speaks, id'⟩ := quiet_run speaking quiet
    obtain ⟨fields, agent, _⟩ := speaks.agent
    have records : Records t.is AGENT := by
      intro i found
      cases agent.symm.trans found
      exact ⟨fields, rfl⟩
    obtain ⟨u, stops, ended⟩ := stopSpeaking_ended records speaks.user time'
    refine ⟨u, ?_, ended⟩
    have accepted : decide (s.feedbackId = t.feedbackId) = true :=
      decide_eq_true (id.symm.trans id'.symm)
    change t.onXml chars finish time' = .ok u
    rw [onXml_end speaks callback]
    unfold AgentSpeech.when
    rw [accepted, if_pos rfl]
    exact stops

end

def noResponses : Environment where
  dom := { isXMLName := isAsciiName, asciiName := fun _ h => h }
  compile := fun _ => .error .patternSyntax
  table := { responses := ∅, responseGroups := ∅ }
  voiceLocale := fun _ => none

theorem started_run (x : Text) : ∃ init s s' : AgentSpeech Number Rat,
    AgentSpeech.new noFloats [] 1 = .ok init ∧
    AgentSpeech.Steps ascii noFloats noResponses init (.act ⟨0, 0, 0⟩ ⟨[], false⟩) s ∧
    s.feedbackId = [] ∧ s.speakingState ascii = .ok (some "listening".toList) ∧
    AgentSpeech.Steps ascii noFloats noResponses s (.xml (callbackMessage "start" x) 0) s' ∧
    s'.speakingState ascii = .ok (some "speaking".toList) :=
  ⟨_, _, _, rfl, rfl, rfl, rfl, rfl, rfl⟩

open AgentSpeech in
theorem speech_paired_own : ∃ s' : AgentSpeech Number Rat,
    s'.speakingState ascii = .ok (some "speaking".toList) ∧
      Paired ascii noFloats noResponses s' [] := by
  obtain ⟨init, s, s', made, reset, id, listening, started, now⟩ := started_run []
  have run : Run (Steps ascii noFloats noResponses) init [.act ⟨0, 0, 0⟩ ⟨[], false⟩] s :=
    .snoc .nil reset
  have kept : ∀ event ∈ [SpeechEvent.act (F := Number) ⟨0, 0, 0⟩ ⟨[], false⟩],
      UserKept (D := Rat) event := by
    intro event member
    rw [List.mem_singleton.mp member]
    exact nofun
  have moved : s.speakingState ascii ≠ .ok (some "speaking".toList) := by
    rw [listening]
    intro same
    cases same
  exact ⟨s', now, (speech_paired_iff made kept run (isCallback_message ascii "start" []) started
    moved now).mpr id.symm⟩

open AgentSpeech in
/-- A start with another id makes the agent speak, and the end with that id does not bring it
back. -/
theorem speech_paired_foreign : ∃ init s s' u : AgentSpeech Number Rat,
    AgentSpeech.new noFloats [] 1 = .ok init ∧
    Steps ascii noFloats noResponses init (.act ⟨0, 0, 0⟩ ⟨[], false⟩) s ∧
    s.speakingState ascii = .ok (some "listening".toList) ∧
    Steps ascii noFloats noResponses s (.xml (callbackMessage "start" "other".toList) 0) s' ∧
    s'.speakingState ascii = .ok (some "speaking".toList) ∧
    IsCallback ascii "end" "other".toList (callbackMessage "end" "other".toList) ∧
    Steps ascii noFloats noResponses s' (.xml (callbackMessage "end" "other".toList) 0) u ∧
    u.speakingState ascii = .ok (some "speaking".toList) := by
  obtain ⟨init, s, s', made, reset, id, listening, started, now⟩ := started_run "other".toList
  have callback := isCallback_message ascii "end" "other".toList
  have moved : s.speakingState ascii ≠ .ok (some "speaking".toList) := by
    rw [listening]
    intro same
    cases same
  have run : Run (Steps ascii noFloats noResponses) init [.act ⟨0, 0, 0⟩ ⟨[], false⟩] s :=
    .snoc .nil reset
  have user : UserRecord s.is := by
    apply run_user _ (new_user made) run
    intro event member
    rw [List.mem_singleton.mp member]
    exact nofun
  obtain ⟨speaking, same⟩ := onXml_start (isCallback_message ascii "start" "other".toList) started
    moved now user
  refine ⟨init, s, s', s', made, reset, listening, started, now, callback, ?_, now⟩
  change s'.onXml ascii _ 0 = .ok s'
  rw [onXml_end speaking callback, same, id]
  rfl

end Semaine.Dialogue
