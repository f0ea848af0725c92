import Semaine.Dialogue.LocalFailures
import Semaine.Dialogue.TemplateParser
import Semaine.Library.Outcome

/-! Which effects and behaviours that the template parser accepts raise an exception that the
template controller does not catch. -/
namespace Semaine.Dialogue
open JavaText JavaFloat Outcome

section
variable {D : Type} (chars : Characters) (ops : Arithmetic D) (classes : Classes D)

/-- A path along which nothing ends in an exception: a record is not asked for an empty name at
its end, and a list that is asked for its first or last item has one. -/
def Item.Settable : List Text → Item D → Prop
  | [], _ => True
  | position :: rest, i =>
    match i with
    | .record fields =>
      ¬ (position = [] ∧ rest = []) ∧
        (rest ≠ [] → ((fields.lookup (dropDollar position)).getD (newInRecord rest)).Settable rest)
    | .list items =>
      if toLowerCase position = FIRST then ∃ first, items.head? = some first ∧ first.Settable rest
      else if toLowerCase position = LAST then
        ∃ last, items.getLast? = some last ∧ last.Settable rest
      else if toLowerCase position = ADDFIRST ∨ toLowerCase position = ADDLAST then
        rest ≠ [] → (newInList rest).Settable rest
      else True
    | .noRecord => False
    | .noList => False
    | _ => True

theorem set_settable (value : Item D) (path : List Text) (i : Item D) :
    (Item.set value path i).2 ≠ some .runtime ↔ i.Settable path := by
  induction path generalizing i with
  | nil => exact ⟨fun _ => trivial, fun _ => nofun⟩
  | cons position rest ih =>
    unfold Item.set Item.Settable
    cases i with
    | record fields =>
      dsimp only
      split
      · rename_i missing
        simp [missing]
      · rename_i given
        cases rest with
        | nil => simpa using given
        | cons next others =>
          rw [and_iff_right given, forall_prop_of_true (List.cons_ne_nil next others)]
          dsimp only
          cases found : fields.lookup (dropDollar position) with
          | some old => exact ih old
          | none =>
            have fresh := ih (newInRecord (next :: others))
            dsimp only [Option.getD_none]
            cases step : Item.set value (next :: others) (newInRecord (next :: others)) with
            | mk changed failure =>
              rw [step] at fresh
              cases failure <;> exact fresh
    | list items =>
      dsimp only
      split
      · cases items with
        | nil => simp
        | cons first others => simpa using ih first
      · split
        · cases items.getLast? with
          | none => simp
          | some last => simpa using ih last
        · split
          · rename_i addFirst
            rw [if_pos (Or.inl addFirst)]
            cases rest with
            | nil => simp
            | cons next others => simpa using ih (newInList (next :: others))
          · rename_i notFirst
            split
            · rename_i addLast
              rw [if_pos (Or.inr addLast)]
              cases rest with
              | nil => simp
              | cons next others => simpa using ih (newInList (next :: others))
            · rename_i notLast
              rw [if_neg (not_or.mpr ⟨notFirst, notLast⟩)]
              simp
    | noRecord | noList => simp
    | _ => simp

def RemovesAt (items : List (Item D)) (index : Int) : Prop :=
  ∃ i, getIndex items index = .ok i ∧ i.getType ≠ some .list ∧ i.getType ≠ some .record

/-- What a list is asked to remove: with an empty list nothing can be added first, and a longer
path is always cut off wrongly. -/
def ListRemoves (items : List (Item D)) : List Text → Prop
  | [position] =>
    if toLowerCase position = ADDFIRST ∨ toLowerCase position = ADDLAST then
      ∃ first, items.head? = some first ∧ first.getType ≠ some .list ∧
        first.getType ≠ some .record
    else RemovesAt items (listIndex chars items position)
  | _ => False

def RecordRemoves : List Text → InformationState D → Prop
  | [], _ => False
  | [name], _ => name ≠ []
  | name :: next :: rest, fields =>
    match fields.lookup (dropDollar name) with
    | some (.list items) => ListRemoves chars items (next :: rest)
    | some (.record inner) => RecordRemoves (next :: rest) inner
    | some .noList => False
    | some .noRecord => False
    | _ => True

theorem removeIndex_removes (items : List (Item D)) (index : Int) :
    (removeIndex items index).2 ≠ some .runtime ↔ RemovesAt items index := by
  unfold removeIndex RemovesAt
  cases found : getIndex items index with
  | error e =>
    rw [getIndex_runtime found]
    simp
  | ok i => cases i <;> simp [Item.getType]

theorem removesAt_added {items : List (Item D)} {index : Nat} {first : Item D}
    (found : items[index]? = some (sameType first)) :
    RemovesAt items index ↔ first.getType ≠ some .list ∧ first.getType ≠ some .record := by
  have there : getIndex items index = .ok (sameType first) :=
    getIndex_ok.mpr ⟨by omega, by rw [Int.toNat_natCast]; exact found⟩
  unfold RemovesAt
  rw [there]
  cases first <;> simp [sameType, Item.getType]

theorem removeFromPosition_removes (items : List (Item D)) (position : Text) :
    (removeFromList chars items [position]).2 ≠ some .runtime ↔
      ListRemoves chars items [position] := by
  unfold removeFromList ListRemoves
  cases items with
  | nil =>
    dsimp only
    split
    · simp
    · exact removeIndex_removes _ _
  | cons first others =>
    dsimp only
    split
    · rename_i addFirst
      rw [if_pos (Or.inl addFirst), removeIndex_removes]
      have there : (sameType first :: first :: others)[0]? = some (sameType first) := rfl
      simpa using removesAt_added there
    · rename_i notFirst
      split
      · rename_i addLast
        have there : (first :: others ++ [sameType first])[(first :: others).length]? =
            some (sameType first) := List.getElem?_concat_length
        rw [if_pos (Or.inr addLast), removeIndex_removes]
        simpa using removesAt_added there
      · rename_i notLast
        rw [if_neg (not_or.mpr ⟨notFirst, notLast⟩)]
        exact removeIndex_removes _ _

theorem removeFromList_removes (items : List (Item D)) (path : List Text) :
    (removeFromList chars items path).2 ≠ some .runtime ↔ ListRemoves chars items path := by
  cases path with
  | nil => simp [removeFromList, ListRemoves]
  | cons position rest =>
    cases rest with
    | nil => exact removeFromPosition_removes chars items position
    | cons next others => simp [removeFromList, ListRemoves]

theorem removeFromRecord_removes (path : List Text) (fields : InformationState D) :
    (removeFromRecord chars path fields).2 ≠ some .runtime ↔ RecordRemoves chars path fields := by
  induction path generalizing fields with
  | nil => simp [removeFromRecord, RecordRemoves]
  | cons name rest ih =>
    cases rest with
    | nil =>
      unfold removeFromRecord RecordRemoves
      split <;> simp_all
    | cons next others =>
      unfold removeFromRecord RecordRemoves
      cases fields.lookup (dropDollar name) with
      | none => simp
      | some i =>
        cases i with
        | list items => simpa using removeFromList_removes chars items (next :: others)
        | record inner => simpa using ih inner
        | _ => simp

def typePath (name : Text) : Text :=
  let path := replaceAll ADDFIRST FIRST name.length name
  replaceAll ADDLAST LAST path.length path

def Assigns (type : Option ItemType) (value : Value D) : Prop :=
  match type with
  | none => value.isAtomic = true
  | some type => type ≠ .record ∧ type ≠ .list ∧ (value.getType = some type ∨
      (type = .integer ∧ value.getType = some .double) ∨
      (type = .double ∧ value.getType = some .integer))

def Update.Endures (is : InformationState D) (u : Update D) : Prop :=
  match u.abstractValue with
  | none => RecordRemoves chars (segments u.name) is
  | some abstractValue =>
    abstractValue.Calculates chars is ∧
      ∀ value, abstractValue.getValue chars ops is = .ok (some value) →
        (Item.record is).Indexed chars (segments (typePath u.name)) ∧
          ∀ type, is.getTypeOfPath chars u.name = .ok type → Assigns type value →
            (Item.record is).Settable (segments u.name)

theorem set_endures (is : InformationState D) (path : Text) (value : Item D) :
    (is.set path value).2 ≠ some .runtime ↔ (Item.record is).Settable (segments path) :=
  set_settable value (segments path) (.record is)

theorem remove_endures (is : InformationState D) (path : Text) :
    (is.remove chars path).2 ≠ some .runtime ↔ RecordRemoves chars (segments path) is :=
  removeFromRecord_removes chars (segments path) is

theorem getTypeOfPath_indexed (is : InformationState D) (name : Text) :
    (∃ type, is.getTypeOfPath chars name = .ok type) ↔
      (Item.record is).Indexed chars (segments (typePath name)) := by
  rw [← getValueOfPath_ok]
  unfold InformationState.getTypeOfPath InformationState.getValueOfPath typePath
  dsimp only
  cases Item.getValueOfPath chars _ (Item.record is) with
  | ok value => exact ⟨fun _ => ⟨_, rfl⟩, fun _ => ⟨_, rfl⟩⟩
  | error e => exact ⟨nofun, nofun⟩

theorem getTypeOfPath_runtime {is : InformationState D} {name : Text} {e : Failure}
    (h : is.getTypeOfPath chars name = .error e) : e = .runtime := by
  unfold InformationState.getTypeOfPath InformationState.getValueOfPath at h
  dsimp only at h
  cases read : Item.getValueOfPath chars
      (segments (replaceAll ADDLAST LAST (replaceAll ADDFIRST FIRST name.length name).length
        (replaceAll ADDFIRST FIRST name.length name))) (Item.record is) with
  | ok value =>
    rw [read] at h
    cases h
  | error e' =>
    rw [read] at h
    cases h
    exact getValueOfPath_runtime chars read

theorem assign_endures (u : Update D) (value : Value D) (is : InformationState D) :
    (u.assign chars value is).2 ≠ some .runtime ↔
      (Item.record is).Indexed chars (segments (typePath u.name)) ∧
        ∀ type, is.getTypeOfPath chars u.name = .ok type → Assigns type value →
          (Item.record is).Settable (segments u.name) := by
  rw [← getTypeOfPath_indexed, ← set_endures is u.name value]
  unfold Update.assign
  cases read : is.getTypeOfPath chars u.name with
  | error e =>
    rw [getTypeOfPath_runtime chars read]
    simp
  | ok type =>
    simp only [Except.ok.injEq, exists_eq', true_and, forall_eq']
    unfold Assigns
    cases type with
    | none => cases value <;> simp [Item.getType, Item.isAtomic]
    | some type =>
      dsimp only
      split
      · rename_i fits
        cases type with
        | record | list => simp
        | _ => exact ⟨fun h _ => h, fun h => h ⟨by decide, by decide, fits⟩⟩
      · rename_i differs
        simp [differs]

theorem update_endures (u : Update D) (is : InformationState D) :
    (u.apply chars ops is).2 ≠ some .runtime ↔ u.Endures chars ops is := by
  unfold Update.apply Update.Endures
  cases u.abstractValue with
  | none => exact remove_endures chars is u.name
  | some abstractValue =>
    dsimp only
    cases read : abstractValue.getValue chars ops is with
    | error e =>
      cases e with
      | runtime => simp [(getValue_runtime chars ops abstractValue is).mp read]
      | templateRun => simp [calculates_of_read chars ops read nofun]
    | ok value =>
      rw [and_iff_right (calculates_of_read chars ops read nofun)]
      cases value with
      | none => simp
      | some value =>
        simp only [Except.ok.injEq, Option.some.injEq, forall_eq']
        exact assign_endures chars u value is

/-- The values of the arguments can be calculated one after the other, up to the first that ends
in a TemplateRunException. -/
def AllCalculate (is : InformationState D) : List (AbstractValue D) → Prop
  | [] => True
  | v :: rest =>
    v.Calculates chars is ∧ ∀ value, v.getValue chars ops is = .ok value → AllCalculate is rest

/-- A function that is not there does nothing; of one that is, every argument can be calculated,
and if all of them have been, none is missing. -/
def Function.Endures (is : InformationState D) (f : Function D) : Prop :=
  (classes.methods.find? (·.name = f.name)).isSome = true →
    AllCalculate chars ops is f.arguments ∧
      ∀ values, f.arguments.mapM (·.getValue chars ops is) = .ok values → none ∉ values

theorem mapM_getValue_runtime (is : InformationState D) (arguments : List (AbstractValue D)) :
    arguments.mapM (·.getValue chars ops is) ≠ .error .runtime ↔
      AllCalculate chars ops is arguments := by
  induction arguments with
  | nil => exact ⟨fun _ => trivial, fun _ => nofun⟩
  | cons v rest ih =>
    unfold AllCalculate
    rw [List.mapM_cons]
    cases read : v.getValue chars ops is with
    | error e =>
      cases e with
      | runtime => simp [bind, Except.bind, (getValue_runtime chars ops v is).mp read]
      | templateRun => simp [bind, Except.bind, calculates_of_read chars ops read nofun]
    | ok value =>
      rw [and_iff_right (calculates_of_read chars ops read nofun)]
      simp only [Except.ok.injEq, forall_eq', ← ih]
      cases rest.mapM (·.getValue chars ops is) <;> simp [bind, Except.bind, pure, Except.pure]

theorem texts_runtime (values : List (Option (Value D))) :
    values.mapM (textOf classes) = .error .runtime ↔ none ∈ values := by
  induction values with
  | nil => exact ⟨nofun, nofun⟩
  | cons value rest ih =>
    rw [List.mapM_cons, List.mem_cons, ← ih]
    cases value with
    | none => simp [bind, Except.bind, textOf]
    | some value =>
      cases rest.mapM (textOf classes) <;>
        simp [bind, Except.bind, pure, Except.pure, textOf]

theorem args_runtime (is : InformationState D) (f : Function D) :
    f.args chars ops classes is ≠ .error .runtime ↔
      AllCalculate chars ops is f.arguments ∧
        ∀ values, f.arguments.mapM (·.getValue chars ops is) = .ok values → none ∉ values := by
  rw [← mapM_getValue_runtime]
  unfold Function.args
  cases f.arguments.mapM (·.getValue chars ops is) with
  | error e => simp [bind, Except.bind]
  | ok values =>
    simp only [bind, Except.bind, Ne, texts_runtime, Except.ok.injEq, forall_eq', reduceCtorEq,
      not_false_eq_true, true_and]

theorem function_endures (f : Function D) (is : InformationState D) :
    (f.apply chars ops classes is).2 ≠ some .runtime ↔ f.Endures chars ops classes is := by
  unfold Function.apply Function.Endures
  cases classes.methods.find? (·.name = f.name) with
  | none => simp
  | some method =>
    rw [← args_runtime, forall_prop_of_true Option.isSome_some]
    dsimp only
    cases f.args chars ops classes is with
    | error e => simp
    | ok args =>
      dsimp only
      split <;> simp

/-- Every argument can be calculated and is not missing, up to the first that ends in a
TemplateRunException. -/
def AllPresent (is : InformationState D) : List (AbstractValue D) → Prop
  | [] => True
  | v :: rest =>
    v.Calculates chars is ∧
      ∀ value, v.getValue chars ops is = .ok value → value ≠ none ∧ AllPresent is rest

/-- If all arguments have a text, there is a class of the given name, and what it does with them
raises no exception. -/
def BehaviourCall.Endures (b : BehaviourCall D)
    (call : BehaviourClass (InformationState D) → List Text → List Text →
      InformationState D → InformationState D × Bool) (is : InformationState D) : Prop :=
  AllPresent chars ops is b.argValues ∧
    ∀ values, b.values chars ops classes is = .ok values →
      ∃ behaviour, classes.getBehaviourClass b.behaviourClassName = some behaviour ∧
        (call behaviour b.argNames values is).2 = false

theorem values_runtime (is : InformationState D) (argValues : List (AbstractValue D)) :
    argValues.mapM (fun av => (av.getValue chars ops is).bind (textOf classes)) ≠
      .error .runtime ↔ AllPresent chars ops is argValues := by
  induction argValues with
  | nil => exact ⟨fun _ => trivial, fun _ => nofun⟩
  | cons v rest ih =>
    unfold AllPresent
    rw [List.mapM_cons]
    cases read : v.getValue chars ops is with
    | error e =>
      cases e with
      | runtime => simp [bind, Except.bind, (getValue_runtime chars ops v is).mp read]
      | templateRun => simp [bind, Except.bind, calculates_of_read chars ops read nofun]
    | ok value =>
      rw [and_iff_right (calculates_of_read chars ops read nofun)]
      simp only [Except.ok.injEq, forall_eq', ← ih]
      cases value with
      | none => simp [bind, Except.bind, textOf]
      | some value =>
        cases rest.mapM (fun av => (av.getValue chars ops is).bind (textOf classes)) <;>
          simp [bind, Except.bind, pure, Except.pure, textOf]

theorem behaviour_endures (b : BehaviourCall D)
    (call : BehaviourClass (InformationState D) → List Text → List Text →
      InformationState D → InformationState D × Bool) (is : InformationState D) :
    (b.run chars ops classes call is).2 ≠ some .runtime ↔ b.Endures chars ops classes call is := by
  unfold BehaviourCall.run BehaviourCall.Endures
  rw [← values_runtime chars ops classes]
  unfold BehaviourCall.values
  cases b.argValues.mapM (fun av => (av.getValue chars ops is).bind (textOf classes)) with
  | error e => simp
  | ok values =>
    simp only [Ne, reduceCtorEq, not_false_eq_true, true_and, Except.ok.injEq, forall_eq']
    cases classes.getBehaviourClass b.behaviourClassName with
    | none => simp
    | some behaviour =>
      simp only [Option.some.injEq, exists_eq_left']
      split <;> simp_all

inductive Effect.Written : Effect (InformationState D) → Prop where
  | update (u : Update D) : Written ⟨u.apply chars ops⟩
  | function (f : Function D) : Written ⟨f.apply chars ops classes⟩

def Behaviour.Written (b : Behaviour (InformationState D) D) : Prop :=
  ∃ call : BehaviourCall D, b = call.behaviour chars ops classes

def Precondition.Written (p : Precondition (InformationState D)) : Prop :=
  ∃ condition : Condition D, p = condition.precondition chars ops

def Choice.Written (choice : Choice (InformationState D) D) : Prop :=
  (∀ e ∈ choice.effects, e.Written chars ops classes) ∧
    ∀ b, choice.behaviour = some b → b.Written chars ops classes

structure Template.Written (t : Template (InformationState D) D) : Prop where
  preconditions : ∀ p ∈ t.preconditions, p.Written chars ops
  effects : ∀ e ∈ t.effects, e.Written chars ops classes
  behaviour : ∀ b, t.behaviour = some b → b.Written chars ops classes
  optional : ∀ block ∈ t.optional, ∀ choice ∈ block, choice.Written chars ops classes

theorem parseUpdate_written {element : NameValueElement} {e : Effect (InformationState D)}
    (parsed : parseUpdate chars ops element = .ok e) : e.Written chars ops classes := by
  unfold parseUpdate at parsed
  split at parsed
  · cases parsed
  · split at parsed
    · cases parsed
      exact .update _
    · cases parsed

theorem parseFunction_written {element : FunctionElement} {e : Effect (InformationState D)}
    (parsed : parseFunction chars ops classes element = .ok e) :
    e.Written chars ops classes := by
  unfold parseFunction at parsed
  dsimp only at parsed
  split at parsed
  · obtain ⟨_, missing, _⟩ := bind_ok parsed
    cases missing
  · obtain ⟨arguments, _, parsed⟩ := bind_ok parsed
    cases parsed
    exact .function _

theorem parseBehaviour_written {element : BehaviourElement}
    {b : Behaviour (InformationState D) D}
    (parsed : parseBehaviour chars ops classes element = .ok b) :
    b.Written chars ops classes := by
  unfold parseBehaviour at parsed
  split at parsed
  · cases parsed
  · obtain ⟨quality, _, parsed⟩ := bind_ok parsed
    obtain ⟨argValues, _, parsed⟩ := bind_ok parsed
    cases parsed
    exact ⟨_, rfl⟩

theorem parseEffects_written {block : Option EffectsElement}
    {effects : List (Effect (InformationState D))}
    (parsed : parseEffects chars ops classes block = .ok effects) :
    ∀ e ∈ effects, e.Written chars ops classes := by
  unfold parseEffects at parsed
  split at parsed
  · cases parsed
    exact nofun
  · obtain ⟨updates, first, parsed⟩ := bind_ok parsed
    obtain ⟨removes, second, parsed⟩ := bind_ok parsed
    obtain ⟨functions, third, parsed⟩ := bind_ok parsed
    cases parsed
    simp only [List.forall_mem_append]
    refine ⟨⟨?_, ?_⟩, ?_⟩
    · exact mapM_all first fun _ _ => parseUpdate_written chars ops classes
    · exact mapM_all second fun _ _ => parseUpdate_written chars ops classes
    · exact mapM_all third fun _ _ => parseFunction_written chars ops classes

theorem parseChoice_written {id : Text} {element : ChoiceElement}
    {choice : Choice (InformationState D) D}
    (parsed : parseChoice chars ops classes id element = .ok choice) :
    choice.Written chars ops classes := by
  unfold parseChoice at parsed
  split at parsed
  · cases parsed
  · obtain ⟨chance, _, parsed⟩ := bind_ok parsed
    obtain ⟨block, _, parsed⟩ := bind_ok parsed
    obtain ⟨effects, written, parsed⟩ := bind_ok parsed
    obtain ⟨only, _, parsed⟩ := bind_ok parsed
    cases only with
    | none => cases parsed
    | some element =>
      obtain ⟨behaviour, called, parsed⟩ := bind_ok parsed
      cases parsed
      refine ⟨parseEffects_written chars ops classes written, ?_⟩
      rintro b ⟨⟩
      exact parseBehaviour_written chars ops classes called

theorem parseOptional_written {id : Text} {blocks : List (List ChoiceElement)}
    {optional : List (List (Choice (InformationState D) D))}
    (parsed : blocks.mapM (·.mapM (parseChoice chars ops classes id)) = .ok optional) :
    ∀ block ∈ optional, ∀ choice ∈ block, choice.Written chars ops classes := by
  refine mapM_all parsed fun _ block read => ?_
  exact mapM_all read fun _ _ => parseChoice_written chars ops classes

theorem preconditions_written (compares triggers : List (Compare D))
    (indicators : List (Indicator D)) :
    ∀ p ∈ compares.map (comparePrecondition chars ops) ++
        indicators.map (indicatorPrecondition chars ops) ++
        triggers.map (comparePrecondition chars ops), p.Written chars ops := by
  simp only [List.forall_mem_append, List.forall_mem_map]
  exact ⟨⟨fun c _ => ⟨.compare c, rfl⟩, fun i _ => ⟨.indicator i, rfl⟩⟩,
    fun c _ => ⟨.compare c, rfl⟩⟩

theorem parseTemplateElement_written {element : TemplateElement}
    {t : Template (InformationState D) D}
    (parsed : parseTemplateElement chars ops classes element = .ok t) :
    t.Written chars ops classes := by
  unfold parseTemplateElement at parsed
  split at parsed
  · cases parsed
  · obtain ⟨preconditions, _, parsed⟩ := bind_ok parsed
    cases preconditions with
    | none => cases parsed
    | some block =>
      obtain ⟨compares, _, parsed⟩ := bind_ok parsed
      obtain ⟨indicators, _, parsed⟩ := bind_ok parsed
      obtain ⟨triggers, _, parsed⟩ := bind_ok parsed
      obtain ⟨effectsBlock, _, parsed⟩ := bind_ok parsed
      obtain ⟨effects, written, parsed⟩ := bind_ok parsed
      obtain ⟨behaviourBlock, _, parsed⟩ := bind_ok parsed
      have effectsWritten := parseEffects_written chars ops classes written
      have preconditionsWritten := preconditions_written chars ops compares triggers indicators
      cases behaviourBlock with
      | none =>
        obtain ⟨behaviour, absent, parsed⟩ := bind_ok parsed
        cases absent
        obtain ⟨optional, chosen, parsed⟩ := bind_ok parsed
        cases parsed
        exact ⟨preconditionsWritten, effectsWritten, nofun,
          parseOptional_written chars ops classes chosen⟩
      | some element =>
        obtain ⟨behaviour, called, parsed⟩ := bind_ok parsed
        obtain ⟨b, read, same⟩ := map_ok called
        cases same
        obtain ⟨optional, chosen, parsed⟩ := bind_ok parsed
        cases parsed
        refine ⟨preconditionsWritten, effectsWritten, ?_,
          parseOptional_written chars ops classes chosen⟩
        rintro b ⟨⟩
        exact parseBehaviour_written chars ops classes read

inductive Effect.Endures (is : InformationState D) : Effect (InformationState D) → Prop where
  | update {u : Update D} (endures : u.Endures chars ops is) : Endures is ⟨u.apply chars ops⟩
  | function {f : Function D} (endures : f.Endures chars ops classes is) :
      Endures is ⟨f.apply chars ops classes⟩

def Behaviour.ExecuteEndures (is : InformationState D)
    (b : Behaviour (InformationState D) D) : Prop :=
  ∃ call : BehaviourCall D, b = call.behaviour chars ops classes ∧
    call.Endures chars ops classes BehaviourClass.execute is

def Behaviour.PrepareEndures (is : InformationState D)
    (b : Behaviour (InformationState D) D) : Prop :=
  ∃ call : BehaviourCall D, b = call.behaviour chars ops classes ∧
    call.Endures chars ops classes BehaviourClass.prepare is

def Precondition.Decided (is : InformationState D) (p : Precondition (InformationState D)) :
    Prop :=
  ∃ condition : Condition D, p = condition.precondition chars ops ∧
    condition.Decided chars ops is

theorem effect_endures {e : Effect (InformationState D)} (written : e.Written chars ops classes)
    (is : InformationState D) :
    (e.apply is).2 ≠ some .runtime ↔ e.Endures chars ops classes is := by
  constructor
  · intro caught
    cases written with
    | update u => exact .update ((update_endures chars ops u is).mp caught)
    | function f => exact .function ((function_endures chars ops classes f is).mp caught)
  · intro endures
    cases endures with
    | update endures => exact (update_endures chars ops _ is).mpr endures
    | function endures => exact (function_endures chars ops classes _ is).mpr endures

theorem execute_endures {b : Behaviour (InformationState D) D}
    (written : b.Written chars ops classes) (is : InformationState D) :
    (b.execute is).2 ≠ some .runtime ↔ b.ExecuteEndures chars ops classes is := by
  constructor
  · intro caught
    obtain ⟨call, rfl⟩ := written
    exact ⟨call, rfl, (behaviour_endures chars ops classes call _ is).mp caught⟩
  · rintro ⟨call, rfl, endures⟩
    exact (behaviour_endures chars ops classes call _ is).mpr endures

theorem prepare_endures {b : Behaviour (InformationState D) D}
    (written : b.Written chars ops classes) (is : InformationState D) :
    (b.prepare is).2 ≠ some .runtime ↔ b.PrepareEndures chars ops classes is := by
  constructor
  · intro caught
    obtain ⟨call, rfl⟩ := written
    exact ⟨call, rfl, (behaviour_endures chars ops classes call _ is).mp caught⟩
  · rintro ⟨call, rfl, endures⟩
    exact (behaviour_endures chars ops classes call _ is).mpr endures

theorem condition_decided (p : Condition D) (is : InformationState D) :
    (p.precondition chars ops).isValid is ≠ none ↔ p.Decided chars ops is := by
  have decided : (∃ b, p.isValid chars ops is = .ok b) ↔ p.Decided chars ops is := by
    cases p with
    | compare c => exact compare_verdict chars ops is c
    | indicator i => exact indicator_verdict chars ops is i
  rw [← decided]
  unfold Condition.precondition
  dsimp only
  cases p.isValid chars ops is with
  | ok b => simp [Except.toOption]
  | error e => simp [Except.toOption]

theorem precondition_decided {p : Precondition (InformationState D)}
    (written : p.Written chars ops) (is : InformationState D) :
    p.isValid is ≠ none ↔ p.Decided chars ops is := by
  constructor
  · intro valid
    obtain ⟨condition, rfl⟩ := written
    exact ⟨condition, rfl, (condition_decided chars ops condition is).mp valid⟩
  · rintro ⟨condition, rfl, decided⟩
    exact (condition_decided chars ops condition is).mpr decided

end

section
variable {D : Type} {doubles : Doubles D}

theorem choose_mem {block : List (Choice (InformationState D) D)} {chance : D}
    {choice : Choice (InformationState D) D} (chosen : choose doubles block chance = some choice) :
    choice ∈ block := by
  induction block generalizing chance with
  | nil => cases chosen
  | cons first rest ih =>
    unfold choose at chosen
    dsimp only at chosen
    split at chosen
    · cases chosen
      exact .head _
    · exact .tail _ (ih chosen)

theorem choices_mem {draws : Nat → D} {optional : List (List (Choice (InformationState D) D))}
    {choice : Choice (InformationState D) D} (chosen : choice ∈ choices doubles draws optional) :
    ∃ block ∈ optional, choice ∈ block := by
  obtain ⟨option, member, picked⟩ := List.mem_filterMap.mp chosen
  exact ⟨option.1, (List.mem_zipIdx_iff_getElem?.mp member |> List.mem_of_getElem?),
    choose_mem picked⟩

end

namespace Template.Written

variable {D : Type} {chars : Characters} {ops : Arithmetic D} {classes : Classes D}
  {t : Template (InformationState D) D}

theorem chosen (written : t.Written chars ops classes) (draws : Nat → D) :
    ∀ choice ∈ choices ops.toDoubles draws t.optional, choice.Written chars ops classes := by
  intro choice member
  obtain ⟨block, there, picked⟩ := choices_mem member
  exact written.optional block there choice picked

theorem firedEffects (written : t.Written chars ops classes) (draws : Nat → D) :
    ∀ e ∈ t.firedEffects ops.toDoubles draws, e.Written chars ops classes := by
  unfold Template.firedEffects Template.currEffects
  rw [List.forall_mem_append]
  refine ⟨?_, written.effects⟩
  intro e member
  obtain ⟨choice, chosen, member⟩ := List.mem_flatMap.mp member
  exact (written.chosen draws choice chosen).1 e member

theorem currBehaviour (written : t.Written chars ops classes)
    {chosen : List (Choice (InformationState D) D)}
    (choices : ∀ choice ∈ chosen, choice.Written chars ops classes)
    {b : Behaviour (InformationState D) D} (behaviour : t.currBehaviour chosen = some b) :
    b.Written chars ops classes := by
  unfold Template.currBehaviour at behaviour
  cases own : t.behaviour with
  | some first =>
    rw [own] at behaviour
    cases behaviour
    exact written.behaviour _ own
  | none =>
    rw [own, Option.none_or] at behaviour
    obtain ⟨choice, member, given⟩ := List.exists_of_findSome?_eq_some behaviour
    exact (choices choice (List.mem_reverse.mp member)).2 b given

end Template.Written

section
variable {D : Type} (chars : Characters) (ops : Arithmetic D) (classes : Classes D)

def Endures (templates : List (Template (InformationState D) D)) (draws : Nat → Nat → D) :
    Evaluated → InformationState D → Prop
  | .effect place index, is => ∀ t e, templates[place]? = some t →
      (t.firedEffects ops.toDoubles (draws place))[index]? = some e →
        e.Endures chars ops classes is
  | .execute place, is => ∀ t b, templates[place]? = some t →
      t.firedBehaviour ops.toDoubles (draws place) = some b → b.ExecuteEndures chars ops classes is
  | .prepare place, is => ∀ t b, templates[place]? = some t →
      t.currBehaviour [] = some b → b.PrepareEndures chars ops classes is

def Accepted (templates : List (Template (InformationState D) D)) : Prop :=
  ∀ t ∈ templates, ∃ element, parseTemplateElement chars ops classes element = .ok t

theorem quiet_congr {IS : Type} {means : Evaluated → Option (Evaluation IS)}
    {endures endures' : Evaluated → IS → Prop} (alike : ∀ e is, endures e is ↔ endures' e is)
    (entries : List Evaluated) (is : IS) :
    Quiet means endures entries is ↔ Quiet means endures' entries is := by
  induction entries generalizing is with
  | nil => exact Iff.rfl
  | cons e rest ih => exact and_congr (alike e is) (ih _)

theorem caught_endures {templates : List (Template (InformationState D) D)}
    (accepted : Accepted chars ops classes templates) (draws : Nat → Nat → D) (e : Evaluated)
    (is : InformationState D) :
    Caught (meaning ops.toDoubles templates draws) e is ↔
      Endures chars ops classes templates draws e is := by
  have written {t : Template (InformationState D) D} {place : Nat}
      (found : templates[place]? = some t) : t.Written chars ops classes := by
    obtain ⟨element, parsed⟩ := accepted t (List.mem_of_getElem? found)
    exact parseTemplateElement_written chars ops classes parsed
  unfold Caught
  cases e with
  | effect place index =>
    simp only [meaning, Option.bind_eq_bind, Option.bind_eq_some_iff, Option.pure_def,
      Option.some.injEq]
    constructor
    · intro caught t e found there
      exact (effect_endures chars ops classes ((written found).firedEffects _ e
        (List.mem_of_getElem? there)) is).mp (caught _ ⟨t, found, e, there, rfl⟩)
    · rintro endures _ ⟨t, found, e, there, rfl⟩
      exact (effect_endures chars ops classes ((written found).firedEffects _ e
        (List.mem_of_getElem? there)) is).mpr (endures t e found there)
  | execute place =>
    simp only [meaning, Option.bind_eq_bind, Option.bind_eq_some_iff, Option.pure_def,
      Option.some.injEq]
    constructor
    · intro caught t b found there
      have known := (written found).currBehaviour ((written found).chosen _) there
      exact (execute_endures chars ops classes known is).mp (caught _ ⟨t, found, b, there, rfl⟩)
    · rintro endures _ ⟨t, found, b, there, rfl⟩
      have known := (written found).currBehaviour ((written found).chosen _) there
      exact (execute_endures chars ops classes known is).mpr (endures t b found there)
  | prepare place =>
    simp only [meaning, Option.bind_eq_bind, Option.bind_eq_some_iff, Option.pure_def,
      Option.some.injEq]
    constructor
    · intro caught t b found there
      have known := (written found).currBehaviour (List.forall_mem_nil _) there
      exact (prepare_endures chars ops classes known is).mp (caught _ ⟨t, found, b, there, rfl⟩)
    · rintro endures _ ⟨t, found, b, there, rfl⟩
      have known := (written found).currBehaviour (List.forall_mem_nil _) there
      exact (prepare_endures chars ops classes known is).mpr (endures t b found there)

theorem checkAll_decided {c : TemplateController (InformationState D) D}
    (accepted : Accepted chars ops classes c.templates) (draws : Nat → Nat → D)
    (is : InformationState D) :
    (checkAll ops.toDoubles draws is c.templates 0).isSome = true ↔
      ∀ t ∈ c.templates, ∀ p ∈ t.preconditions, p.Decided chars ops is := by
  rw [checkAll_isSome]
  refine forall₂_congr fun t member => forall₂_congr fun p needed => ?_
  obtain ⟨element, parsed⟩ := accepted t member
  have written := parseTemplateElement_written chars ops classes parsed
  exact precondition_decided chars ops (written.preconditions p needed) is

/-- Failures stay local exactly if every precondition is decided, the template to run has a
behaviour, and everything that is evaluated ends normally or in a TemplateRunException. -/
theorem failures_local {c : TemplateController (InformationState D) D}
    (accepted : Accepted chars ops classes c.templates) (draws : Nat → Nat → D)
    (is : InformationState D) :
    FailuresLocal ops.toDoubles c draws is ↔
      (∀ t ∈ c.templates, ∀ p ∈ t.preconditions, p.Decided chars ops is) ∧
      ∃ entries, plan ops.toDoubles c draws is = some entries ∧
        Quiet (meaning ops.toDoubles c.templates draws)
          (Endures chars ops classes c.templates draws) entries is := by
  rw [failuresLocal_iff]
  constructor
  · rintro ⟨entries, planned, quiet⟩
    refine ⟨?_, entries, planned, ?_⟩
    · rw [← checkAll_decided chars ops classes accepted draws]
      obtain ⟨_, first, _⟩ := Option.map_eq_some_iff.mp planned
      obtain ⟨states, checked, _⟩ := Option.bind_eq_some_iff.mp first
      rw [checked]
      rfl
    · exact (quiet_congr (caught_endures chars ops classes accepted draws) entries is).mp quiet
  · rintro ⟨_, entries, planned, quiet⟩
    exact ⟨entries, planned,
      (quiet_congr (caught_endures chars ops classes accepted draws) entries is).mpr quiet⟩

end

def noClasses : Classes Rat where
  doubleToString _ := []
  methods := []
  getBehaviourClass _ := none

def updateElement (id name value : String) : TemplateElement where
  id := some id.toList
  preconditions := [{}]
  effects := [{ updates := [{ name := some name.toList, value := some value.toList }] }]

def noTemplate : Template (InformationState Rat) Rat where
  id := []

def updateTemplate (id name value : String) : Template (InformationState Rat) Rat :=
  match parseTemplateElement ascii noDoubles noClasses (updateElement id name value) with
  | .ok t => t
  | .error _ => noTemplate

def turnAndGreeting : TemplateController (InformationState Rat) Rat where
  templates := [updateTemplate "turn" "turns" "$turns+1", updateTemplate "greeting" "said" "hello"]

theorem turnAndGreeting_accepted :
    Accepted ascii noDoubles noClasses turnAndGreeting.templates := by
  intro t member
  rcases List.mem_pair.mp member with rfl | rfl
  · exact ⟨updateElement "turn" "turns" "$turns+1", rfl⟩
  · exact ⟨updateElement "greeting" "said" "hello", rfl⟩

/-- Without a number of turns there is a NullPointerException, and no greeting. -/
theorem turnAndGreeting_notLocal :
    ¬ ∀ (c : TemplateController (InformationState Rat) Rat) (draws : Nat → Nat → Rat)
        (is : InformationState Rat), Accepted ascii noDoubles noClasses c.templates →
        FailuresLocal noDoubles.toDoubles c draws is := by
  intro failuresLocal
  obtain ⟨checked, h, going, _⟩ :=
    failuresLocal turnAndGreeting (fun _ _ => 0) [] turnAndGreeting_accepted
  cases h
  cases going

theorem failures_local_turn :
    FailuresLocal noDoubles.toDoubles turnAndGreeting (fun _ _ => 0)
        [("turns".toList, .integer 1)] ↔
      (∀ t ∈ turnAndGreeting.templates, ∀ p ∈ t.preconditions,
        p.Decided ascii noDoubles [("turns".toList, .integer 1)]) ∧
      ∃ entries, plan noDoubles.toDoubles turnAndGreeting (fun _ _ => 0)
          [("turns".toList, .integer 1)] = some entries ∧
        Quiet (meaning noDoubles.toDoubles turnAndGreeting.templates fun _ _ => 0)
          (Endures ascii noDoubles noClasses turnAndGreeting.templates fun _ _ => 0) entries
          [("turns".toList, .integer 1)] :=
  failures_local ascii noDoubles noClasses turnAndGreeting_accepted _ _

end Semaine.Dialogue
