import Semaine.Dialogue.TurnCounters

/-! What a message about facial action units does to the counters of a turn. -/
namespace Semaine.Dialogue
open JavaText Outcome

def AU : Text := "AU".toList
def NROFAU : Text := "nrOfAU".toList

section
variable {D : Type}

structure UnitRecords (is : InformationState D) : Prop where
  turn : Records is USERTURN
  units : Records (fieldsOf is USERTURN) AU

def unitCounter (is : InformationState D) (au : Text) : Option Int :=
  ((fieldsOf (fieldsOf is USERTURN) AU).lookup (NROFAU ++ au)).bind Item.getInteger

theorem segments_actionUnitPath {au : Text} (plain : '.' ∉ au) :
    segments (UserTurn.actionUnitPath au) = [USERTURN, AU, NROFAU ++ au] := by
  have path : UserTurn.actionUnitPath au = USERTURN ++ '.' :: (AU ++ '.' :: (NROFAU ++ au)) := rfl
  have field : '.' ∉ NROFAU ++ au := by
    rw [List.mem_append, not_or]
    exact ⟨by decide, plain⟩
  rw [path, segments_dot (by decide), segments_dot (by decide), segments_plain field]

theorem getInteger_actionUnit (chars : Characters) {is : InformationState D}
    (records : UnitRecords is) {au : Text} (plain : '.' ∉ au) :
    is.getInteger chars (UserTurn.actionUnitPath au) = .ok (unitCounter is au) :=
  getInteger_inside chars (segments_actionUnitPath plain) records.turn records.units
    ⟨List.cons_ne_nil _ _, List.cons_ne_nil _ _, List.cons_ne_nil _ _⟩ ⟨rfl, rfl, rfl⟩

theorem write_actionUnit {is : InformationState D} (records : UnitRecords is) {au : Text}
    (plain : '.' ∉ au) (value : Item D) :
    ∃ after, is.write (UserTurn.actionUnitPath au) value = .ok after ∧ UnitRecords after ∧
      ∀ g, unitCounter after g = if g = au then value.getInteger else unitCounter is g := by
  have field : Item.set value [NROFAU ++ au] (.record (fieldsOf (fieldsOf is USERTURN) AU)) =
      (.record (put (fieldsOf (fieldsOf is USERTURN) AU) (NROFAU ++ au) value), none) := by
    rw [Item.set, if_neg (fun h => List.cons_ne_nil _ _ h.1)]
    rfl
  have turn := set_into records.units rfl (List.cons_ne_nil _ _) rfl field
  have whole := set_into records.turn rfl (List.cons_ne_nil _ _) rfl turn
  refine ⟨put is USERTURN (.record (put (fieldsOf is USERTURN) AU
    (.record (put (fieldsOf (fieldsOf is USERTURN) AU) (NROFAU ++ au) value)))), ?_, ?_, ?_⟩
  · unfold InformationState.write InformationState.set
    rw [segments_actionUnitPath plain, whole]
    rfl
  · refine ⟨records_put_same _ _ _, ?_⟩
    rw [fieldsOf_put_same]
    exact records_put_same _ _ _
  · intro g
    unfold unitCounter
    rw [fieldsOf_put_same, fieldsOf_put_same]
    by_cases same : g = au
    · rw [if_pos same, same, lookup_put_same, Option.bind_some]
    · have other : NROFAU ++ g ≠ NROFAU ++ au := fun h => same (List.append_cancel_left h)
      rw [if_neg same, lookup_put_other _ _ other]

end

namespace UserTurn

variable {F D : Type} {chars : Characters} {floats : FloatNumbers F D} {s : UserTurn F D}

def Active (s : UserTurn F D) (au : Text) : Prop := s.turnActionUnits.lookup au = some true

structure CountedUnits (aus : List Text) (s t : UserTurn F D) : Prop where
  records : UnitRecords t.is
  active (g : Text) : t.Active g ↔ s.Active g ∨ g ∈ aus
  counted {g : Text} : g ∈ aus → ¬ s.Active g →
    unitCounter t.is g = succ (unitCounter s.is g)
  kept {g : Text} : g ∉ aus ∨ s.Active g → unitCounter t.is g = unitCounter s.is g

theorem CountedUnits.refl (records : UnitRecords s.is) : CountedUnits [] s s :=
  ⟨records, fun _ => (or_iff_left List.not_mem_nil).symm, nofun, fun _ => rfl⟩

theorem CountedUnits.trans {aus aus' : List Text} {s t u : UserTurn F D}
    (first : CountedUnits aus s t) (second : CountedUnits aus' t u) :
    CountedUnits (aus ++ aus') s u := by
  refine ⟨second.records, ?_, ?_, ?_⟩
  · intro g
    rw [second.active, first.active, List.mem_append, or_assoc]
  · intro g member inactive
    by_cases early : g ∈ aus
    · rw [second.kept (.inr ((first.active g).mpr (.inr early))), first.counted early inactive]
    · have still : ¬ t.Active g := by
        rw [first.active]
        exact fun h => h.elim inactive early
      rw [second.counted ((List.mem_append.mp member).resolve_left early) still,
        first.kept (.inl early)]
  · intro g same
    rcases same with absent | active
    · rw [List.mem_append, not_or] at absent
      rw [second.kept (.inl absent.2), first.kept (.inl absent.1)]
    · rw [second.kept (.inr ((first.active g).mpr (.inl active))), first.kept (.inr active)]

theorem lookup_setActionUnit (units : List (Text × Bool)) (au : Text) (b : Bool) (g : Text) :
    (setActionUnit units au b).lookup g = if g = au then some b else units.lookup g := by
  unfold setActionUnit
  rw [List.lookup_cons]
  by_cases same : g = au
  · rw [if_pos same, same, beq_self_eq_true]
  · rw [if_neg same, beq_eq_false_iff_ne.mpr same]
    exact List.lookup_filter_ne units same

variable (chars) in
theorem countActionUnits_cons {au : Text} (plain : '.' ∉ au) (records : UnitRecords s.is)
    (aus : List Text) :
    ∃ t, s.countActionUnits chars (au :: aus) = t.countActionUnits chars aus ∧
      CountedUnits [au] s t := by
  by_cases active : s.turnActionUnits.lookup au = some true
  · refine ⟨s, if_pos active, records, ?_, ?_, fun _ => rfl⟩
    · intro g
      rw [List.mem_singleton]
      refine ⟨.inl, ?_⟩
      rintro (h | rfl)
      · exact h
      · exact active
    · intro g member inactive
      cases List.mem_singleton.mp member
      exact absurd active inactive
  · obtain ⟨is, written, records', counters⟩ := write_actionUnit records plain
      (.integer (toInt ((unitCounter s.is au).getD 0 + 1)))
    refine ⟨{ s with is := is, turnActionUnits := setActionUnit s.turnActionUnits au true },
      ?_, records', ?_, ?_, ?_⟩
    · rw [countActionUnits]
      unfold nextCounter UserTurn.write
      rw [if_neg active]
      simp only [getInteger_actionUnit chars records plain, Except.map, bind, Except.bind, written]
    · intro g
      unfold UserTurn.Active
      rw [lookup_setActionUnit, List.mem_singleton]
      by_cases same : g = au
      · simp [same]
      · simp [same]
    · intro g member _
      rw [counters, if_pos (List.mem_singleton.mp member), List.mem_singleton.mp member]
      rfl
    · intro g same
      have other : g ≠ au := by
        rintro rfl
        exact same.elim (fun absent => absent (.head [])) active
      rw [counters, if_neg other]

variable (chars) in
theorem countActionUnits_units {aus : List Text} (plain : ∀ au ∈ aus, '.' ∉ au)
    (records : UnitRecords s.is) :
    ∃ t, s.countActionUnits chars aus = .ok t ∧ CountedUnits aus s t := by
  induction aus generalizing s with
  | nil => exact ⟨s, rfl, .refl records⟩
  | cons au aus ih =>
    obtain ⟨t, same, first⟩ :=
      countActionUnits_cons chars (plain au (.head aus)) records aus
    obtain ⟨u, done, rest⟩ := ih (fun other member => plain other (.tail au member)) first.records
    exact ⟨u, same.trans done, first.trans rest⟩

theorem lookup_map_contains (units : List (Text × Bool)) (aus : List Text) (g : Text) :
    (units.map fun (au, b) => (au, b && aus.contains au)).lookup g =
      (units.lookup g).map fun b => b && aus.contains g := by
  induction units with
  | nil => rfl
  | cons e units ih =>
    rw [List.map_cons, List.lookup_cons, List.lookup_cons]
    by_cases same : g = e.1
    · rw [same, beq_self_eq_true]
      rfl
    · rw [beq_eq_false_iff_ne.mpr same]
      exact ih

variable (chars) in
theorem updateActionUnits_units {m : UserStateMessage} {facialExpressions : Text}
    (info : m.getInfo "facialActionUnits" = some facialExpressions)
    (plain : ∀ au ∈ split facialExpressions ' ', '.' ∉ au) (records : UnitRecords s.is) :
    ∃ t, s.updateActionUnits chars m = .ok t ∧ UnitRecords t.is ∧
      (∀ g, t.Active g ↔ g ∈ split facialExpressions ' ') ∧
      (∀ g ∈ split facialExpressions ' ', ¬ s.Active g →
        unitCounter t.is g = succ (unitCounter s.is g)) ∧
      ∀ g, g ∉ split facialExpressions ' ' ∨ s.Active g →
        unitCounter t.is g = unitCounter s.is g := by
  obtain ⟨t, done, counted⟩ := countActionUnits_units chars plain records
  refine ⟨{ t with
    turnActionUnits := t.turnActionUnits.map fun (au, b) =>
      (au, b && (split facialExpressions ' ').contains au) },
    ?_, counted.records, ?_, fun g member => counted.counted member, fun g => counted.kept⟩
  · unfold updateActionUnits
    rw [info]
    simp only [done, bind, Except.bind, pure, Except.pure]
  · intro g
    unfold UserTurn.Active
    rw [lookup_map_contains, Option.map_eq_some_iff]
    constructor
    · rintro ⟨b, _, both⟩
      exact List.contains_iff_mem.mp (Bool.and_eq_true_iff.mp both).2
    · intro member
      exact ⟨true, (counted.active g).mpr (.inr member), List.contains_iff_mem.mpr member⟩

end UserTurn
end Semaine.Dialogue
