import Semaine.Library.Association
import Semaine.StateInfo.SectionReaders

/-! What a section of the configuration says, whatever takes its lines apart: the prefixes are
defined in turn, and no short name and no expression may occur twice. -/
namespace Semaine.StateInfo.Section
open JavaText Semaine.Xml

inductive Line where
  | definition (line : Text)
  | shortNames
  | shortName (line : Text)
  deriving DecidableEq

def linesOf : Bool → Bool → List Text → List Line
  | _, _, [] => []
  | readNamespacePrefixes, readShortNames, line :: rest =>
    if line = "[namespace prefixes]".toList then linesOf true readShortNames rest
    else if line = "[short names]".toList then .shortNames :: linesOf false true rest
    else if readNamespacePrefixes then
      .definition line :: linesOf readNamespacePrefixes readShortNames rest
    else if readShortNames then
      .shortName line :: linesOf readNamespacePrefixes readShortNames rest
    else linesOf readNamespacePrefixes readShortNames rest

def lines (section' : List Text) : List Line := linesOf false false section'

structure Reader where
  definition : Text → Option (Text × Text)
  shortName : Text → Option (Text × Text)
  accepts : Text → Bool

/-- The definitions of prefixes and the short names, in the order of the lines. -/
structure Content where
  definitions : List (Text × Text) := []
  entries : List (Text × Text) := []
  deriving DecidableEq

def Content.add (c : Content) (e : Text × Text) : Option Content :=
  if e.1 ∈ c.entries.map Prod.fst ∨ e.2 ∈ c.entries.map Prod.snd then none
  else some { c with entries := c.entries ++ [e] }

variable (r : Reader)

def Reader.read (c : Content) : Line → Option Content
  | .definition line =>
    (r.definition line).map fun d => { c with definitions := c.definitions ++ [d] }
  | .shortNames => if c.definitions = [] then none else some c
  | .shortName line =>
    (r.shortName line).bind fun e => if r.accepts e.2 then c.add e else none

def definitionsOf (ls : List Line) : List (Text × Text) :=
  ls.filterMap fun l => match l with
    | .definition line => r.definition line
    | _ => none

def entriesOf (ls : List Line) : List (Text × Text) :=
  ls.filterMap fun l => match l with
    | .shortName line => r.shortName line
    | _ => none

structure Sound (ls : List Line) : Prop where
  definitions : ∀ line, .definition line ∈ ls → (r.definition line).isSome = true
  defined : ∀ before after, ls = before ++ .shortNames :: after → ∃ line, .definition line ∈ before
  entries : ∀ line, .shortName line ∈ ls → ∃ e, r.shortName line = some e ∧ r.accepts e.2 = true
  names : ((entriesOf r ls).map Prod.fst).Nodup
  expressions : ((entriesOf r ls).map Prod.snd).Nodup

variable {r}

theorem definitionsOf_ne_nil {ls : List Line}
    (readable : ∀ line, .definition line ∈ ls → (r.definition line).isSome = true) :
    definitionsOf r ls ≠ [] ↔ ∃ line, .definition line ∈ ls := by
  unfold definitionsOf
  rw [ne_eq, List.filterMap_eq_nil_iff]
  constructor
  · intro some
    by_contra none
    apply some
    intro l member
    cases l with
    | definition line => exact absurd ⟨line, member⟩ none
    | shortNames => rfl
    | shortName line => rfl
  · rintro ⟨line, member⟩ none
    have unread := none _ member
    have read := readable line member
    dsimp only at unread
    rw [unread] at read
    cases read

theorem sound_nil : Sound r [] where
  definitions := nofun
  defined before after h := by simp at h
  entries := nofun
  names := .nil
  expressions := .nil

theorem concat_eq_split {ls before after : List Line} {l m : Line}
    (h : ls ++ [l] = before ++ m :: after) :
    (l = m ∧ ls = before) ∨ ∃ after', ls = before ++ m :: after' := by
  obtain rfl | ⟨after', last, rfl⟩ := List.eq_nil_or_concat after
  · obtain ⟨same, last⟩ := List.append_inj' h rfl
    cases last
    exact Or.inl ⟨rfl, same⟩
  · rw [List.concat_eq_append] at h
    have grouped : ls ++ [l] = (before ++ m :: after') ++ [last] := by
      rw [h, List.append_assoc]
      rfl
    exact Or.inr ⟨after', (List.append_inj' grouped rfl).1⟩

def Fits (r : Reader) (ls : List Line) : Line → Prop
  | .definition line => (r.definition line).isSome = true
  | .shortNames => ∃ line, .definition line ∈ ls
  | .shortName line => ∃ e, r.shortName line = some e ∧ r.accepts e.2 = true ∧
      e.1 ∉ (entriesOf r ls).map Prod.fst ∧ e.2 ∉ (entriesOf r ls).map Prod.snd

theorem entriesOf_concat (r : Reader) (ls : List Line) (l : Line) :
    entriesOf r (ls ++ [l]) = entriesOf r ls ++ entriesOf r [l] := List.filterMap_append

theorem definitionsOf_concat (r : Reader) (ls : List Line) (l : Line) :
    definitionsOf r (ls ++ [l]) = definitionsOf r ls ++ definitionsOf r [l] :=
  List.filterMap_append

theorem entriesOf_shortName (r : Reader) (line : Text) :
    entriesOf r [.shortName line] = (r.shortName line).toList := by
  unfold entriesOf
  cases read : r.shortName line with
  | none => simp [read]
  | some e => simp [read]

theorem definitionsOf_definition (r : Reader) (line : Text) :
    definitionsOf r [.definition line] = (r.definition line).toList := by
  unfold definitionsOf
  cases read : r.definition line with
  | none => simp [read]
  | some d => simp [read]

theorem Sound.of_concat {ls : List Line} {l : Line} (sound : Sound r (ls ++ [l])) : Sound r ls where
  definitions line member := sound.definitions line (List.mem_append_left [l] member)
  defined before after h := by
    apply sound.defined before (after ++ [l])
    rw [h, List.append_assoc]
    rfl
  entries line member := sound.entries line (List.mem_append_left [l] member)
  names := by
    have names := sound.names
    rw [entriesOf_concat, List.map_append] at names
    exact names.of_append_left
  expressions := by
    have expressions := sound.expressions
    rw [entriesOf_concat, List.map_append] at expressions
    exact expressions.of_append_left

theorem Sound.fits {ls : List Line} {l : Line} (sound : Sound r (ls ++ [l])) : Fits r ls l := by
  have last : l ∈ ls ++ [l] := List.mem_append_right ls (.head [])
  cases l with
  | definition line => exact sound.definitions line last
  | shortNames => exact sound.defined ls [] rfl
  | shortName line =>
    obtain ⟨e, read, accepted⟩ := sound.entries line last
    have names := sound.names
    have expressions := sound.expressions
    rw [entriesOf_concat, entriesOf_shortName, read] at names expressions
    rw [List.map_append, List.nodup_append] at names expressions
    refine ⟨e, read, accepted, ?_, ?_⟩
    · exact fun member => names.2.2 e.1 member e.1 (.head []) rfl
    · exact fun member => expressions.2.2 e.2 member e.2 (.head []) rfl

theorem Sound.concat {ls : List Line} {l : Line} (sound : Sound r ls) (fits : Fits r ls l) :
    Sound r (ls ++ [l]) := by
  constructor
  · intro line member
    obtain earlier | last := List.mem_append.mp member
    · exact sound.definitions line earlier
    · obtain rfl := List.mem_singleton.mp last
      exact fits
  · intro before after h
    obtain ⟨rfl, rfl⟩ | ⟨after', earlier⟩ := concat_eq_split h
    · exact fits
    · exact sound.defined before after' earlier
  · intro line member
    obtain earlier | last := List.mem_append.mp member
    · exact sound.entries line earlier
    · obtain rfl := List.mem_singleton.mp last
      obtain ⟨e, read, accepted, _⟩ := fits
      exact ⟨e, read, accepted⟩
  · rw [entriesOf_concat, List.map_append]
    cases l with
    | definition line => simpa [entriesOf] using sound.names
    | shortNames => simpa [entriesOf] using sound.names
    | shortName line =>
      obtain ⟨e, read, _, newName, _⟩ := fits
      rw [entriesOf_shortName, read]
      exact List.nodup_append.mpr ⟨sound.names, List.nodup_singleton e.1, fun a member b single =>
        fun same => newName (List.mem_singleton.mp single ▸ same ▸ member)⟩
  · rw [entriesOf_concat, List.map_append]
    cases l with
    | definition line => simpa [entriesOf] using sound.expressions
    | shortNames => simpa [entriesOf] using sound.expressions
    | shortName line =>
      obtain ⟨e, read, _, _, newExpr⟩ := fits
      rw [entriesOf_shortName, read]
      exact List.nodup_append.mpr ⟨sound.expressions, List.nodup_singleton e.2,
        fun a member b single => fun same =>
          newExpr (List.mem_singleton.mp single ▸ same ▸ member)⟩

theorem read_fits {ls : List Line} {l : Line} (sound : Sound r ls) (fits : Fits r ls l) :
    r.read ⟨definitionsOf r ls, entriesOf r ls⟩ l =
      some ⟨definitionsOf r (ls ++ [l]), entriesOf r (ls ++ [l])⟩ := by
  rw [definitionsOf_concat, entriesOf_concat]
  cases l with
  | definition line =>
    obtain ⟨d, read⟩ := Option.isSome_iff_exists.mp fits
    rw [definitionsOf_definition, Reader.read, read]
    simp [entriesOf]
  | shortNames =>
    have defined := (definitionsOf_ne_nil sound.definitions).mpr fits
    unfold Reader.read
    rw [if_neg defined]
    simp [definitionsOf, entriesOf]
  | shortName line =>
    obtain ⟨e, read, accepted, newName, newExpr⟩ := fits
    have new : ¬ (e.1 ∈ (entriesOf r ls).map Prod.fst ∨ e.2 ∈ (entriesOf r ls).map Prod.snd) :=
      not_or.mpr ⟨newName, newExpr⟩
    rw [entriesOf_shortName, Reader.read, read, Option.bind_some, if_pos accepted, Content.add,
      if_neg new]
    simp [definitionsOf]

theorem read_misfit {ls : List Line} {l : Line} (sound : Sound r ls) (misfit : ¬ Fits r ls l) :
    r.read ⟨definitionsOf r ls, entriesOf r ls⟩ l = none := by
  cases l with
  | definition line =>
    cases read : r.definition line with
    | none =>
      rw [Reader.read, read]
      rfl
    | some d =>
      refine absurd ?_ misfit
      rw [Fits, read]
      rfl
  | shortNames => exact if_pos (not_not.mp ((definitionsOf_ne_nil sound.definitions).not.mpr misfit))
  | shortName line =>
    rw [Reader.read]
    cases read : r.shortName line with
    | none => rfl
    | some e =>
      rw [Option.bind_some]
      by_cases accepted : r.accepts e.2 = true
      · rw [if_pos accepted]
        apply if_pos
        by_contra new
        obtain ⟨newName, newExpr⟩ := not_or.mp new
        exact misfit ⟨e, read, accepted, newName, newExpr⟩
      · exact if_neg accepted

theorem read_iff (ls : List Line) (c : Content) :
    ls.foldlM r.read {} = some c ↔ Sound r ls ∧ c = ⟨definitionsOf r ls, entriesOf r ls⟩ := by
  induction ls using List.reverseRecOn generalizing c with
  | nil =>
    constructor
    · intro read
      exact ⟨sound_nil, (Option.some.inj read).symm⟩
    · rintro ⟨_, rfl⟩
      rfl
  | append_singleton ls l ih =>
    rw [List.foldlM_append]
    constructor
    · intro read
      obtain ⟨c', before, last⟩ := Option.bind_eq_some_iff.mp read
      obtain ⟨sound, rfl⟩ := (ih c').mp before
      have step : r.read ⟨definitionsOf r ls, entriesOf r ls⟩ l = some c := by
        simpa using last
      by_cases fits : Fits r ls l
      · rw [read_fits sound fits] at step
        exact ⟨sound.concat fits, (Option.some.inj step).symm⟩
      · rw [read_misfit sound fits] at step
        cases step
    · rintro ⟨sound, rfl⟩
      have before := (ih _).mpr ⟨sound.of_concat, rfl⟩
      rw [before]
      simpa using read_fits sound.of_concat sound.fits

end Semaine.StateInfo.Section
