import Semaine.Library.Regex

/-! Loops that count the matches of a regular expression by replacing one after the other. -/
namespace JavaText
namespace Regex

def minLength : Regex → Nat
  | empty => 0
  | start => 0
  | char _ => 1
  | seq r q => r.minLength + q.minLength
  | alt r q => min r.minLength q.minLength
  | star _ => 0

variable {length : Nat} {r q pattern part : Regex} {s t u : Text}

theorem Takes.length_le (h : Takes length r s t) : t.length + r.minLength ≤ s.length := by
  induction h with
  | empty => exact Nat.le_refl _
  | start _ => exact Nat.le_refl _
  | char _ => exact Nat.le_refl _
  | seq _ _ first second =>
    simp only [minLength]
    omega
  | left _ ih =>
    simp only [minLength]
    omega
  | right _ ih =>
    simp only [minLength]
    omega
  | stop => exact Nat.le_refl _
  | again _ _ first second =>
    simp only [minLength] at second ⊢
    omega

def dots : Regex := star (char .any)

theorem takes_dots :
    Takes length dots s t ↔ ∃ a, s = a ++ t ∧ ∀ c ∈ a, isLineEnd c = false := by
  constructor
  · intro h
    generalize repeated : dots = p at h
    induction h with
    | stop => exact ⟨[], rfl, List.forall_mem_nil _⟩
    | again first rest _ ih =>
      cases repeated
      obtain ⟨c, holds, rfl⟩ := takes_char.mp first
      obtain ⟨a, rfl, plain⟩ := ih rfl
      refine ⟨c :: a, rfl, List.forall_mem_cons.mpr ⟨?_, plain⟩⟩
      simpa [CharClass.holds] using holds
    | empty => cases repeated
    | start _ => cases repeated
    | char _ => cases repeated
    | seq _ _ _ _ => cases repeated
    | left _ _ => cases repeated
    | right _ _ => cases repeated
  · rintro ⟨a, rfl, plain⟩
    induction a with
    | nil => exact .stop
    | cons c a ih =>
      obtain ⟨first, plain⟩ := List.forall_mem_cons.mp plain
      have one : CharClass.any.holds c = true := by simp [CharClass.holds, first]
      exact .again (.char one) (ih plain)

def Anywhere (pattern part : Regex) : Prop := pattern.items = dots :: part.items ++ [dots]

instance (pattern part : Regex) : Decidable (Anywhere pattern part) :=
  inferInstanceAs (Decidable (_ = _))

theorem Anywhere.takes (shape : Anywhere pattern part) :
    Takes length pattern s t ↔
      ∃ before here rest after, s = before ++ here ∧ Takes length part here rest ∧
        rest = after ++ t ∧
        (∀ c ∈ before, isLineEnd c = false) ∧ ∀ c ∈ after, isLineEnd c = false := by
  have parts : pattern.items = [dots] ++ (part.items ++ [dots]) := shape
  rw [takes_items, parts, takesAll_append]
  constructor
  · rintro ⟨here, first, others⟩
    obtain ⟨rest, middle, last⟩ := takesAll_append.mp others
    obtain ⟨before, rfl, plain⟩ := takes_dots.mp (takesAll_single.mp first)
    obtain ⟨after, rfl, plain'⟩ := takes_dots.mp (takesAll_single.mp last)
    exact ⟨before, here, after ++ t, after, rfl, takes_items.mpr middle, rfl, plain, plain'⟩
  · rintro ⟨before, here, rest, after, rfl, middle, rfl, plain, plain'⟩
    refine ⟨here, takesAll_single.mpr (takes_dots.mpr ⟨before, rfl, plain⟩), ?_⟩
    refine takesAll_append.mpr ⟨after ++ t, takes_items.mp middle, ?_⟩
    exact takesAll_single.mpr (takes_dots.mpr ⟨after, rfl, plain'⟩)

theorem Anywhere.isMatch_iff (shape : Anywhere pattern part) :
    pattern.isMatch s = true ↔
      ∃ before here rest, s = before ++ here ∧ Takes s.length part here rest ∧
        (∀ c ∈ before, isLineEnd c = false) ∧ ∀ c ∈ rest, isLineEnd c = false := by
  rw [Regex.isMatch_iff, shape.takes]
  constructor
  · rintro ⟨before, here, rest, after, same, middle, last, plain, plain'⟩
    rw [List.append_nil] at last
    rw [← last] at plain'
    exact ⟨before, here, rest, same, middle, plain, plain'⟩
  · rintro ⟨before, here, rest, same, middle, plain, plain'⟩
    exact ⟨before, here, rest, rest, same, middle, (List.append_nil rest).symm, plain, plain'⟩

theorem items_sequence {rs : List Regex} (single : ∀ r ∈ rs, r.items = [r]) :
    (sequence rs).items = rs := by
  induction rs with
  | nil => rfl
  | cons r rs ih =>
    obtain ⟨first, single⟩ := List.forall_mem_cons.mp single
    have later := ih single
    cases rs with
    | nil => exact first
    | cons q qs =>
      change r.items ++ (sequence (q :: qs)).items = _
      rw [first, later]
      rfl

theorem anywhere_sequence {rs : List Regex} (single : ∀ r ∈ rs, r.items = [r]) :
    Anywhere (sequence (dots :: rs ++ [dots])) (sequence rs) := by
  have whole : ∀ r ∈ dots :: rs ++ [dots], r.items = [r] := by
    intro r member
    simp only [List.cons_append, List.mem_cons, List.mem_append, List.not_mem_nil, or_false] at member
    rcases member with rfl | inside | rfl
    · rfl
    · exact single r inside
    · rfl
  unfold Anywhere
  rw [items_sequence whole, items_sequence single]

theorem minLength_sequence (rs : List Regex) :
    (sequence rs).minLength = (rs.map minLength).sum := by
  induction rs with
  | nil => rfl
  | cons r rs ih =>
    cases rs with
    | nil => rfl
    | cons q qs =>
      change r.minLength + (sequence (q :: qs)).minLength =
        r.minLength + ((q :: qs).map minLength).sum
      rw [ih]

def alternatives : Regex → List Regex
  | alt r q => r.alternatives ++ q.alternatives
  | r => [r]

theorem takes_alternatives : Takes length r s t ↔ ∃ p ∈ r.alternatives, Takes length p s t := by
  have one : ∀ q : Regex, Takes length q s t ↔ ∃ p ∈ [q], Takes length p s t := by
    intro q
    simp only [List.mem_singleton, exists_eq_left]
  induction r with
  | alt r q first second =>
    simp only [takes_alt, first, second, alternatives, List.mem_append]
    constructor
    · rintro (⟨p, member, h⟩ | ⟨p, member, h⟩)
      · exact ⟨p, .inl member, h⟩
      · exact ⟨p, .inr member, h⟩
    · rintro ⟨p, member | member, h⟩
      · exact .inl ⟨p, member, h⟩
      · exact .inr ⟨p, member, h⟩
  | empty => exact one _
  | start => exact one _
  | char k => exact one _
  | seq r q => exact one _
  | star r => exact one _

/-- Each part of one sequence has at most the alternatives of that of the other. -/
abbrev Narrower (rs qs : List Regex) : Prop :=
  List.Forall₂ (fun r q => ∀ p ∈ r.alternatives, p ∈ q.alternatives) rs qs

theorem Narrower.takesAll {rs qs : List Regex} (narrower : Narrower rs qs)
    (h : TakesAll length rs s t) : TakesAll length qs s t := by
  induction narrower generalizing s with
  | nil => exact h
  | cons fewer _ ih =>
    cases h with
    | cons first rest =>
      obtain ⟨p, member, taken⟩ := takes_alternatives.mp first
      exact .cons (takes_alternatives.mpr ⟨p, fewer p member, taken⟩) (ih rest)

/-- `while (s.matches(pattern)) { count++; s = s.replaceFirst(part, " "); }`: the number of turns
and the text in the end. -/
def countWhile (pattern part : Regex) : Nat → Text → Nat × Text
  | 0, s => (0, s)
  | n + 1, s =>
    if pattern.isMatch s then
      let (count, rest) := countWhile pattern part n (part.replaceFirst [' '] s)
      (count + 1, rest)
    else (0, s)

def countMatches (pattern part : Regex) (s : Text) : Nat × Text := countWhile pattern part s.length s

inductive Turns (pattern part : Regex) : Text → Nat → Text → Prop where
  | done {s : Text} : pattern.isMatch s = false → Turns pattern part s 0 s
  | turn {s t : Text} {n : Nat} : pattern.isMatch s = true →
      Turns pattern part (part.replaceFirst [' '] s) n t → Turns pattern part s (n + 1) t

/-- Whenever the pattern matches there is a part to replace, and it is longer than a space. -/
structure Shortens (pattern part : Regex) : Prop where
  found : ∀ {s}, pattern.isMatch s = true → (part.find s).isSome = true
  long : 2 ≤ part.minLength

theorem replaceFirst_length (long : 2 ≤ part.minLength) (found : (part.find s).isSome = true) :
    (part.replaceFirst [' '] s).length < s.length := by
  obtain ⟨⟨before, rest⟩, here⟩ := Option.isSome_iff_exists.mp found
  obtain ⟨place, whole, taken⟩ := findFrom_some here
  have shorter := taken.length_le
  have sum := congrArg List.length whole
  unfold replaceFirst
  rw [here]
  simp only [List.length_append, List.length_singleton] at sum ⊢
  omega

theorem Shortens.step (shortens : Shortens pattern part) (matched : pattern.isMatch s = true) :
    (part.replaceFirst [' '] s).length < s.length :=
  replaceFirst_length shortens.long (shortens.found matched)

theorem Turns.deterministic {n m : Nat} (first : Turns pattern part s n t)
    (second : Turns pattern part s m u) : n = m ∧ t = u := by
  induction first generalizing m with
  | done fails =>
    cases second with
    | done _ => exact ⟨rfl, rfl⟩
    | turn matched _ => exact absurd (fails.symm.trans matched) Bool.false_ne_true
  | turn matched _ ih =>
    cases second with
    | done fails => exact absurd (fails.symm.trans matched) Bool.false_ne_true
    | turn _ rest =>
      obtain ⟨rfl, rfl⟩ := ih rest
      exact ⟨rfl, rfl⟩

theorem Turns.ends {n : Nat} (turns : Turns pattern part s n t) : pattern.isMatch t = false := by
  induction turns with
  | done fails => exact fails
  | turn _ _ ih => exact ih

theorem Turns.length_le (shortens : Shortens pattern part) {n : Nat}
    (turns : Turns pattern part s n t) : n + t.length ≤ s.length := by
  induction turns with
  | done _ => omega
  | turn matched _ ih =>
    have shorter := shortens.step matched
    omega

theorem turns_countWhile (shortens : Shortens pattern part) (n : Nat) (room : s.length ≤ n) :
    Turns pattern part s (countWhile pattern part n s).1 (countWhile pattern part n s).2 := by
  induction n generalizing s with
  | zero =>
    apply Turns.done
    rw [Bool.eq_false_iff]
    intro matched
    have shorter := shortens.step matched
    omega
  | succ n ih =>
    rw [countWhile]
    split
    · rename_i matched
      have shorter := shortens.step matched
      exact .turn matched (ih (by omega))
    · rename_i fails
      exact .done (Bool.eq_false_iff.mpr fails)

theorem turns_countMatches (shortens : Shortens pattern part) (s : Text) :
    Turns pattern part s (countMatches pattern part s).1 (countMatches pattern part s).2 :=
  turns_countWhile shortens s.length (Nat.le_refl _)

theorem Anywhere.shortens_of_narrower {narrow : Regex} (shape : Anywhere pattern narrow)
    (narrower : Narrower narrow.items part.items) (long : 2 ≤ part.minLength) :
    Shortens pattern part where
  found := by
    intro s matched
    obtain ⟨before, here, rest, same, taken, _⟩ := shape.isMatch_iff.mp matched
    have place : here <:+ s := ⟨before, same.symm⟩
    have wider := takes_items.mpr (narrower.takesAll (takes_items.mp taken))
    cases found : part.find s with
    | some _ => rfl
    | none => exact absurd wider (findFrom_none found place)
  long := long

theorem Anywhere.shortens (shape : Anywhere pattern part) (long : 2 ≤ part.minLength) :
    Shortens pattern part :=
  shape.shortens_of_narrower (List.forall₂_same.mpr fun _ _ _ member => member) long

theorem countMatches_pos (shortens : Shortens pattern part) (s : Text) :
    0 < (countMatches pattern part s).1 ↔ pattern.isMatch s = true := by
  have turns := turns_countMatches shortens s
  constructor
  · intro some
    cases first : pattern.isMatch s with
    | true => rfl
    | false =>
      have none := (turns.deterministic (.done first)).1
      omega
  · intro matched
    generalize (countMatches pattern part s).1 = n, (countMatches pattern part s).2 = t at turns ⊢
    cases turns with
    | done fails => exact absurd (fails.symm.trans matched) Bool.false_ne_true
    | turn _ _ => exact Nat.succ_pos _

theorem countMatches_rest (fails : pattern.isMatch s = false) :
    countMatches pattern part s = (0, s) := by
  unfold countMatches
  cases s.length with
  | zero => rfl
  | succ n =>
    rw [countWhile, if_neg (by rw [fails]; exact Bool.false_ne_true)]

end Regex
end JavaText
