import Semaine.Library.LiteralPatterns

/-! Regular expressions of `java.util.regex`, without captured groups: the matcher tries the
alternatives in order and repeats as often as it can. -/
namespace JavaText

inductive CharClass where
  | any
  | visible
  | space
  | oneOf (cs : List Char)
  deriving DecidableEq, Repr

def CharClass.holds : CharClass → Char → Bool
  | any, c => !isLineEnd c
  | visible, c => !isSpace c
  | space, c => isSpace c
  | oneOf cs, c => cs.contains c

inductive Regex where
  | empty
  | start
  | char (k : CharClass)
  | seq (r q : Regex)
  | alt (r q : Regex)
  | star (r : Regex)
  deriving DecidableEq, Repr

/-- What may be left after repetitions that take something, the most repetitions first. -/
def repeats (f : Text → List Text) : Nat → Text → List Text
  | 0, s => [s]
  | n + 1, s => (f s).flatMap (fun t => if t.length < s.length then repeats f n t else []) ++ [s]

namespace Regex

/-- What may be left of a text after a match at its start, in the order in which it is tried. The
text is the end of one of the given length. -/
def rests (length : Nat) : Regex → Text → List Text
  | empty, s => [s]
  | start, s => if s.length = length then [s] else []
  | char _, [] => []
  | char k, c :: s => if k.holds c then [s] else []
  | seq r q, s => (r.rests length s).flatMap (q.rests length)
  | alt r q, s => r.rests length s ++ q.rests length s
  | star r, s => repeats (r.rests length) s.length s

def isMatch (r : Regex) (s : Text) : Bool := (r.rests s.length s).contains []

/-- The first match in the end of a text: what is before it and what is after it. -/
def findFrom (r : Regex) (length : Nat) : Text → Option (Text × Text)
  | [] => (r.rests length []).head?.map ([], ·)
  | c :: s =>
    match (r.rests length (c :: s)).head? with
    | some rest => some ([], rest)
    | none => (r.findFrom length s).map fun (before, rest) => (c :: before, rest)

def find (r : Regex) (s : Text) : Option (Text × Text) := r.findFrom s.length s

/-- `s.replaceFirst(r, replacement)`, for a replacement without special characters. -/
def replaceFirst (r : Regex) (replacement s : Text) : Text :=
  match r.find s with
  | some (before, rest) => before ++ replacement ++ rest
  | none => s

/-- The replacements in the end of a text. After an empty match the search goes on behind the next
character. -/
def replaceFrom (r : Regex) (length : Nat) (replacement : Text) : Nat → Text → Text
  | 0, s => s
  | n + 1, s =>
    match r.findFrom length s with
    | none => s
    | some (before, rest) =>
      before ++ replacement ++
        if before.length + rest.length < s.length then r.replaceFrom length replacement n rest
        else
          match rest with
          | [] => []
          | c :: rest => c :: r.replaceFrom length replacement n rest

/-- `s.replaceAll(r, replacement)`, for a replacement without special characters. -/
def replaceEach (r : Regex) (replacement s : Text) : Text :=
  r.replaceFrom s.length replacement (s.length + 1) s

/-- A match that takes a text, the end of one of the given length, to what is left of it. -/
inductive Takes (length : Nat) : Regex → Text → Text → Prop where
  | empty {s : Text} : Takes length .empty s s
  | start {s : Text} : s.length = length → Takes length .start s s
  | char {k : CharClass} {c : Char} {s : Text} : k.holds c = true → Takes length (.char k) (c :: s) s
  | seq {r q : Regex} {s t u : Text} : Takes length r s t → Takes length q t u →
      Takes length (.seq r q) s u
  | left {r q : Regex} {s t : Text} : Takes length r s t → Takes length (.alt r q) s t
  | right {r q : Regex} {s t : Text} : Takes length q s t → Takes length (.alt r q) s t
  | stop {r : Regex} {s : Text} : Takes length (.star r) s s
  | again {r : Regex} {s t u : Text} : Takes length r s t → Takes length (.star r) t u →
      Takes length (.star r) s u

variable {length : Nat} {r q : Regex} {s t u : Text}

theorem Takes.suffix (h : Takes length r s t) : t <:+ s := by
  induction h with
  | empty => exact List.suffix_refl _
  | start _ => exact List.suffix_refl _
  | char _ => exact List.suffix_cons _ _
  | seq _ _ first second => exact second.trans first
  | left _ ih => exact ih
  | right _ ih => exact ih
  | stop => exact List.suffix_refl _
  | again _ _ first second => exact second.trans first

theorem takes_seq : Takes length (.seq r q) s u ↔ ∃ t, Takes length r s t ∧ Takes length q t u := by
  constructor
  · intro h
    cases h with
    | seq first second => exact ⟨_, first, second⟩
  · rintro ⟨t, first, second⟩
    exact .seq first second

theorem takes_alt : Takes length (.alt r q) s t ↔ Takes length r s t ∨ Takes length q s t := by
  constructor
  · intro h
    cases h with
    | left h => exact .inl h
    | right h => exact .inr h
  · rintro (h | h)
    · exact .left h
    · exact .right h

theorem takes_char {k : CharClass} :
    Takes length (.char k) s t ↔ ∃ c, k.holds c = true ∧ s = c :: t := by
  constructor
  · intro h
    cases h with
    | char holds => exact ⟨_, holds, rfl⟩
  · rintro ⟨c, holds, rfl⟩
    exact .char holds

theorem takes_start : Takes length .start s t ↔ s.length = length ∧ t = s := by
  constructor
  · intro h
    cases h with
    | start whole => exact ⟨whole, rfl⟩
  · rintro ⟨whole, rfl⟩
    exact .start whole

theorem mem_repeats {f : Text → List Text} (found : ∀ s t, t ∈ f s ↔ Takes length r s t) (n : Nat)
    (room : s.length ≤ n) : u ∈ repeats f n s ↔ Takes length (.star r) s u := by
  constructor
  · intro member
    clear room
    induction n generalizing s with
    | zero =>
      rw [List.mem_singleton.mp member]
      exact .stop
    | succ n ih =>
      rcases List.mem_append.mp member with later | last
      · obtain ⟨t, first, later⟩ := List.mem_flatMap.mp later
        split at later
        · exact .again ((found s t).mp first) (ih later)
        · cases later
      · rw [List.mem_singleton.mp last]
        exact .stop
  · intro h
    generalize repeated : Regex.star r = p at h
    induction h generalizing n with
    | stop =>
      cases n with
      | zero => exact List.mem_singleton_self _
      | succ n => exact List.mem_append_right _ (List.mem_singleton_self _)
    | @again r' s t u first rest _ ih =>
      cases repeated
      by_cases shorter : t.length < s.length
      · cases n with
        | zero => omega
        | succ n =>
          have later := ih n (by omega) rfl
          apply List.mem_append_left
          apply List.mem_flatMap.mpr
          refine ⟨t, (found s t).mpr first, ?_⟩
          rw [if_pos shorter]
          exact later
      · have same := first.suffix.eq_of_length_le (Nat.not_lt.mp shorter)
        rw [← same]
        rw [← same] at room
        exact ih n room rfl
    | empty => cases repeated
    | start _ => cases repeated
    | char _ => cases repeated
    | seq _ _ _ _ => cases repeated
    | left _ _ => cases repeated
    | right _ _ => cases repeated

theorem mem_rests (r : Regex) (s t : Text) : t ∈ r.rests length s ↔ Takes length r s t := by
  induction r generalizing s t with
  | empty =>
    constructor
    · intro member
      rw [List.mem_singleton.mp member]
      exact .empty
    · intro h
      cases h with
      | empty => exact List.mem_singleton_self _
  | start =>
    rw [takes_start, rests]
    split
    · rename_i whole
      rw [List.mem_singleton]
      exact ⟨fun same => ⟨whole, same⟩, And.right⟩
    · rename_i inside
      exact ⟨fun member => absurd member List.not_mem_nil, fun h => absurd h.1 inside⟩
  | char k =>
    rw [takes_char]
    cases s with
    | nil => simp [rests]
    | cons c s =>
      rw [rests]
      split
      · rename_i holds
        rw [List.mem_singleton]
        constructor
        · rintro rfl
          exact ⟨c, holds, rfl⟩
        · rintro ⟨d, _, same⟩
          exact (List.cons.inj same).2.symm
      · rename_i fails
        constructor
        · intro member
          cases member
        · rintro ⟨d, holds, same⟩
          rw [(List.cons.inj same).1] at fails
          exact absurd holds fails
  | seq r q first second =>
    rw [takes_seq, rests, List.mem_flatMap]
    constructor
    · rintro ⟨u, before, after⟩
      exact ⟨u, (first s u).mp before, (second u t).mp after⟩
    · rintro ⟨u, before, after⟩
      exact ⟨u, (first s u).mpr before, (second u t).mpr after⟩
  | alt r q first second => rw [takes_alt, rests, List.mem_append, first, second]
  | star r ih => exact mem_repeats ih s.length (Nat.le_refl _)

theorem isMatch_iff {r : Regex} {s : Text} : r.isMatch s = true ↔ Takes s.length r s [] := by
  unfold isMatch
  rw [List.contains_iff_mem, mem_rests]

theorem findFrom_some {before rest : Text} (h : r.findFrom length s = some (before, rest)) :
    ∃ here, s = before ++ here ∧ Takes length r here rest := by
  induction s generalizing before with
  | nil =>
    obtain ⟨rest, first, same⟩ := Option.map_eq_some_iff.mp h
    cases same
    exact ⟨[], rfl, (mem_rests r _ _).mp (List.mem_of_mem_head? first)⟩
  | cons c s ih =>
    rw [findFrom] at h
    split at h
    · rename_i first
      cases h
      exact ⟨c :: s, rfl, (mem_rests r _ _).mp (List.mem_of_mem_head? first)⟩
    · obtain ⟨⟨before, rest⟩, later, same⟩ := Option.map_eq_some_iff.mp h
      cases same
      obtain ⟨here, rfl, taken⟩ := ih later
      exact ⟨here, rfl, taken⟩

theorem findFrom_none (h : r.findFrom length s = none) {here rest : Text} (place : here <:+ s) :
    ¬ Takes length r here rest := by
  have nothing : ∀ {t : Text}, (r.rests length t).head? = none → ¬ Takes length r t rest := by
    intro t none taken
    rw [List.head?_eq_none_iff] at none
    have member := (mem_rests r t rest).mpr taken
    rw [none] at member
    cases member
  induction s with
  | nil =>
    rw [List.suffix_nil.mp place]
    exact nothing (Option.map_eq_none_iff.mp h)
  | cons c s ih =>
    rw [findFrom] at h
    split at h
    · cases h
    · rename_i none
      rcases List.suffix_cons_iff.mp place with rfl | later
      · exact nothing none
      · exact ih (Option.map_eq_none_iff.mp h) later

def sequence : List Regex → Regex
  | [] => empty
  | [r] => r
  | r :: rs => seq r (sequence rs)

def items : Regex → List Regex
  | empty => []
  | seq r q => r.items ++ q.items
  | r => [r]

inductive TakesAll (length : Nat) : List Regex → Text → Text → Prop where
  | nil {s : Text} : TakesAll length [] s s
  | cons {r : Regex} {rs : List Regex} {s t u : Text} : Takes length r s t →
      TakesAll length rs t u → TakesAll length (r :: rs) s u

theorem takesAll_append {rs qs : List Regex} :
    TakesAll length (rs ++ qs) s u ↔ ∃ t, TakesAll length rs s t ∧ TakesAll length qs t u := by
  induction rs generalizing s with
  | nil =>
    constructor
    · intro h
      exact ⟨s, .nil, h⟩
    · rintro ⟨t, none, h⟩
      cases none
      exact h
  | cons r rs ih =>
    constructor
    · intro h
      cases h with
      | cons first rest =>
        obtain ⟨t, before, after⟩ := ih.mp rest
        exact ⟨t, .cons first before, after⟩
    · rintro ⟨t, before, after⟩
      cases before with
      | cons first rest => exact .cons first (ih.mpr ⟨t, rest, after⟩)

theorem takesAll_single : TakesAll length [r] s t ↔ Takes length r s t := by
  constructor
  · intro h
    cases h with
    | cons first rest =>
      cases rest
      exact first
  · intro h
    exact .cons h .nil

theorem takes_items : Takes length r s t ↔ TakesAll length r.items s t := by
  induction r generalizing s t with
  | empty =>
    constructor
    · intro h
      cases h
      exact .nil
    · intro h
      cases h
      exact .empty
  | seq r q first second =>
    rw [takes_seq, items, takesAll_append]
    simp only [first, second]
  | start => exact takesAll_single.symm
  | char k => exact takesAll_single.symm
  | alt r q => exact takesAll_single.symm
  | star r => exact takesAll_single.symm

end Regex
end JavaText
