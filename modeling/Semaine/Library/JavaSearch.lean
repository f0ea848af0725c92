import Semaine.Library.JavaText

/-! Searching a text that consists of pieces: a pattern without the character at a boundary
occurs in one of the two sides. -/
namespace JavaText

/-- What follows a piece starts with a character that the pattern does not have. -/
def Bounded (rest pattern : Text) : Prop := ∀ c ∈ rest.head?, c ∉ pattern

theorem startsWith_append {rest pattern : Text} (bounded : Bounded rest pattern) (piece : Text) :
    startsWith (piece ++ rest) pattern = startsWith piece pattern := by
  unfold startsWith
  induction piece generalizing pattern with
  | nil =>
    cases pattern with
    | nil => rfl
    | cons d pattern =>
      cases rest with
      | nil => rfl
      | cons c rest =>
        have other : (d == c) = false := by
          rw [beq_eq_false_iff_ne]
          rintro rfl
          exact bounded d rfl (.head pattern)
        rw [List.nil_append, List.isPrefixOf_cons_cons, other]
        rfl
  | cons c piece ih =>
    cases pattern with
    | nil => rfl
    | cons d pattern =>
      have later : Bounded rest pattern := fun e first member => bounded e first (.tail d member)
      rw [List.cons_append, List.isPrefixOf_cons_cons, List.isPrefixOf_cons_cons, ih later]

theorem textAfter_append {rest pattern piece : Text} (bounded : Bounded rest pattern)
    (absent : containsText piece pattern = false) :
    textAfter pattern (piece ++ rest) = textAfter pattern rest := by
  induction piece with
  | nil => rfl
  | cons c piece ih =>
    unfold containsText textAfter at absent
    split at absent
    · cases absent
    · rename_i differs
      rw [List.cons_append, textAfter, ← List.cons_append, startsWith_append bounded, if_neg differs]
      exact ih absent

theorem containsText_append {rest pattern : Text} (bounded : Bounded rest pattern)
    (given : pattern ≠ []) (piece : Text) :
    containsText (piece ++ rest) pattern =
      (containsText piece pattern || containsText rest pattern) := by
  induction piece with
  | nil =>
    have nothing : containsText [] pattern = false := by
      unfold containsText textAfter
      rw [if_neg given]
      rfl
    rw [nothing, Bool.false_or]
    rfl
  | cons c piece ih =>
    unfold containsText at ih ⊢
    rw [List.cons_append, textAfter, ← List.cons_append, startsWith_append bounded, textAfter]
    split
    · rfl
    · exact ih

theorem replaceAll_turns {pattern : Text} (given : pattern ≠ []) (replacement : Text) {s : Text}
    {turns : Nat} (enough : s.length ≤ turns) :
    replaceAll pattern replacement turns s = replaceAll pattern replacement s.length s := by
  induction turns using Nat.strongRecOn generalizing s with
  | ind turns ih =>
    cases s with
    | nil => cases turns <;> rfl
    | cons c cs =>
      cases turns with
      | zero => cases enough
      | succ turns =>
        rw [List.length_cons] at enough ⊢
        unfold replaceAll
        have dropped : ((c :: cs).drop pattern.length).length ≤ cs.length := by
          have positive := List.length_pos_of_ne_nil given
          rw [List.length_drop, List.length_cons]
          omega
        have here := ih turns (by omega) (s := (c :: cs).drop pattern.length) (by omega)
        have there := ih cs.length (by omega) dropped
        have next := ih turns (by omega) (s := cs) (by omega)
        rw [here, there, next]

theorem replaceAll_append {rest pattern : Text} (bounded : Bounded rest pattern)
    (given : pattern ≠ []) (replacement : Text) {piece : Text} {turns : Nat}
    (enough : (piece ++ rest).length ≤ turns) :
    replaceAll pattern replacement turns (piece ++ rest) =
      replaceAll pattern replacement piece.length piece ++
        replaceAll pattern replacement rest.length rest := by
  induction turns using Nat.strongRecOn generalizing piece with
  | ind turns ih =>
    cases piece with
    | nil => exact replaceAll_turns given replacement enough
    | cons c cs =>
      cases turns with
      | zero => cases enough
      | succ turns =>
        rw [List.length_append, List.length_cons] at enough
        rw [List.cons_append, List.length_cons, replaceAll, replaceAll, ← List.cons_append,
          startsWith_append bounded]
        split
        · rename_i starts
          have positive := List.length_pos_of_ne_nil given
          have inside : pattern.length ≤ (c :: cs).length :=
            (List.isPrefixOf_iff_prefix.mp starts).length_le
          have dropped : ((c :: cs).drop pattern.length).length ≤ cs.length := by
            rw [List.length_drop, List.length_cons]
            omega
          rw [List.drop_append_of_le_length inside, List.append_assoc,
            ih turns (by omega) (by rw [List.length_append]; omega),
            replaceAll_turns given replacement dropped]
        · rw [ih turns (by omega) (by rw [List.length_append]; omega), List.cons_append]

theorem replaceAll_absent {pattern s : Text} (absent : containsText s pattern = false)
    (replacement : Text) (turns : Nat) : replaceAll pattern replacement turns s = s := by
  induction turns generalizing s with
  | zero => rfl
  | succ turns ih =>
    cases s with
    | nil => rfl
    | cons c cs =>
      unfold containsText textAfter at absent
      split at absent
      · cases absent
      · rename_i differs
        rw [replaceAll, if_neg differs, ih absent]

def separated (sep : Char) (words : List Text) : Text := words.flatMap (sep :: ·)

theorem separated_cons (sep : Char) (word : Text) (words : List Text) :
    separated sep (word :: words) = sep :: (word ++ separated sep words) := rfl

section
variable {sep : Char} {pattern : Text}

theorem startsWith_separator (foreign : sep ∉ pattern) (given : pattern ≠ []) (s : Text) :
    startsWith (sep :: s) pattern = false := by
  cases pattern with
  | nil => exact absurd rfl given
  | cons d pattern =>
    have other : (d == sep) = false := by
      rw [beq_eq_false_iff_ne]
      rintro rfl
      exact foreign (.head pattern)
    unfold startsWith
    rw [List.isPrefixOf_cons_cons, other]
    rfl

theorem textAfter_separator (foreign : sep ∉ pattern) (given : pattern ≠ []) (s : Text) :
    textAfter pattern (sep :: s) = textAfter pattern s := by
  rw [textAfter, startsWith_separator foreign given]
  exact if_neg Bool.false_ne_true

theorem bounded_separated (foreign : sep ∉ pattern) (words : List Text) (rest : Text) :
    Bounded (separated sep words ++ sep :: rest) pattern := by
  intro c first
  cases words with
  | nil =>
    cases first
    exact foreign
  | cons word words =>
    cases first
    exact foreign

theorem bounded_words (foreign : sep ∉ pattern) (words : List Text) :
    Bounded (separated sep words) pattern := by
  intro c first
  cases words with
  | nil => cases first
  | cons word words =>
    cases first
    exact foreign

theorem containsText_separated (foreign : sep ∉ pattern) (given : pattern ≠ [])
    (words : List Text) :
    containsText (separated sep words) pattern = words.any (containsText · pattern) := by
  induction words with
  | nil =>
    unfold separated containsText
    rw [List.flatMap_nil, textAfter, if_neg given]
    rfl
  | cons word words ih =>
    have passed : containsText (separated sep (word :: words)) pattern =
        containsText (word ++ separated sep words) pattern := by
      unfold containsText
      rw [separated_cons, textAfter_separator foreign given]
    rw [passed, containsText_append (bounded_words foreign words) given, ih, List.any_cons]

theorem textAfter_separated (foreign : sep ∉ pattern) (given : pattern ≠ []) {words : List Text}
    (absent : ∀ word ∈ words, containsText word pattern = false) (rest : Text) :
    textAfter pattern (separated sep words ++ sep :: (pattern ++ rest)) = some rest := by
  induction words with
  | nil =>
    have starts : startsWith (pattern ++ rest) pattern = true :=
      List.isPrefixOf_iff_prefix.mpr (List.prefix_append pattern rest)
    have after : textAfter pattern (pattern ++ rest) = some rest := by
      cases whole : pattern ++ rest with
      | nil => exact absurd (List.append_eq_nil_iff.mp whole).1 given
      | cons c cs =>
        rw [textAfter, ← whole, starts, List.drop_left]
        exact if_pos rfl
    rw [separated, List.flatMap_nil, List.nil_append, textAfter_separator foreign given, after]
  | cons word words ih =>
    have own := absent word (.head words)
    have later := ih fun other member => absent other (.tail word member)
    rw [separated_cons, List.cons_append, textAfter_separator foreign given, List.append_assoc,
      textAfter_append (bounded_separated foreign words _) own, later]

theorem replaceAll_separated (foreign : sep ∉ pattern) (given : pattern ≠ []) (replacement : Text)
    (words : List Text) :
    replaceAll pattern replacement (separated sep words).length (separated sep words) =
      separated sep (words.map fun word => replaceAll pattern replacement word.length word) := by
  induction words with
  | nil => rfl
  | cons word words ih =>
    rw [separated_cons, List.length_cons, replaceAll, startsWith_separator foreign given,
      if_neg Bool.false_ne_true,
      replaceAll_append (bounded_words foreign words) given replacement (Nat.le_refl _), ih,
      List.map_cons, separated_cons]

end

end JavaText
