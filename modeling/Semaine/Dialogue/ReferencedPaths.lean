import Semaine.Dialogue.AbstractValue

/-! Which variable a reference in a value expression looks up. -/
namespace Semaine.Dialogue
open JavaText

section
variable (chars : Characters)

def afterDollar (str : Text) : Text := (str.dropWhile (· ≠ '$')).drop 1

/-- The longest name that follows the first `$`. -/
def referencedName (str : Text) : Text := (afterDollar str).takeWhile (isPathCharacter chars)

/-- The characters after the first `$` that are in no name. -/
def foreignCharacters (str : Text) : Text :=
  (afterDollar str).filter fun c => !isPathCharacter chars c

end

theorem rdropWhile_after {α : Type} {p : α → Bool} {c : α} (stops : p c = false)
    (front rest : List α) :
    (front ++ c :: rest).rdropWhile p = front ++ c :: rest.rdropWhile p := by
  induction rest using List.reverseRecOn with
  | nil =>
    rw [List.rdropWhile_concat_neg _ _ _ (by rw [stops]; exact Bool.false_ne_true)]
    rfl
  | append_singleton rest d ih =>
    have regroup : front ++ c :: (rest ++ [d]) = front ++ c :: rest ++ [d] := by simp
    rw [regroup]
    cases own : p d with
    | true => rw [List.rdropWhile_concat_pos _ _ _ own, List.rdropWhile_concat_pos _ _ _ own, ih]
    | false =>
      have notOwn : ¬ p d = true := by rw [own]; exact Bool.false_ne_true
      rw [List.rdropWhile_concat_neg _ _ _ notOwn, List.rdropWhile_concat_neg _ _ _ notOwn, regroup]

variable {chars : Characters}

variable (chars) in
theorem afterDollar_cases {str : Text} (dollar : '$' ∈ str) :
    (afterDollar str = referencedName chars str ∧
        referencedPath chars str = some ⟨'$' :: referencedName chars str, false⟩) ∨
      ∃ c rest, isPathCharacter chars c = false ∧
        afterDollar str = referencedName chars str ++ c :: rest ∧
        referencedPath chars str = some ⟨'$' :: (referencedName chars str ++
          (c :: rest.rdropWhile (isPathCharacter chars)).dropLast),
          (c :: rest.rdropWhile (isPathCharacter chars)).getLast?.any (utf16Size · = 2)⟩ := by
  have found : str.dropWhile (· ≠ '$') = '$' :: afterDollar str := by
    unfold afterDollar
    cases rest : str.dropWhile (· ≠ '$') with
    | nil =>
      rw [List.dropWhile_eq_nil_iff] at rest
      have other := rest '$' dollar
      simp at other
    | cons c cs =>
      have first := List.head_dropWhile_not (fun c => decide (c ≠ '$')) (l := str) (by
        rw [rest]
        exact List.cons_ne_nil c cs)
      simp only [rest, List.head_cons, decide_eq_false_iff_not, not_not] at first
      rw [first]
      rfl
  have taken := List.takeWhile_append_dropWhile (p := isPathCharacter chars) (l := afterDollar str)
  have named : (referencedName chars str).all (isPathCharacter chars) = true :=
    List.all_takeWhile
  unfold referencedPath
  rw [found]
  cases tail : (afterDollar str).dropWhile (isPathCharacter chars) with
  | nil =>
    rw [tail, List.append_nil] at taken
    have all : afterDollar str = referencedName chars str := taken.symm
    have plain : (afterDollar str).all (isPathCharacter chars) = true := by
      rw [all]
      exact named
    refine .inl ⟨all, ?_⟩
    simp only [plain, if_true]
    rw [← all]
  | cons c rest =>
    rw [tail] at taken
    have ends : isPathCharacter chars c = false := by
      have first := List.head_dropWhile_not (isPathCharacter chars) (l := afterDollar str) (by
        rw [tail]
        exact List.cons_ne_nil c rest)
      simpa only [tail, List.head_cons] using first
    have shape : afterDollar str = referencedName chars str ++ c :: rest := taken.symm
    have notAll : (afterDollar str).all (isPathCharacter chars) = false := by
      rw [shape, List.all_append, List.all_cons, ends, Bool.false_and, Bool.and_false]
    have cut : (afterDollar str).rdropWhile (isPathCharacter chars) =
        referencedName chars str ++ c :: rest.rdropWhile (isPathCharacter chars) := by
      rw [shape, rdropWhile_after ends]
    have last : (referencedName chars str ++ c :: rest.rdropWhile (isPathCharacter chars)).getLast? =
        (c :: rest.rdropWhile (isPathCharacter chars)).getLast? := by
      rw [List.getLast?_append_of_ne_nil _ (List.cons_ne_nil _ _)]
    refine .inr ⟨c, rest, ends, shape, ?_⟩
    simp only [notAll, Bool.false_eq_true, if_false]
    rw [cut, last, List.dropLast_append_of_ne_nil (List.cons_ne_nil _ _)]

theorem foreignCharacters_name {str : Text} (all : afterDollar str = referencedName chars str) :
    foreignCharacters chars str = [] := by
  unfold foreignCharacters
  rw [List.filter_eq_nil_iff, all]
  intro c member
  have plain := List.mem_takeWhile_imp member
  rw [plain]
  exact Bool.false_ne_true

theorem foreignCharacters_ended {str : Text} {c : Char} {rest : Text}
    (ends : isPathCharacter chars c = false)
    (shape : afterDollar str = referencedName chars str ++ c :: rest) :
    foreignCharacters chars str = c :: rest.filter fun d => !isPathCharacter chars d := by
  unfold foreignCharacters
  have named : (referencedName chars str).filter (fun d => !isPathCharacter chars d) = [] := by
    rw [List.filter_eq_nil_iff]
    intro d member
    have plain := List.mem_takeWhile_imp member
    rw [plain]
    exact Bool.false_ne_true
  rw [shape, List.filter_append, named, List.nil_append,
    List.filter_cons_of_pos (by rw [ends]; rfl)]

variable {D : Type}

theorem dropDollar_append {segment : Text} (given : segment ≠ []) (more : Text) :
    dropDollar (segment ++ more) = dropDollar segment ++ more := by
  cases segment with
  | nil => exact absurd rfl given
  | cons d rest =>
    by_cases dollar : d = '$'
    · subst dollar
      rfl
    · unfold dropDollar
      simp [dollar]

theorem getValueOfPath_longer (segment : Text) (c : Char) (more : Text) :
    Item.getValueOfPath chars [segment]
      (.record [(dropDollar (segment ++ c :: more), (.string [] : Item D))]) = .ok none := by
  rw [Item.getValueOfPath]
  split
  · rfl
  · rename_i given
    have nonempty : segment ≠ [] := fun empty => given ⟨empty, rfl⟩
    have other : (dropDollar segment == dropDollar segment ++ c :: more) = false := by
      rw [beq_eq_false_iff_ne]
      intro same
      have lengths := congrArg List.length same
      rw [List.length_append, List.length_cons] at lengths
      omega
    rw [dropDollar_append nonempty, List.lookup_cons, other, List.lookup_nil]

variable (chars) in
theorem exists_distinguishing {c : Char} (noDot : c ≠ '.') (run more segment : Text)
    (plain : '.' ∉ segment) : ∃ is : InformationState D,
      is.getValueOfPath chars (segment ++ run ++ c :: more) ≠
        is.getValueOfPath chars (segment ++ run) := by
  induction run generalizing segment with
  | nil =>
    have first : ∃ s rest, segments (c :: more) = (c :: s) :: rest := by
      unfold segments
      rw [List.splitOn_cons_eq_if_modifyHead, if_neg (by simpa using noDot)]
      cases others : more.splitOn '.' with
      | nil => exact absurd others (List.splitOn_ne_nil _ _)
      | cons s rest => exact ⟨s, rest, rfl⟩
    obtain ⟨s, rest, pieces⟩ := first
    have longer : segments (segment ++ [] ++ c :: more) = (segment ++ c :: s) :: rest := by
      rw [List.append_nil, segments_append plain, pieces]
      rfl
    have shorter : segments (segment ++ []) = [segment] := by
      rw [List.append_nil, segments_plain plain]
    refine ⟨[(dropDollar (segment ++ c :: s), .string [])], ?_⟩
    unfold InformationState.getValueOfPath
    rw [longer, shorter]
    have given : ¬ (segment ++ c :: s = [] ∧ rest = []) := by simp
    have found : Item.getValueOfPath chars ((segment ++ c :: s) :: rest)
        (.record [(dropDollar (segment ++ c :: s), (.string [] : Item D))]) =
          .ok (some (.string [])) := by
      rw [Item.getValueOfPath, if_neg given, List.lookup_cons_self]
      cases rest <;> rfl
    have absent : Item.getValueOfPath chars [segment]
        (.record [(dropDollar (segment ++ c :: s), (.string [] : Item D))]) = .ok none :=
      getValueOfPath_longer segment c s
    rw [found, absent]
    exact nofun
  | cons d run ih =>
    by_cases dot : d = '.'
    · obtain ⟨is, different⟩ := ih [] List.not_mem_nil
      subst dot
      refine ⟨[(dropDollar segment, .record is)], ?_⟩
      have inside (path : Text) : InformationState.getValueOfPath chars
          [(dropDollar segment, (.record is : Item D))] (segment ++ '.' :: path) =
            is.getValueOfPath chars path := by
        unfold InformationState.getValueOfPath
        rw [segments_dot plain, Item.getValueOfPath,
          if_neg (fun missing => List.splitOn_ne_nil _ _ missing.2), List.lookup_cons_self]
      have longer := inside (run ++ c :: more)
      have shorter := inside run
      simp only [List.append_assoc, List.cons_append]
      rw [longer, shorter]
      exact different
    · obtain ⟨is, different⟩ := ih (segment ++ [d]) (by simp [plain, Ne.symm dot])
      refine ⟨is, ?_⟩
      simpa using different

theorem utf16Size_pos (c : Char) : 0 < utf16Size c := by
  unfold utf16Size
  split
  · decide
  · decide

theorem units_foreign {str : Text} {c : Char} {rest : Text}
    (ends : isPathCharacter chars c = false)
    (shape : afterDollar str = referencedName chars str ++ c :: rest) :
    units utf16Size (foreignCharacters chars str) ≤ 1 ↔
      rest.rdropWhile (isPathCharacter chars) = [] ∧ utf16Size c ≠ 2 := by
  have one : utf16Size c = 1 ∨ utf16Size c = 2 := by
    unfold utf16Size
    split
    · exact .inl rfl
    · exact .inr rfl
  have none : rest.rdropWhile (isPathCharacter chars) = [] ↔
      rest.filter (fun d => !isPathCharacter chars d) = [] := by
    rw [List.rdropWhile_eq_nil_iff, List.filter_eq_nil_iff]
    refine forall_congr' fun d => forall_congr' fun _ => ?_
    rw [Bool.not_eq_true', Bool.not_eq_false]
  rw [foreignCharacters_ended ends shape, none]
  cases rest.filter (fun d => !isPathCharacter chars d) with
  | nil =>
    rw [and_iff_right rfl]
    simp only [units, List.map_cons, List.map_nil, List.sum_cons, List.sum_nil]
    omega
  | cons d others =>
    have more := units_more utf16Size_pos c d others
    constructor
    · intro few
      omega
    · rintro ⟨⟨⟩, _⟩

variable (chars) in
/-- What is looked up for a value expression is the longest name after its first `$`. -/
def LooksUpName (D : Type) (str : Text) : Prop :=
  referencedPath chars str = some ⟨'$' :: referencedName chars str, false⟩ ∧
    ∀ is : InformationState D, getDynamicValue chars str is =
      is.getValueOfPath chars ('$' :: referencedName chars str)

theorem looksUpName_of_path {str : Text}
    (path : referencedPath chars str = some ⟨'$' :: referencedName chars str, false⟩) :
    LooksUpName chars D str := by
  refine ⟨path, fun is => ?_⟩
  unfold getDynamicValue
  rw [path]
  rfl

/-- A value expression looks up the longest name after its first `$` if and only if at most one
unit after that `$` is in no name. Where the path ends with a character, the values tell it. -/
theorem looksUpName_iff {str : Text} (dollar : '$' ∈ str) :
    (LooksUpName chars D str ↔ units utf16Size (foreignCharacters chars str) ≤ 1) ∧
    ((∀ reference, referencedPath chars str = some reference → reference.half = false) →
      ((∀ is : InformationState D, getDynamicValue chars str is =
          is.getValueOfPath chars ('$' :: referencedName chars str)) ↔
        units utf16Size (foreignCharacters chars str) ≤ 1)) := by
  rcases afterDollar_cases chars dollar with ⟨all, path⟩ | ⟨c, rest, ends, shape, path⟩
  · have found : LooksUpName chars D str := looksUpName_of_path path
    have few : units utf16Size (foreignCharacters chars str) ≤ 1 := by
      rw [foreignCharacters_name all]
      exact Nat.zero_le 1
    exact ⟨iff_of_true found few, fun _ => iff_of_true found.2 few⟩
  · have noDot : c ≠ '.' := by
      rintro rfl
      simp [isPathCharacter] at ends
    rw [units_foreign ends shape]
    cases tail : rest.rdropWhile (isPathCharacter chars) with
    | nil =>
      rw [tail, List.dropLast_singleton, List.append_nil, List.getLast?_singleton,
        Option.any_some] at path
      by_cases pair : utf16Size c = 2
      · rw [decide_eq_true pair] at path
        have other : ¬ LooksUpName chars D str := by
          rintro ⟨name, _⟩
          rw [path] at name
          cases name
        refine ⟨iff_of_false other fun few => few.2 pair, fun whole => ?_⟩
        cases whole _ path
      · rw [decide_eq_false pair] at path
        have found : LooksUpName chars D str := looksUpName_of_path path
        exact ⟨iff_of_true found ⟨rfl, pair⟩, fun _ => iff_of_true found.2 ⟨rfl, pair⟩⟩
    | cons d others =>
      rw [tail, List.dropLast_cons_cons] at path
      have many : ¬ (d :: others = [] ∧ utf16Size c ≠ 2) := fun none => nomatch none.1
      constructor
      · refine iff_of_false ?_ many
        rintro ⟨name, _⟩
        rw [path, Option.some.injEq, Reference.mk.injEq, List.cons.injEq,
          List.append_right_eq_self] at name
        cases name.1.2
      · intro whole
        refine iff_of_false ?_ many
        intro same
        obtain ⟨is, different⟩ := exists_distinguishing chars (D := D) noDot
          (referencedName chars str) (d :: others).dropLast ['$'] (by decide)
        have half : ((c :: d :: others).getLast?.any (utf16Size · = 2)) = false := whole _ path
        rw [half] at path
        have read := same is
        unfold getDynamicValue at read
        rw [path] at read
        exact different read

theorem looksUpName_sum : LooksUpName ascii Rat "1 + $a.b2!".toList :=
  (looksUpName_iff (by decide)).1.mpr (by decide)

/-- A reference before a comma and a blank looks up another variable. -/
theorem sentence_otherVariable : ¬ ∀ (str : Text) (is : InformationState Rat), '$' ∈ str →
    getDynamicValue ascii str is =
      is.getValueOfPath ascii ('$' :: referencedName ascii str) := by
  intro claimed
  have same := claimed "$a, b".toList [("a".toList, .string "x".toList)] (by decide)
  have missing : getDynamicValue ascii "$a, b".toList
      [("a".toList, (.string "x".toList : Item Rat))] = .ok none := rfl
  have there : InformationState.getValueOfPath ascii [("a".toList, (.string "x".toList : Item Rat))]
      ('$' :: referencedName ascii "$a, b".toList) = .ok (some (.string "x".toList)) := rfl
  rw [missing, there] at same
  cases same

end Semaine.Dialogue
