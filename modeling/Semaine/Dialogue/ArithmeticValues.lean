import Semaine.Dialogue.StaticValues

/-! Values that are written as two operands with an arithmetic sign: when they stand for the
result. -/
namespace Semaine.Dialogue
open JavaText JavaFloat

inductive Literal : Text → Value Rat → Prop where
  | integer {t : Text} {n : Int} (read : integer t = some n) (range : IsInt n) :
    Literal t (.integer n)
  | double {t : Text} {q : Rat} (read : decimal t = some q) : Literal t (.double q)

def Item.number : Item Rat → Option Rat
  | .integer n => some n
  | .double q => some q
  | _ => none

def Operator.exact : Operator → Rat → Rat → Rat
  | plus, a, b => a + b
  | minus, a, b => a - b
  | times, a, b => a * b
  | divide, a, b => a / b

section
variable (chars : Characters)

def IsReference (t : Text) : Prop :=
  ∃ path, t = '$' :: path ∧ path.all (isPathCharacter chars) = true

def IsOperand (t : Text) : Prop := (∃ v, Literal t v) ∨ IsReference chars t

def StandsFor (is : InformationState Rat) (t : Text) (v : Value Rat) : Prop :=
  Literal t v ∨
    (IsReference chars t ∧ is.getValueOfPath chars t = .ok (some v) ∧ v.number.isSome = true)

/-- The divisor is not zero, and a result that is an integer is an `int`. -/
def Defined (op : Operator) (v1 v2 : Value Rat) : Prop :=
  (op = .divide → v2.number ≠ some 0) ∧
    ∀ a b n : Int, v1 = .integer a → v2 = .integer b → op ≠ .divide →
      (n : Rat) = op.exact a b → IsInt n

/-- The operands with the sign between them, and any number of blanks around it. -/
def expression (op : Operator) (t1 t2 : Text) (before after : Nat) : Text :=
  t1 ++ List.replicate before ' ' ++ op.sign :: (List.replicate after ' ' ++ t2)

variable (ops : Arithmetic Rat)

def Means (op : Operator) (t1 t2 : Text) (before after : Nat) : Prop :=
  ∃ abstractValue, AbstractValue.new chars ops (expression op t1 t2 before after) =
      .ok abstractValue ∧
    ∀ is v1 v2, StandsFor chars is t1 v1 → StandsFor chars is t2 v2 → Defined op v1 v2 →
      ∃ v a b, abstractValue.getValue chars ops is = .ok (some v) ∧
        v1.number = some a ∧ v2.number = some b ∧ v.number = some (op.exact a b)

theorem pathCharacter_ascii {c : Char} (small : c.val < 128) :
    isPathCharacter chars c = (c.isAlpha || c.isDigit || c == '_' || c == '.') := by
  unfold isPathCharacter
  rw [chars.asciiLetter c small, isDigit_ascii chars small]
  simp [beq_eq_decide]

theorem Literal.numeral {t : Text} {v : Value Rat} (h : Literal t v) : IsNumeral t := by
  cases h with
  | integer read range => exact isNumeral_integer read
  | double read => exact isNumeral_decimal read

theorem Literal.given {t : Text} {v : Value Rat} (h : Literal t v) : t ≠ [] := by
  rintro rfl
  cases h with
  | integer read range => cases read
  | double read => cases read

def IsForeign (c : Char) : Prop :=
  ¬ (c = '-' ∨ c = '.' ∨ c.isDigit = true) ∧ c ≠ '$' ∧ isPathCharacter chars c = false

theorem isForeign_sign {op : Operator} (noMinus : op ≠ .minus) : IsForeign chars op.sign := by
  have path := pathCharacter_ascii chars (c := op.sign) (by cases op <;> decide)
  refine ⟨?_, ?_, path.trans ?_⟩
  · cases op <;> first | decide | exact absurd rfl noMinus
  · cases op <;> decide
  · cases op <;> decide

theorem isForeign_blank : IsForeign chars ' ' := by
  have path := pathCharacter_ascii chars (c := ' ') (by decide)
  exact ⟨by decide, by decide, path.trans (by decide)⟩

theorem IsReference.characters {t : Text} (h : IsReference chars t) {c : Char} (member : c ∈ t) :
    c = '$' ∨ isPathCharacter chars c = true := by
  obtain ⟨path, rfl, plain⟩ := h
  exact (List.mem_cons.mp member).imp_right (List.all_eq_true.mp plain c)

theorem IsOperand.notMem {t : Text} (h : IsOperand chars t) {c : Char}
    (foreign : IsForeign chars c) : c ∉ t := by
  intro member
  rcases h with ⟨v, literal⟩ | reference
  · exact foreign.1 (literal.numeral.cases member)
  · rcases reference.characters chars member with dollar | inPath
    · exact foreign.2.1 dollar
    · cases foreign.2.2.symm.trans inPath

theorem IsReference.noMinus {t : Text} (h : IsReference chars t) : '-' ∉ t := by
  intro member
  rcases h.characters chars member with dollar | inPath
  · cases dollar
  · rw [pathCharacter_ascii chars (by decide)] at inPath
    cases inPath

theorem Literal.noDollar {t : Text} {v : Value Rat} (h : Literal t v) : '$' ∉ t := by
  intro member
  rcases h.numeral.cases member with minus | dot | digit
  · cases minus
  · cases dot
  · cases digit

theorem IsOperand.minus {t : Text} (h : IsOperand chars t) :
    '-' ∈ t ↔ t.head? = some '-' := by
  cases t with
  | nil => simp
  | cons c rest =>
    constructor
    · intro member
      rcases h with ⟨v, literal⟩ | reference
      · rcases List.mem_cons.mp member with first | later
        · rw [← first]
          rfl
        · exact absurd later literal.numeral.tail
      · exact absurd member (reference.noMinus chars)
    · intro first
      cases first
      exact .head rest

theorem mem_expression {op : Operator} {t1 t2 : Text} {before after : Nat} {c : Char}
    (noBlank : c ≠ ' ') :
    c ∈ expression op t1 t2 before after ↔ c ∈ t1 ∨ c = op.sign ∨ c ∈ t2 := by
  unfold expression
  simp [noBlank]

theorem mem_drop_expression {op : Operator} {t1 t2 : Text} {before after : Nat} {c : Char}
    (noBlank : c ≠ ' ') (given : t1 ≠ []) :
    c ∈ (expression op t1 t2 before after).drop 1 ↔ c ∈ t1.drop 1 ∨ c = op.sign ∨ c ∈ t2 := by
  unfold expression
  cases t1 with
  | nil => exact absurd rfl given
  | cons first rest => simp [noBlank]

/-- A minus sign of the second operand is taken for the operator before `*` and `/`. -/
def Misread (op : Operator) (t2 : Text) : Prop :=
  (op = .times ∨ op = .divide) ∧ t2.head? = some '-'

instance (op : Operator) (t2 : Text) : Decidable (Misread op t2) :=
  inferInstanceAs (Decidable (_ ∧ _))

variable {chars} {op : Operator} {t1 t2 : Text}

theorem contains_eq {s : Text} {c : Char} {p : Prop} [Decidable p] (h : c ∈ s ↔ p) :
    s.contains c = decide p := by
  rw [← List.elem_eq_contains, List.elem_eq_mem]
  exact decide_eq_decide.mpr h

variable (op) in
theorem operatorOf_expression (reference : IsReference chars t1) (operand : IsOperand chars t2)
    (before after : Nat) :
    operatorOf (expression op t1 t2 before after) =
      some (if Misread op t2 then .minus else op) := by
  obtain ⟨path, rfl, plain⟩ := reference
  have first : IsOperand chars ('$' :: path) := .inr ⟨path, rfl, plain⟩
  have noMinus : '-' ∉ '$' :: path := IsReference.noMinus chars ⟨path, rfl, plain⟩
  have foreign {other : Operator} (h : other ≠ .minus) :
      (expression op ('$' :: path) t2 before after).contains other.sign =
        decide (other = op) := by
    apply contains_eq
    rw [mem_expression (by cases other <;> decide)]
    have notFirst := first.notMem chars (isForeign_sign chars h)
    have notSecond := operand.notMem chars (isForeign_sign chars h)
    constructor
    · rintro (inFirst | same | inSecond)
      · exact absurd inFirst notFirst
      · cases other <;> cases op <;> first | rfl | cases same
      · exact absurd inSecond notSecond
    · rintro rfl
      exact .inr (.inl rfl)
  have minus : (expression op ('$' :: path) t2 before after).contains '-' =
      decide (op = .minus ∨ t2.head? = some '-') := by
    apply contains_eq
    rw [mem_expression (by decide), operand.minus chars]
    constructor
    · rintro (inFirst | same | inSecond)
      · exact absurd inFirst noMinus
      · cases op <;> first | exact .inl rfl | cases same
      · exact .inr inSecond
    · rintro (rfl | inSecond)
      · exact .inr (.inl rfl)
      · exact .inr (.inr inSecond)
  have later : ((expression op ('$' :: path) t2 before after).drop 1).contains '-' =
      decide (op = .minus ∨ t2.head? = some '-') := by
    apply contains_eq
    rw [mem_drop_expression (by decide) (List.cons_ne_nil _ _), operand.minus chars]
    constructor
    · rintro (inFirst | same | inSecond)
      · exact absurd (List.mem_cons_of_mem _ inFirst) noMinus
      · cases op <;> first | exact .inl rfl | cases same
      · exact .inr inSecond
    · rintro (rfl | inSecond)
      · exact .inr (.inl rfl)
      · exact .inr (.inr inSecond)
  have plus := foreign (show Operator.plus ≠ .minus by decide)
  have divide := foreign (show Operator.divide ≠ .minus by decide)
  have times := foreign (show Operator.times ≠ .minus by decide)
  simp only [Operator.sign] at plus divide times
  unfold operatorOf
  rw [plus, minus, later, divide, times]
  unfold Misread
  by_cases negative : t2.head? = some '-'
  · cases op <;> simp [negative]
  · cases op <;> simp [negative]

variable (op) (t2) in
theorem operatorOf_isSome (given : t1 ≠ []) (before after : Nat) :
    ∃ sign, operatorOf (expression op t1 t2 before after) = some sign := by
  have inside : op.sign ∈ (expression op t1 t2 before after).drop 1 := by
    rw [mem_drop_expression (by cases op <;> decide) given]
    exact .inr (.inl rfl)
  have later := List.contains_iff_mem.mpr inside
  have whole := List.contains_iff_mem.mpr (List.mem_of_mem_drop inside)
  have signs : ∃ sign, (if (expression op t1 t2 before after).contains '+' then
      some Operator.plus
      else if (expression op t1 t2 before after).contains '-' then some .minus
      else if (expression op t1 t2 before after).contains '/' then some .divide
      else some .times) = some sign := by
    repeat' split
    all_goals exact ⟨_, rfl⟩
  unfold operatorOf
  rw [if_pos]
  · exact signs
  · cases op with
    | plus => simp only [Operator.sign] at whole; simp only [whole, Bool.true_or]
    | minus =>
      simp only [Operator.sign] at later
      simp only [later, Bool.or_true, Bool.true_or]
    | divide =>
      simp only [Operator.sign] at whole
      simp only [whole, Bool.or_true, Bool.true_or]
    | times =>
      simp only [Operator.sign] at whole
      simp only [whole, Bool.or_true]

theorem operatorOf_mem {s : Text} {sign : Operator} (h : operatorOf s = some sign) :
    sign.sign ∈ s := by
  unfold operatorOf at h
  split at h
  · rename_i some
    split at h
    · rename_i plus
      cases h
      exact List.contains_iff_mem.mp plus
    · rename_i noPlus
      split at h
      · rename_i minus
        cases h
        exact List.contains_iff_mem.mp minus
      · rename_i noMinus
        split at h
        · rename_i divide
          cases h
          exact List.contains_iff_mem.mp divide
        · rename_i noDivide
          cases h
          have noLater : (s.drop 1).contains '-' = false := by
            cases inside : (s.drop 1).contains '-' with
            | false => rfl
            | true =>
              exact absurd (List.contains_iff_mem.mpr
                (List.mem_of_mem_drop (List.contains_iff_mem.mp inside))) noMinus
          rw [Bool.not_eq_true] at noPlus noDivide
          rw [noPlus, noLater, noDivide, Bool.false_or, Bool.false_or, Bool.false_or] at some
          exact List.contains_iff_mem.mp some
  · cases h

theorem split_at {c : Char} {first : Text} (second : Text) (absent : c ∉ first) :
    (first ++ c :: second).takeWhile (· ≠ c) = first ∧
      ((first ++ c :: second).dropWhile (· ≠ c)).drop 1 = second := by
  have other : ∀ x ∈ first, decide (x ≠ c) = true := by
    intro x member
    rw [decide_eq_true_iff]
    rintro rfl
    exact absent member
  rw [List.takeWhile_append_of_pos other, List.dropWhile_append_of_pos other]
  simp

theorem withoutBlanks_append (s1 s2 : Text) :
    withoutBlanks (s1 ++ s2) = withoutBlanks s1 ++ withoutBlanks s2 := List.filter_append ..

theorem withoutBlanks_replicate (n : Nat) : withoutBlanks (List.replicate n ' ') = [] := by
  unfold withoutBlanks
  rw [List.filter_replicate, if_neg (by decide)]

theorem withoutBlanks_operand {t : Text} (operand : IsOperand chars t) : withoutBlanks t = t := by
  unfold withoutBlanks
  rw [List.filter_eq_self]
  intro c member
  rw [decide_eq_true_iff]
  rintro rfl
  exact operand.notMem chars (isForeign_blank chars) member

variable (chars) (ops : Arithmetic Rat) in
theorem new_split {first second : Text} {sign : Operator}
    (operator : operatorOf (first ++ sign.sign :: second) = some sign)
    (absent : sign.sign ∉ first) (refers : '$' ∈ first ++ sign.sign :: second) :
    AbstractValue.new chars ops (first ++ sign.sign :: second) =
      if '$' ∈ second then
        .ok (.two (withoutBlanks first) sign (withoutBlanks second) none)
      else (getStaticValue chars ops (withoutBlanks second)).map
        (.two (withoutBlanks first) sign (withoutBlanks second)) := by
  obtain ⟨taken, dropped⟩ := split_at second absent
  have dollar : (first ++ sign.sign :: second).contains '$' = true :=
    List.contains_iff_mem.mpr refers
  have kept : (withoutBlanks second).contains '$' = decide ('$' ∈ second) := by
    apply contains_eq
    simp [withoutBlanks]
  unfold AbstractValue.new
  simp only [operator, dollar, taken, dropped, kept]
  by_cases more : '$' ∈ second
  · simp only [more]
    rfl
  · simp only [more]
    cases getStaticValue chars ops (withoutBlanks second) <;> rfl

theorem getDynamicValue_reference {t : Text} (reference : IsReference chars t)
    (is : InformationState Rat) : getDynamicValue chars t is = is.getValueOfPath chars t := by
  obtain ⟨path, rfl, plain⟩ := reference
  unfold getDynamicValue referencedPath
  rw [List.dropWhile_cons_of_neg (by decide)]
  simp only [plain]
  rfl

theorem getDynamicValue_sign {t : Text} (reference : IsReference chars t) {c : Char}
    (foreign : IsForeign chars c) (single : utf16Size c = 1) (is : InformationState Rat) :
    getDynamicValue chars (t ++ [c]) is = is.getValueOfPath chars t := by
  obtain ⟨path, rfl, plain⟩ := reference
  have ended : (path ++ [c]).all (isPathCharacter chars) = false := by
    rw [List.all_append, plain, List.all_cons, foreign.2.2]
    rfl
  have kept : (path ++ [c]).rdropWhile (isPathCharacter chars) = path ++ [c] :=
    List.rdropWhile_concat_neg _ _ _ (by rw [foreign.2.2]; exact Bool.false_ne_true)
  unfold getDynamicValue referencedPath
  rw [List.cons_append, List.dropWhile_cons_of_neg (by decide)]
  simp only [ended, kept, List.dropLast_concat, List.getLast?_concat, Option.any_some, single]
  rfl

theorem getDynamicValue_literal {t : Text} (noDollar : '$' ∉ t) (is : InformationState Rat) :
    getDynamicValue chars t is = .error .templateRun := by
  have nothing : t.dropWhile (· ≠ '$') = [] := by
    rw [List.dropWhile_eq_nil_iff]
    intro c member
    rw [decide_eq_true_iff]
    rintro rfl
    exact noDollar member
  unfold getDynamicValue referencedPath
  rw [nothing]

theorem exists_state {t : Text} (reference : IsReference chars t) {v : Value Rat}
    (atomic : v.number.isSome = true) :
    ∃ is : InformationState Rat, is.getValueOfPath chars t = .ok (some v) := by
  obtain ⟨path, rfl, plain⟩ := reference
  have pieces : ∃ name rest, segments ('$' :: path) = ('$' :: name) :: rest := by
    unfold segments
    rw [List.splitOn_cons_eq_if_modifyHead, if_neg (by decide)]
    cases others : path.splitOn '.' with
    | nil => exact absurd others (List.splitOn_ne_nil _ _)
    | cons name rest => exact ⟨name, rest, rfl⟩
  obtain ⟨name, rest, pieces⟩ := pieces
  refine ⟨[(name, v)], ?_⟩
  unfold InformationState.getValueOfPath
  rw [pieces, Item.getValueOfPath, if_neg (fun missing => List.cons_ne_nil _ _ missing.1)]
  have found : List.lookup (dropDollar ('$' :: name)) [(name, v)] = some v := by
    simp [dropDollar]
  simp only [found]
  cases v with
  | integer n => cases rest <;> rfl
  | double q => cases rest <;> rfl
  | _ => cases atomic

theorem Literal.unique {t : Text} {v w : Value Rat} (hv : Literal t v) (hw : Literal t w) :
    v = w := by
  have apart {n : Int} {q : Rat} (h : JavaText.integer t = some n)
      (h' : decimal t = some q) : False := by
    obtain ⟨whole, fraction, shape, _⟩ := decimal_some h'
    have digits := List.all_eq_true.mp (integer_some h).2 '.'
      (by rw [shape]; exact List.mem_append_right whole (.head fraction))
    cases digits
  cases hv with
  | integer read range =>
    cases hw with
    | integer read' range' =>
      cases read.symm.trans read'
      rfl
    | double read' => exact (apart read read').elim
  | double read =>
    cases hw with
    | integer read' range' => exact (apart read' read).elim
    | double read' =>
      cases read.symm.trans read'
      rfl

theorem Literal.notReference {t : Text} {v : Value Rat} (h : Literal t v) :
    ¬ IsReference chars t := by
  rintro ⟨path, rfl, _⟩
  exact h.noDollar (.head path)

theorem intValue_intCast (parse : Text → Option Rat) (n : Int) :
    (exactArithmetic parse).intValue n = n := by
  change (if 0 ≤ (n : Rat) then (n : Rat).floor else -(-(n : Rat)).floor) = n
  split
  · exact Rat.floor_intCast n
  · rw [← Rat.intCast_neg, Rat.floor_intCast, Int.neg_neg]

theorem exact_intCast {op : Operator} (noDivision : op ≠ .divide) (a b : Int) :
    ∃ n : Int, (n : Rat) = op.exact a b := by
  cases op with
  | plus => exact ⟨a + b, Rat.intCast_add a b⟩
  | minus => exact ⟨a - b, Rat.intCast_sub a b⟩
  | times => exact ⟨a * b, Rat.intCast_mul a b⟩
  | divide => exact absurd rfl noDivision

theorem calc_exact (parse : Text → Option Rat) (op : Operator) (a b : Rat) :
    op.calc (exactArithmetic parse) a b = op.exact a b := by
  cases op <;> rfl

theorem calcValues_number (parse : Text → Option Rat) (op : Operator) {v1 v2 : Value Rat}
    {a b : Rat} (first : v1.number = some a) (second : v2.number = some b) :
    ∃ v, calcValues (exactArithmetic parse) op v1 v2 = .ok v ∧
      v.number = some (op.exact a b) := by
  cases v1 with
  | integer m =>
    cases first
    cases v2 with
    | integer n =>
      cases second
      by_cases division : op = .divide
      · subst division
        exact ⟨_, rfl, rfl⟩
      · obtain ⟨result, exact_⟩ := exact_intCast division m n
        refine ⟨.integer result, ?_, congrArg some exact_⟩
        have calculated := (calc_exact parse op m n).trans exact_.symm
        have truncated := intValue_intCast parse result
        unfold calcValues
        dsimp only
        rw [if_neg division]
        change Except.ok (Item.integer ((exactArithmetic parse).intValue
          (op.calc (exactArithmetic parse) m n))) = _
        rw [calculated, truncated]
    | double q =>
      cases second
      exact ⟨_, rfl, congrArg some (calc_exact parse op m _)⟩
    | _ => cases second
  | double p =>
    cases first
    cases v2 with
    | integer n =>
      cases second
      exact ⟨_, rfl, congrArg some (calc_exact parse op _ n)⟩
    | double q =>
      cases second
      exact ⟨_, rfl, congrArg some (calc_exact parse op _ _)⟩
    | _ => cases second
  | _ => cases first

theorem literal_static {parse : Text → Option Rat}
    (reads : ReadsDecimals chars (exactArithmetic parse) id) (apart : LettersApart chars)
    {t : Text} {v : Value Rat} (h : Literal t v) :
    getStaticValue chars (exactArithmetic parse) t = .ok (some v) := by
  cases h with
  | integer read range => exact getStaticValue_of_integer apart read range
  | double read => exact getStaticValue_of_decimal reads apart read

theorem literal_unsigned {parse : Text → Option Rat}
    (reads : ReadsDecimals chars (exactArithmetic parse) id) (apart : LettersApart chars)
    {u : Text} {v : Value Rat} (h : Literal ('-' :: u) v) {value : Option (Value Rat)}
    (static : getStaticValue chars (exactArithmetic parse) u = .ok value) :
    ∃ w a, value = some w ∧ v.number = some a ∧ w.number = some (-a) := by
  have unsigned : minusOf u = (false, u) := by
    have tail := h.numeral.tail
    cases u with
    | nil => rfl
    | cons c rest =>
      apply minusOf_cons
      rintro rfl
      exact tail (.head rest)
  cases h with
  | integer read range =>
    rename_i n
    have positive : JavaText.integer u = some (-n) := by
      have value : (if u ≠ [] ∧ u.all Char.isDigit then
          some (signed true (Nat.ofDigitChars 10 u 0 : Int)) else none) = some n := read
      unfold JavaText.integer
      rw [unsigned]
      dsimp only
      split at value
      · rename_i digits
        rw [if_pos digits, ← Option.some.inj value]
        exact congrArg some (Int.neg_neg _).symm
      · cases value
    have numeral := isNumeral_integer positive
    have given : trim u ≠ [] := by
      rw [numeral.trim]
      rintro rfl
      cases positive
    have shaped : isIntegerShaped chars (trim u) = true := by
      rw [numeral.trim]
      exact isIntegerShaped_integer chars positive
    have parsed := getStaticValue_integer chars (exactArithmetic parse) given apart shaped
    rw [numeral.trim, parseInt_integer chars positive, static] at parsed
    split at parsed
    · rename_i found
      cases parsed
      split at found
      · cases found
        refine ⟨_, n, rfl, rfl, ?_⟩
        exact congrArg some (Rat.intCast_neg n)
      · cases found
    · cases parsed
  | double read =>
    rename_i q
    have positive : decimal u = some (-q) := by
      have negative : minusOf ('-' :: u) = (true, u) := rfl
      unfold decimal at read ⊢
      rw [negative] at read
      rw [unsigned]
      dsimp only at read ⊢
      split at read
      · rename_i whole fraction pieces
        split at read
        · rename_i digits
          rw [if_pos digits, ← Option.some.inj read]
          exact congrArg some (Rat.neg_neg _).symm
        · cases read
      · cases read
    have parsed := getStaticValue_of_decimal reads apart positive
    cases parsed.symm.trans static
    exact ⟨_, q, rfl, rfl, rfl⟩

variable {parse : Text → Option Rat}

variable (parse) in
theorem getValue_calculates {valueString : Text} (operator : Operator) (valueString2 : Text)
    {value2 : Option (Value Rat)} {is : InformationState Rat} {v1 v2 : Value Rat} {a b : Rat}
    (first : getDynamicValue chars valueString is = .ok (some v1))
    (second : value2 = some v2 ∨
      (value2 = none ∧ getDynamicValue chars valueString2 is = .ok (some v2)))
    (number1 : v1.number = some a) (number2 : v2.number = some b) :
    ∃ v, (AbstractValue.two valueString operator valueString2 value2).getValue chars
        (exactArithmetic parse) is = .ok (some v) ∧ v.number = some (operator.exact a b) := by
  obtain ⟨v, calculated, number⟩ := calcValues_number parse operator number1 number2
  refine ⟨v, ?_, number⟩
  unfold AbstractValue.getValue
  rcases second with rfl | ⟨rfl, second⟩
  · simp only [first, calculated, bind, Except.bind, pure, Except.pure, Except.map]
  · simp only [first, second, calculated, bind, Except.bind, Except.map]

theorem getValue_noReference {valueString valueString2 : Text} {operator : Operator}
    {value2 : Option (Value Rat)} (noDollar : '$' ∉ valueString) (is : InformationState Rat) :
    (AbstractValue.two valueString operator valueString2 value2).getValue chars
      (exactArithmetic parse) is = .error .templateRun := by
  unfold AbstractValue.getValue
  dsimp only
  rw [getDynamicValue_literal noDollar]
  rfl

theorem StandsFor.literal {is : InformationState Rat} {t : Text} {v w : Value Rat}
    (stands : StandsFor chars is t v) (literal : Literal t w) : v = w := by
  rcases stands with same | ⟨reference, _⟩
  · exact same.unique literal
  · exact absurd reference literal.notReference

theorem StandsFor.reference {is : InformationState Rat} {t : Text} {v : Value Rat}
    (stands : StandsFor chars is t v) (reference : IsReference chars t) :
    is.getValueOfPath chars t = .ok (some v) := by
  rcases stands with literal | ⟨_, read, _⟩
  · exact absurd reference literal.notReference
  · exact read

theorem Literal.number {t : Text} {v : Value Rat} (h : Literal t v) :
    v.number.isSome = true := by
  cases h <;> rfl

theorem StandsFor.number {is : InformationState Rat} {t : Text} {v : Value Rat}
    (stands : StandsFor chars is t v) : ∃ a, v.number = some a := by
  apply Option.isSome_iff_exists.mp
  rcases stands with literal | ⟨_, _, number⟩
  · exact literal.number
  · exact number

theorem means_of_reference (reads : ReadsDecimals chars (exactArithmetic parse) id)
    (apart : LettersApart chars) (reference : IsReference chars t1) (operand : IsOperand chars t2)
    (read : ¬ Misread op t2) (before after : Nat) :
    Means chars (exactArithmetic parse) op t1 t2 before after := by
  have operator := operatorOf_expression op reference operand before after
  rw [if_neg read] at operator
  have absent : op.sign ∉ t1 ++ List.replicate before ' ' := by
    rw [List.mem_append, not_or]
    constructor
    · by_cases minus : op = .minus
      · subst minus
        exact reference.noMinus chars
      · exact IsOperand.notMem chars (.inr reference) (isForeign_sign chars minus)
    · intro blank
      have same := List.eq_of_mem_replicate blank
      cases op <;> cases same
  have refers : '$' ∈ expression op t1 t2 before after := by
    obtain ⟨path, rfl, _⟩ := reference
    rw [mem_expression (by decide)]
    exact .inl (.head path)
  have first : withoutBlanks (t1 ++ List.replicate before ' ') = t1 := by
    rw [withoutBlanks_append, withoutBlanks_replicate, List.append_nil,
      withoutBlanks_operand (.inr reference)]
  have second : withoutBlanks (List.replicate after ' ' ++ t2) = t2 := by
    rw [withoutBlanks_append, withoutBlanks_replicate, List.nil_append,
      withoutBlanks_operand operand]
  have made := new_split chars (exactArithmetic parse) operator absent refers
  rw [first, second] at made
  have dollar : '$' ∈ List.replicate after ' ' ++ t2 ↔ '$' ∈ t2 := by simp
  by_cases more : '$' ∈ t2
  · rw [if_pos (dollar.mpr more)] at made
    have reference2 : IsReference chars t2 :=
      operand.resolve_left fun ⟨v, literal⟩ => literal.noDollar more
    refine ⟨_, made, fun is v1 v2 stands1 stands2 _ => ?_⟩
    obtain ⟨a, number1⟩ := stands1.number
    obtain ⟨b, number2⟩ := stands2.number
    have read1 := (getDynamicValue_reference reference is).trans (stands1.reference reference)
    have read2 := (getDynamicValue_reference reference2 is).trans (stands2.reference reference2)
    obtain ⟨v, evaluated, number⟩ :=
      getValue_calculates parse op t2 read1 (.inr ⟨rfl, read2⟩) number1 number2
    exact ⟨v, a, b, evaluated, number1, number2, number⟩
  · rw [if_neg (mt dollar.mp more)] at made
    obtain ⟨w, literal⟩ : ∃ w, Literal t2 w := by
      refine operand.resolve_right ?_
      rintro ⟨path, rfl, _⟩
      exact more (.head path)
    rw [literal_static reads apart literal] at made
    refine ⟨_, made, fun is v1 v2 stands1 stands2 _ => ?_⟩
    obtain ⟨a, number1⟩ := stands1.number
    obtain ⟨b, number2⟩ := stands2.number
    have read1 := (getDynamicValue_reference reference is).trans (stands1.reference reference)
    have same := stands2.literal literal
    obtain ⟨v, evaluated, number⟩ :=
      getValue_calculates parse op t2 read1 (.inl (congrArg some same.symm)) number1 number2
    exact ⟨v, a, b, evaluated, number1, number2, number⟩

theorem not_means_misread (reads : ReadsDecimals chars (exactArithmetic parse) id)
    (apart : LettersApart chars) (reference : IsReference chars t1) (operand : IsOperand chars t2)
    (misread : Misread op t2) (divisor : op = .divide → ∀ v, Literal t2 v → v.number ≠ some 0)
    (before after : Nat) : ¬ Means chars (exactArithmetic parse) op t1 t2 before after := by
  have noMinus : op ≠ .minus := by
    rintro rfl
    rcases misread.1 with same | same <;> cases same
  obtain ⟨u, rfl⟩ : ∃ u, t2 = '-' :: u := by
    cases t2 with
    | nil => cases misread.2
    | cons c u => exact ⟨u, by rw [Option.some.inj misread.2]⟩
  obtain ⟨w, literal⟩ : ∃ w, Literal ('-' :: u) w := by
    refine operand.resolve_right ?_
    rintro ⟨path, same, _⟩
    cases same
  have operator := operatorOf_expression op reference operand before after
  rw [if_pos misread] at operator
  have shape : expression op t1 ('-' :: u) before after =
      (t1 ++ List.replicate before ' ' ++ op.sign :: List.replicate after ' ') ++
        Operator.minus.sign :: u := by
    simp [expression, Operator.sign]
  have absent : Operator.minus.sign ∉
      t1 ++ List.replicate before ' ' ++ op.sign :: List.replicate after ' ' := by
    intro member
    simp only [List.mem_append, List.mem_cons, List.mem_replicate] at member
    rcases member with (inFirst | ⟨_, blank⟩) | same | ⟨_, blank⟩
    · exact reference.noMinus chars inFirst
    · cases blank
    · cases op <;> first | exact noMinus rfl | cases same
    · cases blank
  have refers : '$' ∈ expression op t1 ('-' :: u) before after := by
    obtain ⟨path, rfl, _⟩ := reference
    rw [mem_expression (by decide)]
    exact .inl (.head path)
  have first : withoutBlanks
      (t1 ++ List.replicate before ' ' ++ op.sign :: List.replicate after ' ') =
        t1 ++ [op.sign] := by
    have sign : withoutBlanks [op.sign] = [op.sign] := by cases op <;> rfl
    rw [← List.singleton_append (l := List.replicate after ' '), withoutBlanks_append,
      withoutBlanks_append, withoutBlanks_append, withoutBlanks_replicate,
      withoutBlanks_replicate, withoutBlanks_operand (.inr reference), sign, List.append_nil,
      List.append_nil]
  have second : withoutBlanks u = u :=
    (List.cons.inj (withoutBlanks_operand operand)).2
  have noDollar : '$' ∉ u := fun member => literal.noDollar (List.mem_cons_of_mem _ member)
  have made := new_split chars (exactArithmetic parse) (shape ▸ operator) absent (shape ▸ refers)
  rw [if_neg noDollar, first, second, ← shape] at made
  rintro ⟨abstractValue, constructs, means⟩
  rw [made] at constructs
  cases static : getStaticValue chars (exactArithmetic parse) u with
  | error e =>
    rw [static] at constructs
    cases constructs
  | ok value =>
    rw [static] at constructs
    cases constructs
    obtain ⟨v2, b, rfl, number, unsigned⟩ := literal_unsigned reads apart literal static
    have agrees {v1 : Value Rat} {a : Rat} (number1 : v1.number = some a)
        (defined : Defined op v1 w) : op.exact a b = a - -b := by
      have atomic : v1.number.isSome = true := by rw [number1]; rfl
      obtain ⟨is, found⟩ := exists_state reference atomic
      have read := (getDynamicValue_sign reference (isForeign_sign chars noMinus)
        (by cases op <;> rfl) is).trans found
      obtain ⟨v, evaluated, minus⟩ :=
        getValue_calculates parse .minus u read (.inl rfl) number1 unsigned
      obtain ⟨v', a', b', evaluated', same1, same2, result⟩ :=
        means is v1 w (.inr ⟨reference, found, atomic⟩) (.inl literal) defined
      cases evaluated.symm.trans evaluated'
      cases number1.symm.trans same1
      cases number.symm.trans same2
      exact Option.some.inj (result.symm.trans minus)
    rcases misread.1 with rfl | rfl
    · have one : (1 : Rat) * b = 1 - -b := by
        apply agrees (show Item.number (.integer 1) = some 1 from rfl)
        refine ⟨nofun, fun m n result first second _ product => ?_⟩
        cases first
        cases second
        have same : n = result := by
          rw [Operator.exact, Int.cast_one, one_mul] at product
          exact_mod_cast product.symm
        cases literal with
        | integer read range => exact same ▸ range
      linarith
    · have zero : (0 : Rat) / b = 0 - -b := by
        apply agrees (show Item.number (.integer 0) = some 0 from rfl)
        exact ⟨fun _ => divisor rfl w literal, fun _ _ _ _ _ division => absurd rfl division⟩
      apply divisor rfl w literal
      rw [number, ← neg_neg b, ← zero_sub (-b), ← zero, zero_div]

theorem not_means_literal {v : Value Rat} (literal : Literal t1 v) (operand : IsOperand chars t2)
    (before after : Nat) : ¬ Means chars (exactArithmetic parse) op t1 t2 before after := by
  rintro ⟨abstractValue, constructs, means⟩
  rcases operand with ⟨w, literal2⟩ | reference
  · have noDollar : (expression op t1 t2 before after).contains '$' = false := by
      rw [contains_eq (p := False)]
      · rfl
      · rw [mem_expression (by decide)]
        refine iff_of_false ?_ id
        rintro (inFirst | same | inSecond)
        · exact literal.noDollar inFirst
        · cases op <;> cases same
        · exact literal2.noDollar inSecond
    obtain ⟨sign, operator⟩ := operatorOf_isSome op t2 literal.given before after
    rw [new_static chars _ noDollar, operator] at constructs
    cases constructs
  · obtain ⟨sign, operator⟩ := operatorOf_isSome op t2 literal.given before after
    have dollar2 : '$' ∈ t2 := by
      obtain ⟨path, rfl, _⟩ := reference
      exact .head path
    have early : sign.sign ∈ t1 ++ List.replicate before ' ' ++ [op.sign] := by
      have member := operatorOf_mem operator
      rw [mem_expression (by cases sign <;> decide)] at member
      rcases member with inFirst | same | inSecond
      · exact List.mem_append_left _ (List.mem_append_left _ inFirst)
      · exact List.mem_append_right _ (List.mem_singleton.mpr same)
      · by_cases minus : sign = .minus
        · subst minus
          exact absurd inSecond (reference.noMinus chars)
        · exact absurd inSecond
            (IsOperand.notMem chars (.inr reference) (isForeign_sign chars minus))
    obtain ⟨first, rest, parts, absent⟩ := List.eq_append_cons_of_mem early
    have shape : expression op t1 t2 before after =
        first ++ sign.sign :: (rest ++ List.replicate after ' ' ++ t2) := by
      have joined : expression op t1 t2 before after =
          (t1 ++ List.replicate before ' ' ++ [op.sign]) ++ (List.replicate after ' ' ++ t2) := by
        simp [expression]
      rw [joined, parts]
      simp
    have noDollar : '$' ∉ first := by
      intro member
      have inside : '$' ∈ t1 ++ List.replicate before ' ' ++ [op.sign] := by
        rw [parts]
        exact List.mem_append_left _ member
      simp only [List.mem_append, List.mem_replicate, List.mem_singleton] at inside
      rcases inside with (inFirst | ⟨_, blank⟩) | same
      · exact literal.noDollar inFirst
      · cases blank
      · cases op <;> cases same
    have later : '$' ∈ rest ++ List.replicate after ' ' ++ t2 := List.mem_append_right _ dollar2
    have made := new_split chars (exactArithmetic parse) (shape ▸ operator) absent
      (List.mem_append_right first (List.mem_cons_of_mem _ later))
    rw [if_pos later, ← shape] at made
    cases made.symm.trans constructs
    obtain ⟨is, found⟩ := exists_state reference (v := .double 1) rfl
    have defined : Defined op v (.double 1) :=
      ⟨fun _ same => one_ne_zero (Option.some.inj same), fun _ _ _ _ second => nomatch second⟩
    obtain ⟨v', _, _, evaluated, _⟩ := means is v (.double 1) (.inl literal)
      (.inr ⟨reference, found, rfl⟩) defined
    have failed : (AbstractValue.two (withoutBlanks first) sign
        (withoutBlanks (rest ++ List.replicate after ' ' ++ t2)) none).getValue chars
          (exactArithmetic parse) is = .error .templateRun :=
      getValue_noReference (fun member => noDollar (List.mem_of_mem_filter member)) is
    cases failed.symm.trans evaluated

/-- Two operands with a sign stand for the result exactly if the first is a reference, and the
second not a negative number behind `*` or `/`. -/
theorem means_iff (reads : ReadsDecimals chars (exactArithmetic parse) id)
    (apart : LettersApart chars) (operand1 : IsOperand chars t1) (operand2 : IsOperand chars t2)
    (divisor : op = .divide → ∀ v, Literal t2 v → v.number ≠ some 0) (before after : Nat) :
    Means chars (exactArithmetic parse) op t1 t2 before after ↔
      IsReference chars t1 ∧ ¬ Misread op t2 := by
  rcases operand1 with ⟨v, literal⟩ | reference
  · exact iff_of_false (not_means_literal literal operand2 before after)
      fun condition => literal.notReference condition.1
  · by_cases misread : Misread op t2
    · exact iff_of_false
        (not_means_misread reads apart reference operand2 misread divisor before after)
        fun condition => condition.2 misread
    · exact iff_of_true (means_of_reference reads apart reference operand2 misread before after)
        ⟨reference, misread⟩

end

theorem isReference_n : IsReference ascii ['$', 'n'] := ⟨['n'], rfl, rfl⟩

theorem literal_minusFive : Literal ['-', '5'] (.integer (-5)) :=
  .integer (by decide) (by decide)

theorem means_iff_sum :
    Means ascii exactDecimals .plus ['$', 'n'] ['-', '5'] 1 1 ↔
      IsReference ascii ['$', 'n'] ∧ ¬ Misread .plus ['-', '5'] :=
  means_iff exactDecimals_reads ascii_lettersApart (.inr isReference_n)
    (.inl ⟨_, literal_minusFive⟩) (fun same : Operator.plus = .divide => nomatch same) 1 1

/-- Three times minus five is taken for three minus five; with the literal on the left nothing is
calculated, and two literals are no value at all. -/
theorem product_wrong :
    let is : InformationState Rat := [(['n'], .integer 3)]
    AbstractValue.new ascii exactDecimals "$n * -5".toList =
      .ok (.two "$n*".toList .minus "5".toList (some (.integer 5))) ∧
    (AbstractValue.two "$n*".toList .minus "5".toList (some (.integer 5))).getValue ascii
      exactDecimals is = .ok (some (.integer (-2))) ∧
    AbstractValue.new ascii exactDecimals "5 * $n".toList =
      .ok (.two "5".toList .times "$n".toList none) ∧
    (AbstractValue.two "5".toList .times "$n".toList none).getValue ascii exactDecimals is =
      .error .templateRun ∧
    AbstractValue.new ascii exactDecimals "5 * 3".toList = .error .runtime ∧
    ¬ Means ascii exactDecimals .times ['$', 'n'] ['-', '5'] 1 1 := by
  have difference : ((3 : Int) : Rat) - (5 : Int) = (-2 : Int) := by norm_num
  refine ⟨rfl, ?_, rfl, rfl, rfl, ?_⟩
  · change Except.ok (some (Item.integer ((exactArithmetic decimal).intValue
      (((3 : Int) : Rat) - (5 : Int))))) = _
    rw [difference, intValue_intCast]
  · exact not_means_misread exactDecimals_reads ascii_lettersApart isReference_n
      (.inl ⟨_, literal_minusFive⟩) (by decide)
      (fun same : Operator.times = .divide => nomatch same) 1 1

end Semaine.Dialogue
