import Semaine.Xml.PathAgreement

/-! Expressions in the notation that the splitter in Java documents, and when it splits them into
what they were written from. -/
namespace Semaine.Xml
open JavaText

section
variable {front text rest : Text} {c : Char}

theorem getElem?_behind (front text : Text) (n : Nat) :
    (front ++ text)[front.length + n]? = text[n]? := by
  rw [List.getElem?_append_right (Nat.le_add_right _ _), Nat.add_sub_cancel_left]

theorem slice_behind (front text rest : Text) :
    slice (front ++ (text ++ rest)) front.length (front.length + text.length) = text := by
  unfold slice
  rw [List.take_length_add_append, List.drop_left, List.take_left]

theorem slice_at {expr : Text} {start stop : Nat} (before text rest : Text)
    (whole : expr = before ++ (text ++ rest)) (first : start = before.length)
    (last : stop = before.length + text.length) : slice expr start stop = text := by
  rw [whole, first, last]
  exact slice_behind before text rest

theorem indexOf_behind (free : c ∉ text) :
    indexOf (front ++ (text ++ c :: rest)) c front.length = some (front.length + text.length) := by
  unfold indexOf
  rw [List.drop_left, Option.map_eq_some_iff]
  refine ⟨text.length, ?_, rfl⟩
  rw [List.findIdx?_append, List.findIdx?_eq_none_iff.mpr, List.findIdx?_cons]
  · simp
  · intro d inText
    rw [beq_eq_false_iff_ne]
    rintro rfl
    exact free inText

theorem indexOf_later {i : Nat} (free : c ∉ text)
    (found : indexOf (front ++ (text ++ rest)) c front.length = some i) :
    front.length + text.length ≤ i := by
  obtain ⟨after, here, _⟩ := indexOf_spec found
  by_contra before
  have place : i = front.length + (i - front.length) := by omega
  rw [place, getElem?_behind, List.getElem?_append_left (by omega)] at here
  exact free (List.mem_of_getElem? here)

end

def special (c : Char) : Bool := "/:[]@='".toList.contains c

structure Name where
  text : Text
  given : text ≠ []
  plain : text.all (fun c => !special c) = true

/-- `( prefix ":" ) ? localname ( "[" "@" attName ( "=" "'" attValue "'" ) ? "]" ) ?` -/
structure ElementPart where
  nsPrefix : Option Name
  localName : Name
  test : Option (Name × Option { value : Text // '\'' ∉ value })

inductive FinalPart where
  | text
  | attribute (name : Name)

structure PathNotation where
  parts : List ElementPart
  last : FinalPart

def printPrefix : Option Name → Text
  | none => []
  | some name => name.text ++ [':']

def printValue : Option { value : Text // '\'' ∉ value } → Text
  | none => []
  | some v => '=' :: '\'' :: (v.val ++ ['\''])

def printTest : Option (Name × Option { value : Text // '\'' ∉ value }) → Text
  | none => []
  | some (attName, v) => '[' :: '@' :: (attName.text ++ printValue v ++ [']'])

def ElementPart.print (p : ElementPart) : Text :=
  printPrefix p.nsPrefix ++ p.localName.text ++ printTest p.test

def FinalPart.print : FinalPart → Text
  | .text => "text()".toList
  | .attribute name => '@' :: name.text

def PathNotation.print (path : PathNotation) : Text :=
  path.parts.flatMap (fun p => '/' :: p.print) ++ '/' :: path.last.print

def ElementPart.toPathPart (p : ElementPart) : PathPart where
  nsPrefix := p.nsPrefix.map Name.text
  localName := p.localName.text
  attName := p.test.map fun test => test.1.text
  attValue := p.test.bind fun test => test.2.map Subtype.val

def FinalPart.toLastPart : FinalPart → LastPart
  | .text => .text
  | .attribute name => .attribute name.text

def PathNotation.toXPath (path : PathNotation) : XPath where
  parts := path.parts.map ElementPart.toPathPart
  last := path.last.toLastPart

/-- A value does not have a closing bracket in it and, where there is no prefix, no colon before
its first slash. -/
def ElementPart.Harmless (p : ElementPart) : Prop :=
  ∀ attName v, p.test = some (attName, some v) →
    ']' ∉ v.val ∧ (p.nsPrefix = none → ':' ∉ v.val.takeWhile (· ≠ '/'))

theorem Name.free (name : Name) {c : Char} (isSpecial : special c = true) : c ∉ name.text := by
  intro inName
  have plain := List.all_eq_true.mp name.plain c inName
  rw [isSpecial] at plain
  cases plain

theorem valueAt_equal {expr : Text} {openSqB closeSqB equal : Nat}
    (quoted : valueAt expr openSqB closeSqB = .quoted equal) :
    indexOf expr '=' openSqB = some equal := by
  unfold valueAt at quoted
  cases found : indexOf expr '=' openSqB with
  | none =>
    rw [found] at quoted
    cases quoted
  | some i =>
    rw [found] at quoted
    dsimp only at quoted
    split at quoted
    · split at quoted
      · cases quoted
      · split at quoted
        · cases quoted
        · split at quoted <;> cases quoted
      · split at quoted
        · cases quoted
          rfl
        · cases quoted
    · cases quoted

theorem testAt_value {expr : Text} {openSqB slash : Nat} {attName value : Text} {foreign : Bool}
    (closed : testAt expr openSqB = .closed attName (some value) foreign slash) :
    ']' ∉ value := by
  unfold testAt at closed
  split at closed
  · cases closed
  · cases found : indexOf expr ']' openSqB with
    | none =>
      rw [found] at closed
      cases closed
    | some closeSqB =>
      obtain ⟨_, _, first⟩ := indexOf_spec found
      rw [found] at closed
      dsimp only at closed
      split at closed
      · cases closed
      · cases shape : valueAt expr openSqB closeSqB with
        | malformed | absent foreign =>
          rw [shape] at closed
          cases closed
        | quoted equal =>
          rw [shape] at closed
          cases closed
          have after := (indexOf_spec (valueAt_equal shape)).1
          intro inValue
          obtain ⟨n, here⟩ := List.mem_iff_getElem?.mp inValue
          unfold slice at here
          rw [List.getElem?_drop, List.getElem?_take] at here
          split at here
          · exact first _ (by omega) (by omega) here
          · cases here

theorem partAt_value {expr : Text} {nsPrefix : Option Text} {start slash next : Nat}
    {openSqB : Option Nat} {part : PathPart} {foreign : Bool} {value : Text}
    (shape : partAt expr nsPrefix start slash openSqB = .part part foreign next)
    (valued : part.attValue = some value) : ']' ∉ value := by
  unfold partAt at shape
  cases openSqB with
  | none =>
    cases shape
    cases valued
  | some openSqB =>
    dsimp only at shape
    split at shape
    · split at shape
      · cases shape
      · cases test : testAt expr openSqB with
        | malformed | unclosed =>
          rw [test] at shape
          cases shape
        | closed attName attValue foreign slash =>
          rw [test] at shape
          cases shape
          cases valued
          exact testAt_value test
    · cases shape
      cases valued

theorem partAt_nsPrefix {expr : Text} {nsPrefix : Option Text} {start slash next : Nat}
    {openSqB : Option Nat} {part : PathPart} {foreign : Bool}
    (shape : partAt expr nsPrefix start slash openSqB = .part part foreign next) :
    part.nsPrefix = nsPrefix := by
  unfold partAt at shape
  cases openSqB with
  | none =>
    cases shape
    rfl
  | some openSqB =>
    dsimp only at shape
    split at shape
    · split at shape
      · cases shape
      · cases test : testAt expr openSqB with
        | malformed | unclosed =>
          rw [test] at shape
          cases shape
        | closed attName attValue foreign slash =>
          rw [test] at shape
          cases shape
          rfl
    · cases shape
      rfl

theorem takeWhile_split {c : Char} {s : Text} (early : c ∈ s.takeWhile (· ≠ '/')) :
    ∃ head tail, s = head ++ c :: tail ∧ '/' ∉ head := by
  obtain ⟨head, tail, split⟩ := List.append_of_mem early
  refine ⟨head, tail ++ s.dropWhile (· ≠ '/'), ?_, fun inHead => ?_⟩
  · have whole := List.takeWhile_append_dropWhile (p := (· ≠ '/')) (l := s)
    rw [split, List.append_assoc] at whole
    exact whole.symm
  · have inside : '/' ∈ s.takeWhile (· ≠ '/') := by
      rw [split]
      exact List.mem_append_left _ inHead
    have other := List.mem_takeWhile_imp inside
    simp at other

theorem prefixAt_colon {front text rest : Text} {slash : Nat} (colon : ':' ∈ text)
    (before : front.length + text.length ≤ slash) :
    (prefixAt (front ++ (text ++ rest)) front.length slash).1 ≠ none := by
  obtain ⟨head, tail, rfl, free⟩ := List.eq_append_cons_of_mem colon
  have found : indexOf (front ++ (head ++ ':' :: tail ++ rest)) ':' front.length =
      some (front.length + head.length) := by
    rw [List.append_assoc, List.cons_append]
    exact indexOf_behind free
  rw [List.length_append, List.length_cons] at before
  unfold prefixAt
  rw [found]
  dsimp only
  rw [if_pos (by omega)]
  exact Option.some_ne_none _

theorem shapeAt_harmful {p : ElementPart} (harmful : ¬ p.Harmless) (front rest : Text)
    (foreign : Bool) (next : Nat) :
    shapeAt (front ++ (p.print ++ '/' :: rest)) front.length ≠
      .part p.toPathPart foreign next := by
  intro shape
  unfold shapeAt at shape
  cases found : indexOf (front ++ (p.print ++ '/' :: rest)) '/' front.length with
  | none =>
    rw [found] at shape
    cases shape
  | some slash =>
    rw [found] at shape
    dsimp only at shape
    apply harmful
    intro attName v test
    have valued : p.toPathPart.attValue = some v.val := by
      unfold ElementPart.toPathPart
      rw [test]
      rfl
    refine ⟨partAt_value shape valued, fun unprefixed colon => ?_⟩
    have noPrefix : p.toPathPart.nsPrefix = none := by
      unfold ElementPart.toPathPart
      rw [unprefixed]
      rfl
    rw [partAt_nsPrefix shape] at noPrefix
    obtain ⟨head, tail, value, noSlash⟩ := takeWhile_split colon
    have printed : p.print ++ '/' :: rest =
        (p.localName.text ++ '[' :: '@' :: (attName.text ++ '=' :: '\'' :: (head ++ [':']))) ++
          (tail ++ '\'' :: ']' :: '/' :: rest) := by
      unfold ElementPart.print
      rw [unprefixed, test]
      simp [printPrefix, printTest, printValue, value]
    rw [printed] at found noPrefix
    refine prefixAt_colon (by simp) (indexOf_later ?_ found) noPrefix
    simp only [List.mem_append, List.mem_cons, List.not_mem_nil, or_false, not_or]
    refine ⟨p.localName.free rfl, by decide, by decide, attName.free rfl, by decide, by decide,
      noSlash, by decide⟩

theorem notMem_printValue {v : Option { value : Text // '\'' ∉ value }} {c : Char}
    (other : c ≠ '=') (other' : c ≠ '\'') (free : ∀ value, v = some value → c ∉ value.val) :
    c ∉ printValue v := by
  cases v with
  | none => exact List.not_mem_nil
  | some value =>
    simp only [printValue, List.mem_cons, List.mem_append, List.not_mem_nil, or_false, not_or]
    exact ⟨other, other', free value rfl, other'⟩

theorem valueAt_quoted {expr before value rest : Text} {openSqB equal : Nat}
    (whole : expr = before ++ ('\'' :: (value ++ ['\'']) ++ ']' :: rest))
    (found : indexOf expr '=' openSqB = some equal) (place : before.length = equal + 1) :
    valueAt expr openSqB (equal + 1 + ('\'' :: (value ++ ['\''])).length) = .quoted equal := by
  have between : slice expr (equal + 1) (equal + 1 + ('\'' :: (value ++ ['\''])).length) =
      '\'' :: (value ++ ['\'']) := by
    rw [whole, ← place]
    exact slice_behind before _ _
  have first : expr[equal + 1]? = some '\'' := by
    rw [whole, ← place, ← Nat.add_zero before.length, getElem?_behind]
    rfl
  have last : expr[equal + 1 + ('\'' :: (value ++ ['\''])).length - 1]? = some '\'' := by
    have position : equal + 1 + ('\'' :: (value ++ ['\''])).length - 1 =
        before.length + ('\'' :: value).length := by
      simp only [List.length_cons, List.length_append, List.length_nil]
      omega
    have quotes : '\'' :: (value ++ ['\'']) ++ ']' :: rest =
        ('\'' :: value) ++ '\'' :: ']' :: rest := by simp
    rw [whole, position, getElem?_behind, quotes, ← Nat.add_zero ('\'' :: value).length,
      getElem?_behind]
    rfl
  obtain ⟨d, others, longer⟩ : ∃ d others, value ++ ['\''] = d :: others := by
    cases value with
    | nil => exact ⟨'\'', [], rfl⟩
    | cons d value => exact ⟨d, value ++ ['\''], rfl⟩
  unfold valueAt
  rw [found]
  dsimp only
  rw [if_pos (by simp only [List.length_cons]; omega), between, longer]
  dsimp only
  rw [← longer, if_pos ⟨first, last⟩]

theorem valueAt_print (front : Text) (attName : Name)
    (v : Option { value : Text // '\'' ∉ value }) (rest : Text) :
    valueAt (front ++ ('[' :: '@' :: (attName.text ++ printValue v) ++ ']' :: rest)) front.length
        (front.length + ('[' :: '@' :: (attName.text ++ printValue v)).length) =
      match v with
      | none => .absent false
      | some _ => .quoted (front.length + ('[' :: '@' :: attName.text).length) := by
  have noEqual : '=' ∉ '[' :: '@' :: attName.text := by
    simp only [List.mem_cons, not_or]
    exact ⟨by decide, by decide, attName.free rfl⟩
  cases v with
  | none =>
    unfold valueAt
    simp only [printValue, List.append_nil]
    cases found : indexOf (front ++ ('[' :: '@' :: attName.text ++ ']' :: rest)) '='
        front.length with
    | none => rfl
    | some equal =>
      have later := indexOf_later noEqual found
      exact if_neg (by omega)
  | some value =>
    have close : front.length + ('[' :: '@' :: (attName.text ++ printValue (some value))).length =
        front.length + ('[' :: '@' :: attName.text).length + 1 +
          ('\'' :: (value.val ++ ['\''])).length := by
      simp only [printValue, List.length_cons, List.length_append, List.length_nil]
      omega
    have same : '[' :: '@' :: (attName.text ++ printValue (some value)) ++ ']' :: rest =
        ('[' :: '@' :: attName.text) ++ '=' :: ('\'' :: (value.val ++ ['\'']) ++ ']' :: rest) := by
      simp [printValue]
    have whole : front ++ ('[' :: '@' :: (attName.text ++ printValue (some value)) ++ ']' :: rest) =
        (front ++ ('[' :: '@' :: attName.text ++ ['='])) ++
          ('\'' :: (value.val ++ ['\'']) ++ ']' :: rest) := by
      rw [same]
      simp
    rw [close]
    apply valueAt_quoted whole
    · rw [same]
      exact indexOf_behind noEqual
    · simp only [List.length_append, List.length_cons, List.length_nil]
      omega

theorem testAt_print (front : Text) (attName : Name)
    {v : Option { value : Text // '\'' ∉ value }}
    (closes : ∀ value, v = some value → ']' ∉ value.val) (rest : Text) :
    testAt (front ++ (printTest (some (attName, v)) ++ '/' :: rest)) front.length =
      .closed attName.text (v.map Subtype.val) false
        (front.length + (printTest (some (attName, v))).length) := by
  have noClose : ']' ∉ '[' :: '@' :: (attName.text ++ printValue v) := by
    simp only [List.mem_cons, List.mem_append, not_or]
    exact ⟨by decide, by decide, attName.free rfl, notMem_printValue (by decide) (by decide) closes⟩
  have same : printTest (some (attName, v)) ++ '/' :: rest =
      '[' :: '@' :: (attName.text ++ printValue v) ++ ']' :: '/' :: rest := by
    simp [printTest]
  have close := @indexOf_behind front _ ('/' :: rest) _ noClose
  have value := valueAt_print front attName v ('/' :: rest)
  have isAt : (front ++ ('[' :: '@' :: (attName.text ++ printValue v) ++ ']' :: '/' :: rest))[
      front.length + 1]? = some '@' := by
    rw [getElem?_behind]
    rfl
  have isSlash : (front ++ ('[' :: '@' :: (attName.text ++ printValue v) ++ ']' :: '/' :: rest))[
      front.length + ('[' :: '@' :: (attName.text ++ printValue v)).length + 1]? = some '/' := by
    rw [Nat.add_assoc, getElem?_behind, getElem?_behind]
    rfl
  rw [same]
  unfold testAt
  rw [if_neg (not_not.mpr isAt), close]
  dsimp only
  rw [if_neg (not_not.mpr isSlash), value]
  have length : front.length + ('[' :: '@' :: (attName.text ++ printValue v)).length + 1 =
      front.length + (printTest (some (attName, v))).length := by
    simp [printTest]
    omega
  rw [length]
  cases v with
  | none =>
    dsimp only
    rw [slice_at (front ++ ['[', '@']) attName.text (']' :: '/' :: rest)]
    · rfl
    · simp [printValue]
    · simp
    · simp [printValue]
      omega
  | some quoted =>
    dsimp only
    rw [slice_at (front ++ ['[', '@']) attName.text (printValue (some quoted) ++ ']' :: '/' :: rest),
      slice_at (front ++ ('[' :: '@' :: attName.text ++ ['=', '\''])) quoted.val
        ('\'' :: ']' :: '/' :: rest)]
    · rfl
    · simp [printValue]
    · simp
      omega
    · simp [printValue]
      omega
    · simp
    · simp
    · simp
      omega

theorem prefixAt_print (front : Text) (nsPrefix : Option Name) (localName : Name) (rest : Text)
    {slash : Nat} (after : front.length + (printPrefix nsPrefix ++ localName.text).length ≤ slash)
    (noColon : nsPrefix = none → ∀ colon,
      indexOf (front ++ (localName.text ++ rest)) ':' front.length = some colon → slash ≤ colon) :
    prefixAt (front ++ (printPrefix nsPrefix ++ localName.text ++ rest)) front.length slash =
      (nsPrefix.map Name.text, front.length + (printPrefix nsPrefix).length) := by
  unfold prefixAt
  cases nsPrefix with
  | none =>
    cases found : indexOf (front ++ (printPrefix none ++ localName.text ++ rest)) ':'
        front.length with
    | none => rfl
    | some colon =>
      have later := noColon rfl colon found
      exact if_neg (by omega)
  | some name =>
    have whole : front ++ (printPrefix (some name) ++ localName.text ++ rest) =
        front ++ (name.text ++ ':' :: (localName.text ++ rest)) := by
      simp [printPrefix]
    simp only [printPrefix, List.length_append, List.length_cons, List.length_nil] at after
    rw [whole, indexOf_behind (name.free rfl)]
    dsimp only
    rw [if_pos (by omega), slice_behind]
    simp [printPrefix]
    omega

theorem ElementPart.lead_free (p : ElementPart) {c : Char} (isSpecial : special c = true)
    (other : c ≠ ':') : c ∉ printPrefix p.nsPrefix ++ p.localName.text := by
  rw [List.mem_append, not_or]
  refine ⟨?_, p.localName.free isSpecial⟩
  cases p.nsPrefix with
  | none => exact List.not_mem_nil
  | some name =>
    simp only [printPrefix, List.mem_append, List.mem_cons, List.not_mem_nil, or_false, not_or]
    exact ⟨name.free isSpecial, other⟩

theorem mem_takeWhile_append {c : Char} {p : Char → Bool} {s t : Text}
    (inside : c ∈ (s ++ t).takeWhile p) : c ∈ s.takeWhile p ∨ c ∈ t.takeWhile p := by
  induction s with
  | nil => exact .inr inside
  | cons d s ih =>
    rw [List.cons_append, List.takeWhile_cons] at inside
    rw [List.takeWhile_cons]
    cases passes : p d with
    | false =>
      rw [passes] at inside
      cases inside
    | true =>
      rw [passes, if_pos rfl, List.mem_cons] at inside
      rw [if_pos rfl, List.mem_cons]
      obtain here | later := inside
      · exact .inl (.inl here)
      · obtain first | second := ih later
        · exact .inl (.inr first)
        · exact .inr second

theorem ElementPart.Harmless.noColon {p : ElementPart} (harmless : p.Harmless)
    (unprefixed : p.nsPrefix = none) : ':' ∉ p.print.takeWhile (· ≠ '/') := by
  intro colon
  unfold ElementPart.print at colon
  rw [unprefixed] at colon
  obtain inName | inTest := mem_takeWhile_append colon
  · exact p.localName.free rfl ((List.takeWhile_sublist _).subset inName)
  · cases test : p.test with
    | none =>
      rw [test] at inTest
      cases inTest
    | some given =>
      obtain ⟨attName, v⟩ := given
      rw [test] at inTest
      have shape : printTest (some (attName, v)) =
          ('[' :: '@' :: attName.text) ++ (printValue v ++ [']']) := by simp [printTest]
      rw [shape] at inTest
      obtain inName | inRest := mem_takeWhile_append inTest
      · have member := (List.takeWhile_sublist _).subset inName
        simp only [List.mem_cons] at member
        obtain bracket | at_ | member := member
        · cases bracket
        · cases at_
        · exact attName.free rfl member
      · obtain inValue | inEnd := mem_takeWhile_append inRest
        · cases v with
          | none => cases inValue
          | some value =>
            have quotes : printValue (some value) = ['=', '\''] ++ (value.val ++ ['\'']) := rfl
            rw [quotes] at inValue
            obtain inStart | inValue := mem_takeWhile_append inValue
            · exact absurd inStart (by decide)
            · obtain inValue | inEnd := mem_takeWhile_append inValue
              · exact (harmless attName value test).2 unprefixed inValue
              · exact absurd inEnd (by decide)
        · exact absurd inEnd (by decide)

theorem indexOf_first (front text rest : Text) (c : Char) :
    indexOf (front ++ (text ++ c :: rest)) c front.length =
      some (front.length + (text.takeWhile (· ≠ c)).length) := by
  have split : ∃ tail, text ++ c :: rest = text.takeWhile (· ≠ c) ++ c :: tail := by
    induction text with
    | nil => exact ⟨rest, rfl⟩
    | cons d text ih =>
      obtain ⟨tail, same⟩ := ih
      by_cases stops : d = c
      · exact ⟨text ++ c :: rest, by simp [stops]⟩
      · exact ⟨tail, by simp [stops, same]⟩
  obtain ⟨tail, same⟩ := split
  rw [same]
  apply indexOf_behind
  intro inside
  have other := List.mem_takeWhile_imp inside
  simp at other

theorem shapeAt_harmless {p : ElementPart} (harmless : p.Harmless) (front rest : Text) :
    shapeAt (front ++ (p.print ++ '/' :: rest)) front.length =
      .part p.toPathPart false (front.length + p.print.length + 1) := by
  have found := indexOf_first front p.print rest '/'
  have whole : p.print ++ '/' :: rest =
      printPrefix p.nsPrefix ++ p.localName.text ++ (printTest p.test ++ '/' :: rest) := by
    simp [ElementPart.print]
  have after : front.length + (printPrefix p.nsPrefix ++ p.localName.text).length ≤
      front.length + (p.print.takeWhile (· ≠ '/')).length := by
    rw [whole] at found
    exact indexOf_later (p.lead_free rfl (by decide)) found
  have noColon : p.nsPrefix = none → ∀ colon,
      indexOf (front ++ (p.localName.text ++ (printTest p.test ++ '/' :: rest))) ':' front.length =
        some colon → front.length + (p.print.takeWhile (· ≠ '/')).length ≤ colon := by
    intro unprefixed colon here
    have same : p.localName.text ++ (printTest p.test ++ '/' :: rest) =
        p.print.takeWhile (· ≠ '/') ++ (p.print.dropWhile (· ≠ '/') ++ '/' :: rest) := by
      rw [← List.append_assoc (p.print.takeWhile _), List.takeWhile_append_dropWhile, whole,
        unprefixed]
      simp [printPrefix]
    rw [same] at here
    exact indexOf_later (harmless.noColon unprefixed) here
  have lead := prefixAt_print front p.nsPrefix p.localName (printTest p.test ++ '/' :: rest)
    after noColon
  have localName : ∀ rest, slice (front ++ (printPrefix p.nsPrefix ++ p.localName.text ++ rest))
      (front.length + (printPrefix p.nsPrefix).length)
      (front.length + (printPrefix p.nsPrefix ++ p.localName.text).length) = p.localName.text := by
    intro rest
    apply slice_at (front ++ printPrefix p.nsPrefix) p.localName.text rest
    · simp
    · simp
    · simp
      omega
  unfold shapeAt
  rw [found]
  dsimp only
  rw [whole, lead]
  unfold partAt
  cases test : p.test with
  | none =>
    have plain : p.print = printPrefix p.nsPrefix ++ p.localName.text := by
      simp [ElementPart.print, test, printTest]
    have noSlash : p.print.takeWhile (· ≠ '/') = p.print := by
      rw [List.takeWhile_eq_self_iff, plain]
      intro c inside
      rw [decide_eq_true_eq]
      rintro rfl
      exact p.lead_free rfl (by decide) inside
    have part : (Shape.part { nsPrefix := p.nsPrefix.map Name.text, localName := p.localName.text }
        false (front.length + p.print.length + 1)) =
        .part p.toPathPart false (front.length + p.print.length + 1) := by
      unfold ElementPart.toPathPart
      rw [test]
      rfl
    have open_ : ∀ i, indexOf (front ++ (printPrefix p.nsPrefix ++ p.localName.text ++
        (printTest none ++ '/' :: rest))) '[' front.length = some i →
        ¬ i < front.length + p.print.length := by
      intro i here
      have later := indexOf_later (p.lead_free rfl (by decide)) here
      rw [plain]
      omega
    rw [noSlash]
    cases bracket : indexOf (front ++ (printPrefix p.nsPrefix ++ p.localName.text ++
        (printTest none ++ '/' :: rest))) '[' front.length with
    | none =>
      dsimp only
      rw [plain, localName, ← plain]
      exact part
    | some i =>
      dsimp only
      rw [if_neg (open_ i bracket), plain, localName, ← plain]
      exact part
  | some given =>
    obtain ⟨attName, v⟩ := given
    have closes : ∀ value, v = some value → ']' ∉ value.val := by
      rintro value rfl
      exact (harmless attName value test).1
    have bracket : indexOf (front ++ (printPrefix p.nsPrefix ++ p.localName.text ++
        (printTest (some (attName, v)) ++ '/' :: rest))) '[' front.length =
        some (front.length + (printPrefix p.nsPrefix ++ p.localName.text).length) :=
      indexOf_behind (p.lead_free rfl (by decide))
    have before : front.length + (printPrefix p.nsPrefix ++ p.localName.text).length <
        front.length + (p.print.takeWhile (· ≠ '/')).length := by
      have split : p.print ++ '/' :: rest =
          (printPrefix p.nsPrefix ++ p.localName.text ++ ['[']) ++
            (('@' :: (attName.text ++ printValue v ++ [']'])) ++ '/' :: rest) := by
        rw [whole, test]
        simp [printTest]
      have free : '/' ∉ printPrefix p.nsPrefix ++ p.localName.text ++ ['['] := by
        rw [List.mem_append, not_or]
        exact ⟨p.lead_free rfl (by decide), by decide⟩
      rw [split] at found
      have later := indexOf_later free found
      simp only [List.length_append, List.length_cons, List.length_nil] at later ⊢
      omega
    have named : ¬ front.length + (printPrefix p.nsPrefix ++ p.localName.text).length ≤
        front.length + (printPrefix p.nsPrefix).length := by
      have given := List.length_pos_iff.mpr p.localName.given
      rw [List.length_append]
      omega
    have closed := testAt_print (front ++ (printPrefix p.nsPrefix ++ p.localName.text)) attName
      closes rest
    rw [List.append_assoc, List.length_append] at closed
    have length : front.length + p.print.length = front.length +
        (printPrefix p.nsPrefix ++ p.localName.text).length +
          (printTest (some (attName, v))).length := by
      unfold ElementPart.print
      rw [test, List.length_append, Nat.add_assoc]
    rw [bracket]
    dsimp only
    rw [if_pos before, if_neg named, closed]
    dsimp only
    rw [localName, length]
    unfold ElementPart.toPathPart
    rw [test]
    rfl

def printFrom : List ElementPart → FinalPart → Text
  | [], last => last.print
  | p :: ps, last => p.print ++ '/' :: printFrom ps last

theorem print_eq (path : PathNotation) : path.print = '/' :: printFrom path.parts path.last := by
  unfold PathNotation.print
  induction path.parts with
  | nil => rfl
  | cons p ps ih =>
    rw [List.flatMap_cons, List.append_assoc, ih]
    rfl

theorem noSlash_last (last : FinalPart) : '/' ∉ last.print := by
  match last with
  | .text => decide
  | .attribute name =>
    rw [FinalPart.print, List.mem_cons, not_or]
    exact ⟨by decide, name.free rfl⟩

theorem shapeAt_last (front : Text) (last : FinalPart) :
    shapeAt (front ++ last.print) front.length = .stop := by
  unfold shapeAt
  cases found : indexOf (front ++ last.print) '/' front.length with
  | none => rfl
  | some slash =>
    have inside := indexOf_lt found
    rw [← List.append_nil last.print] at found
    have later := indexOf_later (noSlash_last last) found
    rw [List.length_append] at inside
    omega

theorem printFrom_next (front : Text) (p : ElementPart) (ps : List ElementPart)
    (last : FinalPart) :
    front ++ printFrom (p :: ps) last = (front ++ p.print ++ ['/']) ++ printFrom ps last ∧
      (front ++ p.print ++ ['/']).length = front.length + p.print.length + 1 := by
  constructor
  · simp [printFrom]
  · simp
    omega

theorem scan_harmless {ps : List ElementPart} (harmless : ∀ p ∈ ps, p.Harmless)
    (last : FinalPart) (front : Text) {turns : Nat} (enough : ps.length ≤ turns) :
    ∃ stop, scan (front ++ printFrom ps last) turns front.length =
        (ps.map fun p => (p.toPathPart, false), .last stop) ∧
      (front ++ printFrom ps last).drop stop = last.print := by
  induction ps generalizing front turns with
  | nil =>
    refine ⟨front.length, ?_, List.drop_left⟩
    cases turns with
    | zero => rfl
    | succ turns =>
      unfold scan printFrom
      rw [shapeAt_last]
      rfl
  | cons p ps ih =>
    rw [List.forall_mem_cons] at harmless
    cases turns with
    | zero => cases enough
    | succ turns =>
      obtain ⟨same, length⟩ := printFrom_next front p ps last
      have shape := shapeAt_harmless harmless.1 front (printFrom ps last)
      obtain ⟨stop, walk, rest⟩ := ih harmless.2 (front ++ p.print ++ ['/'])
        (Nat.le_of_succ_le_succ enough)
      rw [← same, length] at walk
      rw [← same] at rest
      refine ⟨stop, ?_, rest⟩
      unfold scan
      rw [printFrom, shape]
      dsimp only
      rw [printFrom] at walk
      rw [walk]
      rfl

theorem harmless_of_scan {ps : List ElementPart} {last : FinalPart} {front : Text} {turns : Nat}
    (same : (scan (front ++ printFrom ps last) turns front.length).1.map Prod.fst =
      ps.map ElementPart.toPathPart) : ∀ p ∈ ps, p.Harmless := by
  induction ps generalizing front turns with
  | nil => exact nofun
  | cons p ps ih =>
    cases turns with
    | zero => cases same
    | succ turns =>
      unfold scan at same
      have expression : front ++ printFrom (p :: ps) last =
          front ++ (p.print ++ '/' :: printFrom ps last) := rfl
      cases shape : shapeAt (front ++ printFrom (p :: ps) last) front.length with
      | stop | malformed | unclosed =>
        rw [shape] at same
        cases same
      | part part foreign next =>
        rw [shape] at same
        obtain ⟨here, later⟩ := List.cons.inj same
        dsimp only at here
        rw [here, expression] at shape
        have harmless : p.Harmless := by
          by_contra harmful
          exact shapeAt_harmful harmful front _ foreign next shape
        have position := shapeAt_harmless harmless front (printFrom ps last)
        rw [shape] at position
        obtain ⟨_, _, place⟩ := Shape.part.inj position
        obtain ⟨split, length⟩ := printFrom_next front p ps last
        rw [place, ← length, split] at later
        exact List.forall_mem_cons.mpr ⟨harmless, ih later⟩

theorem splitLastPart_print {expr : Text} {pos : Nat} (last : FinalPart)
    (rest : expr.drop pos = last.print) : splitLastPart expr pos = .ok last.toLastPart := by
  unfold splitLastPart
  rw [rest]
  cases last <;> rfl

theorem toPathPart_named (p : ElementPart) : p.toPathPart.localName ≠ [] := p.localName.given

theorem length_printFrom (ps : List ElementPart) (last : FinalPart) :
    ps.length ≤ (printFrom ps last).length := by
  induction ps with
  | nil => exact Nat.zero_le _
  | cons p ps ih =>
    unfold printFrom
    rw [List.length_append, List.length_cons, List.length_cons]
    omega

/-- An expression is split into the parts that it was written from exactly if all values in it are
harmless. -/
theorem split_print_iff (path : PathNotation) :
    splitXPathIntoParts path.print = .ok path.toXPath ↔ ∀ p ∈ path.parts, p.Harmless := by
  have text := print_eq path
  have starts : path.print[0]? = some '/' := by
    rw [text]
    rfl
  have walk : scan path.print path.print.length 1 =
      scan (['/'] ++ printFrom path.parts path.last) path.print.length ['/'].length := by
    rw [text]
    rfl
  constructor
  · intro split
    have accepted : ¬ (path.print[0]? ≠ some '/' ∨ HasEmptyName path.print ∨
        ¬ EndsInLastPart path.print) := by
      intro refused
      obtain ⟨e, thrown⟩ := splitXPathIntoParts_refuses refused
      rw [split] at thrown
      cases thrown
    simp only [not_or, not_not] at accepted
    obtain ⟨_, named, pos, ended, isLast⟩ := accepted
    obtain ⟨last, splitLast, _⟩ := splitLastPart_accepts isLast
    have result := splitXPathIntoParts_accepts starts named ended splitLast
    rw [split] at result
    have same := congrArg XPath.parts (Except.ok.inj result)
    unfold parts at same
    rw [walk] at same
    exact harmless_of_scan same.symm
  · intro harmless
    have enough : path.parts.length ≤ path.print.length := by
      have long := length_printFrom path.parts path.last
      rw [text, List.length_cons]
      omega
    obtain ⟨stop, walked, rest⟩ := scan_harmless harmless path.last ['/'] enough
    rw [← walk] at walked
    have found : parts path.print = path.parts.map fun p => (p.toPathPart, false) :=
      congrArg Prod.fst walked
    have ended : ending path.print = .last stop := congrArg Prod.snd walked
    have named : ¬ HasEmptyName path.print := by
      rintro ⟨part, isPart, empty⟩
      rw [found] at isPart
      obtain ⟨p, _, rfl⟩ := List.mem_map.mp isPart
      exact toPathPart_named p empty
    have splitLast : splitLastPart path.print stop = .ok path.last.toLastPart := by
      apply splitLastPart_print
      rw [text]
      exact rest
    have result := splitXPathIntoParts_accepts starts named ended splitLast
    rw [found, List.map_map] at result
    exact result

def addressTest : PathNotation where
  parts := [{
    nsPrefix := none
    localName := ⟨['a'], by decide, by decide⟩
    test := some (⟨['x'], by decide, by decide⟩, some ⟨"http://y".toList, by decide⟩) }]
  last := .text

/-- The colon of the value is taken for that of a prefix. -/
theorem addressTest_refused :
    splitXPathIntoParts addressTest.print = .error (.illegalArgument
      ("Wrong square bracket location in XPath expression ".toList ++
        "/a[@x='http://y']/text()".toList)) ∧
    ¬ ∀ path : PathNotation, path.parts ≠ [] →
      splitXPathIntoParts path.print = .ok path.toXPath := by
  have refused : splitXPathIntoParts addressTest.print = .error (.illegalArgument
      ("Wrong square bracket location in XPath expression ".toList ++
        "/a[@x='http://y']/text()".toList)) := by decide
  refine ⟨refused, fun identity => ?_⟩
  have accepted := identity addressTest (List.cons_ne_nil _ _)
  rw [refused] at accepted
  cases accepted

end Semaine.Xml
