import Semaine.Xml.PathAgreement

/-! How the XPath splitters end on an expression that they do not accept: the one in Java with
which exception, the one in C++ whether at all. -/
namespace Semaine.Xml
open JavaText

/-- What `getXPathExpressions` turns into a SystemConfigurationException. -/
def IsIllegalArgument (e : Thrown) : Prop := ∃ message, e = .illegalArgument message

theorem testAt_isUnclosed {expr : Text} {openSqB : Nat}
    (isAt : expr[openSqB + 1]? = some '@') (unclosed : indexOf expr ']' openSqB = none) :
    testAt expr openSqB = .unclosed := by
  unfold testAt
  rw [if_neg (not_not.mpr isAt), unclosed]

theorem splitPredicate_open {expr : Text} {openSqB : Nat}
    (isAt : expr[openSqB + 1]? = some '@') (unclosed : indexOf expr ']' openSqB = none) :
    splitPredicate expr openSqB = .error .stringIndexOutOfBounds := by
  unfold splitPredicate
  rw [charAt_some isAt]
  simp only [bind, Except.bind, unclosed]
  rw [if_neg (not_not.mpr rfl)]
  cases indexOf expr '=' openSqB <;> rfl

theorem splitPart_open {expr : Text} {pos : Nat} (unclosed : shapeAt expr pos = .unclosed) :
    splitPart expr pos = .error .stringIndexOutOfBounds := by
  unfold shapeAt at unclosed
  cases found : indexOf expr '/' pos with
  | none =>
    rw [found] at unclosed
    cases unclosed
  | some slash =>
    rw [found] at unclosed
    obtain ⟨openSqB, bracket, before, after, test⟩ := Cpp.partAt_unclosed unclosed
    obtain ⟨isAt, noClose⟩ := Cpp.testAt_unclosed test
    have inside := indexOf_lt found
    have localName := substring_slice (Nat.le_of_lt after) (by omega : openSqB ≤ expr.length)
    rw [splitPart_slash found, bracket]
    unfold splitLocalName
    dsimp only
    rw [if_pos before, if_neg (Nat.not_le.mpr after), localName]
    simp only [bind, Except.bind, splitPredicate_open isAt noClose]

theorem splitPredicate_unquoted {expr : Text} {openSqB closeSqB equal : Nat} {e : Thrown}
    (isAt : expr[openSqB + 1]? = some '@') (afterEqual : openSqB + 2 ≤ equal)
    (closed : indexOf expr ']' openSqB = some closeSqB)
    (found : indexOf expr '=' openSqB = some equal) (before : equal < closeSqB)
    (long : 1 < units utf16Size (slice expr (equal + 1) closeSqB))
    (thrown : splitPredicate expr openSqB = .error e) : IsIllegalArgument e := by
  have attName := substring_slice afterEqual (Nat.le_of_lt (indexOf_lt found))
  have insideClose := indexOf_lt closed
  have isLong : equal < closeSqB ∧
      1 < units utf16Size ((expr.take closeSqB).drop (equal + 1)) := ⟨before, long⟩
  obtain ⟨_, apart⟩ := valueAt_value found before long
  obtain ⟨first, isFirst⟩ : ∃ c, expr[equal + 1]? = some c :=
    ⟨_, List.getElem?_eq_getElem (by omega)⟩
  obtain ⟨last, isLast⟩ : ∃ c, expr[closeSqB - 1]? = some c :=
    ⟨_, List.getElem?_eq_getElem (by omega)⟩
  unfold splitPredicate at thrown
  rw [charAt_some isAt] at thrown
  simp only [bind, Except.bind, closed, found] at thrown
  rw [if_neg (not_not.mpr rfl), if_pos isLong, attName] at thrown
  dsimp only at thrown
  rw [charAt_some isFirst] at thrown
  dsimp only at thrown
  by_cases quoted : first = '\''
  · rw [if_neg (not_not.mpr quoted)] at thrown
    simp only [charAt_some isLast] at thrown
    by_cases quoted' : last = '\''
    · rw [quoted] at isFirst
      have attValue := substring_slice (apart isFirst) (by omega : closeSqB - 1 ≤ expr.length)
      rw [if_neg (not_not.mpr quoted'), attValue] at thrown
      cases thrown
    · rw [if_pos quoted'] at thrown
      cases thrown
      exact ⟨_, rfl⟩
  · rw [if_pos quoted] at thrown
    cases thrown
    exact ⟨_, rfl⟩

theorem splitPredicate_throws {expr : Text} {openSqB : Nat} {e : Thrown}
    (isOpen : expr[openSqB]? = some '[') (inside : openSqB + 1 < expr.length)
    (thrown : splitPredicate expr openSqB = .error e) :
    IsIllegalArgument e ∨ testAt expr openSqB = .unclosed := by
  by_cases isAt : expr[openSqB + 1]? = some '@'
  · cases closed : indexOf expr ']' openSqB with
    | none => exact .inr (testAt_isUnclosed isAt closed)
    | some closeSqB =>
      refine .inl ?_
      by_cases noValue : ∀ equal, indexOf expr '=' openSqB = some equal → equal < closeSqB →
          units utf16Size (slice expr (equal + 1) closeSqB) ≤ 1
      · have afterClose := indexOf_after isOpen isAt (by decide) (by decide) closed
        rw [splitPredicate_nameOnly isAt afterClose closed noValue] at thrown
        cases thrown
      · simp only [not_forall, Nat.not_le] at noValue
        obtain ⟨equal, found, before, long⟩ := noValue
        have afterEqual := indexOf_after isOpen isAt (by decide) (by decide) found
        exact splitPredicate_unquoted isAt afterEqual closed found before long thrown
  · have next := List.getElem?_eq_getElem inside
    have differs : expr[openSqB + 1] ≠ '@' := fun same => isAt (next.trans (congrArg some same))
    unfold splitPredicate at thrown
    rw [charAt_some next] at thrown
    simp only [bind, Except.bind, if_pos differs] at thrown
    cases thrown
    exact .inl ⟨_, rfl⟩

theorem splitLocalName_throws {expr : Text} {nsPrefix : Option Text} {start slash : Nat}
    {openSqB : Option Nat} {e : Thrown} (ordered : start ≤ slash) (inside : slash < expr.length)
    (isOpen : ∀ i, openSqB = some i → expr[i]? = some '[')
    (thrown : (splitLocalName expr nsPrefix start slash openSqB).bind (namedPart expr) =
      .error e) :
    IsIllegalArgument e ∨ partAt expr nsPrefix start slash openSqB = .unclosed := by
  have plain := substring_slice ordered (Nat.le_of_lt inside)
  have unnamed : ∀ result, namedPart expr result = .error e → IsIllegalArgument e := by
    intro result refused
    unfold namedPart at refused
    split at refused
    · cases refused
      exact ⟨_, rfl⟩
    · cases refused
  unfold splitLocalName at thrown
  unfold partAt
  cases openSqB with
  | none =>
    rw [plain] at thrown
    exact .inl (unnamed _ thrown)
  | some bracket =>
    dsimp only at thrown ⊢
    by_cases before : bracket < slash
    · rw [if_pos before] at thrown ⊢
      by_cases wrong : bracket ≤ start
      · rw [if_pos wrong] at thrown
        cases thrown
        exact .inl ⟨_, rfl⟩
      · have localName := substring_slice (Nat.le_of_not_le wrong) (by omega : bracket ≤ expr.length)
        rw [if_neg wrong, localName] at thrown
        rw [if_neg wrong]
        simp only [bind, Except.bind] at thrown
        cases test : splitPredicate expr bracket with
        | error e' =>
          rw [test] at thrown
          cases thrown
          obtain illegal | unclosed := splitPredicate_throws (isOpen bracket rfl) (by omega) test
          · exact .inl illegal
          · rw [unclosed]
            exact .inr rfl
        | ok result =>
          rw [test] at thrown
          dsimp only at thrown
          by_cases slashNext : expr[result.2.2]? = some '/'
          · rw [if_neg (not_not.mpr slashNext)] at thrown
            exact .inl (unnamed _ thrown)
          · rw [if_pos slashNext] at thrown
            cases thrown
            exact .inl ⟨_, rfl⟩
    · rw [if_neg before, plain] at thrown
      exact .inl (unnamed _ thrown)

theorem splitPart_throws {expr : Text} {pos : Nat} {e : Thrown}
    (thrown : splitPart expr pos = .error e) :
    IsIllegalArgument e ∨ shapeAt expr pos = .unclosed := by
  unfold shapeAt
  cases found : indexOf expr '/' pos with
  | none =>
    unfold splitPart at thrown
    rw [found] at thrown
    cases thrown
  | some slash =>
    rw [splitPart_slash found] at thrown
    exact splitLocalName_throws (prefixAt_start found).2 (indexOf_lt found)
      (fun i h => (indexOf_spec h).2.1) thrown

theorem splitLoop_throws {expr : Text} {turns pos : Nat} {done : List PathPart} {e : Thrown}
    (thrown : splitLoop expr turns pos done = .error e) :
    IsIllegalArgument e ∨ ((scan expr turns pos).2 = .unclosed ∧
      ∀ p ∈ (scan expr turns pos).1, p.1.localName ≠ []) := by
  induction turns generalizing pos done with
  | zero => cases thrown
  | succ turns ih =>
    unfold splitLoop at thrown
    unfold scan
    cases turn : splitPart expr pos with
    | error e' =>
      rw [turn] at thrown
      cases thrown
      obtain illegal | unclosed := splitPart_throws turn
      · exact .inl illegal
      · rw [unclosed]
        exact .inr ⟨rfl, List.forall_mem_nil _⟩
    | ok result =>
      rw [turn] at thrown
      have shape := splitPart_java expr pos
      rw [turn] at shape
      cases here : shapeAt expr pos with
      | stop =>
        rw [here] at shape
        cases shape
        cases thrown
      | malformed | unclosed =>
        rw [here] at shape
        cases shape
      | part part foreign next =>
        rw [here] at shape
        unfold Shape.java at shape
        dsimp only at shape
        by_cases empty : part.localName = []
        · rw [if_pos empty] at shape
          cases shape
        · rw [if_neg empty] at shape
          cases shape
          obtain illegal | ⟨unclosed, named⟩ := ih thrown
          · exact .inl illegal
          · exact .inr ⟨unclosed, List.forall_mem_cons.mpr ⟨empty, named⟩⟩

theorem splitLoop_open {expr : Text} {turns pos : Nat} (done : List PathPart)
    (unclosed : (scan expr turns pos).2 = .unclosed)
    (named : ∀ p ∈ (scan expr turns pos).1, p.1.localName ≠ []) :
    splitLoop expr turns pos done = .error .stringIndexOutOfBounds := by
  induction turns generalizing pos done with
  | zero => cases unclosed
  | succ turns ih =>
    unfold scan at unclosed named
    unfold splitLoop
    cases here : shapeAt expr pos with
    | stop | malformed =>
      rw [here] at unclosed
      cases unclosed
    | unclosed =>
      rw [splitPart_open here]
      rfl
    | part part foreign next =>
      rw [here] at unclosed named
      rw [List.forall_mem_cons] at named
      have turn := splitPart_shape here
      unfold Shape.java at turn
      dsimp only at turn
      rw [if_neg named.1] at turn
      rw [Outcome.ok_of_toOption turn]
      exact ih (done ++ [part]) unclosed named.2

theorem splitLastPart_throws {expr : Text} {pos : Nat} {e : Thrown}
    (thrown : splitLastPart expr pos = .error e) : IsIllegalArgument e := by
  unfold splitLastPart at thrown
  dsimp only at thrown
  split at thrown
  · cases thrown
    exact ⟨_, rfl⟩
  · cases thrown
  · split at thrown
    · cases thrown
    · cases thrown
      exact ⟨_, rfl⟩

/-- The exception is an IllegalArgumentException unless the walk comes to brackets that are not
closed, and to no part without a name before. -/
theorem rejectsCleanly_iff (expr : Text) :
    (∀ e, splitXPathIntoParts expr = .error e → IsIllegalArgument e) ↔
      (expr[0]? = some '/' → ending expr = .unclosed → HasEmptyName expr) := by
  unfold splitXPathIntoParts
  by_cases starts : startsWith expr ['/'] = true
  · have slash := (startsWith_slash expr).mp starts
    rw [starts]
    simp only [bind, Except.bind, Bool.not_true, Bool.false_eq_true, if_false]
    constructor
    · intro clean _ unclosed
      by_contra named
      have isNamed : ∀ p ∈ parts expr, p.1.localName ≠ [] := fun p isPart empty =>
        named ⟨p, isPart, empty⟩
      rw [splitLoop_open [] unclosed isNamed] at clean
      obtain ⟨message, other⟩ := clean _ rfl
      cases other
    · intro condition e thrown
      cases loop : splitLoop expr expr.length 1 [] with
      | error e' =>
        rw [loop] at thrown
        cases thrown
        obtain illegal | ⟨unclosed, named⟩ := splitLoop_throws loop
        · exact illegal
        · obtain ⟨p, isPart, empty⟩ := condition slash unclosed
          exact absurd empty (named p isPart)
      | ok walked =>
        rw [loop] at thrown
        dsimp only at thrown
        cases last : splitLastPart expr walked.2 with
        | error e' =>
          rw [last] at thrown
          cases thrown
          exact splitLastPart_throws last
        | ok l =>
          rw [last] at thrown
          cases thrown
  · have noSlash : expr[0]? ≠ some '/' := fun slash => starts ((startsWith_slash expr).mpr slash)
    rw [Bool.not_eq_true] at starts
    rw [starts]
    refine iff_of_true (fun e thrown => ?_) (fun slash => absurd slash noSlash)
    cases thrown
    exact ⟨_, rfl⟩

def openBracket : Text := "/a[@b/text()".toList

theorem openBracket_outOfBounds :
    splitXPathIntoParts openBracket = .error .stringIndexOutOfBounds ∧
    ¬ ∀ e, splitXPathIntoParts openBracket = .error e → IsIllegalArgument e := by
  have thrown : splitXPathIntoParts openBracket = .error .stringIndexOutOfBounds := by
    decide
  refine ⟨thrown, fun clean => ?_⟩
  obtain ⟨message, other⟩ := clean _ thrown
  cases other

/-- The loop ends unless it comes to brackets that are not closed, after which it starts again at
the first part, and to no part before that the splitter refuses. -/
theorem terminates_iff (expr : Text) :
    (∃ result, Cpp.Returns expr result) ↔
      (expr[0]? = some '/' → ending expr = .unclosed → HasForeignTest expr) := by
  constructor
  · rintro ⟨result, returned⟩ slash unclosed
    by_contra native
    exact Cpp.returns_nothing slash native unclosed result returned
  · intro condition
    by_cases refused : expr[0]? ≠ some '/' ∨ HasForeignTest expr ∨
        (¬ EndsInLastPart expr ∧ ending expr ≠ .unclosed)
    · obtain ⟨message, returned⟩ := Cpp.returns_error refused
      exact ⟨_, returned⟩
    · simp only [not_or, not_and, not_not] at refused
      obtain ⟨slash, native, open_⟩ := refused
      have isLast : EndsInLastPart expr := by
        by_contra notLast
        exact native (condition slash (open_ notLast))
      obtain ⟨pos, ended, isLast⟩ := isLast
      obtain ⟨last, _, cppLast⟩ := splitLastPart_accepts isLast
      exact ⟨_, Cpp.returns_parts slash native ended cppLast⟩

/-- After `/a[@b` the search for the next part starts again at `a`, in every turn. -/
theorem openBracket_endless : ¬ ∃ result, Cpp.Returns openBracket result := by
  have noPart : parts openBracket = [] := by decide
  have unclosed : ending openBracket = .unclosed := by decide
  have native : ¬ HasForeignTest openBracket := by
    rintro ⟨p, isPart, _⟩
    rw [noPart] at isPart
    cases isPart
  rintro ⟨result, returned⟩
  exact Cpp.returns_nothing rfl native unclosed result returned

end Semaine.Xml
