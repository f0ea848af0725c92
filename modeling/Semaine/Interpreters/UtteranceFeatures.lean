import Semaine.Interpreters.UtteranceLoops
import Semaine.Dialogue.ActFeatures
import Semaine.Library.JavaIntegers

/-! What the features of an utterance say about it, and what becomes of them in the component that
proposes the utterances of the agent. -/
namespace Semaine.Interpreters
open JavaText Semaine.Dialogue

namespace UtteranceInterpreter

variable (lower tag : Text → Text)

def IsWordStart (before : Text) : Prop := before = [] ∨ ∃ b, before = b ++ [' ']

def behindBlank (rs : List Regex) : Regex :=
  Regex.sequence (.alt .start (.char (.oneOf [' '])) :: rs)

theorem takes_behindBlank {rs : List Regex} {u before here rest : Text} (whole : u = before ++ here)
    (taken : Regex.Takes u.length (behindBlank rs) here rest) :
    ∃ b w, u = b ++ w ∧ IsWordStart b ∧ Regex.TakesAll u.length rs w rest := by
  rw [behindBlank, Regex.takes_sequence] at taken
  cases taken with
  | cons first others =>
    rcases Regex.takes_alt.mp first with begins | blank
    · obtain ⟨all, rfl⟩ := Regex.takes_start.mp begins
      have none : before = [] := by
        rw [whole, List.length_append] at all
        exact List.length_eq_zero_iff.mp (by omega)
      refine ⟨[], _, ?_, .inl rfl, others⟩
      rw [whole, none]
    · obtain ⟨c, holds, rfl⟩ := Regex.takes_char.mp blank
      have space : c = ' ' := by simpa [CharClass.holds] using holds
      refine ⟨before ++ [' '], _, ?_, .inr ⟨before, rfl⟩, others⟩
      rw [whole, space, List.append_assoc]
      rfl

theorem takes_behindBlank_of {rs : List Regex} {u b w rest : Text} (whole : u = b ++ w)
    (start : IsWordStart b) (taken : Regex.TakesAll u.length rs w rest) :
    ∃ before here, u = before ++ here ∧ before <+: b ∧
      Regex.Takes u.length (behindBlank rs) here rest := by
  simp only [behindBlank, Regex.takes_sequence]
  rcases start with rfl | ⟨b, rfl⟩
  · have begins : w.length = u.length := by rw [whole, List.nil_append]
    exact ⟨[], w, whole, List.prefix_refl _, .cons (.left (.start begins)) taken⟩
  · refine ⟨b, ' ' :: w, ?_, List.prefix_append _ _, .cons (.right (.char rfl)) taken⟩
    rw [whole, List.append_assoc]
    rfl

theorem matches_behindBlank {pattern part : Regex} (shape : Regex.Anywhere pattern part)
    {tails : List (List Regex)} (parts : part.alternatives = tails.map behindBlank) {u : Text}
    (line : ∀ c ∈ u, isLineEnd c = false) :
    pattern.isMatch u = true ↔ ∃ rs ∈ tails, ∃ b w rest, u = b ++ w ∧ IsWordStart b ∧
      Regex.TakesAll u.length rs w rest := by
  rw [shape.isMatch_iff]
  constructor
  · rintro ⟨before, here, rest, whole, taken, _, _⟩
    obtain ⟨p, member, taken⟩ := Regex.takes_alternatives.mp taken
    rw [parts] at member
    obtain ⟨rs, listed, rfl⟩ := List.mem_map.mp member
    obtain ⟨b, w, same, start, others⟩ := takes_behindBlank whole taken
    exact ⟨rs, listed, b, w, rest, same, start, others⟩
  · rintro ⟨rs, listed, b, w, rest, same, start, others⟩
    obtain ⟨before, here, whole, _, taken⟩ := takes_behindBlank_of same start others
    have member : behindBlank rs ∈ part.alternatives := by
      rw [parts]
      exact List.mem_map_of_mem listed
    have taken := Regex.takes_alternatives.mpr ⟨_, member, taken⟩
    obtain ⟨front, split⟩ := taken.suffix
    refine ⟨before, here, rest, whole, taken, ?_, ?_⟩
    · intro c inside
      exact line c (by rw [whole]; simp [inside])
    · intro c inside
      exact line c (by rw [whole, ← split]; simp [inside])

theorem lineLoops_anywhere {l : Loop} (member : l ∈ lineLoops) :
    Regex.Anywhere l.whole l.part := by
  have checked := List.all_eq_true.mp lineLoops_shape l member
  rw [Bool.and_eq_true, decide_eq_true_eq] at checked
  exact checked.1

theorem run_rest {l : Loop} (shortens : Regex.Shortens l.whole l.part) (utterance : Text) :
    0 < (l.run utterance).1 ∧ l.whole.isMatch utterance = true ∨
      l.run utterance = (0, utterance) ∧ l.whole.isMatch utterance = false := by
  cases matched : l.whole.isMatch utterance with
  | true => exact .inl ⟨(Regex.countMatches_pos shortens utterance).mpr matched, rfl⟩
  | false => exact .inr ⟨Regex.countMatches_rest matched, rfl⟩

def agreeWords : List String := ["yes", "yeah", "true", "right", "okay"]

def Says (words : List String) (utterance : Text) : Prop :=
  ∃ word ∈ words, ∃ before rest, utterance = before ++ word.toList ++ rest ∧ IsWordStart before

theorem agreeLoop_part : agreeLoop.part.alternatives =
    (agreeWords.map fun word => Regex.letters word.toList).map behindBlank := by
  rfl

theorem agreeLoop_mem : agreeLoop ∈ lineLoops := by
  simp [lineLoops]

theorem takesAll_letters {length : Nat} {w s t : Text} :
    Regex.TakesAll length (Regex.letters w) s t ↔ s = w ++ t := by
  rw [← Regex.takes_sequence]
  exact Regex.takes_literal

theorem agreeLoop_matches {utterance : Text} (line : ∀ c ∈ utterance, isLineEnd c = false) :
    agreeLoop.whole.isMatch utterance = true ↔ Says agreeWords utterance := by
  rw [matches_behindBlank (lineLoops_anywhere agreeLoop_mem) agreeLoop_part line]
  constructor
  · rintro ⟨rs, member, b, w, rest, same, start, taken⟩
    obtain ⟨word, listed, rfl⟩ := List.mem_map.mp member
    refine ⟨word, listed, b, rest, ?_, start⟩
    rw [same, takesAll_letters.mp taken, List.append_assoc]
  · rintro ⟨word, listed, b, rest, same, start⟩
    refine ⟨_, List.mem_map_of_mem listed, b, word.toList ++ rest, rest, ?_, start, ?_⟩
    · rw [same, List.append_assoc]
    · exact takesAll_letters.mpr rfl

theorem counted_some : ∀ a b c : Bool,
    decide (1 ≤ 0 + a.toNat + b.toNat + c.toNat) = (a || b || c) := by
  decide

/-- The user agrees who says one of five words, or begins with one of them in some other case. -/
theorem detectAgree_iff (act : TaggedAct) (line : ∀ c ∈ act.utterance, isLineEnd c = false) :
    detectAgree lower act = true ↔ Says agreeWords act.utterance ∨
      ∃ word ∈ agreeWords, beginsWith lower word.length word act.utterance = true := by
  rw [← agreeLoop_matches line]
  have lengths : "yes".length = 3 ∧ "yeah".length = 4 ∧ "true".length = 4 ∧ "right".length = 5 ∧
      "okay".length = 4 := by decide
  obtain ⟨yes, yeah, true', right, okay⟩ := lengths
  unfold detectAgree
  rcases run_rest (lineLoops_shorten agreeLoop_mem) act.utterance with ⟨turns, matched⟩ | ⟨none, fails⟩
  · simp only [matched, true_or, iff_true, decide_eq_true_eq]
    omega
  · rw [none, fails]
    simp only [counted_some, agreeWords, List.mem_cons, List.not_mem_nil, or_false,
      exists_eq_or_imp, exists_eq_left, Bool.or_eq_true, Bool.false_eq_true, false_or,
      yes, yeah, true', right, okay]
    tauto

theorem detectAgree_well : detectAgree id ⟨"well yes".toList, 0, [], []⟩ = true :=
  (detectAgree_iff id ⟨"well yes".toList, 0, [], []⟩ (by simp [isLineEnd])).mpr
    (.inl ⟨"yes", by decide, "well ".toList, [], rfl, .inr ⟨"well".toList, rfl⟩⟩)

def negationMarks : List Char := [' ', ',', '.', '!']

def SaysNo (utterance : Text) : Prop :=
  ∃ mark ∈ negationMarks, ∃ before rest,
    utterance = before ++ "no".toList ++ mark :: rest ∧ IsWordStart before

def markPattern : Regex :=
  .alt (.char (.oneOf [' '])) (.alt (.char (.oneOf [',']))
    (.alt (.char (.oneOf ['.'])) (.char (.oneOf ['!']))))

theorem disagreeLoop_part : disagreeLoop.part.alternatives =
    [Regex.letters "no".toList ++ [markPattern]].map behindBlank := by
  rfl

theorem disagreeLoop_mem : disagreeLoop ∈ lineLoops := by
  simp [lineLoops]

theorem takes_mark {length : Nat} {s t : Text} :
    Regex.Takes length markPattern s t ↔ ∃ mark ∈ negationMarks, s = mark :: t := by
  simp only [markPattern, Regex.takes_alt, Regex.takes_char, CharClass.holds, negationMarks,
    List.contains_eq_mem, List.mem_cons, List.not_mem_nil, or_false, decide_eq_true_eq,
    exists_eq_or_imp, exists_eq_left]

theorem disagreeLoop_matches {utterance : Text} (line : ∀ c ∈ utterance, isLineEnd c = false) :
    disagreeLoop.whole.isMatch utterance = true ↔ SaysNo utterance := by
  rw [matches_behindBlank (lineLoops_anywhere disagreeLoop_mem) disagreeLoop_part line]
  simp only [List.mem_singleton, exists_eq_left, Regex.takesAll_append, Regex.takesAll_single,
    takesAll_letters, takes_mark]
  constructor
  · rintro ⟨b, w, rest, same, start, _, rfl, mark, listed, rfl⟩
    refine ⟨mark, listed, b, rest, ?_, start⟩
    rw [same, List.append_assoc]
  · rintro ⟨mark, listed, b, rest, same, start⟩
    refine ⟨b, _, rest, ?_, start, _, rfl, mark, listed, rfl⟩
    rw [same, List.append_assoc]

theorem mem_front {n : Nat} {s : Text} {c : Char} (member : c ∈ front n s) : c ∈ s := by
  induction s generalizing n with
  | nil =>
    cases n with
    | zero => cases member
    | succ n => cases member
  | cons d s ih =>
    rw [front] at member
    split at member
    · exact (List.mem_cons.mp member).elim (fun same => same ▸ List.mem_cons_self)
        fun later => List.mem_cons_of_mem _ (ih later)
    · cases member

/-- The user disagrees who says "no" among the first fifty characters, or begins with it, or with
a word that begins with it, in any case. -/
theorem detectDisagree_iff (act : TaggedAct) (line : ∀ c ∈ act.utterance, isLineEnd c = false) :
    detectDisagree lower act = true ↔
      SaysNo (front 50 act.utterance) ∨ beginsWith lower 2 "no" act.utterance = true := by
  have line' : ∀ c ∈ front 50 act.utterance, isLineEnd c = false :=
    fun c member => line c (mem_front member)
  rw [← disagreeLoop_matches line']
  unfold detectDisagree
  rcases run_rest (lineLoops_shorten disagreeLoop_mem) (front 50 act.utterance) with
    ⟨turns, matched⟩ | ⟨none, fails⟩
  · simp only [matched, true_or, iff_true, decide_eq_true_eq]
    omega
  · rw [none, fails]
    cases beginsWith lower 2 "no" act.utterance with
    | true => simp
    | false => simp

theorem detectDisagree_well : detectDisagree id ⟨"well no!".toList, 0, [], []⟩ = true :=
  (detectDisagree_iff id ⟨"well no!".toList, 0, [], []⟩ (by simp [isLineEnd])).mpr
    (.inl ⟨'!', by decide, "well ".toList, [], by decide, .inr ⟨"well".toList, rfl⟩⟩)

theorem runs_pos {loops : List Loop} (shorten : ∀ l ∈ loops, Regex.Shortens l.whole l.part)
    (count : Nat) (utterance : Text) :
    1 ≤ (loops.foldl (fun (count, utterance) l =>
        let (turns, utterance) := runIfAny l utterance
        (count + turns, utterance)) (count, utterance)).1 ↔
      1 ≤ count ∨ ∃ l ∈ loops, l.whole.isMatch utterance = true := by
  induction loops generalizing count utterance with
  | nil => simp
  | cons l loops ih =>
    obtain ⟨first, shorten⟩ := List.forall_mem_cons.mp shorten
    rw [List.foldl_cons, ih shorten]
    rcases run_rest first utterance with ⟨turns, matched⟩ | ⟨_, fails⟩
    · simp only [runIfAny, matched, if_true, List.mem_cons, exists_eq_or_imp, true_or, or_true,
        iff_true]
      exact .inl (by omega)
    · simp only [runIfAny, fails, Bool.false_eq_true, if_false, Nat.add_zero, List.mem_cons,
        exists_eq_or_imp, false_or]

theorem futureLoops_shorten : ∀ l ∈ futureLoops, Regex.Shortens l.whole l.part := by
  intro l member
  exact lineLoops_shorten (List.mem_append_right _ member)

theorem detectFuture_iff (act : TaggedAct) :
    detectFuture act = true ↔ ∃ l ∈ futureLoops, l.whole.isMatch act.utterance = true := by
  have counted := runs_pos futureLoops_shorten 0 act.utterance
  unfold detectFuture
  simp only [decide_eq_true_eq]
  rw [counted]
  simp

theorem detectPast_notFuture {act : TaggedAct} (past : detectPast act = true) :
    detectFuture act = false := by
  unfold detectPast at past
  split at past
  · cases past
  · split at past
    · cases past
    · rename_i future
      exact Bool.eq_false_iff.mpr future

/-- An act about the past is not about the future, and events and actions have one time. -/
theorem detectTime (act : TaggedAct) :
    (detectFuture act = true ↔ ∃ l ∈ futureLoops, l.whole.isMatch act.utterance = true) ∧
      ¬ (detectPast act = true ∧ detectFuture act = true) ∧
      (detectAction act = true ∨ detectEvent act = true →
        (detectPast act ^^ detectFuture act) = true) := by
  have exclusive : ¬ (detectPast act = true ∧ detectFuture act = true) := by
    rintro ⟨past, future⟩
    rw [detectPast_notFuture past] at future
    cases future
  have timed : detectAction act = true ∨ detectEvent act = true →
      (detectPast act || detectFuture act) = true := by
    intro found
    by_contra none
    unfold detectEvent detectAction at found
    simp only [if_neg none, Bool.false_eq_true, or_self] at found
  refine ⟨detectFuture_iff act, exclusive, ?_⟩
  intro found
  have some := timed found
  revert exclusive some
  cases detectPast act with
  | true =>
    cases detectFuture act with
    | true => simp
    | false => simp
  | false =>
    cases detectFuture act with
    | true => simp
    | false => simp

def targetNames : List (String × String) :=
  [("poppy", "Poppy"), ("prudence", "Prudence"), ("spike", "Spike"), ("obadiah", "Obadiah")]

def StandsAt (s word : Text) (i : Nat) : Prop := ∃ before after,
  s = before ++ word ++ after ∧ before.length = i

theorem standsAt_iff {s word : Text} {i : Nat} :
    StandsAt s word i ↔ i ≤ s.length ∧ startsWith (s.drop i) word = true := by
  unfold startsWith
  rw [List.isPrefixOf_iff_prefix]
  constructor
  · rintro ⟨before, after, rfl, rfl⟩
    refine ⟨by simp, ?_⟩
    rw [List.append_assoc, List.drop_left]
    exact List.prefix_append _ _
  · rintro ⟨inside, after, same⟩
    refine ⟨s.take i, after, ?_, List.length_take_of_le inside⟩
    rw [List.append_assoc, same, List.take_append_drop]

theorem lastIndexOf_spec (s word : Text) :
    (lastIndexOf s word = -1 ∧ ∀ i, ¬ StandsAt s word i) ∨
      ∃ i : Nat, lastIndexOf s word = i ∧ StandsAt s word i ∧
        ∀ j, StandsAt s word j → j ≤ i := by
  unfold lastIndexOf
  cases found : (List.range (s.length + 1)).reverse.find? fun i => startsWith (s.drop i) word with
  | none =>
    refine .inl ⟨rfl, ?_⟩
    intro i stands
    obtain ⟨inside, starts⟩ := standsAt_iff.mp stands
    have absent := List.find?_eq_none.mp found i (by simp; omega)
    exact absent starts
  | some i =>
    refine .inr ⟨i, rfl, ?_, ?_⟩
    · have starts := List.find?_some found
      have member := List.mem_of_find?_eq_some found
      rw [List.mem_reverse, List.mem_range] at member
      exact standsAt_iff.mpr ⟨by omega, starts⟩
    · intro j stands
      obtain ⟨inside, starts⟩ := standsAt_iff.mp stands
      obtain ⟨_, later, earlier, order, fail⟩ := List.find?_eq_some_iff_append.mp found
      have sorted : (List.range (s.length + 1)).reverse.Pairwise (· > ·) :=
        List.pairwise_reverse.mpr List.pairwise_lt_range
      have member : j ∈ (List.range (s.length + 1)).reverse := by
        rw [List.mem_reverse, List.mem_range]
        omega
      rw [order] at sorted member
      rcases List.mem_append.mp member with before | behind
      · have absent := fail j before
        rw [starts] at absent
        cases absent
      · rcases List.mem_cons.mp behind with rfl | behind
        · exact Nat.le_refl _
        · have less := (List.pairwise_cons.mp (List.pairwise_append.mp sorted).2.1).1 j behind
          omega

theorem targetNames_differ {s : Text} {i : Nat} {first second : String × String}
    (listed : first ∈ targetNames) (listed' : second ∈ targetNames)
    (stands : StandsAt s first.1.toList i) (stands' : StandsAt s second.1.toList i) :
    first = second := by
  have starts := (standsAt_iff.mp stands).2
  have starts' := (standsAt_iff.mp stands').2
  unfold startsWith at starts starts'
  rw [List.isPrefixOf_iff_prefix] at starts starts'
  have nested := List.prefix_or_prefix_of_prefix starts starts'
  have apart : ∀ a ∈ targetNames, ∀ b ∈ targetNames,
      a.1.toList <+: b.1.toList ∨ b.1.toList <+: a.1.toList → a = b := by decide
  exact apart first listed second listed' nested

def Latest (s : Text) (name : String × String) (i : Nat) : Prop :=
  StandsAt s name.1.toList i ∧ ∀ other ∈ targetNames, ∀ j, StandsAt s other.1.toList j → j ≤ i

theorem Latest.unique {s : Text} {name other : String × String} {i j : Nat}
    (listed : name ∈ targetNames) (listed' : other ∈ targetNames) (first : Latest s name i)
    (second : Latest s other j) : name = other := by
  have before := second.2 name listed i first.1
  have behind := first.2 other listed' j second.1
  obtain rfl : i = j := by omega
  exact targetNames_differ listed listed' first.1 second.1

theorem lastIndexOf_bounds (s word : Text) :
    (∀ j, StandsAt s word j → (j : Int) ≤ lastIndexOf s word) ∧ -1 ≤ lastIndexOf s word ∧
      (0 ≤ lastIndexOf s word → StandsAt s word (lastIndexOf s word).toNat) := by
  rcases lastIndexOf_spec s word with ⟨none, absent⟩ | ⟨i, found, stands, last⟩
  · rw [none]
    exact ⟨fun j stands => absurd stands (absent j), by omega, by omega⟩
  · rw [found]
    refine ⟨fun j stands => ?_, by omega, fun _ => stands⟩
    have before := last j stands
    omega

theorem lastIndexOf_differ {s : Text} {name other : String × String} (listed : name ∈ targetNames)
    (listed' : other ∈ targetNames) (different : name ≠ other)
    (same : lastIndexOf s name.1.toList = lastIndexOf s other.1.toList) :
    lastIndexOf s name.1.toList = -1 := by
  obtain ⟨_, lower, stands⟩ := lastIndexOf_bounds s name.1.toList
  obtain ⟨_, _, stands'⟩ := lastIndexOf_bounds s other.1.toList
  by_contra some
  have first := stands (by omega)
  have second := stands' (by omega)
  rw [← same] at second
  exact different (targetNames_differ listed listed' first second)

theorem latest_of_last {s : Text} {name : String × String} (found : 0 ≤ lastIndexOf s name.1.toList)
    (last : ∀ other ∈ targetNames,
      lastIndexOf s other.1.toList ≤ lastIndexOf s name.1.toList) :
    Latest s name (lastIndexOf s name.1.toList).toNat := by
  refine ⟨(lastIndexOf_bounds s name.1.toList).2.2 found, ?_⟩
  intro other listed j stands
  have bound := (lastIndexOf_bounds s other.1.toList).1 j stands
  have most := last other listed
  omega

theorem lastIndexOf_forall {s : Text} {bound : Int}
    (poppy : lastIndexOf s "poppy".toList ≤ bound)
    (prudence : lastIndexOf s "prudence".toList ≤ bound)
    (spike : lastIndexOf s "spike".toList ≤ bound)
    (obadiah : lastIndexOf s "obadiah".toList ≤ bound) :
    ∀ name ∈ targetNames, lastIndexOf s name.1.toList ≤ bound := by
  intro name listed
  simp only [targetNames, List.mem_cons, List.not_mem_nil, or_false] at listed
  rcases listed with rfl | rfl | rfl | rfl
  · exact poppy
  · exact prudence
  · exact spike
  · exact obadiah

theorem detectTargetCharacter_found (act : TaggedAct) :
    match detectTargetCharacter lower act with
    | none => ∀ name ∈ targetNames, ∀ i, ¬ StandsAt (lower act.utterance) name.1.toList i
    | some c => ∃ name ∈ targetNames, name.2 = c ∧ ∃ i, Latest (lower act.utterance) name i := by
  generalize whole : lower act.utterance = s
  have differ := fun a b => @lastIndexOf_differ s a b
  have least := fun name : String × String => (lastIndexOf_bounds s name.1.toList).2.1
  have d14 := differ ("poppy", "Poppy") ("obadiah", "Obadiah") (by decide) (by decide) (by decide)
  have d24 := differ ("prudence", "Prudence") ("obadiah", "Obadiah") (by decide) (by decide)
    (by decide)
  have d34 := differ ("spike", "Spike") ("obadiah", "Obadiah") (by decide) (by decide) (by decide)
  have d12 := differ ("poppy", "Poppy") ("prudence", "Prudence") (by decide) (by decide) (by decide)
  have d13 := differ ("poppy", "Poppy") ("spike", "Spike") (by decide) (by decide) (by decide)
  have d23 := differ ("prudence", "Prudence") ("spike", "Spike") (by decide) (by decide) (by decide)
  have l1 := least ("poppy", "Poppy")
  have l2 := least ("prudence", "Prudence")
  have l3 := least ("spike", "Spike")
  have l4 := least ("obadiah", "Obadiah")
  dsimp only at d12 d13 d14 d23 d24 d34 l1 l2 l3 l4
  unfold detectTargetCharacter
  simp only [whole]
  split
  · rename_i found
    split at found
    · rename_i none
      intro name listed i stands
      have last : lastIndexOf s name.1.toList ≤ -1 := lastIndexOf_forall (by omega) (by omega)
        (by omega) (by omega) name listed
      have bound := (lastIndexOf_bounds s name.1.toList).1 i stands
      omega
    · split at found
      · cases found
      · split at found
        · cases found
        · split at found
          · cases found
          · cases found
  · rename_i found
    split at found
    · cases found
    · split at found
      · obtain rfl := Option.some.inj found
        have some : 0 ≤ lastIndexOf s "poppy".toList := by omega
        have last := @lastIndexOf_forall s (lastIndexOf s "poppy".toList) (by omega) (by omega)
          (by omega) (by omega)
        exact ⟨("poppy", "Poppy"), by decide, rfl, _, latest_of_last some last⟩
      · split at found
        · obtain rfl := Option.some.inj found
          have some : 0 ≤ lastIndexOf s "prudence".toList := by omega
          have last := @lastIndexOf_forall s (lastIndexOf s "prudence".toList) (by omega) (by omega)
            (by omega) (by omega)
          exact ⟨("prudence", "Prudence"), by decide, rfl, _, latest_of_last some last⟩
        · split at found
          · obtain rfl := Option.some.inj found
            have some : 0 ≤ lastIndexOf s "spike".toList := by omega
            have last := @lastIndexOf_forall s (lastIndexOf s "spike".toList) (by omega) (by omega)
              (by omega) (by omega)
            exact ⟨("spike", "Spike"), by decide, rfl, _, latest_of_last some last⟩
          · obtain rfl := Option.some.inj found
            have some : 0 ≤ lastIndexOf s "obadiah".toList := by omega
            have last := @lastIndexOf_forall s (lastIndexOf s "obadiah".toList) (by omega) (by omega)
              (by omega) (by omega)
            exact ⟨("obadiah", "Obadiah"), by decide, rfl, _, latest_of_last some last⟩

/-- The target is the character whose name stands last, and there is none without a name. -/
theorem detectTargetCharacter_iff (act : TaggedAct) :
    (detectTargetCharacter lower act = none ↔
        ∀ name ∈ targetNames, ∀ i, ¬ StandsAt (lower act.utterance) name.1.toList i) ∧
      ∀ c, detectTargetCharacter lower act = some c ↔
        ∃ name ∈ targetNames, name.2 = c ∧ ∃ i, Latest (lower act.utterance) name i := by
  have found := detectTargetCharacter_found lower act
  cases target : detectTargetCharacter lower act with
  | none =>
    rw [target] at found
    refine ⟨by simpa using found, fun c => ⟨nofun, ?_⟩⟩
    rintro ⟨name, listed, _, i, latest⟩
    exact absurd latest.1 (found name listed i)
  | some d =>
    rw [target] at found
    obtain ⟨name, listed, named, i, latest⟩ := found
    refine ⟨⟨nofun, fun absent => absurd latest.1 (absent name listed i)⟩, fun c => ⟨?_, ?_⟩⟩
    · rintro same
      obtain rfl := Option.some.inj same
      exact ⟨name, listed, named, i, latest⟩
    · rintro ⟨other, listed', rfl, j, latest'⟩
      rw [← named, latest.unique listed listed' latest']

theorem analyseData_target (now later : Int) (data : Option Text) (starttime : Int) :
    (analyseData lower tag now later data starttime).targetCharacter = [] ∨
      (analyseData lower tag now later data starttime).targetCharacter ∈
        Semaine.Dialogue.characters := by
  have found := detectTargetCharacter_found lower (tagged tag (data.getD []) starttime)
  unfold analyseData
  dsimp only
  cases target : detectTargetCharacter lower (tagged tag (data.getD []) starttime) with
  | none => exact .inl rfl
  | some c =>
    rw [target] at found
    obtain ⟨name, listed, rfl, _⟩ := found
    have known : ∀ name ∈ targetNames, name.2.toList ∈ Semaine.Dialogue.characters := by
      decide
    exact .inr (known name listed)

theorem analyseData_polarity (now later : Int) (data : Option Text) (starttime : Int) :
    ¬ ((analyseData lower tag now later data starttime).positive = true ∧
      (analyseData lower tag now later data starttime).negative = true) := by
  simp only [analyseData, decide_eq_true_eq]
  omega

theorem length_pos {s : Text} : 1 ≤ length s ↔ s ≠ [] := by
  cases s with
  | nil => simp [length, units]
  | cons c s =>
    have wide : 1 ≤ utf16Size c := by
      unfold utf16Size
      split
      · omega
      · omega
    simp only [length, units, List.map_cons, List.sum_cons, ne_eq, reduceCtorEq, not_false_eq_true,
      iff_true]
    omega

theorem getInfo_sent (act : DialogueAct) (time : Int) :
    let m : UserStateMessage :=
      { info := [("userUtterance".toList, act.utterance),
          ("userUtteranceStartTime".toList, ofInt act.starttime),
          ("userUtteranceFeatures".toList, act.getFeatures)]
        time := time }
    m.getInfo "userUtterance" = some act.utterance ∧
      m.getInfo "userUtteranceStartTime" = some (ofInt act.starttime) ∧
      m.getInfo "userUtteranceFeatures" = some act.getFeatures := by
  refine ⟨rfl, rfl, rfl⟩

/-- What the interpreter makes of an utterance is what the proposer of utterances works with, but
for the talk about oneself; only an empty utterance is not sent. -/
theorem sendDialogueAct_updateUtterances {F D : Type} (chars : Characters) (now later : Int)
    (data : Option Text) {starttime : Int} (range : IsLong starttime) (time : Int)
    (s : UserTurn F D) :
    let act := analyseData lower tag now later data starttime
    match sendDialogueAct act with
    | none => act.utterance = []
    | some info => act.utterance ≠ [] ∧ ¬ (act.positive = true ∧ act.negative = true) ∧
        s.updateUtterances chars { info := info, time := time } =
          (UserTurn.getCombinedUserDialogueAct chars { s with
            detectedDActs := UserTurn.addAct { act with endtime := time, talkAboutSelf := false }
              s.detectedDActs }).bind fun s => s.userStartsSpeaking chars time := by
  intro act
  have known : act.targetCharacter = [] ∨ act.targetCharacter ∈ Semaine.Dialogue.characters :=
    analyseData_target lower tag now later data starttime
  have started : act.starttime = starttime := rfl
  have polarity : ¬ (act.positive = true ∧ act.negative = true) :=
    analyseData_polarity lower tag now later data starttime
  clear_value act
  unfold sendDialogueAct
  split
  · rename_i none
    split at none
    · rename_i short
      by_contra given
      have long := length_pos.mpr given
      omega
    · cases none
  · rename_i info sent
    split at sent
    · cases sent
    · rename_i long
      obtain rfl := Option.some.inj sent
      refine ⟨length_pos.mp (by omega), polarity, ?_⟩
      obtain ⟨utterance, start, features⟩ := getInfo_sent act time
      have read : chars.parseLong (ofInt act.starttime) = some starttime := by
        rw [started]
        exact parseLong_ofInt chars range
      unfold UserTurn.updateUtterances
      rw [utterance, start, features]
      simp only [read, Option.getD_some, DialogueAct.ofFeatures_getFeatures known]
      rw [← started]
      rfl

theorem sendDialogueAct_no :
    let act := analyseData id id 0 0 (some "no".toList) 7
    let s : UserTurn Unit Unit := { is := [] }
    ∃ info, sendDialogueAct act = some info ∧
      s.updateUtterances ascii { info := info, time := 8 } =
        (UserTurn.getCombinedUserDialogueAct ascii { s with
          detectedDActs := [{ act with endtime := 8, talkAboutSelf := false }] }).bind
            fun s => s.userStartsSpeaking ascii 8 := by
  intro act s
  have range : IsLong 7 := by decide
  have sent := sendDialogueAct_updateUtterances id id ascii 0 0 (some "no".toList) range 8 s
  have said : act.utterance = "no".toList := rfl
  dsimp only at sent
  split at sent
  · exact absurd (said.symm.trans sent) (by decide)
  · rename_i info given
    exact ⟨info, given, sent.2.2⟩

end UtteranceInterpreter
end Semaine.Interpreters
