import Semaine.Dialogue.UtteranceActionProposer

/-! The hash that stands for a response and its arguments does not determine them: it is a
concatenation in which neither the pieces nor the pairs can be found again. -/
namespace Semaine.Dialogue
open JavaText Semaine.Xml

namespace Call

def arguments (c : Call) : List (Text × Text) :=
  (c.argNames.zip c.argValues).filter (fun a => !startsWith a.1 "response".toList)

/-- The same words with the same arguments, apart from those that choose the response. -/
def Same (c d : Call) : Prop :=
  c.response.response = d.response.response ∧ c.arguments.Perm d.arguments

theorem Same.refl (c : Call) : c.Same c := ⟨rfl, .refl _⟩

theorem Same.symm {c d : Call} (h : c.Same d) : d.Same c := ⟨h.1.symm, h.2.symm⟩

theorem Same.trans {c d e : Call} (h : c.Same d) (h' : d.Same e) : c.Same e :=
  ⟨h.1.trans h'.1, h.2.trans h'.2⟩

def Paired (c : Call) : Prop := c.argNames.length = c.argValues.length

def ofText (text : Text) (argNames argValues : List Text) : Call where
  response := { id := [], response := text }
  argNames := argNames
  argValues := argValues

/-- The words, the names in their order and the values in theirs. -/
def pieces (c : Call) : List Text :=
  c.response.response :: (sort (c.arguments.map Prod.fst) ++ sort (c.arguments.map Prod.snd))

end Call

theorem utf16_ne_nil (c : Char) (s : Text) : utf16 (c :: s) ≠ [] := by
  unfold utf16
  rw [List.flatMap_cons]
  split <;> simp

theorem utf16_cons {c d : Char} {s t : Text} (same : utf16 (c :: s) = utf16 (d :: t)) :
    c = d ∧ utf16 s = utf16 t := by
  have validC := c.valid
  have validD := d.valid
  have equal (nats : c.toNat = d.toNat) : c = d := Char.toNat_inj.mp nats
  unfold utf16 at same ⊢
  simp only [List.flatMap_cons] at same
  simp only [UInt32.isValidChar, Nat.isValidChar] at validC validD
  change (c.toNat < 55296 ∨ 57343 < c.toNat ∧ c.toNat < 1114112) at validC
  change (d.toNat < 55296 ∨ 57343 < d.toNat ∧ d.toNat < 1114112) at validD
  split at same
  · split at same
    · obtain ⟨nats, rest⟩ := List.cons.inj same
      exact ⟨equal nats, rest⟩
    · have first := (List.cons.inj same).1
      omega
  · split at same
    · have first := (List.cons.inj same).1
      omega
    · obtain ⟨first, second⟩ := List.cons.inj same
      obtain ⟨second, rest⟩ := List.cons.inj second
      exact ⟨equal (by omega), rest⟩

theorem utf16_injective {s t : Text} (same : utf16 s = utf16 t) : s = t := by
  induction s generalizing t with
  | nil =>
    cases t with
    | nil => rfl
    | cons d t => exact absurd same.symm (utf16_ne_nil d t)
  | cons c s ih =>
    cases t with
    | nil => exact absurd same (utf16_ne_nil c s)
    | cons d t =>
      obtain ⟨rfl, rest⟩ := utf16_cons same
      rw [ih rest]

instance : IsTrans Text compareTo := ⟨fun _ _ _ => le_trans⟩

instance : Std.Total compareTo := ⟨fun _ _ => le_total _ _⟩

instance : Std.Antisymm compareTo := ⟨fun _ _ h h' => utf16_injective (le_antisymm h h')⟩

theorem sort_sorted (ss : List Text) : (sort ss).Pairwise compareTo :=
  List.pairwise_insertionSort compareTo ss

theorem sort_perm (ss : List Text) : (sort ss).Perm ss := List.perm_insertionSort compareTo ss

theorem sort_eq {ss ts : List Text} (sorted : ts.Pairwise compareTo) (perm : ts.Perm ss) :
    ts = sort ss :=
  List.Perm.eq_of_pairwise' sorted (sort_sorted ss) (perm.trans (sort_perm ss).symm)

theorem append_diff (removed kept : List Text) : (removed ++ kept).diff removed = kept := by
  induction removed with
  | nil => simp
  | cons text removed ih => simpa using ih

/-- Taking out some of the strings before or after sorting is the same. -/
theorem erase_sort {ss removed kept : List Text} (parts : ss.Perm (removed ++ kept)) :
    removed.foldl List.erase (sort ss) = sort kept := by
  rw [← List.diff_eq_foldl]
  apply sort_eq
  · exact (sort_sorted ss).sublist (List.diff_sublist _ _)
  · have whole : (sort ss).Perm (removed ++ kept) := (sort_perm ss).trans parts
    have left := whole.diff_right removed
    rwa [append_diff] at left

theorem sort_eq_iff {ss ts : List Text} : sort ss = sort ts ↔ ss.Perm ts := by
  constructor
  · intro same
    exact (sort_perm ss).symm.trans (same ▸ sort_perm ts)
  · intro perm
    exact sort_eq (sort_sorted ss) ((sort_perm ss).trans perm)

theorem responseArguments_ok {argNames argValues : List Text}
    (paired : argNames.length = argValues.length) :
    responseArguments argNames argValues =
      .ok ((argNames.zip argValues).filter (fun a => startsWith a.1 "response".toList)) := by
  induction argNames generalizing argValues with
  | nil => rfl
  | cons name names ih =>
    cases argValues with
    | nil => cases paired
    | cons value values =>
      rw [responseArguments, ih (Nat.succ.inj paired), List.zip_cons_cons, List.filter_cons]
      rfl

/-- What the hash is, where every name has a value. -/
theorem Call.hash_eq {c : Call} (paired : c.Paired) : c.hash = .ok c.pieces.flatten := by
  have parts := List.filter_append_perm (fun a : Text × Text => startsWith a.1 "response".toList)
    (c.argNames.zip c.argValues)
  have names := (parts.map Prod.fst).symm
  have values := (parts.map Prod.snd).symm
  rw [List.map_append, List.map_fst_zip (Nat.le_of_eq paired)] at names
  rw [List.map_append, List.map_snd_zip (Nat.le_of_eq paired.symm)] at values
  rw [Call.hash, createHash, responseArguments_ok paired]
  simp only [bind, Except.bind, pure, Except.pure, erase_sort names, erase_sort values,
    Call.pieces, List.flatten_cons, List.flatten_append, List.append_assoc]
  rfl

theorem hash_text (text : Text) : (Call.ofText text [] []).hash = .ok text := by
  simp [Call.hash, Call.ofText, createHash, responseArguments, sort, bind, Except.bind, pure,
    Except.pure]

theorem hash_argument (text : Text) {name : Text} (value : Text)
    (other : startsWith name "response".toList = false) :
    (Call.ofText text [name] [value]).hash = .ok (text ++ name ++ value) := by
  simp only [Call.hash, Call.ofText, createHash, responseArguments, other, bind, Except.bind, pure,
    Except.pure]
  simp [sort]

theorem arguments_argument (text : Text) {name : Text} (value : Text)
    (other : startsWith name "response".toList = false) :
    (Call.ofText text [name] [value]).arguments = [(name, value)] := by
  simp only [Call.arguments, Call.ofText, List.zip_cons_cons, List.zip_nil_left]
  exact List.filter_cons_of_pos (by rw [other]; rfl)

theorem letter_other (b : Char) : startsWith [b] "response".toList = false := by
  simp [startsWith, List.isPrefixOf]

theorem hash_empty_argument (text : Text) : (Call.ofText text [[]] [[]]).hash = .ok text := by
  simpa using @hash_argument text [] [] rfl

theorem Call.differs_somewhere (c : Call) (hash : Text) :
    ¬ c.Same (.ofText hash [] []) ∨ ¬ c.Same (.ofText hash [[]] [[]]) := by
  by_contra both
  rw [not_or, not_not, not_not] at both
  have same := (both.1.2.symm.trans both.2.2).length_eq
  rw [arguments_argument hash [] rfl] at same
  simp [Call.arguments, Call.ofText] at same

/-- For every call there is another one with the same hash, for other words or with other
arguments; if the hash has at least three characters, it is for other words, and neither these
nor its arguments are empty. -/
theorem hash_never_identifies (c : Call) (paired : c.Paired) :
    ∃ hash, c.hash = .ok hash ∧ ∃ d : Call, d.Paired ∧ d.hash = .ok hash ∧ ¬ c.Same d ∧
      (3 ≤ hash.length → c.response.response ≠ d.response.response ∧ d.response.response ≠ [] ∧
        ∀ a ∈ d.arguments, a.1 ≠ [] ∧ a.2 ≠ []) := by
  refine ⟨c.pieces.flatten, Call.hash_eq paired, ?_⟩
  generalize c.pieces.flatten = hash
  by_cases long : 3 ≤ hash.length
  · by_cases whole : c.response.response = hash
    · match hash, long, whole with
      | a :: b :: x :: rest, _, whole =>
        have split : (Call.ofText [a] [[b]] [x :: rest]).hash = .ok (a :: b :: x :: rest) :=
          hash_argument [a] (x :: rest) (letter_other b)
        have words :
            c.response.response ≠ (Call.ofText [a] [[b]] [x :: rest]).response.response := by
          rw [whole]
          simp [Call.ofText]
        refine ⟨.ofText [a] [[b]] [x :: rest], rfl, split, fun same => words same.1,
          fun _ => ⟨words, by simp [Call.ofText], ?_⟩⟩
        rw [arguments_argument _ _ (letter_other b)]
        simp
    · refine ⟨.ofText hash [] [], rfl, hash_text hash, fun same => whole same.1, fun _ => ?_⟩
      refine ⟨whole, ?_, by simp [Call.arguments, Call.ofText]⟩
      rintro (rfl : hash = [])
      simp at long
  · rcases c.differs_somewhere hash with differs | differs
    · exact ⟨.ofText hash [] [], rfl, hash_text hash, differs, fun h => absurd h long⟩
    · exact ⟨.ofText hash [[]] [[]], rfl, hash_empty_argument hash, differs, fun h => absurd h long⟩

theorem Call.pieces_eq_iff {c d : Call} :
    c.pieces = d.pieces ↔ c.response.response = d.response.response ∧
      (c.arguments.map Prod.fst).Perm (d.arguments.map Prod.fst) ∧
      (c.arguments.map Prod.snd).Perm (d.arguments.map Prod.snd) := by
  unfold Call.pieces
  rw [List.cons.injEq, ← sort_eq_iff, ← sort_eq_iff]
  refine and_congr_right fun _ => ⟨fun same => ?_, fun ⟨names, values⟩ => by rw [names, values]⟩
  have lengths := congrArg List.length same
  simp only [List.length_append, (sort_perm _).length_eq, List.length_map] at lengths
  refine List.append_inj same ?_
  simp only [(sort_perm _).length_eq, List.length_map]
  omega

/-- The same words, names and values, but a name has another value. -/
def Exchanged (c d : Call) : Prop :=
  c.response.response = d.response.response ∧
    (c.arguments.map Prod.fst).Perm (d.arguments.map Prod.fst) ∧
    (c.arguments.map Prod.snd).Perm (d.arguments.map Prod.snd) ∧
    ¬ c.arguments.Perm d.arguments

/-- One text, cut into the pieces of both calls at different places. -/
def Recut (c d : Call) : Prop :=
  c.pieces ≠ d.pieces ∧ c.pieces.flatten = d.pieces.flatten

theorem equalHash_iff {c d : Call} (paired : c.Paired) (paired' : d.Paired) :
    (c.hash = d.hash → c.Same d) ↔ ¬ (Exchanged c d ∨ Recut c d) := by
  rw [Call.hash_eq paired, Call.hash_eq paired', Except.ok.injEq]
  constructor
  · rintro identified (⟨words, names, values, differ⟩ | ⟨differ, spelled⟩)
    · have same := Call.pieces_eq_iff.mpr ⟨words, names, values⟩
      exact differ (identified (congrArg List.flatten same)).2
    · have same := identified spelled
      exact differ (Call.pieces_eq_iff.mpr ⟨same.1, same.2.map _, same.2.map _⟩)
  · intro neither spelled
    rw [not_or] at neither
    have same := not_not.mp fun differ => neither.2 ⟨differ, spelled⟩
    obtain ⟨words, names, values⟩ := Call.pieces_eq_iff.mp same
    exact ⟨words, not_not.mp fun differ => neither.1 ⟨words, names, values, differ⟩⟩

end Semaine.Dialogue
