import Semaine.Library.Association
import Semaine.Xml.PathStore

/-! The facial expression and the facial action units of a user are attributes of the same kind of
element, and the times of each are found by testing for that attribute. Written in any order, they
share at most two elements. -/
namespace Semaine.StateInfo
open JavaText Semaine.Xml

inductive FaceKind where
  | expression | actionUnits
  deriving DecidableEq, Repr

namespace FaceKind

def other : FaceKind → FaceKind
  | expression => actionUnits
  | actionUnits => expression

def attName : FaceKind → Text
  | expression => "shape".toList
  | actionUnits => "au".toList

theorem other_ne (k : FaceKind) : k.other ≠ k := by
  cases k <;> decide

theorem attName_other_ne (k : FaceKind) : k.other.attName ≠ k.attName := by
  cases k <;> decide

theorem eq_or_other (k l : FaceKind) : l = k ∨ l = k.other := by
  cases k <;> cases l <;> decide

end FaceKind

inductive Moment where
  | started | stopped
  deriving DecidableEq, Repr

namespace Moment

def attName : Moment → Text
  | started => "start".toList
  | stopped => "end".toList

theorem attName_ne_kind (m : Moment) (k : FaceKind) : m.attName ≠ k.attName := by
  cases m <;> cases k <;> decide

theorem attName_ne {m n : Moment} (h : m ≠ n) : m.attName ≠ n.attName := by
  cases m <;> cases n <;> first | exact absurd rfl h | decide

end Moment

inductive FaceItem where
  | main (k : FaceKind)
  | time (k : FaceKind) (m : Moment)
  deriving DecidableEq, Repr

namespace FaceItem

def kind : FaceItem → FaceKind
  | main k => k
  | time k _ => k

def part : FaceItem → PathPart
  | main _ => { nsPrefix := some "bml".toList, localName := "face".toList }
  | time k _ =>
    { nsPrefix := some "bml".toList, localName := "face".toList, attName := some k.attName }

def attName : FaceItem → Text
  | main k => k.attName
  | time _ m => m.attName

end FaceItem

variable (context : NamespaceContext)

def faceWrite (i : FaceItem) (value : Text) (faces : List Tag) : List Tag :=
  faces.modifyFirst (passes i.part) (·.putAttribute i.attName value)
    ((freshTag context i.part).putAttribute i.attName value)

def faceRead (i : FaceItem) (faces : List Tag) : Option Text :=
  faces.findSome? fun t => if passes i.part t then t.getAttribute? i.attName else none

def writeFaces (items : List (FaceItem × Text)) : List Tag :=
  items.foldl (fun faces item => faceWrite context item.1 item.2 faces) []

/-- The element that was created first, for one of the kinds: its own main value, the main value
of the other kind and the times; and the times in a second element, if there is one. -/
structure TwoFaces where
  own : Option Text := none
  others : Option Text := none
  times : Moment → Option Text := fun _ => none
  second : Option (Moment → Option Text) := none

/-- What writing an item does when the first element was created for this kind. -/
def TwoFaces.step (k : FaceKind) (s : TwoFaces) : FaceItem × Text → TwoFaces
  | (.main l, value) =>
    if l = k then { s with own := some value } else { s with others := some value }
  | (.time l m, value) =>
    if l = k ∨ s.others.isSome then { s with times := Function.update s.times m (some value) }
    else { s with
      second := some (Function.update (s.second.getD fun _ => none) m (some value)) }

structure IsFirst (k : FaceKind) (s : TwoFaces) (t : Tag) : Prop where
  own : t.getAttribute? k.attName = some (s.own.getD [])
  others : t.getAttribute? k.other.attName = s.others
  times : ∀ m : Moment, t.getAttribute? m.attName = s.times m

structure IsSecond (k : FaceKind) (times : Moment → Option Text) (t : Tag) : Prop where
  own : t.getAttribute? k.attName = none
  others : t.getAttribute? k.other.attName = some []
  times : ∀ m : Moment, t.getAttribute? m.attName = times m

inductive Shows (k : FaceKind) (s : TwoFaces) : List Tag → Prop where
  | one {t : Tag} (first : IsFirst k s t) (alone : s.second = none) : Shows k s [t]
  | two {t u : Tag} {times : Moment → Option Text} (first : IsFirst k s t)
      (both : s.second = some times) (second : IsSecond k times u) : Shows k s [t, u]

theorem passes_main (k : FaceKind) (t : Tag) : passes (FaceItem.main k).part t = true := rfl

theorem passes_time (k : FaceKind) (m : Moment) (t : Tag) :
    passes (FaceItem.time k m).part t = (t.getAttribute? k.attName).isSome := by
  simp [passes, FaceItem.part, Tag.hasAttribute]

theorem getAttribute?_fresh_time (k : FaceKind) (m : Moment) (name : Text) :
    (freshTag context (FaceItem.time k m).part).getAttribute? name =
      if name = k.attName then some [] else none := by
  unfold freshTag FaceItem.part
  by_cases same : name = k.attName
  · rw [if_pos same, same]
    exact Tag.getAttribute?_put_same _ _ _
  · rw [if_neg same]
    exact Tag.getAttribute?_put_other _ _ same

theorem Tag.put_update (t : Tag) (times : Moment → Option Text) (m : Moment) (value : Text)
    (h : ∀ n : Moment, t.getAttribute? n.attName = times n) (n : Moment) :
    (t.putAttribute m.attName value).getAttribute? n.attName =
      Function.update times m (some value) n := by
  by_cases same : n = m
  · rw [same, Function.update_self, Tag.getAttribute?_put_same]
  · rw [Function.update_of_ne same, Tag.getAttribute?_put_other t value (Moment.attName_ne same)]
    exact h n

theorem IsFirst.putTime {k : FaceKind} {s : TwoFaces} {t : Tag} (h : IsFirst k s t) (m : Moment)
    (value : Text) :
    IsFirst k { s with times := Function.update s.times m (some value) }
      (t.putAttribute m.attName value) where
  own := by
    rw [Tag.getAttribute?_put_other t value (Ne.symm (m.attName_ne_kind k))]
    exact h.own
  others := by
    rw [Tag.getAttribute?_put_other t value (Ne.symm (m.attName_ne_kind k.other))]
    exact h.others
  times := Tag.put_update t s.times m value h.times

theorem IsSecond.putTime {k : FaceKind} {times : Moment → Option Text} {t : Tag}
    (h : IsSecond k times t) (m : Moment) (value : Text) :
    IsSecond k (Function.update times m (some value)) (t.putAttribute m.attName value) where
  own := by
    rw [Tag.getAttribute?_put_other t value (Ne.symm (m.attName_ne_kind k))]
    exact h.own
  others := by
    rw [Tag.getAttribute?_put_other t value (Ne.symm (m.attName_ne_kind k.other))]
    exact h.others
  times := Tag.put_update t times m value h.times

theorem IsFirst.putMain {k : FaceKind} {s : TwoFaces} {t : Tag} (h : IsFirst k s t)
    (l : FaceKind) (value : Text) :
    IsFirst k (s.step k (.main l, value)) (t.putAttribute l.attName value) := by
  have times : ∀ m : Moment, (t.putAttribute l.attName value).getAttribute? m.attName =
      s.times m := by
    intro m
    rw [Tag.getAttribute?_put_other t value (m.attName_ne_kind l)]
    exact h.times m
  rcases k.eq_or_other l with rfl | rfl
  · simp only [TwoFaces.step, if_pos]
    refine ⟨Tag.getAttribute?_put_same t _ value, ?_, times⟩
    rw [Tag.getAttribute?_put_other t value l.attName_other_ne]
    exact h.others
  · simp only [TwoFaces.step, if_neg k.other_ne]
    refine ⟨?_, Tag.getAttribute?_put_same t _ value, times⟩
    rw [Tag.getAttribute?_put_other t value (Ne.symm k.attName_other_ne)]
    exact h.own

theorem isSecond_fresh (k : FaceKind) (m : Moment) (value : Text) :
    IsSecond k (Function.update (fun _ => none) m (some value))
      ((freshTag context (FaceItem.time k.other m).part).putAttribute m.attName value) := by
  have bare : IsSecond k (fun _ => none)
      (freshTag context (FaceItem.time k.other m).part) := by
    constructor
    · rw [getAttribute?_fresh_time, if_neg (Ne.symm k.attName_other_ne)]
    · rw [getAttribute?_fresh_time, if_pos rfl]
    · intro n
      rw [getAttribute?_fresh_time, if_neg (n.attName_ne_kind k.other)]
  exact bare.putTime m value

theorem step_main_second (k l : FaceKind) (s : TwoFaces) (value : Text) :
    (s.step k (.main l, value)).second = s.second := by
  simp only [TwoFaces.step]
  split <;> rfl

theorem Shows.writeTime {k : FaceKind} {s : TwoFaces} {faces : List Tag} (h : Shows k s faces)
    {l : FaceKind} (m : Moment) (value : Text) (found : l = k ∨ s.others.isSome = true) :
    Shows k (s.step k (.time l m, value)) (faceWrite context (.time l m) value faces) := by
  have passed : ∀ t, IsFirst k s t → passes (FaceItem.time l m).part t = true := by
    intro t first
    rw [passes_time]
    rcases k.eq_or_other l with rfl | rfl
    · rw [first.own]
      rfl
    · rw [first.others]
      exact found.resolve_left k.other_ne
  simp only [TwoFaces.step, if_pos found]
  cases h with
  | one first alone =>
    simp only [faceWrite, List.modifyFirst, if_pos (passed _ first)]
    exact .one (first.putTime m value) alone
  | two first both other =>
    simp only [faceWrite, List.modifyFirst, if_pos (passed _ first)]
    exact .two (first.putTime m value) both other

theorem Shows.write {k : FaceKind} {s : TwoFaces} {faces : List Tag} (h : Shows k s faces)
    (i : FaceItem) (value : Text) :
    Shows k (s.step k (i, value)) (faceWrite context i value faces) := by
  cases i with
  | main l =>
    have second := step_main_second k l s value
    cases h with
    | one first alone => exact .one (first.putMain l value) (second.trans alone)
    | two first both other => exact .two (first.putMain l value) (second.trans both) other
  | time l m =>
    by_cases found : l = k ∨ s.others.isSome = true
    · exact h.writeTime context m value found
    · obtain ⟨notOwn, noOthers⟩ := not_or.mp found
      have isOther := (k.eq_or_other l).resolve_left notOwn
      subst isOther
      have failed : ∀ t, IsFirst k s t → ¬ passes (FaceItem.time k.other m).part t = true := by
        intro t first
        rw [passes_time, first.others]
        exact noOthers
      simp only [TwoFaces.step, if_neg found]
      cases h with
      | one first alone =>
        simp only [faceWrite, List.modifyFirst, if_neg (failed _ first), alone]
        exact .two ⟨first.own, first.others, first.times⟩ rfl (isSecond_fresh context k m value)
      | two first both other =>
        have passed : ∀ u times, IsSecond k times u →
            passes (FaceItem.time k.other m).part u = true := by
          intro u times second
          rw [passes_time, second.others]
          rfl
        simp only [faceWrite, List.modifyFirst, if_neg (failed _ first),
          if_pos (passed _ _ other), both]
        exact .two ⟨first.own, first.others, first.times⟩ rfl (other.putTime m value)

theorem shows_first (i : FaceItem) (value : Text) :
    Shows i.kind (TwoFaces.step i.kind {} (i, value)) (faceWrite context i value []) := by
  cases i with
  | main k =>
    simp only [TwoFaces.step, FaceItem.kind, if_pos]
    refine .one ⟨Tag.getAttribute?_put_same _ _ value, ?_, ?_⟩ rfl
    · exact Tag.getAttribute?_put_other _ value k.attName_other_ne
    · intro m
      exact Tag.getAttribute?_put_other _ value (m.attName_ne_kind k)
  | time k m =>
    have bare : IsFirst k {} (freshTag context (FaceItem.time k m).part) := by
      constructor
      · rw [getAttribute?_fresh_time, if_pos rfl]
        rfl
      · rw [getAttribute?_fresh_time, if_neg k.attName_other_ne]
      · intro n
        rw [getAttribute?_fresh_time, if_neg (n.attName_ne_kind k)]
    simp only [TwoFaces.step, FaceItem.kind, if_pos, true_or]
    exact .one (bare.putTime m value) rfl

theorem shows_writeFaces (first : FaceItem × Text) (rest : List (FaceItem × Text)) :
    Shows first.1.kind ((first :: rest).foldl (TwoFaces.step first.1.kind) {})
      (writeFaces context (first :: rest)) := by
  induction rest using List.reverseRecOn with
  | nil => exact shows_first context first.1 first.2
  | append_singleton rest item ih =>
    have next := ih.write context item.1 item.2
    rw [writeFaces, ← List.cons_append, List.foldl_append, List.foldl_append]
    exact next

namespace Shows
variable {k : FaceKind} {s : TwoFaces} {faces : List Tag}

theorem read_own (h : Shows k s faces) : faceRead (.main k) faces = some (s.own.getD []) := by
  cases h with
  | one first _ => simp [faceRead, passes_main, FaceItem.attName, first.own]
  | two first _ _ => simp [faceRead, passes_main, FaceItem.attName, first.own]

theorem read_others (h : Shows k s faces) :
    (faceRead (.main k.other) faces).getD [] = s.others.getD [] := by
  cases h with
  | one first _ =>
    cases others : s.others <;>
      simp [faceRead, passes_main, FaceItem.attName, first.others, others]
  | two first _ second =>
    cases others : s.others <;>
      simp [faceRead, passes_main, FaceItem.attName, first.others, second.others, others]

theorem read_time (h : Shows k s faces) (m : Moment) :
    faceRead (.time k m) faces = s.times m := by
  cases h with
  | one first _ =>
    cases time : s.times m <;>
      simp [faceRead, passes_time, FaceItem.attName, first.own, first.times, time]
  | two first _ second =>
    cases time : s.times m <;>
      simp [faceRead, passes_time, FaceItem.attName, first.own, first.times, second.own, time]

theorem read_time_other (h : Shows k s faces) (m : Moment) :
    faceRead (.time k.other m) faces =
      ((if s.others.isSome then s.times m else none).or (s.second.bind (· m))) := by
  cases h with
  | one first alone =>
    cases others : s.others <;> cases time : s.times m <;>
      simp [faceRead, passes_time, FaceItem.attName, first.others, first.times, others, time, alone]
  | two first both second =>
    cases others : s.others <;> cases time : s.times m <;>
      simp [faceRead, passes_time, FaceItem.attName, first.others, first.times, others, time, both,
        second.others, second.times]

end Shows

def before (k : FaceKind) (items : List (FaceItem × Text)) : List (FaceItem × Text) :=
  items.takeWhile (fun item => item.1 ≠ .main k.other)

/-- A time of the other kind that was written after the main value, into the first element. -/
def Late (k : FaceKind) (items : List (FaceItem × Text)) (m : Moment) (value : Text) : Prop :=
  items.lookup (.time k.other m) = some value ∧ (before k items).lookup (.time k.other m) = none

/-- For both kinds the same time is given, or none for the first kind, and the one for the other
kind, if it is given, comes before the main value. -/
def TimeKept (k : FaceKind) (items : List (FaceItem × Text)) (m : Moment) : Prop :=
  match items.lookup (.time k m) with
  | some value => items.lookup (.time k.other m) = some value
  | none => (items.lookup (.time k.other m)).isSome →
      ((before k items).lookup (.time k.other m)).isSome

instance (k : FaceKind) (items : List (FaceItem × Text)) (m : Moment) :
    Decidable (TimeKept k items m) := by
  unfold TimeKept
  split <;> infer_instance

/-- If the main value of the kind that does not come first is given, the times are kept. -/
def KeptApart : List (FaceItem × Text) → Prop
  | [] => True
  | first :: rest => ((first :: rest).lookup (.main first.1.kind.other)).isSome →
      ∀ m, TimeKept first.1.kind (first :: rest) m

theorem forall_moment {p : Moment → Prop} : (∀ m, p m) ↔ p .started ∧ p .stopped := by
  constructor
  · exact fun h => ⟨h .started, h .stopped⟩
  · rintro ⟨started, stopped⟩ (_ | _)
    · exact started
    · exact stopped

instance : DecidablePred KeptApart
  | [] => .isTrue trivial
  | first :: rest =>
    have : Decidable (∀ m, TimeKept first.1.kind (first :: rest) m) :=
      decidable_of_iff' _ forall_moment
    inferInstanceAs (Decidable (_ → _))

theorem before_isPrefix (k : FaceKind) (items : List (FaceItem × Text)) :
    before k items <+: items := List.takeWhile_prefix _

theorem before_all {k : FaceKind} {items : List (FaceItem × Text)}
    (absent : items.lookup (.main k.other) = none) :
    ∀ item ∈ items, decide (item.1 ≠ .main k.other) = true := by
  intro item member
  have different := List.lookup_eq_none_iff.mp absent item member
  apply decide_eq_true
  intro same
  rw [same] at different
  exact bne_iff_ne.mp different rfl

theorem before_present {k : FaceKind} {items more : List (FaceItem × Text)} {value : Text}
    (present : items.lookup (.main k.other) = some value) :
    before k (items ++ more) = before k items := by
  unfold before
  rw [List.takeWhile_append, if_neg]
  intro whole
  have all := List.takeWhile_eq_self_iff.mp (List.takeWhile_sublist _ |>.eq_of_length whole)
  exact of_decide_eq_true (all _ (List.mem_of_lookup present)) rfl

theorem before_lookup_concat {k : FaceKind} {items : List (FaceItem × Text)} {i : FaceItem}
    (new : items.lookup i = none) (value : Text) (m : Moment) :
    (before k (items ++ [(i, value)])).lookup (.time k.other m) =
      if items.lookup (.main k.other) = none ∧ FaceItem.time k.other m = i then some value
      else (before k items).lookup (.time k.other m) := by
  cases present : items.lookup (.main k.other) with
  | some v =>
    rw [before_present present, if_neg (by simp)]
  | none =>
    have all := before_all present
    have whole : before k items = items := List.takeWhile_eq_self_iff.mpr all
    rw [whole]
    unfold before
    rw [List.takeWhile_append_of_pos all]
    by_cases isMain : i = .main k.other
    · subst isMain
      simp
    · have kept : [(i, value)].takeWhile (fun item => decide (item.1 ≠ .main k.other)) =
          [(i, value)] := List.takeWhile_cons_of_pos (decide_eq_true isMain)
      rw [kept, List.lookup_concat new value]
      simp

structure Tracks (k : FaceKind) (items : List (FaceItem × Text)) (s : TwoFaces) : Prop where
  own : s.own = items.lookup (.main k)
  others : s.others = items.lookup (.main k.other)
  second : ∀ m, s.second.bind (· m) = (before k items).lookup (.time k.other m)
  filled : ∀ m value, s.times m = some value →
    items.lookup (.time k m) = some value ∨ Late k items m value
  empty : ∀ m, s.times m = none →
    items.lookup (.time k m) = none ∧ ∀ value, ¬ Late k items m value

theorem Tracks.step {k : FaceKind} {items : List (FaceItem × Text)} {s : TwoFaces}
    (h : Tracks k items s) {i : FaceItem} (new : items.lookup i = none) (value : Text) :
    Tracks k (items ++ [(i, value)]) (s.step k (i, value)) := by
  obtain ⟨own, others, second, filled, empty⟩ := h
  have all := List.lookup_concat new value
  have early := before_lookup_concat (k := k) new value
  have notOther := k.other_ne
  cases i with
  | main l =>
    rcases k.eq_or_other l with rfl | rfl
    · simp only [TwoFaces.step, if_pos]
      constructor
      · simp [all]
      · simp [all, notOther, others]
      · simpa [early] using second
      · simpa [Late, all, early] using filled
      · simpa [Late, all, early] using empty
    · simp only [TwoFaces.step, if_neg notOther]
      constructor
      · simp [all, Ne.symm notOther, own]
      · simp [all]
      · simpa [early] using second
      · simpa [Late, all, early] using filled
      · simpa [Late, all, early] using empty
  | time l m =>
    by_cases found : l = k ∨ s.others.isSome = true
    · simp only [TwoFaces.step, if_pos found]
      rcases k.eq_or_other l with rfl | rfl
      · constructor
        · simpa [all] using own
        · simpa [all] using others
        · simpa [early, notOther] using second
        · intro n v written
          by_cases same : n = m
          · subst same
            simp_all
          · simp only [Function.update_of_ne same] at written
            simpa [Late, all, early, notOther, same] using filled n v written
        · intro n unwritten
          by_cases same : n = m
          · subst same
            simp at unwritten
          · simp only [Function.update_of_ne same] at unwritten
            simpa [Late, all, early, notOther, same] using empty n unwritten
      · have present : items.lookup (.main k.other) ≠ none := by
          have isSome := found.resolve_left notOther
          rw [others] at isSome
          exact Option.isSome_iff_ne_none.mp isSome
        have late := (before_isPrefix k items).lookup_eq_none new
        constructor
        · simpa [all] using own
        · simpa [all] using others
        · simpa [early, present] using second
        · intro n v written
          by_cases same : n = m
          · subst same
            simp only [Function.update_self, Option.some.injEq] at written
            subst written
            refine .inr ⟨by rw [all, if_pos rfl], ?_⟩
            rw [early, if_neg (fun h => present h.1)]
            exact late
          · simp only [Function.update_of_ne same] at written
            simpa [Late, all, early, present, same] using filled n v written
        · intro n unwritten
          by_cases same : n = m
          · subst same
            simp at unwritten
          · simp only [Function.update_of_ne same] at unwritten
            simpa [Late, all, early, present, same] using empty n unwritten
    · obtain ⟨notOwn, noOthers⟩ := not_or.mp found
      have isOther := (k.eq_or_other l).resolve_left notOwn
      subst isOther
      have absent : items.lookup (.main k.other) = none := by
        rw [← others]
        simpa using noOthers
      simp only [TwoFaces.step, if_neg found]
      constructor
      · simpa [all] using own
      · simpa [all] using others
      · intro n
        rw [early]
        by_cases same : n = m
        · subst same
          simp [absent]
        · have kept := second n
          cases h : s.second <;> simp_all
      · intro n v written
        rcases filled n v written with own | ⟨late, notEarly⟩
        · exact .inl (by simpa [all, Ne.symm notOther] using own)
        · have different : n ≠ m := by
            rintro rfl
            rw [new] at late
            cases late
          exact .inr (by simp [Late, all, early, absent, different, late, notEarly])
      · intro n unwritten
        obtain ⟨none, notLate⟩ := empty n unwritten
        refine ⟨by simpa [all, Ne.symm notOther] using none, ?_⟩
        rintro v ⟨late, notEarly⟩
        by_cases same : n = m
        · subst same
          simp [early, absent] at notEarly
        · exact notLate v ⟨by simpa [all, same] using late, by simpa [early, same] using notEarly⟩

theorem tracks (k : FaceKind) {items : List (FaceItem × Text)}
    (distinct : (items.map Prod.fst).Nodup) : Tracks k items (items.foldl (TwoFaces.step k) {}) := by
  induction items using List.reverseRecOn with
  | nil =>
    constructor
    · rfl
    · rfl
    · exact fun _ => rfl
    · rintro m value ⟨⟩
    · exact fun m _ => ⟨rfl, by rintro value ⟨⟨⟩, _⟩⟩
  | append_singleton items item ih =>
    obtain ⟨distinct, new⟩ := List.nodup_keys_concat distinct
    rw [List.foldl_append]
    exact (ih distinct).step (List.lookup_eq_none_of_notMem new) item.2

namespace Tracks
variable {k : FaceKind} {items : List (FaceItem × Text)} {s : TwoFaces}

theorem times_alone (h : Tracks k items s) (absent : items.lookup (.main k.other) = none)
    (m : Moment) : s.times m = items.lookup (.time k m) := by
  have whole : before k items = items := List.takeWhile_eq_self_iff.mpr (before_all absent)
  have notLate : ∀ value, ¬ Late k items m value := by
    rintro value ⟨late, early⟩
    rw [whole, late] at early
    cases early
  cases written : s.times m with
  | some value => exact ((h.filled m value written).resolve_right (notLate value)).symm
  | none => exact (h.empty m written).1.symm

theorem timeKept_iff (h : Tracks k items s) (values : ∀ item ∈ items, item.2 ≠ []) (m : Moment) :
    ((s.times m).getD [] = (items.lookup (.time k m)).getD [] ∧
      ((s.times m).or ((before k items).lookup (.time k.other m))).getD [] =
        (items.lookup (.time k.other m)).getD []) ↔ TimeKept k items m := by
  have given : ∀ i value, items.lookup i = some value → value ≠ [] := by
    intro i value found
    exact values (i, value) (List.mem_of_lookup found)
  unfold TimeKept
  cases own : items.lookup (.time k m) with
  | some value =>
    cases written : s.times m with
    | none =>
      have absent := (h.empty m written).1
      rw [own] at absent
      cases absent
    | some read =>
      have notEmpty := given _ _ own
      have source := h.filled m read written
      rw [own] at source
      cases other : items.lookup (.time k.other m) with
      | none =>
        have same : value = read := by simpa [Late, other] using source
        simp [← same, notEmpty]
      | some value' =>
        simp only [Late, other, Option.some.injEq] at source
        simp only [Option.some_or, Option.getD_some, Option.some.injEq]
        grind
  | none =>
    cases written : s.times m with
    | none =>
      have notLate := (h.empty m written).2
      cases other : items.lookup (.time k.other m) with
      | none =>
        have early := (before_isPrefix k items).lookup_eq_none other
        simp [early]
      | some value =>
        cases early : (before k items).lookup (.time k.other m) with
        | none => exact absurd ⟨other, early⟩ (notLate value)
        | some value' =>
          have same := (before_isPrefix k items).lookup_eq_some early
          rw [other, Option.some.injEq] at same
          simp [same]
    | some read =>
      have source := h.filled m read written
      rw [own] at source
      obtain ⟨late, early⟩ := source.resolve_left (by simp)
      have notEmpty := given _ _ late
      simp [late, early, notEmpty]

theorem reads_iff (h : Tracks k items s) (values : ∀ item ∈ items, item.2 ≠ [])
    {faces : List Tag} (shown : Shows k s faces) :
    (∀ i, (faceRead i faces).getD [] = (items.lookup i).getD []) ↔
      ((items.lookup (.main k.other)).isSome → ∀ m, TimeKept k items m) := by
  have readOther : ∀ m, faceRead (.time k.other m) faces =
      (if (items.lookup (.main k.other)).isSome then s.times m else none).or
        ((before k items).lookup (.time k.other m)) := by
    intro m
    rw [shown.read_time_other, h.others, h.second]
  constructor
  · intro all present m
    have own := all (.time k m)
    have other := all (.time k.other m)
    rw [shown.read_time] at own
    rw [readOther, if_pos present] at other
    exact (h.timeKept_iff values m).mp ⟨own, other⟩
  · intro kept i
    cases i with
    | main l =>
      rcases k.eq_or_other l with rfl | rfl
      · rw [shown.read_own, h.own, Option.getD_some]
      · rw [shown.read_others, h.others]
    | time l m =>
      cases present : items.lookup (.main k.other) with
      | none =>
        have whole : before k items = items := List.takeWhile_eq_self_iff.mpr (before_all present)
        rcases k.eq_or_other l with rfl | rfl
        · rw [shown.read_time, h.times_alone present]
        · rw [readOther, present, whole]
          rfl
      | some value =>
        have isSome : (items.lookup (.main k.other)).isSome = true := by rw [present]; rfl
        obtain ⟨own, other⟩ := (h.timeKept_iff values m).mpr (kept isSome m)
        rcases k.eq_or_other l with rfl | rfl
        · rw [shown.read_time, own]
        · rw [readOther, if_pos isSome, other]

end Tracks

theorem faces_kept {items : List (FaceItem × Text)} (distinct : (items.map Prod.fst).Nodup)
    (values : ∀ item ∈ items, item.2 ≠ []) :
    (∀ i, (faceRead i (writeFaces context items)).getD [] = (items.lookup i).getD []) ↔
      KeptApart items := by
  cases items with
  | nil =>
    constructor
    · exact fun _ => trivial
    · exact fun _ _ => rfl
  | cons first rest =>
    have shown := shows_writeFaces context first rest
    have held := tracks first.1.kind distinct
    exact held.reads_iff values shown

end Semaine.StateInfo
