import Semaine.Library.JavaText

/-! The statistics of a `MetaMessenger`, in Java and in C++: the last times of each kind, and
their averages. -/
namespace Semaine.Meta
open JavaText

structure Statistics where
  memory : Nat
  actTimes : List Int := []
  reactTimes : List Int := []
  transmitTimes : List Int := []
  messagesReceived : Int := 0

def totalLong (values : List Int) : Int := values.foldl (fun total l => toLong (total + l)) 0

namespace Statistics

/-- The newest value is added; the oldest one goes when there are too many. -/
def remember (s : Statistics) (times : List Int) (millis : Int) : List Int :=
  let times := times ++ [millis]
  if times.length > s.memory then times.tail else times

def actTime (s : Statistics) (millis : Int) : Statistics :=
  { s with actTimes := s.remember s.actTimes millis }

def reactTime (s : Statistics) (millis : Int) : Statistics :=
  { s with reactTimes := s.remember s.reactTimes millis }

def transmitTime (s : Statistics) (millis : Int) : Statistics :=
  { s with transmitTimes := s.remember s.transmitTimes millis }

def countMessageReceived (s : Statistics) : Statistics :=
  { s with messagesReceived := toInt (s.messagesReceived + 1) }

def average (values : List Int) : Int :=
  if values.length = 0 then -1 else (totalLong values).tdiv values.length

def avgActTime (s : Statistics) : Int := average s.actTimes

def avgReactTime (s : Statistics) : Int := average s.reactTimes

def avgTransmitTime (s : Statistics) : Int := average s.transmitTimes

end Statistics

namespace Cpp

structure Statistics where
  memory : Nat
  actTimes : List Int := []
  reactTimes : List Int := []
  transmitTimes : List Int := []
  messagesReceived : Int := 0

namespace Statistics

def pushBack (s : Statistics) (times : List Int) (millis : Int) : List Int :=
  let times := times ++ [millis]
  if times.length > s.memory then times.tail else times

def actTime (s : Statistics) (millis : Int) : Statistics :=
  { s with actTimes := s.pushBack s.actTimes millis }

def reactTime (s : Statistics) (millis : Int) : Statistics :=
  { s with reactTimes := s.pushBack s.reactTimes millis }

def transmitTime (s : Statistics) (millis : Int) : Statistics :=
  { s with transmitTimes := s.pushBack s.transmitTimes millis }

def countMessageReceived (s : Statistics) : Statistics :=
  { s with messagesReceived := toInt (s.messagesReceived + 1) }

/-- In `total / size` the signed total is converted to the unsigned type of the size. -/
def average (values : List Int) : Int :=
  if values.length = 0 then -1 else toLong (totalLong values % 2 ^ 64 / values.length)

def avgActTime (s : Statistics) : Int := average s.actTimes

def avgReactTime (s : Statistics) : Int := average s.reactTimes

def avgTransmitTime (s : Statistics) : Int := average s.transmitTimes

end Statistics

end Cpp

theorem rtake_concat (memory : Nat) (values : List Int) (millis : Int) :
    (if (values.rtake memory ++ [millis]).length > memory then
      (values.rtake memory ++ [millis]).tail else values.rtake memory ++ [millis]) =
      (values ++ [millis]).rtake memory := by
  have all : (values ++ [millis]).length - memory = values.length + 1 - memory := by simp
  rw [List.rtake, List.rtake, all]
  split
  · next tooLong =>
    simp only [List.length_append, List.length_drop, List.length_singleton] at tooLong
    have one : values.length + 1 - memory = (values.length - memory) + 1 := by omega
    rw [one, ← List.drop_one, ← List.drop_drop, ← List.drop_append_of_le_length (by omega)]
  · next short =>
    simp only [List.length_append, List.length_drop, List.length_singleton] at short
    have none : values.length + 1 - memory = 0 := by omega
    have none' : values.length - memory = 0 := by omega
    rw [none, none', List.drop_zero, List.drop_zero]

inductive Kind where
  | act
  | react
  | transmit
  deriving DecidableEq

structure Sample where
  kind : Kind
  millis : Int

def Statistics.times (s : Statistics) : Kind → List Int
  | .act => s.actTimes
  | .react => s.reactTimes
  | .transmit => s.transmitTimes

def Statistics.enter (s : Statistics) (x : Sample) : Statistics :=
  match x.kind with
  | .act => s.actTime x.millis
  | .react => s.reactTime x.millis
  | .transmit => s.transmitTime x.millis

def Statistics.avg (s : Statistics) : Kind → Int
  | .act => s.avgActTime
  | .react => s.avgReactTime
  | .transmit => s.avgTransmitTime

def Statistics.after (samples : List Sample) : Statistics :=
  samples.foldl Statistics.enter { memory := 30 }

namespace Cpp

def Statistics.times (s : Statistics) : Kind → List Int
  | .act => s.actTimes
  | .react => s.reactTimes
  | .transmit => s.transmitTimes

def Statistics.enter (s : Statistics) (x : Sample) : Statistics :=
  match x.kind with
  | .act => s.actTime x.millis
  | .react => s.reactTime x.millis
  | .transmit => s.transmitTime x.millis

def Statistics.avg (s : Statistics) : Kind → Int
  | .act => s.avgActTime
  | .react => s.avgReactTime
  | .transmit => s.avgTransmitTime

def Statistics.after (samples : List Sample) : Statistics :=
  samples.foldl Statistics.enter { memory := 30 }

end Cpp

def valuesOf (kind : Kind) (samples : List Sample) : List Int :=
  (samples.filter (·.kind = kind)).map (·.millis)

def recent (kind : Kind) (samples : List Sample) : List Int := (valuesOf kind samples).rtake 30

theorem valuesOf_concat (kind : Kind) (samples : List Sample) (x : Sample) :
    valuesOf kind (samples ++ [x]) =
      if x.kind = kind then valuesOf kind samples ++ [x.millis] else valuesOf kind samples := by
  by_cases same : x.kind = kind
  · simp [valuesOf, same]
  · simp [valuesOf, same]

theorem recent_concat (kind : Kind) (samples : List Sample) (x : Sample) :
    recent kind (samples ++ [x]) =
      if x.kind = kind then
        (if (recent kind samples ++ [x.millis]).length > 30 then
          (recent kind samples ++ [x.millis]).tail else recent kind samples ++ [x.millis])
      else recent kind samples := by
  rw [recent, valuesOf_concat]
  split
  · exact (rtake_concat 30 (valuesOf kind samples) x.millis).symm
  · rfl

theorem Statistics.after_concat (samples : List Sample) (x : Sample) :
    Statistics.after (samples ++ [x]) = (Statistics.after samples).enter x := by
  simp [Statistics.after]

theorem Cpp.Statistics.after_concat (samples : List Sample) (x : Sample) :
    Cpp.Statistics.after (samples ++ [x]) = (Cpp.Statistics.after samples).enter x := by
  simp [Cpp.Statistics.after]

theorem Statistics.times_after (samples : List Sample) :
    (Statistics.after samples).memory = 30 ∧
      ∀ kind, (Statistics.after samples).times kind = recent kind samples := by
  induction samples using List.reverseRecOn with
  | nil => exact ⟨rfl, fun kind => by cases kind <;> rfl⟩
  | append_singleton samples x ih =>
    obtain ⟨memory, times⟩ := ih
    rw [Statistics.after_concat]
    constructor
    · rw [← memory]
      obtain ⟨kind, millis⟩ := x
      cases kind <;> rfl
    · intro kind
      rw [recent_concat, ← times kind]
      obtain ⟨of, millis⟩ := x
      cases of <;> cases kind <;>
        simp [Statistics.enter, Statistics.times, Statistics.actTime, Statistics.reactTime,
          Statistics.transmitTime, Statistics.remember, memory]

theorem Cpp.Statistics.times_after (samples : List Sample) :
    (Cpp.Statistics.after samples).memory = 30 ∧
      ∀ kind, (Cpp.Statistics.after samples).times kind = recent kind samples := by
  induction samples using List.reverseRecOn with
  | nil => exact ⟨rfl, fun kind => by cases kind <;> rfl⟩
  | append_singleton samples x ih =>
    obtain ⟨memory, times⟩ := ih
    rw [Cpp.Statistics.after_concat]
    constructor
    · rw [← memory]
      obtain ⟨kind, millis⟩ := x
      cases kind <;> rfl
    · intro kind
      rw [recent_concat, ← times kind]
      obtain ⟨of, millis⟩ := x
      cases of <;> cases kind <;>
        simp [Cpp.Statistics.enter, Cpp.Statistics.times, Cpp.Statistics.actTime,
          Cpp.Statistics.reactTime, Cpp.Statistics.transmitTime, Cpp.Statistics.pushBack, memory]

theorem Statistics.avg_after (kind : Kind) (samples : List Sample) :
    (Statistics.after samples).avg kind = Statistics.average (recent kind samples) := by
  rw [← (Statistics.times_after samples).2 kind]
  cases kind <;> rfl

theorem Cpp.Statistics.avg_after (kind : Kind) (samples : List Sample) :
    (Cpp.Statistics.after samples).avg kind = Cpp.Statistics.average (recent kind samples) := by
  rw [← (Cpp.Statistics.times_after samples).2 kind]
  cases kind <;> rfl

theorem foldl_toLong (values : List Int) (start : Int) :
    toLong (values.foldl (fun total l => toLong (total + l)) start) =
      toLong (start + values.sum) := by
  induction values generalizing start with
  | nil => simp
  | cons l values ih =>
    rw [List.foldl_cons, ih, List.sum_cons, ← Int.add_assoc]
    exact Int.bmod_add_bmod

theorem isLong_totalLong (values : List Int) : IsLong (totalLong values) := by
  rcases values.eq_nil_or_concat with rfl | ⟨start, last, rfl⟩
  · exact ⟨by decide, by decide⟩
  · rw [totalLong, List.concat_eq_append, List.foldl_concat]
    exact isLong_toLong _

theorem totalLong_eq_sum {values : List Int} (h : IsLong values.sum) :
    totalLong values = values.sum := by
  have mod := foldl_toLong values 0
  rw [Int.zero_add, toLong_eq_self h] at mod
  rw [← mod]
  exact (toLong_eq_self (isLong_totalLong values)).symm

theorem unsigned_quotient {total : Int} (h : IsLong total) (size : Nat) (some : 0 < size)
    (few : size ≤ 30) :
    toLong (total % 2 ^ 64 / size) = total.tdiv size ↔ size = 1 ∨ 0 ≤ total := by
  have bounds := h
  unfold IsLong at bounds
  rcases Int.lt_or_le total 0 with negative | nonnegative
  · have unsigned : total % 2 ^ 64 = total + 2 ^ 64 := by omega
    rw [unsigned]
    rcases Nat.lt_or_ge 1 size with several | single
    · have positive : 1 ≤ (total + 2 ^ 64) / size := by
        apply Int.le_ediv_of_mul_le
        · omega
        · omega
      have small : (total + 2 ^ 64) / size < 2 ^ 63 := by
        apply Int.ediv_lt_of_lt_mul
        · omega
        · omega
      have same : toLong ((total + 2 ^ 64) / size) = (total + 2 ^ 64) / size := by
        apply toLong_eq_self
        constructor
        · omega
        · exact small
      have quotient : total.tdiv size ≤ 0 := by
        have opposite := Int.tdiv_nonneg (a := -total) (b := size) (by omega) (by omega)
        rw [Int.neg_tdiv] at opposite
        omega
      rw [same]
      constructor
      · intro equal
        omega
      · rintro (one | positive)
        · omega
        · omega
    · have one : size = 1 := by omega
      have shifted : toLong (total + 2 ^ 64) = toLong total := Int.add_bmod_right total (2 ^ 64)
      have same : toLong ((total + 2 ^ 64) / size) = total.tdiv size := by
        rw [one, Int.natCast_one, Int.ediv_one, Int.tdiv_one, shifted, toLong_eq_self h]
      constructor
      · intro _
        exact Or.inl one
      · intro _
        exact same
  · have signed : total % 2 ^ 64 = total := by omega
    have quotient : total.tdiv size = total / size := Int.tdiv_eq_ediv_of_nonneg nonnegative
    have smaller : total / size ≤ total := Int.ediv_le_self size nonnegative
    have atLeast : 0 ≤ total / size := Int.ediv_nonneg nonnegative (by omega)
    have same : toLong (total / size) = total / size := by
      apply toLong_eq_self
      constructor
      · omega
      · omega
    rw [signed, quotient, same]
    constructor
    · intro _
      exact Or.inr nonnegative
    · intro _
      rfl

theorem length_recent_le (kind : Kind) (samples : List Sample) :
    (recent kind samples).length ≤ 30 := by
  simp only [recent, List.rtake, List.length_drop]
  omega

structure Admissible (samples : List Sample) : Prop where
  values : ∀ x ∈ samples, IsLong x.millis
  sums : ∀ before, before <+: samples → ∀ kind, IsLong (recent kind before).sum

/-- At every moment both averages are the same, and they are the mean of the last values,
truncated toward zero, where there are values. -/
def AveragesExact (samples : List Sample) : Prop :=
  ∀ before, before <+: samples → ∀ kind,
    (Statistics.after before).avg kind = (Cpp.Statistics.after before).avg kind ∧
    (recent kind before ≠ [] →
      (Statistics.after before).avg kind =
        (recent kind before).sum.tdiv (recent kind before).length)

def SumsNonnegative (samples : List Sample) : Prop :=
  ∀ before, before <+: samples → ∀ kind,
    (recent kind before).length ≤ 1 ∨ 0 ≤ (recent kind before).sum

theorem averages_exact_iff (samples : List Sample) (h : Admissible samples) :
    AveragesExact samples ↔ SumsNonnegative samples := by
  have each : ∀ before, before <+: samples → ∀ kind,
      (((Statistics.after before).avg kind = (Cpp.Statistics.after before).avg kind ∧
        (recent kind before ≠ [] →
          (Statistics.after before).avg kind =
            (recent kind before).sum.tdiv (recent kind before).length)) ↔
        ((recent kind before).length ≤ 1 ∨ 0 ≤ (recent kind before).sum)) := by
    intro before isBefore kind
    have long := h.sums before isBefore kind
    have few := length_recent_le kind before
    rw [Statistics.avg_after, Cpp.Statistics.avg_after]
    generalize recent kind before = window at long few ⊢
    rw [Statistics.average, Cpp.Statistics.average, totalLong_eq_sum long]
    rcases Nat.eq_zero_or_pos window.length with empty | filled
    · have nil := List.length_eq_zero_iff.mp empty
      simp [nil]
    · have some : window.length ≠ 0 := by omega
      have exact := unsigned_quotient long window.length filled few
      rw [if_neg some, if_neg some]
      constructor
      · rintro ⟨same, _⟩
        rcases exact.mp same.symm with one | nonnegative
        · exact Or.inl (by omega)
        · exact Or.inr nonnegative
      · intro good
        have same : window.length = 1 ∨ 0 ≤ window.sum := by omega
        exact ⟨(exact.mpr same).symm, fun _ => rfl⟩
  constructor
  · intro exact before isBefore kind
    exact (each before isBefore kind).mp (exact before isBefore kind)
  · intro good before isBefore kind
    exact (each before isBefore kind).mpr (good before isBefore kind)

def early : List Sample := [⟨.transmit, -3⟩, ⟨.transmit, -5⟩]

theorem early_admissible : Admissible early where
  values := by decide
  sums before isBefore kind := by
    have one := (List.mem_inits before early).mpr isBefore
    clear isBefore
    revert before
    cases kind <;> decide

theorem averages_exact_iff_early :
    Admissible early ∧ (AveragesExact early ↔ SumsNonnegative early) :=
  ⟨early_admissible, averages_exact_iff early early_admissible⟩

theorem early_not_exact : Admissible early ∧ ¬ AveragesExact early := by
  refine ⟨early_admissible, ?_⟩
  intro exact
  have both := (exact early (List.prefix_refl early) .transmit).1
  revert both
  decide

end Semaine.Meta
