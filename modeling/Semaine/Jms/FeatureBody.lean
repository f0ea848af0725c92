import Semaine.Jms.FeatureMessage

/-! `readFromBytesMessage` on the bytes of a body, whoever has written them. -/
namespace Semaine.Jms
open JavaText

abbrev Body := List (BitVec 8)

namespace Body

def readWord : Body → Except Failure (BitVec 32 × Body)
  | a :: b :: c :: d :: rest => .ok (a ++ b ++ c ++ d, rest)
  | _ => .error .messageEOF

section
variable {F : Type} (intBitsToFloat : BitVec 32 → F)

def readFloats : Nat → Body → Except Failure (List F)
  | 0, _ => .ok []
  | len + 1, body => do
    let (bits, rest) ← body.readWord
    let others ← readFloats len rest
    return intBitsToFloat bits :: others

def readFromBytesMessage (body : Body) : Except Failure (List F) := do
  let (bits, rest) ← body.readWord
  let len := bits.toInt
  let expected := toInt (4 * (len + 1))
  if (body.length : Int) ≠ expected then throw (inconsistent expected len body.length)
  else if len < 0 then throw .negativeArraySize
  else readFloats intBitsToFloat len.toNat rest

end

/-- The bytes of an `int` or a `float`. -/
def wordBytes (bits : BitVec 32) : Body :=
  [bits.extractLsb' 24 8, bits.extractLsb' 16 8, bits.extractLsb' 8 8, bits.extractLsb' 0 8]

def ofWritten {F : Type} (floatToIntBits : F → BitVec 32) : Written F → Body
  | .int n => wordBytes (BitVec.ofInt 32 n)
  | .float f => wordBytes (floatToIntBits f)

def IsVector (body : Body) (floats : List (BitVec 32)) : Prop :=
  ∃ len : BitVec 32, len.toInt = floats.length ∧
    body = wordBytes len ++ floats.flatMap wordBytes

def Validated {F : Type} (intBitsToFloat : BitVec 32 → F) (body : Body) : Prop :=
  (∀ features, readFromBytesMessage intBitsToFloat body = .ok features ↔
    ∃ floats, IsVector body floats ∧ features = floats.map intBitsToFloat) ∧
  ((∀ floats, ¬ IsVector body floats) →
    ∃ message, readFromBytesMessage intBitsToFloat body = .error (.messageFormat message))

def lengthField : Body → Int
  | a :: b :: c :: d :: _ => (a ++ b ++ c ++ d).toInt
  | _ => 0

theorem length_wordBytes (bits : BitVec 32) : (wordBytes bits).length = 4 := rfl

theorem wordBytes_append (a b c d : BitVec 8) : wordBytes (a ++ b ++ c ++ d) = [a, b, c, d] := by
  have first : (a ++ b ++ c ++ d).extractLsb' 24 8 = a := by grind
  have second : (a ++ b ++ c ++ d).extractLsb' 16 8 = b := by grind
  have third : (a ++ b ++ c ++ d).extractLsb' 8 8 = c := by grind
  have fourth : (a ++ b ++ c ++ d).extractLsb' 0 8 = d := by grind
  unfold wordBytes
  rw [first, second, third, fourth]

theorem readWord_wordBytes (bits : BitVec 32) (rest : Body) :
    readWord (wordBytes bits ++ rest) = .ok (bits, rest) := by
  have joined : bits.extractLsb' 24 8 ++ bits.extractLsb' 16 8 ++ bits.extractLsb' 8 8 ++
      bits.extractLsb' 0 8 = bits := by
    rw [BitVec.extractLsb'_append_extractLsb'_eq_extractLsb' (show 24 = 16 + 8 from rfl),
      BitVec.extractLsb'_append_extractLsb'_eq_extractLsb' (show 16 = 8 + 8 from rfl),
      BitVec.extractLsb'_append_extractLsb'_eq_extractLsb' (show 8 = 0 + 8 from rfl)]
    exact BitVec.extractLsb'_eq_self
  change Except.ok (bits.extractLsb' 24 8 ++ bits.extractLsb' 16 8 ++ bits.extractLsb' 8 8 ++
    bits.extractLsb' 0 8, rest) = _
  rw [joined]

theorem exists_word (body : Body) (atLeast : 4 ≤ body.length) :
    ∃ bits rest, body = wordBytes bits ++ rest := by
  match body with
  | a :: b :: c :: d :: rest =>
    refine ⟨a ++ b ++ c ++ d, rest, ?_⟩
    rw [wordBytes_append]
    rfl

theorem readWord_short {body : Body} (short : body.length < 4) :
    readWord body = .error .messageEOF := by
  match body with
  | [] | [_] | [_, _] | [_, _, _] => rfl
  | _ :: _ :: _ :: _ :: rest =>
    simp only [List.length_cons] at short
    omega

theorem length_flatMap_wordBytes (floats : List (BitVec 32)) :
    (floats.flatMap wordBytes).length = 4 * floats.length := by
  induction floats with
  | nil => rfl
  | cons bits floats ih =>
    rw [List.flatMap_cons, List.length_append, ih, length_wordBytes, List.length_cons]
    omega

theorem exists_floats (len : Nat) (body : Body) (length : body.length = 4 * len) :
    ∃ floats : List (BitVec 32), floats.length = len ∧ body = floats.flatMap wordBytes := by
  induction len generalizing body with
  | zero => exact ⟨[], rfl, List.length_eq_zero_iff.mp length⟩
  | succ len ih =>
    obtain ⟨bits, rest, rfl⟩ := exists_word body (by omega)
    have shorter : rest.length = 4 * len := by
      rw [List.length_append, length_wordBytes] at length
      omega
    obtain ⟨floats, rfl, rfl⟩ := ih _ shorter
    exact ⟨bits :: floats, rfl, rfl⟩

section
variable {F : Type} (intBitsToFloat : BitVec 32 → F)

theorem readFloats_flatMap (floats : List (BitVec 32)) :
    readFloats intBitsToFloat floats.length (floats.flatMap wordBytes) =
      .ok (floats.map intBitsToFloat) := by
  induction floats with
  | nil => rfl
  | cons bits floats ih =>
    rw [List.flatMap_cons, List.length_cons, readFloats, readWord_wordBytes]
    simp only [bind, Except.bind, ih]
    rfl

theorem readFloats_short {len : Nat} {body : Body} (short : body.length < 4 * len) :
    readFloats intBitsToFloat len body = .error .messageEOF := by
  induction len generalizing body with
  | zero => omega
  | succ len ih =>
    by_cases more : 4 ≤ body.length
    · obtain ⟨bits, rest, rfl⟩ := exists_word _ more
      have shorter : rest.length < 4 * len := by
        rw [List.length_append, length_wordBytes] at short
        omega
      rw [readFloats, readWord_wordBytes]
      simp only [bind, Except.bind, ih shorter]
    · rw [readFloats, readWord_short (by omega)]
      rfl

theorem readFromBytesMessage_ofWritten {floatToIntBits : F → BitVec 32}
    (converted : ∀ f, intBitsToFloat (floatToIntBits f) = f) {features : List F}
    (isArray : features.length < 2 ^ 31) :
    readFromBytesMessage intBitsToFloat
        ((sendBinaryFeatureVector features).flatMap (ofWritten floatToIntBits)) =
      Jms.readFromBytesMessage (sendBinaryFeatureVector features) := by
  have floats : (features.map Written.float).flatMap (ofWritten floatToIntBits) =
      (features.map floatToIntBits).flatMap wordBytes := by
    rw [List.flatMap_map, List.flatMap_map]
    rfl
  have read : readFloats intBitsToFloat features.length
      ((features.map floatToIntBits).flatMap wordBytes) = .ok features := by
    have words := readFloats_flatMap intBitsToFloat (features.map floatToIntBits)
    rw [List.length_map, List.map_map] at words
    rw [words]
    congr 1
    exact List.map_id'' converted features
  have len : (BitVec.ofInt 32 features.length).toInt = features.length := by
    rw [BitVec.toInt_ofInt]
    apply Int.bmod_eq_of_le
    · omega
    · omega
  have same : (((wordBytes (BitVec.ofInt 32 features.length) ++
      (features.map floatToIntBits).flatMap wordBytes).length : Nat) : Int) =
        BytesMessage.getBodyLength (sendBinaryFeatureVector features) := by
    rw [List.length_append, length_flatMap_wordBytes, length_wordBytes, List.length_map]
    unfold BytesMessage.getBodyLength sendBinaryFeatureVector
    rw [List.length_cons, List.length_map]
    omega
  unfold sendBinaryFeatureVector at same ⊢
  rw [List.flatMap_cons, floats]
  change readFromBytesMessage intBitsToFloat (wordBytes (BitVec.ofInt 32 features.length) ++
    (features.map floatToIntBits).flatMap wordBytes) = _
  unfold readFromBytesMessage Jms.readFromBytesMessage
  simp only [readWord_wordBytes, bind, Except.bind, len, same, Int.toNat_natCast, read,
    readFloats_map]
  rfl

theorem lengthField_wordBytes (bits : BitVec 32) (rest : Body) :
    lengthField (wordBytes bits ++ rest) = bits.toInt := by
  have read := readWord_wordBytes bits rest
  exact congrArg BitVec.toInt (Prod.mk.inj (Except.ok.inj read)).1

theorem IsVector.parts {bits : BitVec 32} {rest : Body} {floats : List (BitVec 32)}
    (vector : IsVector (wordBytes bits ++ rest) floats) :
    bits.toInt = floats.length ∧ rest = floats.flatMap wordBytes := by
  obtain ⟨len, announced, whole⟩ := vector
  have read := readWord_wordBytes bits rest
  rw [whole, readWord_wordBytes] at read
  obtain ⟨rfl, rfl⟩ := Prod.mk.inj (Except.ok.inj read)
  exact ⟨announced, rfl⟩

theorem isVector_iff (bits : BitVec 32) (rest : Body) :
    (∃ floats, IsVector (wordBytes bits ++ rest) floats) ↔
      ((wordBytes bits ++ rest).length : Int) = 4 * (bits.toInt + 1) := by
  rw [List.length_append, length_wordBytes]
  constructor
  · rintro ⟨floats, vector⟩
    obtain ⟨announced, rfl⟩ := vector.parts
    rw [announced, length_flatMap_wordBytes]
    omega
  · intro length
    obtain ⟨floats, many, rfl⟩ := exists_floats bits.toInt.toNat rest (by omega)
    refine ⟨floats, bits, ?_, rfl⟩
    omega

theorem read_inconsistent {bits : BitVec 32} {rest : Body}
    (differs : ((wordBytes bits ++ rest).length : Int) ≠ toInt (4 * (bits.toInt + 1))) :
    ∃ message, readFromBytesMessage intBitsToFloat (wordBytes bits ++ rest) =
      .error (.messageFormat message) := by
  unfold readFromBytesMessage
  rw [readWord_wordBytes]
  simp only [bind, Except.bind]
  rw [if_pos differs]
  exact ⟨_, rfl⟩

theorem read_consistent {bits : BitVec 32} {rest : Body}
    (same : ((wordBytes bits ++ rest).length : Int) = toInt (4 * (bits.toInt + 1))) :
    readFromBytesMessage intBitsToFloat (wordBytes bits ++ rest) =
      if bits.toInt < 0 then .error .negativeArraySize
      else readFloats intBitsToFloat bits.toInt.toNat rest := by
  unfold readFromBytesMessage
  rw [readWord_wordBytes]
  simp only [bind, Except.bind]
  rw [if_neg (not_not_intro same)]
  rfl

theorem read_vector {bits : BitVec 32} {floats : List (BitVec 32)}
    (announced : bits.toInt = floats.length)
    (same : ((wordBytes bits ++ floats.flatMap wordBytes).length : Int) =
      toInt (4 * (bits.toInt + 1))) :
    readFromBytesMessage intBitsToFloat (wordBytes bits ++ floats.flatMap wordBytes) =
      .ok (floats.map intBitsToFloat) := by
  rw [read_consistent intBitsToFloat same, announced, if_neg (by omega), Int.toNat_natCast,
    readFloats_flatMap]

theorem read_wrapped {bits : BitVec 32} {rest : Body}
    (same : ((wordBytes bits ++ rest).length : Int) = toInt (4 * (bits.toInt + 1)))
    (wrapped : ((wordBytes bits ++ rest).length : Int) ≠ 4 * (bits.toInt + 1)) :
    readFromBytesMessage intBitsToFloat (wordBytes bits ++ rest) = .error .negativeArraySize ∨
      readFromBytesMessage intBitsToFloat (wordBytes bits ++ rest) = .error .messageEOF := by
  rw [read_consistent intBitsToFloat same]
  by_cases negative : bits.toInt < 0
  · rw [if_pos negative]
    exact .inl rfl
  · rw [if_neg negative]
    right
    apply readFloats_short
    have least := toInt_le (n := 4 * (bits.toInt + 1)) (by omega)
    rw [List.length_append, length_wordBytes] at same wrapped
    omega

theorem validated_wordBytes (bits : BitVec 32) (rest : Body) :
    Validated intBitsToFloat (wordBytes bits ++ rest) ↔
      (((wordBytes bits ++ rest).length : Int) = toInt (4 * (bits.toInt + 1)) ↔
        ((wordBytes bits ++ rest).length : Int) = 4 * (bits.toInt + 1)) := by
  have vectors := isVector_iff bits rest
  constructor
  · rintro ⟨reads, refuses⟩
    constructor
    · intro same
      by_contra wrapped
      obtain ⟨message, refused⟩ := refuses (not_exists.mp (mt vectors.mp wrapped))
      rcases read_wrapped intBitsToFloat same wrapped with failed | failed
      · cases failed.symm.trans refused
      · cases failed.symm.trans refused
    · intro length
      obtain ⟨floats, vector⟩ := vectors.mpr length
      have read := (reads _).mpr ⟨floats, vector, rfl⟩
      by_contra differs
      obtain ⟨message, refused⟩ := read_inconsistent intBitsToFloat differs
      cases read.symm.trans refused
  · intro lengths
    by_cases length : ((wordBytes bits ++ rest).length : Int) = 4 * (bits.toInt + 1)
    · have same := lengths.mpr length
      have read : ∀ floats, IsVector (wordBytes bits ++ rest) floats →
          readFromBytesMessage intBitsToFloat (wordBytes bits ++ rest) =
            .ok (floats.map intBitsToFloat) := by
        intro floats vector
        obtain ⟨announced, rfl⟩ := vector.parts
        exact read_vector intBitsToFloat announced same
      obtain ⟨floats, vector⟩ := vectors.mpr length
      refine ⟨fun features => ⟨fun accepted => ?_, ?_⟩, fun none => absurd vector (none floats)⟩
      · rw [read floats vector, Except.ok.injEq] at accepted
        exact ⟨floats, vector, accepted.symm⟩
      · rintro ⟨others, isVector, rfl⟩
        exact read others isVector
    · have differs := mt lengths.mp length
      obtain ⟨message, refused⟩ := read_inconsistent intBitsToFloat differs
      refine ⟨fun features => ?_, fun _ => ⟨message, refused⟩⟩
      rw [refused]
      refine iff_of_false nofun ?_
      rintro ⟨floats, vector, _⟩
      exact length (vectors.mp ⟨floats, vector⟩)

/-- The length that is expected is an `int`. -/
def Countable (len : Int) : Prop := -2 ^ 31 ≤ 4 * (len + 1) ∧ 4 * (len + 1) < 2 ^ 31

/-- Bodies are validated unless the expected length is not an `int`, and the body has that length
or the `int` that is computed for it. -/
theorem validated_iff {body : Body} (atLeast : 4 ≤ body.length) :
    Validated intBitsToFloat body ↔ Countable (lengthField body) ∨
      ((body.length : Int) ≠ 4 * (lengthField body + 1) ∧
        (body.length : Int) ≠ toInt (4 * (lengthField body + 1))) := by
  obtain ⟨bits, rest, rfl⟩ := exists_word _ atLeast
  rw [validated_wordBytes, lengthField_wordBytes]
  have countable := toInt_eq_self_iff (4 * (bits.toInt + 1))
  unfold Countable
  rw [← countable]
  constructor
  · intro lengths
    by_cases fits : toInt (4 * (bits.toInt + 1)) = 4 * (bits.toInt + 1)
    · exact .inl fits
    · refine .inr ⟨fun length => ?_, fun same => ?_⟩
      · exact fits ((lengths.mpr length).symm.trans length)
      · exact fits (same.symm.trans (lengths.mp same))
  · rintro (fits | ⟨noLength, differs⟩)
    · rw [fits]
    · exact iff_of_false differs noLength

end

def oneFloat : Body := [0, 0, 0, 1, 63, 128, 0, 0]

def hugeLength : Body := [64, 0, 0, 0]

theorem validated_iff_oneFloat :
    Validated id oneFloat ↔ Countable (lengthField oneFloat) ∨
      ((oneFloat.length : Int) ≠ 4 * (lengthField oneFloat + 1) ∧
        (oneFloat.length : Int) ≠ toInt (4 * (lengthField oneFloat + 1))) :=
  validated_iff id (by decide)

theorem hugeLength_notRefused :
    readFromBytesMessage id hugeLength = .error .messageEOF ∧ ¬ Validated id hugeLength := by
  refine ⟨by decide, ?_⟩
  have whole : hugeLength = wordBytes 0x40000000#32 ++ [] := by decide
  rw [whole, validated_wordBytes]
  decide

end Body
end Semaine.Jms
