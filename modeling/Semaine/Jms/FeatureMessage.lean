import Semaine.Library.JavaSplit

/-! `eu.semaine.jms.sender.FeatureSender` and `eu.semaine.jms.message.SEMAINEFeatureMessage`:
feature vectors as text messages and as bytes messages. -/
namespace Semaine.Jms
open JavaText

/-- `Float.toString` and `Float.parseFloat`; the text of a float is read as that float, and is
one word. -/
structure FloatTexts (F : Type) where
  toText : F → Text
  parseFloat : Text → Option F
  parse_toText : ∀ f, parseFloat (toText f) = some f
  oneWord : ∀ f, ∀ c ∈ toText f, isSpace c = false

inductive Failure where
  | messageFormat (message : Text)
  | messageEOF
  | arrayIndexOutOfBounds
  | negativeArraySize
  deriving DecidableEq, Repr

/-- An `int` or a `float`, each of four bytes. -/
inductive Written (F : Type) where
  | int (n : Int)
  | float (f : F)

/-- What has been written to the body of a bytes message and has not been read yet. -/
abbrev BytesMessage (F : Type) := List (Written F)

section
variable {F : Type}

def BytesMessage.getBodyLength (message : BytesMessage F) : Int := 4 * message.length

def sendBinaryFeatureVector (features : List F) : BytesMessage F :=
  .int features.length :: features.map .float

def readFloats : Nat → BytesMessage F → Except Failure (List F)
  | 0, _ => .ok []
  | len + 1, .float f :: rest => do
    let others ← readFloats len rest
    return f :: others
  | _ + 1, _ => .error .messageEOF

def inconsistent (expected len bodyLength : Int) : Failure :=
  .messageFormat ("Inconsistent bytes message: expected length ".toList ++
    (toString expected).toList ++ " (one int and ".toList ++ (toString len).toList ++
    " floats), but have ".toList ++ (toString bodyLength).toList ++ " bytes".toList)

/-- `readFromBytesMessage`; the expected length is an `int`. -/
def readFromBytesMessage (message : BytesMessage F) : Except Failure (List F) :=
  match message with
  | .int len :: rest =>
    let expected := toInt (4 * (len + 1))
    if message.getBodyLength ≠ expected then
      .error (inconsistent expected len message.getBodyLength)
    else if len < 0 then .error .negativeArraySize
    else readFloats len.toNat rest
  | _ => .error .messageEOF

variable (texts : FloatTexts F)

def featureLine (e : F × Text) : Text := texts.toText e.1 ++ ' ' :: e.2

/-- `sendTextFeatureVector`: one line for each feature, with its value and its name. -/
def sendTextFeatureVector (features : List F) (featureNames : List Text) : Text :=
  ((features.zip featureNames).map (featureLine texts)).flatMap (· ++ ['\n'])

def readLine (line : Text) (i : Nat) : Except Failure (F × Text) :=
  let parts := splitSpaces line
  if parts.length > 2 then
    .error (.messageFormat ("Message contains more than two fields in line ".toList ++
      ofNat i ++ ": '".toList ++ line ++ "'".toList))
  else
    match parts with
    | [] => .error .arrayIndexOutOfBounds
    | value :: names =>
      match texts.parseFloat value with
      | none => .error (.messageFormat ("Cannot read value '".toList ++ value ++
          "' in line ".toList ++ ofNat i ++ " as a float".toList))
      | some feature =>
        match names with
        | [] => .error .arrayIndexOutOfBounds
        | name :: _ => .ok (feature, name)

def readLines : List Text → Nat → Except Failure (List (F × Text))
  | [], _ => .ok []
  | line :: rest, i => do
    let read ← readLine texts line i
    let others ← readLines rest (i + 1)
    return read :: others

/-- `readFromTextMessage`: the features and their names. -/
def readFromTextMessage (text : Text) : Except Failure (List F × List Text) :=
  (readLines texts (splitLines text) 0).map List.unzip

def IsWord (name : Text) : Prop := name ≠ [] ∧ ∀ c ∈ name, isSpace c = false

structure FeatureVector (F : Type) where
  features : List F
  featureNames : List Text
  sameLength : featureNames.length = features.length
  isArray : features.length < 2 ^ 31
  named : ∀ name ∈ featureNames, IsWord name

def RoundTrips (v : FeatureVector F) : Prop :=
  readFromTextMessage texts (sendTextFeatureVector texts v.features v.featureNames) =
      .ok (v.features, v.featureNames) ∧
    readFromBytesMessage (sendBinaryFeatureVector v.features) = .ok v.features

theorem readLine_featureLine {e : F × Text} (word : IsWord e.2) (i : Nat) :
    readLine texts (featureLine texts e) i = .ok e := by
  unfold readLine featureLine
  rw [splitSpaces_words (texts.oneWord e.1) word.1 word.2]
  simp [texts.parse_toText]

theorem readLines_featureLines {es : List (F × Text)} (words : ∀ e ∈ es, IsWord e.2) (i : Nat) :
    readLines texts (es.map (featureLine texts)) i = .ok es := by
  induction es generalizing i with
  | nil => rfl
  | cons e es ih =>
    have first := readLine_featureLine texts (words e (.head es)) i
    have later := ih (fun other member => words other (.tail e member)) (i + 1)
    rw [List.map_cons, readLines, first]
    simp only [later, bind, Except.bind, pure, Except.pure]

theorem featureLine_plain {e : F × Text} (word : IsWord e.2) :
    ∀ c ∈ featureLine texts e, c ≠ '\r' ∧ c ≠ '\n' := by
  intro c inLine
  have notSpace : c = ' ' ∨ isSpace c = false := by
    rcases List.mem_append.mp inLine with inValue | inName
    · exact .inr (texts.oneWord e.1 c inValue)
    · rcases List.mem_cons.mp inName with blank | inName
      · exact .inl blank
      · exact .inr (word.2 c inName)
  rcases notSpace with rfl | notSpace
  · decide
  · constructor
    · rintro rfl
      cases notSpace
    · rintro rfl
      cases notSpace

theorem splitLines_featureLines {es : List (F × Text)} (some : es ≠ [])
    (words : ∀ e ∈ es, IsWord e.2) :
    splitLines ((es.map (featureLine texts)).flatMap (· ++ ['\n'])) =
      es.map (featureLine texts) := by
  apply splitLines_lines
  · simpa using some
  · intro line member
    obtain ⟨e, _, rfl⟩ := List.mem_map.mp member
    simp [featureLine]
  · intro line member
    obtain ⟨e, isEntry, rfl⟩ := List.mem_map.mp member
    exact featureLine_plain texts (words e isEntry)

theorem FeatureVector.words (v : FeatureVector F) :
    ∀ e ∈ v.features.zip v.featureNames, IsWord e.2 :=
  fun _ member => v.named _ (List.of_mem_zip member).2

theorem readLine_empty (i : Nat) : ∃ failure, readLine texts [] i = .error failure := by
  have parts : splitSpaces [] = [[]] := rfl
  unfold readLine
  rw [parts]
  cases read : texts.parseFloat [] with
  | none => exact ⟨_, by simp only [read]; rfl⟩
  | some f => exact ⟨_, by simp only [read]; rfl⟩

theorem textMessage_iff (v : FeatureVector F) :
    readFromTextMessage texts (sendTextFeatureVector texts v.features v.featureNames) =
      .ok (v.features, v.featureNames) ↔ 0 < v.features.length := by
  unfold readFromTextMessage sendTextFeatureVector
  constructor
  · intro read
    apply List.length_pos_iff.mpr
    intro noFeatures
    have lines : splitLines [] = [[]] := rfl
    obtain ⟨failure, failed⟩ := readLine_empty texts 0
    rw [noFeatures, List.zip_nil_left, List.map_nil, List.flatMap_nil, lines, readLines,
      failed] at read
    cases read
  · intro some
    have given : v.features.zip v.featureNames ≠ [] := by
      apply List.ne_nil_of_length_pos
      rw [List.length_zip, v.sameLength, Nat.min_self]
      exact some
    have unzipped := List.unzip_zip v.sameLength.symm
    rw [splitLines_featureLines texts given v.words, readLines_featureLines texts v.words]
    simp only [Except.map, unzipped]

theorem readFloats_map (features : List F) :
    readFloats features.length (features.map .float) = .ok features := by
  induction features with
  | nil => rfl
  | cons f features ih =>
    rw [List.length_cons, List.map_cons, readFloats, ih]
    rfl

theorem bytesMessage_iff (features : List F) :
    readFromBytesMessage (sendBinaryFeatureVector features) = .ok features ↔
      4 * (features.length + 1) < 2 ^ 31 := by
  have bodyLength : BytesMessage.getBodyLength (sendBinaryFeatureVector features) =
      4 * ((features.length : Int) + 1) := by
    simp [BytesMessage.getBodyLength, sendBinaryFeatureVector]
  have expected := toInt_eq_iff (n := 4 * ((features.length : Int) + 1)) (by omega)
  unfold readFromBytesMessage
  change (if BytesMessage.getBodyLength (sendBinaryFeatureVector features) ≠
      toInt (4 * ((features.length : Int) + 1)) then _ else _) = _ ↔ _
  by_cases short : 4 * ((features.length : Int) + 1) < 2 ^ 31
  · rw [if_neg (by rw [bodyLength, expected.mpr short]; exact not_not.mpr rfl),
      if_neg (Int.not_lt.mpr (Int.natCast_nonneg features.length)), Int.toNat_natCast, readFloats_map]
    refine ⟨fun _ => ?_, fun _ => rfl⟩
    omega
  · have differs : BytesMessage.getBodyLength (sendBinaryFeatureVector features) ≠
        toInt (4 * ((features.length : Int) + 1)) := by
      rw [bodyLength]
      exact fun same => short (expected.mp same.symm)
    rw [if_pos differs]
    refine ⟨nofun, fun isShort => ?_⟩
    omega

/-- Both encodings of a vector are read back exactly if it is not empty and its bytes message is
not longer than an int can say. -/
theorem featureVector_roundTrips_iff (v : FeatureVector F) : RoundTrips texts v ↔
    0 < v.features.length ∧ 4 * (v.features.length + 1) < 2 ^ 31 := by
  unfold RoundTrips
  rw [textMessage_iff, bytesMessage_iff]

end

def wholeFloats : FloatTexts Nat where
  toText n := ofNat n ++ ['.', '0']
  parseFloat s :=
    let digits := s.dropLast.dropLast
    if digits.all Char.isDigit ∧ digits ≠ [] ∧ s = digits ++ ['.', '0'] then
      some (Nat.ofDigitChars 10 digits 0)
    else none
  parse_toText n := by
    have digits : (ofNat n ++ ['.', '0']).dropLast.dropLast = ofNat n := by
      simp
    have numeric : (ofNat n).all Char.isDigit = true := by
      rw [List.all_eq_true]
      exact fun c => Nat.isDigit_of_mem_toDigits (by decide) (by decide)
    have nonempty : ofNat n ≠ [] := Nat.toDigits_ne_nil
    have value : Nat.ofDigitChars 10 (ofNat n) 0 = n :=
      Nat.ofDigitChars_toDigits (by decide) (by decide)
    simp only [digits]
    rw [if_pos ⟨numeric, nonempty, trivial⟩, value]
  oneWord n c member := by
    rcases List.mem_append.mp member with digit | suffix
    · have isDigit : c.isDigit = true :=
        Nat.isDigit_of_mem_toDigits (by decide) (by decide) digit
      cases space : isSpace c with
      | false => rfl
      | true =>
        simp only [isSpace, Bool.or_eq_true, decide_eq_true_eq] at space
        rcases space with ((((rfl | rfl) | rfl) | rfl) | rfl) | rfl <;>
          exact absurd isDigit (by decide)
    · simp only [List.mem_cons, List.not_mem_nil, or_false] at suffix
      rcases suffix with rfl | rfl <;> decide

def noFeatures : FeatureVector Nat where
  features := []
  featureNames := []
  sameLength := rfl
  isArray := by decide
  named := nofun

theorem noFeatures_refused :
    ¬ ∀ (F : Type) (texts : FloatTexts F) (v : FeatureVector F), RoundTrips texts v := by
  intro roundTrips
  obtain ⟨text, _⟩ := roundTrips Nat wholeFloats noFeatures
  cases text

end Semaine.Jms
