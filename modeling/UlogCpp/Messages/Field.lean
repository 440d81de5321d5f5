import UlogCpp.Data.Decimal
import UlogCpp.Data.Split
import UlogCpp.Raw

namespace UlogCpp

/-- `Field` of `messages.hpp`; an `arrayLength` of -1 means not an array. -/
structure Field where
  type : Bytes
  name : Bytes
  arrayLength : Int32 := -1
  deriving DecidableEq

def isSpace (byte : UInt8) : Bool := byte == 32 || 9 ≤ byte && byte ≤ 13

/-- The optional sign of a number, as `strtol` reads it. -/
def splitSign : Bytes → Bool × Bytes
  | 45 :: rest => (true, rest) -- '-'
  | 43 :: rest => (false, rest) -- '+'
  | text => (false, text)

/-- `std::stoi` in base ten: leading white space and a sign are accepted, and
what follows the digits is ignored. -/
def stoi (text : Bytes) : Except Stop Int32 :=
  let signed := splitSign (text.dropWhile isSpace)
  let digits := signed.2.takeWhile isDigit
  if digits = [] then
    .error (.raised .invalidArgument)
  else
    let value : Int :=
      if signed.1 then -decimalValue digits else decimalValue digits
    if -2 ^ 31 ≤ value ∧ value < 2 ^ 31 then .ok (Int32.ofInt value)
    else .error (.raised .outOfRange)

namespace Field

/-- `Field::Field(const char* str, int len)`: the format is `<type>[len] <name>`
or `<type> <name>`. -/
def ofKey (keyValue : Bytes) : Except Stop Field :=
  match splitFirst 32 keyValue with -- first_space
  | none => throwParsing "Invalid key format"
  | some (keyArray, name) =>
      match splitFirst 91 keyArray with -- bracket
      | none => .ok { type := keyArray, name }
      | some (type, afterBracket) =>
          match keyArray.getLast? with
          | none => .error .outOfBounds
          | some last =>
              if last = 93 then do -- ']'
                let arrayLength ← stoi afterBracket
                return { type, name, arrayLength }
              else
                throwParsing "Invalid key format (missing ])"

def kBasicTypes : List (Bytes × Nat) :=
  [(ascii "int8_t", 1), (ascii "uint8_t", 1), (ascii "int16_t", 2),
    (ascii "uint16_t", 2), (ascii "int32_t", 4), (ascii "uint32_t", 4),
    (ascii "int64_t", 8), (ascii "uint64_t", 8), (ascii "float", 4),
    (ascii "double", 8), (ascii "bool", 1), (ascii "char", 1)]

def encodeArray (arrayLength : Int32) : Bytes :=
  if 0 ≤ arrayLength.toInt then
    91 :: (decimal arrayLength.toNatClampNeg ++ [93])
  else []

def encode (field : Field) : Bytes :=
  field.type ++ encodeArray field.arrayLength ++ 32 :: field.name

structure Encodable (field : Field) : Prop where
  arrayLength_ge : -1 ≤ field.arrayLength.toInt
  no_space : 32 ∉ field.type
  no_bracket : 91 ∉ field.type

end Field

theorem stoi_numeral {text rest : Bytes} {value : Nat}
    (numeral : Numeral text value) (small : value < 2 ^ 31)
    (ends : ∀ byte, rest.head? = some byte → isDigit byte = false) :
    stoi (text ++ rest) = .ok (Int32.ofNat value) := by
  have digits := numeral.takeWhile_append ends
  obtain ⟨first, others, shape⟩ :=
    List.exists_cons_of_ne_nil numeral.nonempty
  have firstDigit : isDigit first = true :=
    numeral.digits first (shape ▸ List.mem_cons_self)
  have unpadded : (text ++ rest).dropWhile isSpace = text ++ rest := by
    rw [shape, List.cons_append]
    exact List.dropWhile_cons_of_neg (by
      simp only [isDigit, isSpace] at firstDigit ⊢
      grind)
  have unsigned : splitSign (text ++ rest) = (false, text ++ rest) := by
    rw [shape, List.cons_append]
    unfold splitSign
    split
    next same => cases same; simp [isDigit] at firstDigit
    next same => cases same; simp [isDigit] at firstDigit
    next => rfl
  unfold stoi
  simp only [unpadded, unsigned, digits, numeral.nonempty, if_false,
    Bool.false_eq_true, numeral.value]
  rw [if_pos ⟨by omega, by omega⟩]
  rfl

theorem stoi_decimal {value : Int32} (positive : 0 ≤ value.toInt)
    {rest : Bytes}
    (ends : ∀ byte, rest.head? = some byte → isDigit byte = false) :
    stoi (decimal value.toNatClampNeg ++ rest) = .ok value := by
  have amount : (value.toNatClampNeg : Int) = value.toInt := by
    rw [← Int32.toNat_toInt]
    exact Int.toNat_of_nonneg positive
  have small := value.toInt_lt
  rw [stoi_numeral (.decimal _) (by omega) ends]
  refine congrArg Except.ok (Int32.toInt_inj.mp ?_)
  rw [Int32.toInt_ofNat_of_lt (by omega), amount]

namespace Field

theorem encodeArray_no_space (arrayLength : Int32) :
    32 ∉ encodeArray arrayLength := by
  unfold encodeArray
  split
  · intro member
    have digit : 32 ∈ decimal arrayLength.toNatClampNeg := by
      simpa using member
    have notDigit := isDigit_of_mem_decimal digit
    simp [isDigit] at notDigit
  · simp

/-- Parsing the text form of a field gives the field back. -/
theorem ofKey_encode {field : Field} (encodable : field.Encodable) :
    ofKey field.encode = .ok field := by
  obtain ⟨type, name, arrayLength⟩ := field
  obtain ⟨lower, noSpace, noBracket⟩ := encodable
  have atSpace : splitFirst 32 (encode ⟨type, name, arrayLength⟩) =
      some (type ++ encodeArray arrayLength, name) :=
    splitFirst_append (by simp [noSpace, encodeArray_no_space]) name
  unfold ofKey
  rw [atSpace]
  simp only
  unfold encodeArray
  by_cases isArray : 0 ≤ arrayLength.toInt
  · have atBracket : splitFirst 91
        (type ++ 91 :: (decimal arrayLength.toNatClampNeg ++ [93])) =
        some (type, decimal arrayLength.toNatClampNeg ++ [93]) :=
      splitFirst_append noBracket _
    have lengthRead : stoi (decimal arrayLength.toNatClampNeg ++ [93]) =
        .ok arrayLength := stoi_decimal isArray (by simp [isDigit])
    have last : (type ++ 91 :: (decimal arrayLength.toNatClampNeg ++ [93])).getLast? =
        some 93 := by
      simp [List.getLast?_append, List.getLast?_cons]
    rw [if_pos isArray, atBracket]
    simp only [last, if_true, lengthRead]
    rfl
  · have scalar : arrayLength = -1 :=
      Int32.toInt_inj.mp (by
        have minusOne : (-1 : Int32).toInt = -1 := rfl
        simp only at lower
        omega)
    have noArray : splitFirst 91 type = none :=
      splitFirst_eq_none.mpr noBracket
    rw [if_neg isArray, List.append_nil, noArray, scalar]

theorem length_encode_le (field : Field) :
    field.encode.length ≤ field.type.length + field.name.length + 13 := by
  have below : field.arrayLength.toNatClampNeg < 10 ^ 10 :=
    Nat.lt_trans field.arrayLength.toNatClampNeg_lt (by decide)
  have digits := length_decimal_le (by decide) below
  unfold encode encodeArray
  split <;> simp <;> omega

def normal (field : Field) : Field :=
  { field with
    arrayLength :=
      if 0 ≤ field.arrayLength.toInt then field.arrayLength else -1 }

theorem encode_normal (field : Field) : field.normal.encode = field.encode := by
  unfold encode normal encodeArray
  by_cases isArray : 0 ≤ field.arrayLength.toInt
  · simp only [isArray, if_true]
  · simp only [isArray, if_false]
    rfl

theorem normal_encodable {field : Field}
    (plain : 32 ∉ field.type ∧ 91 ∉ field.type) : field.normal.Encodable := by
  refine ⟨?_, plain.1, plain.2⟩
  unfold normal
  by_cases isArray : 0 ≤ field.arrayLength.toInt
  · simp only [isArray, if_true]
    exact Int.le_trans (by decide) isArray
  · simp only [isArray, if_false]
    decide

/-- The text before the first space has no `[`, or it ends with `]` and has a
number after the first `[`. -/
def Readable (field : Field) : Prop :=
  ∀ keyArray name type length,
    splitFirst 32 field.encode = some (keyArray, name) →
    splitFirst 91 keyArray = some (type, length) →
    keyArray.getLast? = some 93 ∧ ∃ value, stoi length = .ok value

theorem ofKey_encode_iff {field : Field} :
    (∃ read, ofKey field.encode = .ok read) ↔ field.Readable := by
  have spaced : splitFirst 32 field.encode ≠ none := fun none =>
    splitFirst_eq_none.mp none (by simp [encode])
  obtain ⟨⟨keyArray, name⟩, atSpace⟩ := Option.ne_none_iff_exists'.mp spaced
  unfold Readable ofKey
  simp only [atSpace]
  constructor
  · rintro ⟨read, accepted⟩ _ _ type length same atBracket
    cases same
    simp only [atBracket] at accepted
    split at accepted
    next => cases accepted
    next last ends =>
      split at accepted
      next bracket =>
        obtain ⟨value, parsed, _⟩ := bind_eq_ok.mp accepted
        exact ⟨by rw [ends, bracket], value, parsed⟩
      next => cases accepted
  · intro readable
    cases atBracket : splitFirst 91 keyArray with
    | none => exact ⟨_, rfl⟩
    | some parts =>
        obtain ⟨last, value, parsed⟩ :=
          readable keyArray name parts.1 parts.2 rfl atBracket
        simp only [last, if_true, parsed]
        exact ⟨_, rfl⟩

end Field

end UlogCpp
