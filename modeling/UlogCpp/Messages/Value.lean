import UlogCpp.Messages.Emission

namespace UlogCpp

/-! The typed view of the value of an info or a parameter. -/

/-- `Value::ValueType`, a variant. A `float` or a `double` is given by its
bits. -/
inductive ValueType where
  | int8 (value : Int8)
  | uint8 (value : UInt8)
  | int16 (value : Int16)
  | uint16 (value : UInt16)
  | int32 (value : Int32)
  | uint32 (value : UInt32)
  | int64 (value : Int64)
  | uint64 (value : UInt64)
  | float (bits : UInt32)
  | double (bits : UInt64)
  | bool (value : Bool)
  | char (value : UInt8)
  | string (text : Bytes)
  | vector (bytes : Bytes)
  deriving DecidableEq

namespace Value

/-- `Value::assign`: the bytes are the object representation of a `T`. -/
def assign (size : Nat) (make : Nat → ValueType) (value : Bytes) :
    Except Stop ValueType :=
  if value.length ≠ size then throwParsing "Unexpected data type size"
  else .ok (make (leNat value))

def ofField (field : Field) (value : Bytes) : Except Stop ValueType :=
  if field.arrayLength = -1 ∧ field.type = ascii "int8_t" then
    assign 1 (fun bits => .int8 (UInt8.ofNat bits).toInt8) value
  else if field.arrayLength = -1 ∧ field.type = ascii "uint8_t" then
    assign 1 (fun bits => .uint8 (.ofNat bits)) value
  else if field.arrayLength = -1 ∧ field.type = ascii "int16_t" then
    assign 2 (fun bits => .int16 (UInt16.ofNat bits).toInt16) value
  else if field.arrayLength = -1 ∧ field.type = ascii "uint16_t" then
    assign 2 (fun bits => .uint16 (.ofNat bits)) value
  else if field.arrayLength = -1 ∧ field.type = ascii "int32_t" then
    assign 4 (fun bits => .int32 (UInt32.ofNat bits).toInt32) value
  else if field.arrayLength = -1 ∧ field.type = ascii "uint32_t" then
    assign 4 (fun bits => .uint32 (.ofNat bits)) value
  else if field.arrayLength = -1 ∧ field.type = ascii "int64_t" then
    assign 8 (fun bits => .int64 (UInt64.ofNat bits).toInt64) value
  else if field.arrayLength = -1 ∧ field.type = ascii "uint64_t" then
    assign 8 (fun bits => .uint64 (.ofNat bits)) value
  else if field.arrayLength = -1 ∧ field.type = ascii "float" then
    assign 4 (fun bits => .float (.ofNat bits)) value
  else if field.arrayLength = -1 ∧ field.type = ascii "double" then
    assign 8 (fun bits => .double (.ofNat bits)) value
  else if field.arrayLength = -1 ∧ field.type = ascii "bool" then
    -- the byte of a `bool` is 0 or 1
    assign 1 (fun bits => .bool (bits != 0)) value
  else if field.arrayLength = -1 ∧ field.type = ascii "char" then
    assign 1 (fun bits => .char (.ofNat bits)) value
  else if 0 < field.arrayLength.toInt ∧ field.type = ascii "char" then
    .ok (.string value)
  else
    .ok (.vector value)

end Value

namespace MessageInfo

/-- `MessageInfo::value` and `Value::data` -/
def typedValue (info : MessageInfo) : Except Stop ValueType :=
  Value.ofField info.field info.value

inductive Source where
  | int32 (value : Int32)
  | float (bits : UInt32)
  | string (text : Bytes)
  deriving DecidableEq

def ofSource (key : Bytes) : Source → MessageInfo
  | .int32 value => ofInt32 key value
  | .float bits => ofFloat key bits
  | .string text => ofString key text

namespace Source

def typed : Source → ValueType
  | int32 value => .int32 value
  | float bits => .float bits
  | string text => .string text

def Sized (source : Source) : Prop :=
  ∀ text, source = string text → 0 < text.length ∧ text.length < 2 ^ 16

end Source

/-- The value can be asked for in its own type after the bytes have been
parsed. -/
def Survives (source : Source) (bytes : Bytes) : Prop :=
  ∃ info, ofMessage bytes false = .ok info ∧ info.typedValue = .ok source.typed

/-! ## The fields that the constructors choose -/

theorem typedValue_ofInt32 (key : Bytes) (value : Int32) :
    (ofInt32 key value).typedValue = .ok (.int32 value) := by
  have read : (ofInt32 key value).typedValue =
      Value.assign 4 (fun bits => .int32 (UInt32.ofNat bits).toInt32)
        (leBytes 4 value.toUInt32.toNat) := rfl
  have bits : leNat (leBytes 4 value.toUInt32.toNat) = value.toUInt32.toNat :=
    leNat_leBytes_of_lt value.toUInt32.toNat_lt
  rw [read, Value.assign, if_neg (not_not.mpr (length_leBytes _ _)), bits,
    UInt32.ofNat_toNat]
  rfl

theorem typedValue_ofFloat (key : Bytes) (bits : UInt32) :
    (ofFloat key bits).typedValue = .ok (.float bits) := by
  have read : (ofFloat key bits).typedValue =
      Value.assign 4 (fun bits => .float (.ofNat bits))
        (leBytes 4 bits.toNat) := rfl
  have same : leNat (leBytes 4 bits.toNat) = bits.toNat :=
    leNat_leBytes_of_lt bits.toNat_lt
  rw [read, Value.assign, if_neg (not_not.mpr (length_leBytes _ _)), same,
    UInt32.ofNat_toNat]

theorem typedValue_ofString {key text : Bytes} (small : text.length < 2 ^ 16) :
    (ofString key text).typedValue =
      .ok (if 0 < text.length then .string text else .vector text) := by
  have length := toInt_intOfSize (Nat.lt_trans small (by decide))
  have isArray : intOfSize text.length ≠ -1 := by
    intro same
    rw [same] at length
    have minusOne : (-1 : Int32).toInt = -1 := rfl
    omega
  simp only [typedValue, Value.ofField, ofString, isArray, false_and, if_false,
    and_true, length]
  by_cases positive : 0 < text.length
  · rw [if_pos (Int.natCast_pos.mpr positive), if_pos positive]
  · rw [if_neg (mt Int.natCast_pos.mp positive), if_neg positive]

theorem typedValue_ofSource (key : Bytes) {source : Source}
    (sized : source.Sized) : (ofSource key source).typedValue = .ok source.typed := by
  cases source with
  | int32 value => exact typedValue_ofInt32 key value
  | float bits => exact typedValue_ofFloat key bits
  | string text =>
      obtain ⟨positive, small⟩ := sized text rfl
      rw [ofSource, typedValue_ofString small, if_pos positive]
      rfl

/-! ## Serializing and parsing -/

theorem ofSource_single (key : Bytes) (source : Source) :
    (ofSource key source).isMulti = false ∧
      (ofSource key source).continued = false := by
  cases source <;> exact ⟨rfl, rfl⟩

theorem ofMessage_ofSource {key emitted : Bytes} {source : Source}
    {type : ULogMessageType}
    (small : (ofSource key source).value.length < 2 ^ 16)
    (encodable : (ofSource key source).field.Encodable)
    (written : (ofSource key source).serialize type [] = (.ok (), emitted)) :
    ofMessage emitted false = .ok (ofSource key source) := by
  obtain ⟨single, whole⟩ := ofSource_single key source
  obtain ⟨-, keyed, -⟩ :=
    @Message.serialize_arriving (.messageInfo (ofSource key source) type) _
      written
  have bounded :
      (Message.messageInfo (ofSource key source) type).body.length < 2 ^ 31 := by
    simp only [Message.keyLength] at keyed
    simp only [Message.body, Message.fixed, Message.pieces, single,
      Bool.false_eq_true, if_false, List.length_append, List.length_flatten,
      List.map_cons, List.map_nil, List.sum_cons, List.sum_nil,
      List.length_singleton]
    omega
  obtain ⟨rfl, sized, keyed⟩ := Message.serialize_ok bounded written
  have decoded := Message.reconstruct_toBytes
    (show (Message.messageInfo (ofSource key source) type).Encodable from
      ⟨fun continued => Bool.noConfusion (whole.symm.trans continued),
        encodable⟩)
    sized keyed
  obtain ⟨info, parsed, same⟩ := map_eq_ok decoded
  cases same
  rwa [single] at parsed

theorem ofSource_plain (key : Bytes) (source : Source) :
    32 ∉ (ofSource key source).field.type ∧
      91 ∉ (ofSource key source).field.type := by
  have plain : ∀ type ∈ [ascii "int32_t", ascii "float", ascii "char"],
      32 ∉ type ∧ 91 ∉ type := by
    decide +kernel
  cases source with
  | int32 => exact plain (ascii "int32_t") (by simp)
  | float => exact plain (ascii "float") (by simp)
  | string => exact plain (ascii "char") (by simp)

theorem ofSource_encodable {key : Bytes} {source : Source}
    (small : (ofSource key source).value.length < 2 ^ 16) :
    (ofSource key source).field.Encodable := by
  obtain ⟨no_space, no_bracket⟩ := ofSource_plain key source
  refine ⟨?_, no_space, no_bracket⟩
  cases source with
  | int32 | float => exact Int.le_refl _
  | string text =>
      have length := toInt_intOfSize (Nat.lt_trans small (by decide))
      exact Int.le_trans (by decide)
        (Int.le_trans (Int.natCast_nonneg _) (Int.le_of_eq length.symm))

end MessageInfo

theorem Value.skip_scalar {condition : Prop} [Decidable condition] {size : Nat}
    {make : Nat → ValueType} {value text : Bytes} {rest : Except Stop ValueType}
    (typed : (if condition then assign size make value else rest) =
      .ok (.string text))
    (scalar : ∀ bits, make bits ≠ .string text) : rest = .ok (.string text) := by
  split at typed
  next =>
    rw [assign] at typed
    split at typed
    next => cases typed
    next => exact absurd (Except.ok.inj typed) (scalar _)
  next => exact typed

namespace MessageInfo

theorem typedValue_string {info : MessageInfo} {text : Bytes}
    (typed : info.typedValue = .ok (.string text)) : info.value = text := by
  rw [typedValue, Value.ofField] at typed
  iterate 12 replace typed := Value.skip_scalar typed nofun
  split at typed
  next =>
    cases typed
    rfl
  next => cases typed

/-- A value that has been written comes back in its own type, exactly if it is
not a string without bytes nor one whose size the serializer has narrowed. -/
theorem survives_iff {key : Bytes} {source : Source} {type : ULogMessageType}
    {emitted : Bytes}
    (written : (ofSource key source).serialize type [] = (.ok (), emitted)) :
    Survives source emitted ↔ source.Sized := by
  constructor
  · rintro ⟨info, parsed, typed⟩ text rfl
    have value := typedValue_string typed
    have bound := (ofMessage_yields _ _ _ parsed).2
    rw [value] at bound
    have small : text.length < 2 ^ 16 := Nat.lt_succ_of_le bound
    have sized : (ofSource key (.string text)).value.length < 2 ^ 16 := small
    rw [ofMessage_ofSource sized (ofSource_encodable sized) written] at parsed
    cases parsed
    rw [ofSource, typedValue_ofString small] at typed
    split at typed
    next positive => exact ⟨positive, small⟩
    next => cases typed
  · intro sized
    have small : (ofSource key source).value.length < 2 ^ 16 := by
      cases source with
      | int32 | float => exact (length_leBytes _ _).trans_lt (by decide)
      | string text => exact (sized text rfl).2
    exact ⟨_, ofMessage_ofSource small (ofSource_encodable small) written,
      typedValue_ofSource key sized⟩

theorem survives_float : Survives (.float 0x41CB624E)
    (Message.messageInfo (ofFloat (ascii "a") 0x41CB624E) .parameter).emitted :=
  (@survives_iff (ascii "a") _ .parameter _ (by decide +kernel)).mpr nofun

/-- The empty string comes back as a vector without bytes. -/
theorem empty_not_survives :
    (ofSource (ascii "a") (.string [])).serialize .info [] =
        (.ok (), (Message.messageInfo (ofString (ascii "a") []) .info).emitted) ∧
      ¬ Survives (.string [])
        (Message.messageInfo (ofString (ascii "a") []) .info).emitted := by
  refine ⟨by decide +kernel, ?_⟩
  rintro ⟨info, parsed, typed⟩
  have read : ofMessage
      (Message.messageInfo (ofString (ascii "a") []) .info).emitted false =
        .ok (ofString (ascii "a") []) := by
    decide +kernel
  cases read.symm.trans parsed
  cases typed

end MessageInfo

end UlogCpp
