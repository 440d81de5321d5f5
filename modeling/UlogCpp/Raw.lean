import Mathlib.Data.Vector.Basic
import UlogCpp.Data.Exec
import UlogCpp.Data.LittleEndian

namespace UlogCpp

/-! Bytes, exceptions, object accesses and the packed structs of
`raw_messages.hpp`. A `std::string` is the list of its bytes. -/

abbrev Bytes := List UInt8

def ascii (text : String) : Bytes :=
  text.toList.map fun char => UInt8.ofNat char.toNat

/-- What C++ code throws: the two classes of `exception.hpp`, the exceptions of
`std::stoi`, and whatever else a handler supplied by the user may raise. -/
inductive Exception where
  | parsing (reason : Bytes)
  | usage (reason : Bytes)
  | invalidArgument
  | outOfRange
  | foreign (code : Nat)
  deriving DecidableEq, Repr

/-- Why code does not return: an exception, an access outside its object, or
a loop that has been given too few iterations. -/
inductive Stop where
  | raised (exception : Exception)
  | outOfBounds
  | outOfFuel
  deriving DecidableEq, Repr

def throwParsing (reason : String) : Except Stop α :=
  .error (.raised (.parsing (ascii reason)))

/-- `if (condition) throw ParsingException(reason)` -/
def throwIf (condition : Prop) [Decidable condition] (reason : String) :
    Except Stop Unit :=
  if condition then throwParsing reason else .ok ()

theorem ok_bind (value : α) (next : α → Except Stop β) :
    ((.ok value : Except Stop α) >>= next) = next value := rfl

theorem bind_eq_ok {result : Except Stop α} {next : α → Except Stop β}
    {value : β} :
    (result >>= next) = .ok value ↔
      ∃ middle, result = .ok middle ∧ next middle = .ok value := by
  cases result with
  | error stop =>
      constructor
      · nofun
      · rintro ⟨_, same, _⟩
        cases same
  | ok middle =>
      constructor
      · intro returned
        exact ⟨middle, rfl, returned⟩
      · rintro ⟨_, same, returned⟩
        cases same
        exact returned

theorem throwIf_pass {condition : Prop} [Decidable condition]
    (fails : ¬ condition) (reason : String) : throwIf condition reason = .ok () :=
  if_neg fails

/-! ## Accesses to an object -/

def readBytes (object : Bytes) (offset length : Int) : Except Stop Bytes :=
  if 0 ≤ offset ∧ 0 ≤ length ∧ offset + length ≤ object.length then
    .ok ((object.drop offset.toNat).take length.toNat)
  else
    .error .outOfBounds

def readArray (object : Bytes) (offset : Int) (size : Nat) :
    Except Stop (List.Vector UInt8 size) := do
  let bytes ← readBytes object offset size
  if sized : bytes.length = size then .ok ⟨bytes, sized⟩
  else .error .outOfBounds

def readUInt8 (object : Bytes) (offset : Int) : Except Stop UInt8 := do
  let bytes ← readArray object offset 1
  return bytes.head

def readUInt16 (object : Bytes) (offset : Int) : Except Stop UInt16 := do
  let bytes ← readArray object offset 2
  return UInt16.ofNat (leNat bytes.toList)

def readUInt64 (object : Bytes) (offset : Int) : Except Stop UInt64 := do
  let bytes ← readArray object offset 8
  return UInt64.ofNat (leNat bytes.toList)

theorem layout_prefix {arrived future start tail : Bytes}
    (layout : arrived ++ future = start ++ tail)
    (enough : start.length ≤ arrived.length) :
    ∃ more, arrived = start ++ more := by
  have begins : start <+: arrived ++ future := by
    rw [layout]
    exact List.prefix_append _ _
  have within : start <+: arrived :=
    List.prefix_of_prefix_length_le begins (List.prefix_append _ _) enough
  exact within.imp fun _ same => same.symm

theorem layout_next {object before middle after : Bytes}
    (layout : object = before ++ (middle ++ after)) :
    object = (before ++ middle) ++ after := by
  rw [layout, List.append_assoc]

theorem readBytes_at {object before middle after : Bytes}
    {offset length : Int} (layout : object = before ++ (middle ++ after))
    (start : offset = before.length) (size : length = middle.length) :
    readBytes object offset length = .ok middle := by
  subst layout start size
  unfold readBytes
  have within : 0 ≤ (before.length : Int) ∧ 0 ≤ (middle.length : Int) ∧
      (before.length : Int) + middle.length ≤
        (before ++ (middle ++ after)).length := by
    rw [List.length_append, List.length_append]
    omega
  rw [if_pos within]
  simp

theorem readBytes_ok {object : Bytes} {offset length : Nat}
    (within : offset + length ≤ object.length) :
    readBytes object offset length =
      .ok ((object.drop offset).take length) := by
  unfold readBytes
  rw [if_pos (by omega)]
  simp

theorem readBytes_length {object bytes : Bytes} {offset length : Int}
    (read : readBytes object offset length = .ok bytes) :
    (bytes.length : Int) = length ∧ offset + length ≤ object.length := by
  unfold readBytes at read
  split at read
  next within =>
    cases read
    simp only [List.length_take, List.length_drop]
    omega
  next => cases read

theorem length_slice {object : Bytes} {offset size : Nat}
    (within : offset + size ≤ object.length) :
    ((object.drop offset).take size).length = size := by
  rw [List.length_take, List.length_drop]
  omega

theorem readArray_ok {object : Bytes} {offset size : Nat}
    (within : offset + size ≤ object.length) :
    readArray object offset size =
      .ok ⟨(object.drop offset).take size, length_slice within⟩ := by
  unfold readArray
  rw [readBytes_ok within]
  exact dif_pos (length_slice within)

theorem readUInt8_ok {object : Bytes} {offset : Nat}
    (within : offset < object.length) :
    readUInt8 object offset = .ok object[offset] := by
  have head : (object.drop offset).take 1 = [object[offset]] := by
    rw [List.drop_eq_getElem_cons within, List.take_succ_cons, List.take_zero]
  unfold readUInt8
  rw [readArray_ok within]
  simp only [head]
  rfl

theorem readUInt16_ok {object : Bytes} {offset : Nat}
    (within : offset + 2 ≤ object.length) :
    readUInt16 object offset =
      .ok (UInt16.ofNat (leNat ((object.drop offset).take 2))) := by
  unfold readUInt16
  rw [readArray_ok within]
  rfl

theorem readUInt64_ok {object : Bytes} {offset : Nat}
    (within : offset + 8 ≤ object.length) :
    readUInt64 object offset =
      .ok (UInt64.ofNat (leNat ((object.drop offset).take 8))) := by
  unfold readUInt64
  rw [readArray_ok within]
  rfl

/-! Accesses within an object succeed. -/

section Within

variable {object : Bytes} {offset : Int} (start : 0 ≤ offset)

include start

theorem readArray_within {size : Nat} (within : offset + size ≤ object.length) :
    ∃ array, readArray object offset size = .ok array := by
  obtain ⟨position, rfl⟩ := Int.eq_ofNat_of_zero_le start
  exact ⟨_, readArray_ok (by omega)⟩

theorem readUInt8_within (within : offset + 1 ≤ object.length) :
    ∃ value, readUInt8 object offset = .ok value := by
  obtain ⟨position, rfl⟩ := Int.eq_ofNat_of_zero_le start
  exact ⟨_, readUInt8_ok (by omega)⟩

theorem readUInt16_within (within : offset + 2 ≤ object.length) :
    ∃ value, readUInt16 object offset = .ok value := by
  obtain ⟨position, rfl⟩ := Int.eq_ofNat_of_zero_le start
  exact ⟨_, readUInt16_ok (by omega)⟩

theorem readUInt64_within (within : offset + 8 ≤ object.length) :
    ∃ value, readUInt64 object offset = .ok value := by
  obtain ⟨position, rfl⟩ := Int.eq_ofNat_of_zero_le start
  exact ⟨_, readUInt64_ok (by omega)⟩

end Within

theorem readArray_at {object before middle after : Bytes} {offset : Int}
    {size : Nat} (layout : object = before ++ (middle ++ after))
    (start : offset = before.length) (sized : middle.length = size) :
    readArray object offset size = .ok ⟨middle, sized⟩ := by
  unfold readArray
  rw [readBytes_at layout start (by omega)]
  exact dif_pos sized

theorem readUInt8_at {object before after : Bytes} {value : UInt8}
    {offset : Int} (layout : object = before ++ ([value] ++ after))
    (start : offset = before.length) :
    readUInt8 object offset = .ok value := by
  have sized : [value].length = 1 := rfl
  unfold readUInt8
  rw [readArray_at layout start sized]
  rfl

theorem readUInt16_at {object before after : Bytes} {value : UInt16}
    {offset : Int}
    (layout : object = before ++ (leBytes 2 value.toNat ++ after))
    (start : offset = before.length) :
    readUInt16 object offset = .ok value := by
  unfold readUInt16
  rw [readArray_at layout start (length_leBytes _ _)]
  simp only [bind, Except.bind, pure, Except.pure, List.Vector.toList,
    toNat_leNat_leBytes_two, UInt16.ofNat_toNat]

theorem readUInt64_at {object before after : Bytes} {value : UInt64}
    {offset : Int}
    (layout : object = before ++ (leBytes 8 value.toNat ++ after))
    (start : offset = before.length) :
    readUInt64 object offset = .ok value := by
  unfold readUInt64
  rw [readArray_at layout start (length_leBytes _ _)]
  simp only [bind, Except.bind, pure, Except.pure, List.Vector.toList,
    toNat_leNat_leBytes_eight, UInt64.ofNat_toNat]

/-! ## `raw_messages.hpp` -/

inductive ULogMessageType where
  | format
  | data
  | info
  | infoMultiple
  | parameter
  | parameterDefault
  | addLoggedMsg
  | removeLoggedMsg
  | sync
  | dropout
  | logging
  | loggingTagged
  | flagBits
  deriving DecidableEq, Repr

namespace ULogMessageType

def code : ULogMessageType → UInt8
  | format => 70 -- 'F'
  | data => 68 -- 'D'
  | info => 73 -- 'I'
  | infoMultiple => 77 -- 'M'
  | parameter => 80 -- 'P'
  | parameterDefault => 81 -- 'Q'
  | addLoggedMsg => 65 -- 'A'
  | removeLoggedMsg => 82 -- 'R'
  | sync => 83 -- 'S'
  | dropout => 79 -- 'O'
  | logging => 76 -- 'L'
  | loggingTagged => 67 -- 'C'
  | flagBits => 66 -- 'B'

def all : List ULogMessageType :=
  [format, data, info, infoMultiple, parameter, parameterDefault,
    addLoggedMsg, removeLoggedMsg, sync, dropout, logging, loggingTagged,
    flagBits]

/-- The enumerator that a type byte stands for, if any. -/
def ofCode? (byte : UInt8) : Option ULogMessageType :=
  all.find? fun type => type.code == byte

@[simp] theorem ofCode?_code (type : ULogMessageType) :
    ofCode? type.code = some type := by
  cases type <;> rfl

theorem code_ne_zero (type : ULogMessageType) : type.code ≠ 0 := by
  cases type <;> decide

end ULogMessageType

/-- `ULOG_MSG_HEADER_LEN`, which is also the size of `ulog_message_header_s` -/
def ulogMsgHeaderLen : Nat := 3

structure UlogFileHeader where
  magic : List.Vector UInt8 8
  timestamp : UInt64
  deriving DecidableEq

def ulogFileMagicBytes : Bytes := [85, 76, 111, 103, 1, 18, 53]

structure UlogMessageFlagBits where
  msgSize : UInt16
  msgType : UInt8
  compatFlags : List.Vector UInt8 8
  incompatFlags : List.Vector UInt8 8
  appendedOffsets : List.Vector UInt64 3
  deriving DecidableEq

def ulogIncompatFlag0DataAppendedMask : UInt8 := 1

def ulogCompatFlag0DefaultParametersMask : UInt8 := 1

namespace UlogFileHeader

def size : Nat := 16

def toBytes (header : UlogFileHeader) : Bytes :=
  header.magic.toList ++ leBytes 8 header.timestamp.toNat

def read (object : Bytes) : Except Stop UlogFileHeader := do
  let magic ← readArray object 0 8
  let timestamp ← readUInt64 object 8
  return { magic, timestamp }

@[simp] theorem length_toBytes (header : UlogFileHeader) :
    header.toBytes.length = size := by
  simp [toBytes, size]

theorem read_ok {object : Bytes} (within : size ≤ object.length) :
    ∃ header, read object = .ok header := by
  simp only [size] at within
  obtain ⟨magic, magicRead⟩ :=
    @readArray_within object 0 (by decide) 8 (by omega)
  obtain ⟨timestamp, timestampRead⟩ :=
    @readUInt64_within object 8 (by decide) (by omega)
  unfold read
  rw [magicRead, timestampRead]
  exact ⟨_, rfl⟩

theorem read_append (header : UlogFileHeader) (after : Bytes) :
    read (header.toBytes ++ after) = .ok header := by
  have magicRead : readArray (header.toBytes ++ after) 0 8 =
      .ok header.magic :=
    readArray_at (show _ = [] ++ (header.magic.toList ++ _) by
      simp [toBytes]; rfl) rfl header.magic.2
  have timestampRead : readUInt64 (header.toBytes ++ after) 8 =
      .ok header.timestamp :=
    readUInt64_at (show _ = header.magic.toList ++
      (leBytes 8 header.timestamp.toNat ++ after) by simp [toBytes]) (by simp)
  unfold read
  rw [magicRead, timestampRead]
  rfl

end UlogFileHeader

namespace UlogMessageFlagBits

def size : Nat := 43

def toBytes (flagBits : UlogMessageFlagBits) : Bytes :=
  leBytes 2 flagBits.msgSize.toNat ++ ([flagBits.msgType] ++
    (flagBits.compatFlags.toList ++ (flagBits.incompatFlags.toList ++
      flagBits.appendedOffsets.toList.flatMap
        fun offset => leBytes 8 offset.toNat)))

def read (object : Bytes) : Except Stop UlogMessageFlagBits := do
  let msgSize ← readUInt16 object 0
  let msgType ← readUInt8 object 2
  let compatFlags ← readArray object 3 8
  let incompatFlags ← readArray object 11 8
  let offset0 ← readUInt64 object 19
  let offset1 ← readUInt64 object 27
  let offset2 ← readUInt64 object 35
  return {
    msgSize, msgType, compatFlags, incompatFlags
    appendedOffsets := ⟨[offset0, offset1, offset2], rfl⟩ }

@[simp] theorem length_toBytes (flagBits : UlogMessageFlagBits) :
    flagBits.toBytes.length = size := by
  obtain ⟨_, _, _, _, ⟨offsets, sized⟩⟩ := flagBits
  simp [toBytes, size, sized, List.Vector.toList]

theorem read_ok {object : Bytes} (within : size ≤ object.length) :
    ∃ flagBits, read object = .ok flagBits ∧
      readUInt8 object 2 = .ok flagBits.msgType := by
  simp only [size] at within
  obtain ⟨msgSize, sizeRead⟩ :=
    @readUInt16_within object 0 (by decide) (by omega)
  obtain ⟨msgType, typeRead⟩ :=
    @readUInt8_within object 2 (by decide) (by omega)
  obtain ⟨compat, compatRead⟩ :=
    @readArray_within object 3 (by decide) 8 (by omega)
  obtain ⟨incompat, incompatRead⟩ :=
    @readArray_within object 11 (by decide) 8 (by omega)
  obtain ⟨offset0, offset0Read⟩ :=
    @readUInt64_within object 19 (by decide) (by omega)
  obtain ⟨offset1, offset1Read⟩ :=
    @readUInt64_within object 27 (by decide) (by omega)
  obtain ⟨offset2, offset2Read⟩ :=
    @readUInt64_within object 35 (by decide) (by omega)
  unfold read
  rw [sizeRead, typeRead, compatRead, incompatRead, offset0Read, offset1Read,
    offset2Read]
  exact ⟨_, rfl, rfl⟩

theorem read_append (flagBits : UlogMessageFlagBits) (after : Bytes) :
    read (flagBits.toBytes ++ after) = .ok flagBits := by
  obtain ⟨msgSize, msgType, compat, incompat, offsets⟩ := flagBits
  obtain ⟨offset0, offset1, offset2, rfl⟩ :
      ∃ offset0 offset1 offset2, offsets = ⟨[offset0, offset1, offset2], rfl⟩ := by
    obtain ⟨list, sized⟩ := offsets
    match list, sized with
    | [offset0, offset1, offset2], _ =>
        exact ⟨offset0, offset1, offset2, rfl⟩
  generalize objectEq : toBytes _ ++ after = object
  have atSize : object = [] ++ (leBytes 2 msgSize.toNat ++ ([msgType] ++
      (compat.toList ++ (incompat.toList ++ (leBytes 8 offset0.toNat ++
        (leBytes 8 offset1.toNat ++
          (leBytes 8 offset2.toNat ++ after))))))) := by
    rw [← objectEq]
    simp [toBytes, List.Vector.toList]
  have atType := layout_next atSize
  have atCompat := layout_next atType
  have atIncompat := layout_next atCompat
  have atOffset0 := layout_next atIncompat
  have atOffset1 := layout_next atOffset0
  have atOffset2 := layout_next atOffset1
  have sizeRead : readUInt16 object 0 = .ok msgSize :=
    readUInt16_at atSize rfl
  have typeRead : readUInt8 object 2 = .ok msgType :=
    readUInt8_at atType (by simp)
  have compatRead : readArray object 3 8 = .ok compat :=
    readArray_at atCompat (by simp) compat.2
  have incompatRead : readArray object 11 8 = .ok incompat :=
    readArray_at atIncompat (by simp) incompat.2
  have offset0Read : readUInt64 object 19 = .ok offset0 :=
    readUInt64_at atOffset0 (by simp)
  have offset1Read : readUInt64 object 27 = .ok offset1 :=
    readUInt64_at atOffset1 (by simp)
  have offset2Read : readUInt64 object 35 = .ok offset2 :=
    readUInt64_at atOffset2 (by simp)
  unfold read
  rw [sizeRead, typeRead, compatRead, incompatRead, offset0Read, offset1Read,
    offset2Read]
  rfl

end UlogMessageFlagBits

end UlogCpp
