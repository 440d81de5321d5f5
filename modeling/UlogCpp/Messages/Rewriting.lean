import Mathlib.Data.List.TakeWhile
import UlogCpp.Messages.Emission
import UlogCpp.Messages.Grammar

namespace UlogCpp

/-! What a constructor makes of a message can be written again. It takes no more
bytes than it was made of, and it is read as it was written. -/

/-! ## Array lengths -/

theorem foldl_digits_lt {digits : List UInt8}
    (all : ∀ byte ∈ digits, isDigit byte = true) (start : Nat) :
    digits.foldl (fun value digit => 10 * value + (digit.toNat - 48)) start <
      (start + 1) * 10 ^ digits.length := by
  induction digits generalizing start with
  | nil =>
      simp only [List.foldl_nil, List.length_nil, Nat.pow_zero]
      omega
  | cons digit digits ih =>
      have here := all digit List.mem_cons_self
      have small : digit.toNat - 48 ≤ 9 := by
        simp only [isDigit, Bool.and_eq_true, decide_eq_true_eq,
          UInt8.le_iff_toNat_le] at here
        change 48 ≤ digit.toNat ∧ digit.toNat ≤ 57 at here
        omega
      have later := ih (fun byte mem => all byte (List.mem_cons_of_mem _ mem))
        (10 * start + (digit.toNat - 48))
      refine Nat.lt_of_lt_of_le later ?_
      rw [List.length_cons, Nat.pow_succ, Nat.mul_comm _ 10, ← Nat.mul_assoc]
      exact Nat.mul_le_mul_right _ (by omega)

theorem decimalValue_lt {digits : List UInt8}
    (all : ∀ byte ∈ digits, isDigit byte = true) :
    decimalValue digits < 10 ^ digits.length := by
  have below := foldl_digits_lt all 0
  rwa [Nat.zero_add, Nat.one_mul] at below

theorem stoi_yields (text : Bytes) :
    Yields (fun value => 0 ≤ value.toInt →
        (decimal value.toNatClampNeg).length ≤ text.countP isDigit)
      (stoi text) := by
  intro value returned positive
  simp only [stoi] at returned
  generalize signedEq : splitSign (text.dropWhile isSpace) = signed at returned
  generalize digitsEq : signed.2.takeWhile isDigit = digits at returned
  have all : ∀ byte ∈ digits, isDigit byte = true := by
    rw [← digitsEq]
    exact fun byte mem => (List.mem_takeWhile_imp mem)
  have unsigned : signed.2 <:+ text.dropWhile isSpace := by
    rw [← signedEq]
    unfold splitSign
    split
    next rest same => rw [same]; exact List.suffix_cons _ _
    next rest same => rw [same]; exact List.suffix_cons _ _
    next => exact List.suffix_refl _
  have counted : digits.length ≤ text.countP isDigit := by
    have sub : digits.Sublist text := by
      rw [← digitsEq]
      exact ((List.takeWhile_sublist _).trans unsigned.sublist).trans
        (List.dropWhile_sublist _)
    have most := @List.Sublist.countP_le _ isDigit _ _ sub
    rwa [List.countP_eq_length.mpr all] at most
  have below := decimalValue_lt all
  generalize numberEq : (if signed.1 = true then -(decimalValue digits : Int)
    else decimalValue digits) = number at returned
  have within : number ≤ decimalValue digits := by
    rw [← numberEq]
    split <;> omega
  split at returned
  next => cases returned
  next some =>
    split at returned
    next range =>
      cases returned
      rw [Int32.toNatClampNeg_ofInt_of_le range.1 range.2]
      refine Nat.le_trans ?_ counted
      apply length_decimal_le (List.length_pos_iff.mpr some)
      omega
    next => cases returned

/-! ## Fields -/

structure Field.MadeOf (text : Bytes) (field : Field) : Prop where
  plain : 32 ∉ field.type ∧ 91 ∉ field.type
  fits : field.encode.length ≤ text.length
  bytes : ∀ byte, byte ∉ text → byte ∉ field.type ∧ byte ∉ field.name

theorem Field.ofKey_madeOf (text : Bytes) :
    Yields (Field.MadeOf text) (Field.ofKey text) := by
  intro field returned
  cases shape text with
  | unspaced no_space =>
      rw [ofKey_unspaced no_space] at returned
      cases returned
  | unclosed no_space no_bracket unclosed =>
      rw [ofKey_unclosed no_space no_bracket unclosed] at returned
      cases returned
  | @scalar type name no_space no_bracket =>
      rw [ofKey_scalar no_space no_bracket] at returned
      cases returned
      refine ⟨⟨no_space, no_bracket⟩, ?_, fun byte absent => ?_⟩
      · have none : encodeArray (-1) = [] := rfl
        simp only [encode, none, List.append_nil, Nat.le_refl]
      · simp only [List.mem_append, List.mem_cons, not_or] at absent
        exact ⟨absent.1, absent.2.2⟩
  | @closed type length name no_space no_bracket =>
      rw [ofKey_closed no_space no_bracket] at returned
      obtain ⟨value, converted, same⟩ := map_eq_ok returned
      cases same
      simp only [List.mem_append, List.mem_cons, not_or] at no_space
      refine ⟨⟨no_space.1, no_bracket⟩, ?_, fun byte absent => ?_⟩
      · have fewer := stoi_yields _ _ converted
        rw [List.countP_append, show [93].countP isDigit = 0 from rfl,
          Nat.add_zero] at fewer
        have most := @List.countP_le_length _ isDigit length
        simp only [encode, encodeArray, List.length_append, List.length_cons,
          List.length_nil]
        split
        next positive =>
          have few := fewer positive
          simp only [List.length_cons, List.length_append, List.length_nil]
          omega
        next =>
          rw [List.length_nil]
          omega
      · simp only [List.mem_append, List.mem_cons, not_or] at absent
        exact ⟨absent.1.1, absent.2.2⟩

theorem Field.MadeOf.encodable {text : Bytes} {field : Field}
    (made : field.MadeOf text) : field.normal.Encodable :=
  normal_encodable made.plain

/-- The key and the value fit into the message that they are taken from. -/
theorem readKeyValue_madeOf (message : Bytes) (msgSize : UInt16) (fixed : Nat) :
    Yields (fun parts => parts.1.normal.Encodable ∧
        parts.1.encode.length < 2 ^ 8 ∧
        fixed + parts.1.encode.length + parts.2.length < 2 ^ 16)
      (readKeyValue message msgSize fixed) := by
  unfold readKeyValue
  refine .bind (.any _) fun keyLen _ => .bind (.self _) fun _ passed =>
    .bind (.readBytes _ _ _) fun key keyLength =>
      .bind (Field.ofKey_madeOf key) fun field made =>
        .bind (.readBytes _ _ _) fun value valueLength =>
          .ok ⟨made.encodable, ?_⟩
  have fits := throwIf_ok passed
  have encoded := made.fits
  have small := keyLen.toNat_lt
  have sized := msgSize.toNat_lt
  simp only
  omega

namespace Message

/-- The message as it is read once it has been written: an array length that
is negative is not in its text. -/
def normal : Message → Message
  | messageInfo info type =>
      messageInfo { info with field := info.field.normal } type
  | messageFormat format =>
      messageFormat { format with fields := format.fields.map Field.normal }
  | parameterDefault parameter =>
      parameterDefault { parameter with field := parameter.field.normal }
  | message => message

section Normal

variable (message : Message)

theorem body_normal : message.normal.body = message.body := by
  cases message with
  | messageInfo info type =>
      simp only [normal, body, fixed, pieces, Field.encode_normal]
  | messageFormat format =>
      simp only [normal, body, fixed, pieces, MessageFormat.formatStr_normal]
  | parameterDefault parameter =>
      simp only [normal, body, fixed, pieces, Field.encode_normal]
  | addLoggedMessage | logging | data | dropout | sync => rfl

theorem keyLength_normal : message.normal.keyLength = message.keyLength := by
  cases message with
  | messageInfo info type =>
      exact congrArg List.length info.field.encode_normal
  | parameterDefault parameter =>
      exact congrArg List.length parameter.field.encode_normal
  | messageFormat | addLoggedMessage | logging | data | dropout | sync => rfl

theorem toBytes_normal : message.normal.toBytes = message.toBytes := by
  have type : message.normal.msgType = message.msgType := by
    cases message <;> rfl
  rw [toBytes, toBytes, type, body_normal]

theorem sameSection_normal : message.normal.SameSection message := by
  cases message <;> exact ⟨rfl, rfl, rfl⟩

end Normal

structure Rewritable (message : Message) : Prop where
  typed : message.Typed
  encodable : message.normal.Encodable
  sized : message.body.length < 2 ^ 16
  keyed : message.keyLength < 2 ^ 8

namespace Rewritable

variable {message : Message}

def wire (rewritable : message.Rewritable) : WireMessage where
  message := message.normal
  typed := by cases message <;> exact rewritable.typed
  encodable := rewritable.encodable
  sized := by rw [body_normal]; exact rewritable.sized
  keyed := by rw [keyLength_normal]; exact rewritable.keyed

theorem toBytes_wire (rewritable : message.Rewritable) :
    rewritable.wire.toBytes = message.toBytes :=
  message.toBytes_normal

theorem serialize (rewritable : message.Rewritable) (output : Bytes) :
    message.serialize output = (.ok (), output ++ message.toBytes) :=
  serialize_fits output rewritable.sized rewritable.keyed

end Rewritable

/-! ## The constructors -/

section Constructors

variable (bytes : Bytes)

theorem messageInfo_rewritable (isMulti : Bool) {type : ULogMessageType}
    (typed : isMulti = true ∨ type = .info ∨ type = .parameter) :
    Yields (fun info => (messageInfo info type).Rewritable)
      (MessageInfo.ofMessage bytes isMulti) := by
  unfold MessageInfo.ofMessage
  refine .bind (.any _) fun msgSize _ => ?_
  cases isMulti with
  | true =>
      refine .bind (.any _) fun _ _ => .bind (.any _) fun _ _ =>
        .bind (readKeyValue_madeOf _ _ _) fun _ made =>
          .ok ⟨typed, ⟨fun _ => rfl, made.1⟩, ?_, made.2.1⟩
      have small := made.2.2
      simp only [body, fixed, pieces, if_true, List.length_append,
        List.length_cons, List.length_nil, List.flatten_cons,
        List.flatten_nil]
      omega
  | false =>
      refine .bind (.any _) fun _ _ => .bind (readKeyValue_madeOf _ _ _)
        fun _ made => .ok ⟨typed, ⟨Bool.noConfusion, made.1⟩, ?_, made.2.1⟩
      have small := made.2.2
      simp only [body, fixed, pieces, Bool.false_eq_true, if_false,
        List.length_append, List.length_cons, List.length_nil,
        List.flatten_cons, List.flatten_nil]
      omega

theorem parameterDefault_rewritable :
    Yields (fun parameter => (parameterDefault parameter).Rewritable)
      (ParameterDefault.ofMessage bytes) := by
  unfold ParameterDefault.ofMessage
  refine .bind (.any _) fun msgSize _ => .bind (.any _) fun _ _ =>
    .bind (.any _) fun _ _ => .bind (readKeyValue_madeOf _ _ _) fun _ made =>
      .ok ⟨trivial, made.1, ?_, made.2.1⟩
  have small := made.2.2
  simp only [body, fixed, pieces, List.length_append, List.length_cons,
    List.length_nil, List.flatten_cons, List.flatten_nil]
  omega

theorem readFields_madeOf (rounds : Nat) (text : Bytes) :
    Yields (fun fields =>
        MessageFormat.FieldsEncodable (fields.map Field.normal) ∧
        (MessageFormat.encodeFields fields).length ≤ text.length)
      (MessageFormat.readFields rounds text) := by
  induction rounds generalizing text with
  | zero =>
      cases text with
      | nil => exact .ok ⟨nofun, Nat.le_refl _⟩
      | cons => exact nofun
  | succ rounds ih =>
      cases text with
      | nil => exact .ok ⟨nofun, Nat.le_refl _⟩
      | cons byte text =>
          unfold MessageFormat.readFields
          split
          next => exact nofun
          next piece rest split =>
            obtain ⟨whole, absent⟩ := splitFirst_eq_some.mp split
            refine .bind (Field.ofKey_madeOf piece) fun field made =>
              .bind (ih rest) fun fields later => .ok ⟨?_, ?_⟩
            · intro other mem
              rcases List.mem_cons.mp mem with rfl | mem
              · exact ⟨made.encodable, made.bytes 59 absent⟩
              · exact later.1 other mem
            · have lengths := congrArg List.length whole
              have fits := made.fits
              have rest := later.2
              rw [MessageFormat.encodeFields_cons]
              simp only [List.length_append, List.length_cons] at lengths ⊢
              omega

theorem messageFormat_rewritable :
    Yields (fun format => (messageFormat format).Rewritable)
      (MessageFormat.ofMessage bytes) := by
  unfold MessageFormat.ofMessage
  refine .bind (.any _) fun msgSize _ => .bind (.readBytes _ _ _)
    fun text textLength => ?_
  split
  next => exact nofun
  next name rest split =>
    obtain ⟨whole, noColon⟩ := splitFirst_eq_some.mp split
    have lengths := congrArg List.length whole
    have small := msgSize.toNat_lt
    refine .bind (readFields_madeOf _ rest) fun fields made =>
      .ok ⟨trivial, ⟨noColon, made.1⟩, ?_, Nat.two_pow_pos 8⟩
    have fits := made.2
    simp only [body, fixed, pieces, MessageFormat.formatStr, List.nil_append,
      List.flatten_cons, List.flatten_nil, List.append_nil,
      List.length_append, List.length_cons] at lengths ⊢
    omega

theorem ne_nil_of_length {data : Bytes} {length : Int}
    (sized : (data.length : Int) = length) (positive : 0 < length) :
    data ≠ [] := by
  rintro rfl
  simp only [List.length_nil] at sized
  omega

theorem addLoggedMessage_rewritable :
    Yields (fun message => (addLoggedMessage message).Rewritable)
      (AddLoggedMessage.ofMessage bytes) := by
  unfold AddLoggedMessage.ofMessage
  refine .bind (.any _) fun msgSize _ => .bind (checkMsgSize_yields _ _)
    fun _ needs => .bind (.any _) fun _ _ => .bind (.any _) fun _ _ =>
      .bind (.readBytes _ _ _) fun name length =>
        .ok ⟨trivial, ne_nil_of_length length (by omega), ?_, Nat.two_pow_pos 8⟩
  have small := msgSize.toNat_lt
  simp only [body, fixed, pieces, List.length_append, List.length_cons,
    List.length_nil, length_leBytes, List.flatten_cons, List.flatten_nil]
  omega

theorem logging_rewritable (isTagged : Bool) :
    Yields (fun logged => (logging logged).Rewritable)
      (Logging.ofMessage bytes isTagged) := by
  unfold Logging.ofMessage
  refine .bind (.any _) fun msgSize _ => ?_
  have small := msgSize.toNat_lt
  cases isTagged with
  | true =>
      refine .bind (checkMsgSize_yields _ _) fun _ needs => .bind (.any _)
        fun _ _ => .bind (.any _) fun _ _ => .bind (.any _) fun _ _ =>
          .bind (.readBytes _ _ _) fun text length =>
            .ok ⟨trivial, ne_nil_of_length length (by omega), ?_, Nat.two_pow_pos 8⟩
      simp only [body, fixed, pieces, if_true, List.length_append,
        List.length_cons, List.length_nil, length_leBytes, List.flatten_cons,
        List.flatten_nil]
      omega
  | false =>
      refine .bind (checkMsgSize_yields _ _) fun _ needs => .bind (.any _)
        fun _ _ => .bind (.any _) fun _ _ => .bind (.readBytes _ _ _)
          fun text length =>
            .ok ⟨trivial, ne_nil_of_length length (by omega), ?_, Nat.two_pow_pos 8⟩
      simp only [body, fixed, pieces, Bool.false_eq_true, if_false,
        List.length_append, List.length_cons, List.length_nil,
        length_leBytes, List.flatten_cons, List.flatten_nil]
      omega

theorem data_rewritable :
    Yields (fun sample => (data sample).Rewritable) (Data.ofMessage bytes) := by
  unfold Data.ofMessage
  refine .bind (.any _) fun msgSize _ => .bind (checkMsgSize_yields _ _)
    fun _ needs => .bind (.any _) fun _ _ => .bind (.readBytes _ _ _)
      fun payload length =>
        .ok ⟨trivial, ne_nil_of_length length (by omega), ?_, Nat.two_pow_pos 8⟩
  have small := msgSize.toNat_lt
  simp only [body, fixed, pieces, List.length_append, List.length_nil,
    length_leBytes, List.flatten_cons, List.flatten_nil]
  omega

theorem dropout_rewritable (gap : Dropout) : (dropout gap).Rewritable :=
  ⟨trivial, trivial, by simp [body, fixed, pieces], Nat.two_pow_pos 8⟩

theorem sync_rewritable (mark : Sync) : (sync mark).Rewritable :=
  ⟨trivial, trivial, by simp [body, fixed, pieces, Sync.kSyncMagicBytes],
    Nat.two_pow_pos 8⟩

end Constructors

end Message

end UlogCpp
