import UlogCpp.Raw

namespace UlogCpp

/-! The framing of messages in a sequence of bytes. -/

def fullMessageLength (bytes : Bytes) : Nat :=
  leNat (bytes.take 2) + ulogMsgHeaderLen

def HasMessage (bytes : Bytes) : Prop :=
  fullMessageLength bytes ≤ bytes.length

instance (bytes : Bytes) : Decidable (HasMessage bytes) :=
  inferInstanceAs (Decidable (_ ≤ _))

def IsMessage (message : Bytes) : Prop :=
  message.length = fullMessageLength message

theorem header_le_fullMessageLength (bytes : Bytes) :
    3 ≤ fullMessageLength bytes := by
  simp only [fullMessageLength, ulogMsgHeaderLen]
  omega

theorem fullMessageLength_append {bytes : Bytes} (sized : 2 ≤ bytes.length)
    (more : Bytes) :
    fullMessageLength (bytes ++ more) = fullMessageLength bytes := by
  simp only [fullMessageLength, List.take_append_of_le_length sized]

theorem fullMessageLength_take {bytes : Bytes} {count : Nat}
    (sized : 2 ≤ count) :
    fullMessageLength (bytes.take count) = fullMessageLength bytes := by
  simp only [fullMessageLength, List.take_take, Nat.min_eq_left sized]

theorem HasMessage.header_le {bytes : Bytes} (complete : HasMessage bytes) :
    3 ≤ bytes.length :=
  Nat.le_trans (header_le_fullMessageLength bytes) complete

theorem HasMessage.isMessage {bytes : Bytes} (complete : HasMessage bytes) :
    IsMessage (bytes.take (fullMessageLength bytes)) := by
  have long := header_le_fullMessageLength bytes
  unfold IsMessage
  rw [fullMessageLength_take (by omega), List.length_take,
    Nat.min_eq_left complete]

namespace IsMessage

variable {message : Bytes}

theorem header_le (whole : IsMessage message) : 3 ≤ message.length := by
  rw [whole]
  exact header_le_fullMessageLength message

theorem hasMessage_append (whole : IsMessage message) (more : Bytes) :
    HasMessage (message ++ more) := by
  have long := whole.header_le
  unfold HasMessage
  rw [fullMessageLength_append (by omega), ← whole, List.length_append]
  exact Nat.le_add_right _ _

theorem fullMessageLength_append (whole : IsMessage message) (more : Bytes) :
    fullMessageLength (message ++ more) = message.length := by
  have long := whole.header_le
  rw [UlogCpp.fullMessageLength_append (by omega), ← whole]

end IsMessage

/-- More bytes do not change a message that has arrived. -/
theorem HasMessage.append {bytes : Bytes} (complete : HasMessage bytes)
    (more : Bytes) : HasMessage (bytes ++ more) := by
  have long := complete.header_le
  unfold HasMessage at complete ⊢
  rw [fullMessageLength_append (by omega), List.length_append]
  omega

theorem HasMessage.take_append {bytes : Bytes} (complete : HasMessage bytes)
    (more : Bytes) :
    (bytes ++ more).take (fullMessageLength (bytes ++ more)) =
      bytes.take (fullMessageLength bytes) := by
  have long := complete.header_le
  rw [fullMessageLength_append (by omega),
    List.take_append_of_le_length complete]

def msgSize (message : Bytes) : UInt16 := UInt16.ofNat (leNat (message.take 2))

theorem toNat_msgSize (message : Bytes) :
    (msgSize message).toNat + 3 = fullMessageLength message := by
  have bound := leNat_lt (message.take 2)
  have width : (message.take 2).length ≤ 2 := by
    rw [List.length_take]
    exact Nat.min_le_left _ _
  have small : leNat (message.take 2) < 2 ^ 16 :=
    Nat.lt_of_lt_of_le bound (Nat.pow_le_pow_right (by decide) width)
  simp only [msgSize, fullMessageLength, ulogMsgHeaderLen, UInt16.toNat_ofNat',
    Nat.mod_eq_of_lt small]

theorem readUInt16_msgSize {message : Bytes} (sized : 2 ≤ message.length) :
    readUInt16 message 0 = .ok (msgSize message) :=
  @readUInt16_ok message 0 (by omega)

def msgType (message : Bytes) : UInt8 := message.getD 2 0

theorem readUInt8_msgType {message : Bytes} (sized : 3 ≤ message.length) :
    readUInt8 message 2 = .ok (msgType message) := by
  have read := @readUInt8_ok message 2 (by omega)
  rw [msgType, List.getD_eq_getElem?_getD, List.getElem?_eq_getElem (by omega)]
  exact read

/-- A message with a header that the reader does not take for corruption. -/
structure Frame where
  msgType : UInt8
  payload : Bytes
  typed : msgType ≠ 0
  nonempty : payload ≠ []
  bounded : payload.length < 2 ^ 16

namespace Frame

def toBytes (frame : Frame) : Bytes :=
  leBytes 2 frame.payload.length ++ frame.msgType :: frame.payload

@[simp] theorem length_toBytes (frame : Frame) :
    frame.toBytes.length = frame.payload.length + 3 := by
  simp [toBytes]
  omega

theorem fullMessageLength_toBytes (frame : Frame) :
    fullMessageLength frame.toBytes = frame.payload.length + 3 := by
  have sizeBytes : frame.toBytes.take 2 = leBytes 2 frame.payload.length :=
    List.take_left' (length_leBytes _ _)
  rw [fullMessageLength, sizeBytes, leNat_leBytes_of_lt frame.bounded]
  rfl

theorem isMessage (frame : Frame) : IsMessage frame.toBytes := by
  rw [IsMessage, length_toBytes, fullMessageLength_toBytes]

theorem msgType_toBytes (frame : Frame) :
    UlogCpp.msgType frame.toBytes = frame.msgType := by
  simp [UlogCpp.msgType, toBytes, leBytes]

theorem length_pos (frame : Frame) : 0 < frame.payload.length :=
  List.length_pos_iff.mpr frame.nonempty

def stream (frames : List Frame) : Bytes := frames.flatMap toBytes

@[simp] theorem stream_nil : stream [] = [] := rfl

@[simp] theorem stream_cons (frame : Frame) (frames : List Frame) :
    stream (frame :: frames) = frame.toBytes ++ stream frames := rfl

theorem msgType_stream {frames : List Frame} {type : UInt8} (typed : type ≠ 0)
    (other : ∀ frame ∈ frames.head?, frame.msgType ≠ type) :
    UlogCpp.msgType (stream frames) ≠ type := by
  cases frames with
  | nil => exact typed.symm
  | cons frame frames =>
      have same : UlogCpp.msgType (stream (frame :: frames)) =
          frame.msgType := by
        simp [UlogCpp.msgType, toBytes, leBytes]
      rw [same]
      exact other frame rfl

@[simp] theorem stream_append (frames more : List Frame) :
    stream (frames ++ more) = stream frames ++ stream more :=
  List.flatMap_append

def Unfinished (pending : Bytes) : List Frame → Prop
  | [] => True
  | frame :: _ => pending.length < frame.toBytes.length

theorem unfinished_nil (frames : List Frame) : Unfinished [] frames := by
  cases frames with
  | nil => trivial
  | cons frame frames =>
      simp only [Unfinished, List.length_nil, length_toBytes]
      omega

/-- Whatever part of a stream has arrived is a number of frames and what is not
enough for another one. -/
theorem split_stream {frames : List Frame} {arrived future tail : Bytes}
    (layout : arrived ++ future = stream frames ++ tail) :
    ∃ complete remaining pending,
      frames = complete ++ remaining ∧ arrived = stream complete ++ pending ∧
        pending ++ future = stream remaining ++ tail ∧
        Unfinished pending remaining := by
  induction frames generalizing arrived with
  | nil => exact ⟨[], [], arrived, rfl, rfl, layout, trivial⟩
  | cons frame frames ih =>
      by_cases short : arrived.length < frame.toBytes.length
      · exact ⟨[], frame :: frames, arrived, rfl, rfl, layout, short⟩
      · rw [stream_cons, List.append_assoc] at layout
        obtain ⟨rest, rfl⟩ := layout_prefix layout (Nat.le_of_not_lt short)
        rw [List.append_assoc] at layout
        obtain ⟨complete, remaining, pending, split, arrivedEq, after, unfinished⟩ :=
          ih (List.append_cancel_left layout)
        refine ⟨frame :: complete, remaining, pending, ?_, ?_, after, unfinished⟩
        · rw [split, List.cons_append]
        · rw [arrivedEq, stream_cons, List.append_assoc]

namespace Unfinished

variable {pending future tail : Bytes} {frames : List Frame}

/-- An unfinished frame is not a message yet. -/
theorem not_hasMessage (unfinished : Unfinished pending frames)
    (layout : pending ++ future = stream frames ++ tail)
    (last : frames = [] → ¬ HasMessage pending) : ¬ HasMessage pending := by
  cases frames with
  | nil => exact last rfl
  | cons frame frames =>
      intro complete
      have long := complete.header_le
      have short : pending.length < frame.toBytes.length := unfinished
      have same : fullMessageLength pending = frame.toBytes.length := by
        rw [← UlogCpp.fullMessageLength_append (by omega) future, layout,
          stream_cons, List.append_assoc,
          frame.isMessage.fullMessageLength_append]
      unfold HasMessage at complete
      omega

theorem length_lt (unfinished : Unfinished pending frames)
    (more : frames ≠ []) : pending.length < (stream frames).length := by
  cases frames with
  | nil => exact absurd rfl more
  | cons frame frames =>
      have short : pending.length < frame.toBytes.length := unfinished
      rw [stream_cons, List.length_append]
      omega

theorem nil_of_complete (unfinished : Unfinished pending frames)
    (complete : pending = stream frames) : frames = [] := by
  apply Classical.byContradiction
  intro more
  have short := unfinished.length_lt more
  rw [complete] at short
  exact Nat.lt_irrefl _ short

end Unfinished

theorem not_hasMessage_nil : ¬ HasMessage [] := by decide

end Frame

end UlogCpp
