import UlogCpp.Messages.Frame
import UlogCpp.Reader.Model

namespace UlogCpp

namespace Cursor

/-- The object that `data` points into holds exactly what is left of it. -/
def Valid (cursor : Cursor) : Prop := cursor.data.length = cursor.length.toNat

variable {cursor : Cursor}

theorem ofChunk_valid (chunk : Bytes) : (ofChunk chunk).Valid := rfl

theorem Valid.advance (valid : cursor.Valid) {count : Int}
    (positive : 0 ≤ count) : (cursor.advance count).Valid := by
  simp only [Valid, Cursor.advance, List.length_drop] at valid ⊢
  omega

theorem Valid.eq_ofChunk (valid : cursor.Valid) (positive : 0 < cursor.length) :
    cursor = ofChunk cursor.data := by
  obtain ⟨data, length⟩ := cursor
  simp only [Valid] at valid positive
  simp only [ofChunk, mk.injEq, true_and]
  omega

theorem advance_ofChunk {chunk : Bytes} {count : Nat}
    (within : count ≤ chunk.length) :
    (ofChunk chunk).advance count = ofChunk (chunk.drop count) := by
  simp only [ofChunk, advance, Int.toNat_natCast, List.length_drop,
    mk.injEq, true_and]
  omega

@[simp] theorem data_ofChunk (chunk : Bytes) : (ofChunk chunk).data = chunk :=
  rfl

@[simp] theorem length_ofChunk (chunk : Bytes) :
    (ofChunk chunk).length = chunk.length := rfl

end Cursor

namespace Reader

variable {σ : Type}

structure Safe (reader : Reader σ) : Prop where
  fits : reader.partialMessageBuffer.length ≤
    reader.partialMessageBufferLengthCapacity
  roomy : kBufferSizeInit ≤ reader.partialMessageBufferLengthCapacity
  /-- Recovery always finds room for another byte. -/
  recovering : reader.needRecovery = true →
    reader.partialMessageBuffer.length <
      reader.partialMessageBufferLengthCapacity

theorem Safe.ofNormal {reader : Reader σ}
    (fits : reader.partialMessageBuffer.length ≤
      reader.partialMessageBufferLengthCapacity)
    (roomy : kBufferSizeInit ≤ reader.partialMessageBufferLengthCapacity)
    (normal : reader.needRecovery = false) : reader.Safe where
  fits := fits
  roomy := roomy
  recovering recovering := by
    rw [normal] at recovering
    cases recovering

def stored (reader : Reader σ) (content : Bytes) (capacity : Nat) : Reader σ :=
  { reader with
    partialMessageBuffer := content
    partialMessageBufferLengthCapacity := capacity }

def buffered (reader : Reader σ) (content : Bytes) : Reader σ :=
  reader.stored content
    (max reader.partialMessageBufferLengthCapacity content.length)

section Stored

variable (reader : Reader σ) (content : Bytes) (capacity : Nat)

@[simp] theorem stored_partialMessageBuffer :
    (reader.stored content capacity).partialMessageBuffer = content := rfl

@[simp] theorem stored_capacity :
    (reader.stored content capacity).partialMessageBufferLengthCapacity =
      capacity := rfl

@[simp] theorem stored_delivery :
    (reader.stored content capacity).delivery = reader.delivery := rfl

@[simp] theorem stored_needRecovery :
    (reader.stored content capacity).needRecovery =
      reader.needRecovery := rfl

@[simp] theorem stored_corruptionReported :
    (reader.stored content capacity).corruptionReported =
      reader.corruptionReported := rfl

@[simp] theorem stored_stored (other : Bytes) (bound : Nat) :
    (reader.stored content capacity).stored other bound =
      reader.stored other bound := rfl

end Stored

section Buffered

variable (reader : Reader σ) (content : Bytes)

@[simp] theorem buffered_partialMessageBuffer :
    (reader.buffered content).partialMessageBuffer = content := rfl

@[simp] theorem buffered_capacity :
    (reader.buffered content).partialMessageBufferLengthCapacity =
      max reader.partialMessageBufferLengthCapacity content.length := rfl

@[simp] theorem buffered_delivery :
    (reader.buffered content).delivery = reader.delivery := rfl

@[simp] theorem buffered_needRecovery :
    (reader.buffered content).needRecovery = reader.needRecovery := rfl

@[simp] theorem buffered_corruptionReported :
    (reader.buffered content).corruptionReported =
      reader.corruptionReported := rfl

theorem buffered_self {reader : Reader σ} (safe : reader.Safe) :
    reader.buffered reader.partialMessageBuffer = reader := by
  simp only [buffered, stored, Nat.max_eq_left safe.fits]

theorem buffered_buffered {longer : Bytes}
    (grows : content.length ≤ longer.length) :
    (reader.buffered content).buffered longer = reader.buffered longer := by
  simp only [buffered, stored, Nat.max_assoc, Nat.max_eq_right grows]

theorem buffered_eq_of_fits {content : Bytes}
    (fits : content.length ≤ reader.partialMessageBufferLengthCapacity) :
    reader.buffered content =
      { reader with partialMessageBuffer := content } := by
  simp only [buffered, stored, Nat.max_eq_left fits]

theorem Safe.buffered {reader : Reader σ} (safe : reader.Safe)
    (normal : reader.needRecovery = false) (content : Bytes) :
    (reader.buffered content).Safe where
  fits := Nat.le_max_right _ _
  roomy := Nat.le_trans safe.roomy (Nat.le_max_left _ _)
  recovering recovery := by
    simp only [buffered_needRecovery, normal] at recovery
    cases recovery

end Buffered

/-! ## Operations on the buffer -/

theorem copyToBuffer_ofChunk {reader : Reader σ} {chunk : Bytes} {count : Nat}
    (within : count ≤ chunk.length)
    (fits : reader.partialMessageBuffer.length + count ≤
      reader.partialMessageBufferLengthCapacity) :
    copyToBuffer (.ofChunk chunk) count reader =
      (.ok (), { reader with
        partialMessageBuffer :=
          reader.partialMessageBuffer ++ chunk.take count }) := by
  have read : readBytes chunk 0 count = .ok (chunk.take count) :=
    @readBytes_ok chunk 0 count (by omega)
  have taken : (chunk.take count).length = count := by
    rw [List.length_take, Nat.min_eq_left within]
  unfold copyToBuffer
  rw [Cursor.data_ofChunk, read, Exec.lift_ok_bind_apply,
    Exec.get_bind_apply, taken, if_pos fits]
  rfl

theorem discard_apply {reader : Reader σ} {count : Nat}
    (within : count ≤ reader.partialMessageBuffer.length) :
    discard count reader =
      (.ok (), { reader with
        partialMessageBuffer := reader.partialMessageBuffer.drop count }) := by
  unfold discard
  rw [Exec.get_bind_apply, if_pos]
  · rfl
  · simp only [partialMessageBufferLength]
    omega

theorem discardTo_apply {reader : Reader σ} {index : Nat}
    {next : Exec Stop (Reader σ) α}
    (within : index ≤ reader.partialMessageBuffer.length) :
    (if index > 0 then discard index >>= fun _ => next else next) reader =
      next { reader with
        partialMessageBuffer := reader.partialMessageBuffer.drop index } := by
  by_cases first : index = 0
  · rw [first, List.drop_zero]
    rfl
  · rw [if_pos (Nat.pos_of_ne_zero first), Exec.bind_ok (discard_apply within)]

theorem appendToPartialBuffer_ofChunk {reader : Reader σ} (safe : reader.Safe)
    {chunk : Bytes} {count : Nat}
    (counted : count = min chunk.length
      (reader.partialMessageBufferLengthCapacity -
        reader.partialMessageBuffer.length)) :
    appendToPartialBuffer (.ofChunk chunk) reader =
      (.ok count, { reader with
        partialMessageBuffer :=
          reader.partialMessageBuffer ++ chunk.take count }) := by
  have fits := safe.fits
  have amount : min (Cursor.ofChunk chunk).length
      (reader.partialMessageBufferLengthCapacity -
        reader.partialMessageBufferLength) = count := by
    simp only [Cursor.length_ofChunk, partialMessageBufferLength]
    omega
  unfold appendToPartialBuffer
  rw [Exec.get_bind_apply]
  simp only [amount]
  rw [Exec.bind_ok (copyToBuffer_ofChunk (by omega) (by omega))]
  rfl

theorem reserve_apply {reader : Reader σ} (required : Nat) :
    reserve required reader =
      (.ok (), { reader with
        partialMessageBufferLengthCapacity :=
          max reader.partialMessageBufferLengthCapacity required }) := by
  obtain ⟨delivery, buffer, capacity, recovery, reported, header⟩ := reader
  simp only [reserve, Exec.modify_apply]
  split
  next more =>
    congr
    omega
  next enough =>
    congr
    omega

/-- What is required is moved to the buffer, or all there is. Nothing is lost
between the buffer and the chunk. -/
theorem ensureEnoughData_ofChunk {reader : Reader σ} (safe : reader.Safe)
    {chunk arrived : Bytes} {required count : Nat}
    (arrivedEq : arrived = reader.partialMessageBuffer ++ chunk)
    (counted : count = max reader.partialMessageBuffer.length required) :
    ensureEnoughData required (.ofChunk chunk) reader =
      (.ok (decide (required ≤ arrived.length),
          .ofChunk (arrived.drop count)),
        reader.buffered (arrived.take count)) := by
  subst arrivedEq
  have fits := safe.fits
  unfold ensureEnoughData
  rw [Exec.get_bind_apply]
  by_cases enough : required ≤ reader.partialMessageBuffer.length
  · have same : count = reader.partialMessageBuffer.length := by omega
    subst same
    rw [if_neg (by simp only [partialMessageBufferLength]; omega),
      List.drop_left, List.take_left, buffered_self safe]
    simp only [Exec.pure_apply, List.length_append,
      Nat.le_add_right_of_le enough, decide_true]
  · have same : count = required := by omega
    subst same
    generalize appendEq : min (count - reader.partialMessageBuffer.length)
      chunk.length = numAppend
    have amount : min ((count : Int) - reader.partialMessageBufferLength)
        (Cursor.ofChunk chunk).length = numAppend := by
      simp only [Cursor.length_ofChunk, partialMessageBufferLength]
      omega
    have total : reader.partialMessageBufferLength + (numAppend : Int) =
        ((reader.partialMessageBuffer.length + numAppend : Nat) : Int) := rfl
    have content : (reader.partialMessageBuffer ++ chunk).take count =
        reader.partialMessageBuffer ++ chunk.take numAppend := by
      rw [List.take_append, List.take_of_length_le (by omega), ← appendEq]
      rcases Nat.le_total chunk.length
          (count - reader.partialMessageBuffer.length) with all | part
      · rw [Nat.min_eq_right all, List.take_of_length_le all, List.take_length]
      · rw [Nat.min_eq_left part]
    have rest : (reader.partialMessageBuffer ++ chunk).drop count =
        chunk.drop numAppend := by
      rw [List.drop_append, List.drop_of_length_le (by omega), ← appendEq]
      rcases Nat.le_total chunk.length
          (count - reader.partialMessageBuffer.length) with all | part
      · rw [Nat.min_eq_right all, List.drop_of_length_le all, List.drop_length]
        rfl
      · rw [Nat.min_eq_left part]
        rfl
    rw [if_pos (by simp only [partialMessageBufferLength]; omega)]
    simp only [amount, total]
    rw [Exec.bind_ok (reserve_apply _), Exec.bind_ok
      (copyToBuffer_ofChunk (by omega) (Nat.le_max_right _ _)),
      Exec.get_bind_apply, Cursor.advance_ofChunk (by omega), content, rest]
    simp only [Exec.pure_apply, partialMessageBufferLength, buffered, stored,
      List.length_append, List.length_take]
    congr 4
    · apply propext
      omega
    · omega

end Reader

end UlogCpp
