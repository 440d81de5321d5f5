import UlogCpp.Messages.Frame
import UlogCpp.Messages.Model

namespace UlogCpp

/-! The constructors that parse a message stay inside it: whatever stops them
is an exception. The exception is a parsing exception, except where the number
conversion in a field text raises one of its own. -/

def Exception.IsParsing : Exception → Prop
  | .parsing _ => True
  | _ => False

def Raises (allowed : Exception → Prop) (result : Except Stop α) : Prop :=
  ∀ stop, result = .error stop →
    ∃ exception, stop = .raised exception ∧ allowed exception

namespace Raises

variable {allowed : Exception → Prop} {result : Except Stop α}
  {next : α → Except Stop β}

theorem ok (value : α) : Raises allowed (.ok value : Except Stop α) := by
  intro stop stopped
  cases stopped

theorem raised {exception : Exception} (holds : allowed exception) :
    Raises allowed (.error (.raised exception) : Except Stop α) := by
  intro stop stopped
  cases stopped
  exact ⟨exception, rfl, holds⟩

theorem bind (first : Raises allowed result)
    (rest : ∀ value, result = .ok value → Raises allowed (next value)) :
    Raises allowed (result >>= next) := by
  cases result with
  | ok value => exact rest value rfl
  | error stop =>
      intro same stopped
      cases stopped
      exact first stop rfl

theorem read {value : α} (returned : result = .ok value)
    (rest : Raises allowed (next value)) : Raises allowed (result >>= next) := by
  rw [returned]
  exact rest

theorem mono {weaker : Exception → Prop} (raises : Raises allowed result)
    (weaken : ∀ exception, allowed exception → weaker exception) :
    Raises weaker result := by
  intro stop stopped
  obtain ⟨exception, same, holds⟩ := raises stop stopped
  exact ⟨exception, same, weaken exception holds⟩

theorem parsing {reason : String}
    (holds : allowed (.parsing (ascii reason))) :
    Raises allowed (throwParsing reason : Except Stop α) :=
  raised holds

theorem ite {condition : Prop} [Decidable condition]
    {whenTrue whenFalse : Except Stop α}
    (positive : condition → Raises allowed whenTrue)
    (negative : ¬ condition → Raises allowed whenFalse) :
    Raises allowed (if condition then whenTrue else whenFalse) := by
  split
  · exact positive (by assumption)
  · exact negative (by assumption)

theorem throwIf {condition : Prop} [Decidable condition] {reason : String}
    (holds : allowed (.parsing (ascii reason))) :
    Raises allowed (UlogCpp.throwIf condition reason) := by
  unfold UlogCpp.throwIf
  exact ite (fun _ => parsing holds) fun _ => ok ()

end Raises

def Escapes (result : Except Stop α) : Prop :=
  ∃ exception, result = .error (.raised exception) ∧ ¬ exception.IsParsing

namespace Escapes

variable {result : Except Stop α} {next : α → Except Stop β}

theorem bind (escapes : Escapes result) : Escapes (result >>= next) := by
  obtain ⟨exception, rfl, foreign⟩ := escapes
  exact ⟨exception, rfl, foreign⟩

theorem read {value : α} (returned : result = .ok value)
    (rest : Escapes (next value)) : Escapes (result >>= next) := by
  rw [returned]
  exact rest

end Escapes

theorem throwIf_ok {condition : Prop} [Decidable condition] {reason : String}
    (passed : throwIf condition reason = .ok ()) : ¬ condition := by
  unfold throwIf at passed
  split at passed
  · cases passed
  · assumption

theorem checkMsgSize_ok {size : UInt16} {minRequired : Nat}
    (passed : checkMsgSize size minRequired = .ok ()) :
    minRequired ≤ size.toNat :=
  Nat.le_of_not_lt (throwIf_ok passed)

/-! ## Field texts -/

def RejectsLength (keyValue : Bytes) : Prop :=
  ∃ keyArray name type afterBracket,
    splitFirst 32 keyValue = some (keyArray, name) ∧
    splitFirst 91 keyArray = some (type, afterBracket) ∧
    keyArray.getLast? = some 93 ∧ ∀ value, stoi afterBracket ≠ .ok value

theorem stoi_raises (text : Bytes) :
    Raises (fun exception => ¬ exception.IsParsing) (stoi text) := by
  simp only [stoi]
  exact .ite (fun _ => .raised nofun) fun _ =>
    .ite (fun _ => .ok _) fun _ => .raised nofun

theorem Field.ofKey_raises (keyValue : Bytes) :
    Raises (fun exception => exception.IsParsing ∨ RejectsLength keyValue)
      (Field.ofKey keyValue) := by
  unfold Field.ofKey
  split
  next => exact .parsing (.inl trivial)
  next keyArray name atSpace =>
    split
    next => exact .ok _
    next type afterBracket atBracket =>
      split
      next missing =>
        have nothing : keyArray = [] := List.getLast?_eq_none_iff.mp missing
        rw [nothing] at atBracket
        cases atBracket
      next last lastEq =>
        split
        next closed =>
          rw [closed] at lastEq
          cases converted : stoi afterBracket with
          | ok value => exact .ok _
          | error stop =>
              have rejected : RejectsLength keyValue :=
                ⟨keyArray, name, type, afterBracket, atSpace, atBracket, lastEq,
                  fun value => by rw [converted]; exact nofun⟩
              have raises := stoi_raises afterBracket
              rw [converted] at raises
              exact .bind (raises.mono fun _ _ => .inr rejected) fun _ => nofun
        next => exact .parsing (.inl trivial)

theorem Field.ofKey_escapes {keyValue : Bytes}
    (rejected : RejectsLength keyValue) : Escapes (Field.ofKey keyValue) := by
  obtain ⟨keyArray, name, type, afterBracket, atSpace, atBracket, closed,
    rejects⟩ := rejected
  unfold Field.ofKey
  simp only [atSpace, atBracket, closed, if_true]
  cases converted : stoi afterBracket with
  | ok value => exact absurd converted (rejects value)
  | error stop =>
      obtain ⟨exception, rfl, foreign⟩ := stoi_raises _ _ converted
      exact ⟨exception, rfl, foreign⟩

/-! ## Keys and values -/

def keyText (message : Bytes) (fixed : Nat) : Bytes :=
  (message.drop (3 + fixed)).take (message.getD (2 + fixed) 0).toNat

/-- The key is handed to `Field`, and its array length is rejected. -/
def RejectsKey (message : Bytes) (fixed : Nat) : Prop :=
  (message.getD (2 + fixed) 0).toNat + fixed ≤ (msgSize message).toNat ∧
    fixed < (msgSize message).toNat ∧ RejectsLength (keyText message fixed)

theorem readKeyLength {message : Bytes} (whole : IsMessage message)
    {fixed : Nat} (sized : fixed < (msgSize message).toNat) :
    readUInt8 message (2 + fixed) = .ok (message.getD (2 + fixed) 0) := by
  have length : message.length = (msgSize message).toNat + 3 := by
    rw [whole, ← toNat_msgSize]
  have read := @readUInt8_ok message (2 + fixed) (by omega)
  rw [List.getD_eq_getElem?_getD, List.getElem?_eq_getElem (by omega)]
  exact read

theorem readKeyValue_fits {message : Bytes} (whole : IsMessage message)
    {fixed : Nat} (sized : fixed < (msgSize message).toNat)
    (fits : (message.getD (2 + fixed) 0).toNat + fixed ≤
      (msgSize message).toNat) :
    ∃ value, readKeyValue message (msgSize message) fixed =
      (do
        let field ← Field.ofKey (keyText message fixed)
        return (field, value)) := by
  have length : message.length = (msgSize message).toNat + 3 := by
    rw [whole, ← toNat_msgSize]
  have keyRead : readBytes message (3 + fixed)
      (message.getD (2 + fixed) 0).toNat = .ok (keyText message fixed) :=
    @readBytes_ok message (3 + fixed) (message.getD (2 + fixed) 0).toNat
      (by omega)
  have valueRead : readBytes message
      (3 + fixed + (message.getD (2 + fixed) 0).toNat)
      ((msgSize message).toNat - (message.getD (2 + fixed) 0).toNat - fixed) =
      .ok ((message.drop (3 + fixed + (message.getD (2 + fixed) 0).toNat)).take
        ((msgSize message).toNat - (message.getD (2 + fixed) 0).toNat -
          fixed)) := by
    have read := @readBytes_ok message
      (3 + fixed + (message.getD (2 + fixed) 0).toNat)
      ((msgSize message).toNat - (message.getD (2 + fixed) 0).toNat - fixed)
      (by omega)
    rwa [Int.ofNat_sub (by omega), Int.ofNat_sub (by omega), Int.natCast_add,
      Int.natCast_add] at read
  refine ⟨(message.drop (3 + fixed + (message.getD (2 + fixed) 0).toNat)).take
    ((msgSize message).toNat - (message.getD (2 + fixed) 0).toNat - fixed), ?_⟩
  unfold readKeyValue
  rw [readKeyLength whole sized, ok_bind, throwIf_pass (by omega), ok_bind,
    keyRead, ok_bind]
  cases Field.ofKey (keyText message fixed) with
  | error stop => rfl
  | ok field => rw [ok_bind, ok_bind, valueRead, ok_bind]

theorem readKeyValue_raises {message : Bytes} (whole : IsMessage message)
    {fixed : Nat} (sized : fixed < (msgSize message).toNat) :
    Raises (fun exception => exception.IsParsing ∨ RejectsKey message fixed)
      (readKeyValue message (msgSize message) fixed) := by
  by_cases fits : (message.getD (2 + fixed) 0).toNat + fixed ≤
      (msgSize message).toNat
  · obtain ⟨value, same⟩ := readKeyValue_fits whole sized fits
    rw [same]
    refine .bind ((Field.ofKey_raises _).mono ?_) fun _ _ => .ok _
    exact fun _ => Or.imp_right fun rejected => ⟨fits, sized, rejected⟩
  · unfold readKeyValue
    rw [readKeyLength whole sized, ok_bind, throwIf, if_pos (by omega)]
    exact .bind (.parsing (.inl trivial)) nofun

theorem readKeyValue_escapes {message : Bytes} (whole : IsMessage message)
    {fixed : Nat} (rejected : RejectsKey message fixed) :
    Escapes (readKeyValue message (msgSize message) fixed) := by
  obtain ⟨fits, sized, rejects⟩ := rejected
  obtain ⟨value, same⟩ := readKeyValue_fits whole sized fits
  rw [same]
  exact (Field.ofKey_escapes rejects).bind

namespace MessageInfo

theorem ofMessage_raises {message : Bytes} (whole : IsMessage message)
    (isMulti : Bool) :
    Raises (fun exception => exception.IsParsing ∨
        RejectsKey message (if isMulti then 2 else 1))
      (ofMessage message isMulti) := by
  have long := whole.header_le
  have length : message.length = (msgSize message).toNat + 3 := by
    rw [whole, ← toNat_msgSize]
  unfold ofMessage
  refine .read (readUInt16_msgSize (by omega)) ?_
  cases isMulti with
  | true =>
      refine .bind (.throwIf (.inl trivial)) fun _ passed => ?_
      have sized := checkMsgSize_ok passed
      have keyed := readKeyValue_raises whole (show 2 < _ by omega)
      exact .read (@readUInt8_ok message 3 (by omega))
        (.bind keyed fun _ _ => .ok _)
  | false =>
      refine .bind (.throwIf (.inl trivial)) fun _ passed => ?_
      have sized := checkMsgSize_ok passed
      have keyed := readKeyValue_raises whole (show 1 < _ by omega)
      exact .bind keyed fun _ _ => .ok _

theorem ofMessage_escapes {message : Bytes} (whole : IsMessage message)
    {isMulti : Bool}
    (rejected : RejectsKey message (if isMulti then 2 else 1)) :
    Escapes (ofMessage message isMulti) := by
  have long := whole.header_le
  have length : message.length = (msgSize message).toNat + 3 := by
    rw [whole, ← toNat_msgSize]
  have keyed := readKeyValue_escapes whole rejected
  have sized := rejected.2.1
  unfold ofMessage
  refine .read (readUInt16_msgSize (by omega)) ?_
  cases isMulti with
  | true =>
      refine .read (checkMsgSize_pass (Nat.succ_le_of_lt sized)) ?_
      exact .read (@readUInt8_ok message 3 (by omega)) keyed.bind
  | false =>
      exact .read (checkMsgSize_pass (Nat.succ_le_of_lt sized)) keyed.bind

end MessageInfo

theorem ParameterDefault.ofMessage_raises {message : Bytes}
    (whole : IsMessage message) :
    Raises (fun exception => exception.IsParsing ∨ RejectsKey message 2)
      (ParameterDefault.ofMessage message) := by
  have long := whole.header_le
  have length : message.length = (msgSize message).toNat + 3 := by
    rw [whole, ← toNat_msgSize]
  unfold ParameterDefault.ofMessage
  refine .read (readUInt16_msgSize (by omega))
    (.bind (.throwIf (.inl trivial)) fun _ passed => ?_)
  have sized := checkMsgSize_ok passed
  exact .read (@readUInt8_ok message 3 (by omega))
    (.bind (readKeyValue_raises whole (by omega)) fun _ _ => .ok _)

theorem ParameterDefault.ofMessage_escapes {message : Bytes}
    (whole : IsMessage message) (rejected : RejectsKey message 2) :
    Escapes (ParameterDefault.ofMessage message) := by
  have long := whole.header_le
  have length : message.length = (msgSize message).toNat + 3 := by
    rw [whole, ← toNat_msgSize]
  have sized := rejected.2.1
  unfold ParameterDefault.ofMessage
  refine .read (readUInt16_msgSize (by omega))
    (.read (checkMsgSize_pass (Nat.succ_le_of_lt sized)) ?_)
  exact .read (@readUInt8_ok message 3 (by omega))
    (readKeyValue_escapes whole rejected).bind

/-! ## Formats -/

inductive RejectsPiece : Bytes → Prop
  | here {text piece rest : Bytes}
      (split : splitFirst 59 text = some (piece, rest))
      (rejected : RejectsLength piece) : RejectsPiece text
  | later {text piece rest : Bytes} {field : Field}
      (split : splitFirst 59 text = some (piece, rest))
      (parsed : Field.ofKey piece = .ok field)
      (rejected : RejectsPiece rest) : RejectsPiece text

def RejectsFormat (message : Bytes) : Prop :=
  ∃ name rest, splitFirst 58 (message.drop 3) = some (name, rest) ∧
    RejectsPiece rest

namespace MessageFormat

theorem readFields_raises {rounds : Nat} {text : Bytes}
    (enough : text.length ≤ rounds) :
    Raises (fun exception => exception.IsParsing ∨ RejectsPiece text)
      (readFields rounds text) := by
  induction rounds generalizing text with
  | zero =>
      have nothing : text = [] := List.length_eq_zero_iff.mp (by omega)
      rw [nothing]
      exact .ok _
  | succ rounds ih =>
      cases text with
      | nil => exact .ok _
      | cons byte text =>
          unfold readFields
          split
          next => exact .parsing (.inl trivial)
          next piece rest split =>
            have shorter := splitFirst_length_lt split
            refine .bind ((Field.ofKey_raises piece).mono ?_)
              fun field parsed => .bind ((ih (by omega)).mono ?_) fun _ _ => .ok _
            · intro exception
              exact Or.imp_right fun rejected => .here split rejected
            · intro exception
              exact Or.imp_right fun rejected => .later split parsed rejected

theorem readFields_escapes {rounds : Nat} {text : Bytes}
    (enough : text.length ≤ rounds) (rejected : RejectsPiece text) :
    Escapes (readFields rounds text) := by
  induction rejected generalizing rounds with
  | @here text piece rest split rejected =>
      obtain ⟨byte, text, rfl⟩ :=
        List.exists_cons_of_ne_nil (splitFirst_ne_nil split)
      obtain ⟨rounds, rfl⟩ : ∃ less, rounds = less + 1 :=
        ⟨rounds - 1, by simp only [List.length_cons] at enough; omega⟩
      unfold readFields
      rw [split]
      exact (Field.ofKey_escapes rejected).bind
  | @later text piece rest field split parsed _ ih =>
      obtain ⟨byte, text, rfl⟩ :=
        List.exists_cons_of_ne_nil (splitFirst_ne_nil split)
      obtain ⟨rounds, rfl⟩ : ∃ less, rounds = less + 1 :=
        ⟨rounds - 1, by simp only [List.length_cons] at enough; omega⟩
      have shorter := splitFirst_length_lt split
      unfold readFields
      rw [split]
      exact .read parsed (ih (by omega)).bind

theorem textRead {message : Bytes} (whole : IsMessage message) :
    readBytes message 3 (msgSize message).toNat = .ok (message.drop 3) := by
  have length : message.length = (msgSize message).toNat + 3 := by
    rw [whole, ← toNat_msgSize]
  have read := @readBytes_ok message 3 (msgSize message).toNat (by omega)
  rw [List.take_of_length_le (by rw [List.length_drop]; omega)] at read
  exact read

theorem ofMessage_raises {message : Bytes} (whole : IsMessage message) :
    Raises (fun exception => exception.IsParsing ∨ RejectsFormat message)
      (ofMessage message) := by
  have long := whole.header_le
  unfold ofMessage
  refine .read (readUInt16_msgSize (by omega)) (.read (textRead whole) ?_)
  split
  next => exact .parsing (.inl trivial)
  next name rest atColon =>
    refine .bind ((readFields_raises (Nat.le_refl _)).mono ?_) fun _ _ => .ok _
    intro exception
    exact Or.imp_right fun rejected => ⟨name, rest, atColon, rejected⟩

theorem ofMessage_escapes {message : Bytes} (whole : IsMessage message)
    (rejected : RejectsFormat message) : Escapes (ofMessage message) := by
  obtain ⟨name, rest, atColon, piece⟩ := rejected
  have long := whole.header_le
  unfold ofMessage
  refine .read (readUInt16_msgSize (by omega)) (.read (textRead whole) ?_)
  simp only [atColon]
  exact (readFields_escapes (Nat.le_refl _) piece).bind

end MessageFormat

/-! ## The other messages -/

section

variable {message : Bytes}

theorem AddLoggedMessage.ofMessage_raises (whole : IsMessage message) :
    Raises Exception.IsParsing (AddLoggedMessage.ofMessage message) := by
  have long := whole.header_le
  have length : message.length = (msgSize message).toNat + 3 := by
    rw [whole, ← toNat_msgSize]
  unfold AddLoggedMessage.ofMessage
  refine .read (readUInt16_msgSize (by omega))
    (.bind (.throwIf trivial) fun _ passed => ?_)
  have sized := checkMsgSize_ok passed
  have nameRead := @readBytes_ok message 6 ((msgSize message).toNat - 3)
    (by omega)
  rw [Int.ofNat_sub (by omega)] at nameRead
  exact .read (@readUInt8_ok message 3 (by omega))
    (.read (@readUInt16_ok message 4 (by omega)) (.read nameRead (.ok _)))

theorem Logging.ofMessage_raises (whole : IsMessage message)
    (isTagged : Bool) :
    Raises Exception.IsParsing (Logging.ofMessage message isTagged) := by
  have long := whole.header_le
  have length : message.length = (msgSize message).toNat + 3 := by
    rw [whole, ← toNat_msgSize]
  unfold Logging.ofMessage
  refine .read (readUInt16_msgSize (by omega)) ?_
  cases isTagged with
  | true =>
      refine .bind (.throwIf trivial) fun _ passed => ?_
      have sized := checkMsgSize_ok passed
      have textRead := @readBytes_ok message 14 ((msgSize message).toNat - 11)
        (by omega)
      rw [Int.ofNat_sub (by omega)] at textRead
      exact .read (@readUInt8_ok message 3 (by omega))
        (.read (@readUInt16_ok message 4 (by omega))
          (.read (@readUInt64_ok message 6 (by omega))
            (.read textRead (.ok _))))
  | false =>
      refine .bind (.throwIf trivial) fun _ passed => ?_
      have sized := checkMsgSize_ok passed
      have textRead := @readBytes_ok message 12 ((msgSize message).toNat - 9)
        (by omega)
      rw [Int.ofNat_sub (by omega)] at textRead
      exact .read (@readUInt8_ok message 3 (by omega))
        (.read (@readUInt64_ok message 4 (by omega)) (.read textRead (.ok _)))

theorem Data.ofMessage_raises (whole : IsMessage message) :
    Raises Exception.IsParsing (Data.ofMessage message) := by
  have long := whole.header_le
  have length : message.length = (msgSize message).toNat + 3 := by
    rw [whole, ← toNat_msgSize]
  unfold Data.ofMessage
  refine .read (readUInt16_msgSize (by omega))
    (.bind (.throwIf trivial) fun _ passed => ?_)
  have sized := checkMsgSize_ok passed
  have dataRead := @readBytes_ok message 5 ((msgSize message).toNat - 2)
    (by omega)
  rw [Int.ofNat_sub (by omega)] at dataRead
  exact .read (@readUInt16_ok message 3 (by omega)) (.read dataRead (.ok _))

theorem Dropout.ofMessage_raises (whole : IsMessage message) :
    Raises Exception.IsParsing (Dropout.ofMessage message) := by
  have long := whole.header_le
  have length : message.length = (msgSize message).toNat + 3 := by
    rw [whole, ← toNat_msgSize]
  unfold Dropout.ofMessage
  refine .read (readUInt16_msgSize (by omega))
    (.bind (.throwIf trivial) fun _ passed => ?_)
  have sized := checkMsgSize_ok passed
  exact .read (@readUInt16_ok message 3 (by omega)) (.ok _)

theorem Sync.ofMessage_raises (whole : IsMessage message) :
    Raises Exception.IsParsing (Sync.ofMessage message) := by
  have long := whole.header_le
  have length : message.length = (msgSize message).toNat + 3 := by
    rw [whole, ← toNat_msgSize]
  unfold Sync.ofMessage
  refine .read (readUInt16_msgSize (by omega))
    (.bind (.throwIf trivial) fun _ passed => ?_)
  have sized := checkMsgSize_ok passed
  exact .read (@readBytes_ok message 3 8 (by omega))
    (.bind (.throwIf trivial) fun _ _ => .ok _)

end

end UlogCpp
