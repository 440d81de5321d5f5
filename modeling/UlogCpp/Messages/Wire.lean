import UlogCpp.Handler
import UlogCpp.Messages.RoundTrip

namespace UlogCpp

namespace Message

/-- An info that is not a multi info is written as an info or a parameter. -/
def Typed : Message → Prop
  | messageInfo info type =>
      info.isMulti = true ∨ type = .info ∨ type = .parameter
  | _ => True

def isDefinition : Message → Bool
  | messageInfo _ _ | messageFormat _ | parameterDefault _ => true
  | _ => false

def endsHeader : Message → Bool
  | addLoggedMessage _ | logging _ => true
  | _ => false

def isData : Message → Bool
  | messageFormat _ => false
  | _ => true

def callback : Message → Callback
  | messageInfo info type =>
      if info.isMulti = false ∧ type = .parameter then .parameter info
      else .messageInfo info
  | messageFormat format => .messageFormat format
  | parameterDefault parameter => .parameterDefault parameter
  | addLoggedMessage message => .addLoggedMessage message
  | logging logged => .logging logged
  | data sample => .data sample
  | dropout gap => .dropout gap
  | sync mark => .sync mark

theorem isData_of_endsHeader {message : Message}
    (ends : message.endsHeader = true) : message.isData = true := by
  cases message <;> first | rfl | cases ends

theorem endsHeader_of_isDefinition {message : Message}
    (defines : message.isDefinition = true) : message.endsHeader = false := by
  cases message <;> first | rfl | cases defines

theorem body_ne_nil {message : Message} : message.body ≠ [] := by
  cases message with
  | messageInfo info type =>
      simp only [body, fixed]
      cases info.isMulti <;> exact List.cons_ne_nil _ _
  | messageFormat format =>
      simp [body, fixed, pieces, MessageFormat.formatStr]
  | logging logged =>
      simp only [body, fixed]
      cases logged.hasTag <;> exact List.cons_ne_nil _ _
  | parameterDefault | addLoggedMessage | data | dropout | sync =>
      exact List.cons_ne_nil _ _

end Message

/-- A message that goes onto the wire as it is: its bytes are a frame, and its
constructor makes the same object of them. -/
structure WireMessage where
  message : Message
  typed : message.Typed
  encodable : message.Encodable
  sized : message.body.length < 2 ^ 16
  keyed : message.keyLength < 2 ^ 8

namespace WireMessage

variable (wire : WireMessage)

def frame : Frame where
  msgType := wire.message.msgType.code
  payload := wire.message.body
  typed := ULogMessageType.code_ne_zero _
  nonempty := Message.body_ne_nil
  bounded := wire.sized

def toBytes : Bytes := wire.message.toBytes

theorem serialize (output : Bytes) :
    wire.message.serialize output = (.ok (), output ++ wire.toBytes) :=
  Message.serialize_fits output wire.sized wire.keyed

theorem reconstruct :
    wire.message.reconstruct wire.toBytes = .ok wire.message :=
  Message.reconstruct_toBytes wire.encodable wire.sized wire.keyed

theorem stream_frames (wires : List WireMessage) :
    Frame.stream (wires.map frame) = wires.flatMap toBytes := by
  induction wires with
  | nil => rfl
  | cons wire wires ih =>
      rw [List.map_cons, Frame.stream_cons, List.flatMap_cons, ih]
      rfl

end WireMessage

end UlogCpp
