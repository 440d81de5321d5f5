import UlogCpp.Reader.Log

namespace UlogCpp

/-! Logs whose messages stand in any order. A reader passes over those that do
not stand in the section that it is in. -/

namespace Message

/-- The messages that the reader does not pass over. -/
def kept : State → List Message → List Message
  | _, [] => []
  | state, message :: messages =>
      if message.standsIn state then
        message :: kept (message.nextSection state) messages
      else kept state messages

section Kept

variable {state : State} {message : Message} {messages : List Message}

theorem kept_stands (stands : message.standsIn state = true) :
    kept state (message :: messages) =
      message :: kept (message.nextSection state) messages :=
  if_pos stands

theorem kept_passed (passed : message.standsIn state = false) :
    kept state (message :: messages) = kept state messages :=
  if_neg (Bool.eq_false_iff.mp passed)

theorem ordered_kept (state : State) (messages : List Message) :
    Ordered state (kept state messages) := by
  induction messages generalizing state with
  | nil => trivial
  | cons message messages ih =>
      cases stands : message.standsIn state with
      | true =>
          rw [kept_stands stands]
          exact ⟨stands, ih _⟩
      | false =>
          rw [kept_passed stands]
          exact ih state

theorem kept_sublist (state : State) (messages : List Message) :
    (kept state messages).Sublist messages := by
  induction messages generalizing state with
  | nil => exact List.Sublist.refl _
  | cons message messages ih =>
      cases stands : message.standsIn state with
      | true =>
          rw [kept_stands stands]
          exact (ih _).cons_cons message
      | false =>
          rw [kept_passed stands]
          exact (ih state).cons message

/-- Nothing is passed over exactly if all messages stand where they may. -/
theorem kept_eq_self : kept state messages = messages ↔
    Ordered state messages := by
  constructor
  · intro same
    rw [← same]
    exact ordered_kept state messages
  · intro ordered
    induction messages generalizing state with
    | nil => rfl
    | cons message messages ih =>
        rw [kept_stands ordered.1, ih ordered.2]

theorem kept_kept (state : State) (messages : List Message) :
    kept state (kept state messages) = kept state messages :=
  kept_eq_self.mpr (ordered_kept state messages)

end Kept

end Message

namespace Delivery

variable {σ : Type} {handler : DataHandlerInterface σ} {delivery : Delivery σ}

theorem decodeHeader_passed {wire : WireMessage}
    (passed : wire.message.standsIn .readHeader = false) :
    decodeHeader wire.toBytes = .ok none := by
  rw [decodeHeader_eq (header_le_wire wire), msgType_wire]
  cases same : wire.message with
  | data | dropout | sync => rfl
  | messageInfo | messageFormat | parameterDefault | addLoggedMessage
  | logging =>
      rw [same] at passed
      cases passed

theorem decodeData_passed {wire : WireMessage}
    (passed : wire.message.standsIn .readData = false) :
    decodeData wire.toBytes = .ok none := by
  rw [decodeData_eq (header_le_wire wire), msgType_wire]
  cases same : wire.message with
  | messageFormat => rfl
  | messageInfo | parameterDefault | addLoggedMessage | logging | data
  | dropout | sync =>
      rw [same] at passed
      cases passed

/-- A message that does not stand in the section changes nothing. -/
theorem deliver_passed {wire : WireMessage}
    (passed : wire.message.standsIn delivery.state = false) :
    deliver handler wire.toBytes delivery = (.ok (), delivery) := by
  cases state : delivery.state with
  | readHeader =>
      rw [state] at passed
      rw [(deliver_ordinary state (decodeHeader_passed passed) nofun).1]
      rfl
  | readData =>
      rw [state] at passed
      rw [deliver_readData state, decodeData_passed passed]
      rfl
  | readMagic | readFlagBits | invalidData =>
      exact deliver_elsewhere (by rw [state]; nofun) (by rw [state]; nofun)

end Delivery

namespace WireMessage

variable {σ : Type} {handler : DataHandlerInterface σ}

theorem delivers_kept {wires : List WireMessage} {delivery : Delivery σ}
    {final : σ} {state : State} (here : delivery.state = state)
    (ran : (Message.calls state
      (Message.kept state (wires.map message))).forM handler.call
        delivery.handler = (.ok (), final)) :
    Delivers handler delivery wires
      (Message.calls state (Message.kept state (wires.map message))) final := by
  induction wires generalizing delivery state with
  | nil =>
      cases ran
      exact ⟨delivery, rfl, rfl, (List.append_nil _).symm⟩
  | cons wire wires ih =>
      rw [List.map_cons] at ran ⊢
      cases stands : wire.message.standsIn state with
      | true =>
          rw [Message.kept_stands stands] at ran ⊢
          obtain ⟨_, first, rest⟩ := Exec.forM_append_eq_ok.mp ran
          exact .cons (Delivery.deliver_wire here stands first) rfl
            (ih rfl rest)
      | false =>
          rw [Message.kept_passed stands] at ran ⊢
          have passed : wire.message.standsIn delivery.state = false := by
            rw [here]
            exact stands
          exact @Delivers.cons _ handler _ _ _ _ [] _ _
            (Delivery.deliver_passed passed) (List.append_nil _).symm
            (ih here ran)

theorem unambiguous (prologue : Prologue) (wires : List WireMessage) :
    Reader.Unambiguous prologue (wires.map frame) := by
  intro _ frame first
  cases wires with
  | nil => cases first
  | cons wire wires =>
      cases first
      have type := wire.frame.msgType_toBytes
      have tagged := Delivery.msgType_wire wire
      change UlogCpp.msgType wire.toBytes = wire.frame.msgType at type
      intro flags
      rw [type, flags] at tagged
      have typed := wire.typed
      cases same : wire.message with
      | messageInfo info msgType =>
          rw [same] at tagged typed
          simp only [Message.msgType] at tagged
          rcases typed with multi | rfl | rfl
          · rw [multi] at tagged
            cases tagged
          · split at tagged <;> cases tagged
          · split at tagged <;> cases tagged
      | logging logged =>
          rw [same] at tagged
          simp only [Message.msgType] at tagged
          split at tagged <;> cases tagged
      | messageFormat | parameterDefault | addLoggedMessage | data | dropout
      | sync =>
          rw [same] at tagged
          cases tagged

end WireMessage

namespace Reader

variable {σ : Type} {handler : DataHandlerInterface σ}

theorem Reachable.readChunks {state : σ} {reader reached : Reader σ}
    {chunks : List Bytes} (before : Reachable handler state reader)
    (returned : readChunks handler chunks reader = (.ok (), reached)) :
    Reachable handler state reached := by
  induction chunks generalizing reader with
  | nil =>
      cases returned
      exact before
  | cons chunk chunks ih =>
      rw [readChunks_cons] at returned
      obtain ⟨_, middle, read, rest⟩ := Exec.bind_eq_ok.mp returned
      have next := before.readChunk (Cursor.ofChunk_valid chunk)
      rw [read] at next
      exact ih next rest

/-- A log is read as the messages of it that stand where they may, whether it
has flag bits or not. -/
theorem readChunks_kept {prologue : Prologue} {wires : List WireMessage}
    {first : Bytes} {chunks : List Bytes} {state final : σ}
    (layout : (first :: chunks).flatten =
      prologue.toBytes ++ wires.flatMap WireMessage.toBytes)
    (sized : 59 ≤ first.length)
    (ran : (prologue.calls ++ Message.calls .readHeader
      (Message.kept .readHeader (wires.map WireMessage.message))).forM
        handler.call state = (.ok (), final)) :
    ∃ reached,
      readChunks handler (first :: chunks) (init state) = (.ok (), reached) ∧
      reached.delivery.handler = final ∧
      reached.delivery.calls =
        prologue.calls ++ Message.calls .readHeader
          (Message.kept .readHeader (wires.map WireMessage.message)) := by
  obtain ⟨middle, start, rest⟩ := Exec.forM_append_eq_ok.mp ran
  have opens := @Prologue.deliver_calls _ handler _ (init state).delivery _
    start
  obtain ⟨delivered, delivers, handlerEq, callsEq⟩ :=
    @WireMessage.delivers_kept _ handler wires
      { state := .readHeader, handler := middle, calls := [] ++ prologue.calls }
      _ _ rfl rest
  obtain ⟨reached, _, reads, _, progressed⟩ :=
    @readChunks_log _ handler prologue (wires.map WireMessage.frame) first []
      chunks state _ _ sized (WireMessage.unambiguous prologue wires)
      (by
        rw [List.append_nil, WireMessage.stream_frames]
        exact layout)
      opens delivers
  cases delivers.symm.trans progressed.complete
  exact ⟨reached, reads, handlerEq, callsEq⟩

/-- Without flag bits, a format after the first subscription is passed over, and
so is a dropout before it. -/
theorem readChunks_kept_bare :
    let wires : List WireMessage := [
      ⟨.dropout ⟨1⟩, trivial, trivial, by decide, by decide⟩,
      ⟨.addLoggedMessage ⟨0, 0, 97 :: .replicate 38 97⟩, trivial, nofun,
        by decide, by decide⟩,
      ⟨.messageFormat ⟨[97], []⟩, trivial,
        ⟨by decide, List.forall_mem_nil _⟩, by decide, by decide⟩]
    ∃ reached,
      readChunks DataHandlerInterface.base
          [(Prologue.bare 7).toBytes ++ wires.flatMap WireMessage.toBytes]
          (init ()) = (.ok (), reached) ∧
        reached.delivery.handler = () ∧
        reached.delivery.calls =
          (Prologue.bare 7).calls ++ Message.calls .readHeader
            (Message.kept .readHeader (wires.map WireMessage.message)) := by
  intro wires
  exact readChunks_kept (List.append_nil _) (by decide +kernel) rfl

end Reader

end UlogCpp
