import UlogCpp.Messages.Value
import UlogCpp.SimpleWriter.Fidelity

namespace UlogCpp

/-! Which messages a run can write, and how long its samples are. -/

/-- A message of a `SimpleWriter`: the value of an info or a parameter has the
size of its type, and there are no defaults, dropouts and syncs. -/
def Message.Plain : Message → Prop
  | messageInfo info _ =>
      info.isMulti = false ∧ ∃ value, info.typedValue = .ok value
  | parameterDefault _ | dropout _ | sync _ => False
  | messageFormat _ | addLoggedMessage _ | logging _ | data _ => True

namespace SimpleWriter

theorem typedValue_messageInfo {key : Bytes} {value : InfoValue}
    (small : ∀ text, value = .string text → text.length < 2 ^ 31) :
    ∃ typed, (value.messageInfo key).typedValue = .ok typed := by
  cases value with
  | int32 value => exact ⟨_, MessageInfo.typedValue_ofInt32 key value⟩
  | float bits => exact ⟨_, MessageInfo.typedValue_ofFloat key bits⟩
  | string text =>
      have length := toInt_intOfSize (small text rfl)
      have isArray : intOfSize text.length ≠ -1 := by
        intro same
        rw [same] at length
        have minusOne : (-1 : Int32).toInt = -1 := rfl
        omega
      simp only [InfoValue.messageInfo, MessageInfo.typedValue, Value.ofField,
        MessageInfo.ofString, isArray, false_and, if_false]
      split
      · exact ⟨_, rfl⟩
      · exact ⟨_, rfl⟩

theorem message_plain {self : SimpleWriter} {call : Call} {message : Message}
    (sound : Sound self call) (made : call.message self = some message) :
    message.Plain := by
  have small := sound.2.2 message made
  have info {key : Bytes} {value : InfoValue} {type : ULogMessageType}
      (same : Message.messageInfo (value.messageInfo key) type = message) :
      message.Plain := by
    rw [← same] at small ⊢
    refine ⟨?_, typedValue_messageInfo fun text is => ?_⟩
    · cases value <;> rfl
    · rw [is] at small
      simp only [InfoValue.messageInfo, MessageInfo.ofString, Message.body,
        Message.pieces, List.length_append, List.flatten_cons] at small
      omega
  cases call with
  | writeInfo | writeParameter | writeParameterChange =>
      exact info (Option.some.inj made)
  | headerComplete => cases made
  | writeMessageFormat | writeAddLoggedMessage | writeTextMessage =>
      cases made
      trivial
  | writeData id data =>
      obtain ⟨_, _, rfl⟩ := Option.map_eq_some_iff.mp made
      trivial

structure Sampled (written : Written) : Prop where
  stamped : ∀ name format, written.formats.lookup name = some format →
    format.fields.head? = some timestampField
  covered : ∀ sample ∈ written.samples, ∃ added,
    written.subscriptions.lookup sample.1 = some added ∧
      written.sizeOf added.messageName ≤ sample.2.length

namespace Sampled

variable {written : Written} {self reached : SimpleWriter}

theorem writeFormat_stamped {name : Bytes} {fields : List Field}
    {result : Option UInt16}
    (returned : perform (.writeMessageFormat name fields) self =
      (.ok result, reached)) :
    fields.head? = some timestampField := by
  obtain ⟨_, _, ran, _⟩ := Exec.bind_eq_ok.mp returned
  obtain ⟨_, rest⟩ := headerOpen_bind ran
  obtain ⟨stamped, _⟩ := throwUsageIf_bind rest
  exact not_not.mp stamped

theorem call {call : Call} {result : Option UInt16}
    (sampled : Sampled written) (registered : Registered written self)
    (returned : perform call self = (.ok result, reached)) :
    Sampled (written.add (call, result)) := by
  have done := performed returned
  cases done with
  | writeInfo | writeParameter | headerComplete | writeParameterChange
  | writeTextMessage => exact ⟨sampled.stamped, sampled.covered⟩
  | @writeMessageFormat name fields size header fresh named =>
      refine ⟨fun other format found => ?_, fun sample mem => ?_⟩
      · have found : (written.formats ++ [(name, MessageFormat.mk name
            fields)]).lookup other = some format := found
        rw [Map.lookup_concat] at found
        rcases Option.or_eq_some_iff.mp found with here | ⟨_, new⟩
        · exact sampled.stamped other format here
        · split at new
          · cases new
            exact writeFormat_stamped returned
          · cases new
      · obtain ⟨added, found, covered⟩ := sampled.covered sample mem
        obtain ⟨before, after, split, _⟩ := List.lookup_eq_some_iff.mp found
        have known := registered.known (sample.1, added) (by
          rw [split]
          exact List.mem_append_right _ List.mem_cons_self)
        exact ⟨added, found, (Written.sizeOf_addFormat known).trans_le covered⟩
  | @writeAddLoggedMessage name multiId format header known =>
      refine ⟨sampled.stamped, fun sample mem => ?_⟩
      obtain ⟨added, found, covered⟩ := sampled.covered sample mem
      refine ⟨added, ?_, covered⟩
      have grown : (written.subscriptions ++ [(UInt16.ofNat
          self.subscriptions.length, AddLoggedMessage.mk multiId
            (UInt16.ofNat self.subscriptions.length) name)]).lookup sample.1 =
          some added := by
        rw [Map.lookup_concat, found]
        rfl
      exact grown
  | @writeData id data subscription header subscribed covered =>
      refine ⟨sampled.stamped, fun sample mem => ?_⟩
      rcases List.mem_append.mp mem with earlier | here
      · exact sampled.covered sample earlier
      · obtain ⟨added, found, size⟩ := registered.subscribed subscribed
        rw [List.mem_singleton.mp here]
        exact ⟨added, found, size.symm.trans_le covered⟩

end Sampled

theorem run_plain {timestampUs : UInt64} {trace : List (Call × Option UInt16)}
    {final : SimpleWriter}
    (run : Exec.Run perform Sound (constructed timestampUs) trace final) :
    ∃ messages, Mirrors timestampUs (.ofTrace trace) messages final ∧
      (∀ message ∈ messages, message.Plain) ∧ Sampled (.ofTrace trace) := by
  refine @Exec.Run.invariant _ _ _ _ _ _ _ (fun trace final =>
    ∃ messages, Mirrors timestampUs (.ofTrace trace) messages final ∧
      (∀ message ∈ messages, message.Plain) ∧ Sampled (.ofTrace trace))
    ⟨[], Mirrors.constructed timestampUs, nofun, nofun, nofun⟩ ?_ _ _ run
  rintro trace before after call result ⟨messages, mirrors, plain, sampled⟩ sound
    returned
  rw [Written.ofTrace_concat]
  refine ⟨_, mirrors.call sound (performed returned), fun message mem => ?_,
    sampled.call mirrors.registered returned⟩
  rcases List.mem_append.mp mem with earlier | new
  · exact plain message earlier
  · exact message_plain sound (Option.mem_toList.mp new)

end SimpleWriter

end UlogCpp
