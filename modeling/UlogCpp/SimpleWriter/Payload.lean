import Mathlib.Algebra.Order.BigOperators.Group.List
import Mathlib.Algebra.Order.Ring.Nat
import UlogCpp.Data.Run
import UlogCpp.Messages.Acceptance
import UlogCpp.SimpleWriter.Attempt

namespace UlogCpp

namespace SimpleWriter

/-! ## The size of a payload, as a format in the log has it -/

/-- The size of a field that has been read from a format message. -/
def loggedSize (field : Field) : Nat :=
  (if field.arrayLength < 0 then 1 else field.arrayLength.toNatClampNeg) *
    (Field.kBasicTypes.lookup field.type).getD 0

def loggedTotal (fields : List Field) : Nat := (fields.map loggedSize).sum

/-- What the writer counts for an array of length zero. -/
def excess (field : Field) : Nat :=
  if field.arrayLength = 0 then
    (Field.kBasicTypes.lookup field.type).getD 0
  else 0

/-- The writer counts what the log says. -/
def ExactSize (fields : List Field) : Prop :=
  (∀ field ∈ fields, field.arrayLength ≠ 0) ∧
    (fields.map countedSize).sum < 2 ^ 31

instance (fields : List Field) : Decidable (ExactSize fields) :=
  inferInstanceAs (Decidable (_ ∧ _))

theorem countedSize_eq (field : Field) :
    countedSize field = loggedSize field.normal + excess field := by
  unfold countedSize loggedSize excess Field.normal
  by_cases zero : field.arrayLength = 0
  · rw [zero]
    simp
  · by_cases negative : field.arrayLength < 0
    · have notArray : ¬ 0 ≤ field.arrayLength.toInt := by
        have below := Int32.lt_iff_toInt_lt.mp negative
        simpa using below
      have scalar : field.arrayLength ≤ 0 := Int32.le_of_lt negative
      simp [zero, notArray, scalar]
    · have isArray : 0 ≤ field.arrayLength.toInt := by
        have above := Int32.le_iff_toInt_le.mp (Int32.not_lt.mp negative)
        simpa using above
      have positive : ¬ field.arrayLength ≤ 0 := fun scalar =>
        zero (Int32.le_antisymm scalar (Int32.not_lt.mp negative))
      simp only [zero, isArray, negative, positive, if_true, if_false,
        Nat.add_zero]

theorem sum_countedSize (fields : List Field) :
    (fields.map countedSize).sum =
      loggedTotal (fields.map Field.normal) + (fields.map excess).sum := by
  unfold loggedTotal
  induction fields with
  | nil => rfl
  | cons field fields ih =>
      simp only [List.map_cons, List.sum_cons]
      rw [ih, countedSize_eq]
      omega

theorem typeSize_bounds {field : Field} (basic : IsBasic field) :
    0 < (Field.kBasicTypes.lookup field.type).getD 0 ∧
      (Field.kBasicTypes.lookup field.type).getD 0 ≤ 8 := by
  obtain ⟨size, known⟩ := basic
  obtain ⟨before, after, split, _⟩ := List.lookup_eq_some_iff.mp known
  have entries : ∀ entry ∈ Field.kBasicTypes, 0 < entry.2 ∧ entry.2 ≤ 8 := by
    decide +kernel
  rw [known]
  refine entries (field.type, size) ?_
  rw [split]
  exact List.mem_append_right _ List.mem_cons_self

theorem sum_excess_le {fields : List Field}
    (basic : ∀ field ∈ fields, IsBasic field) :
    (fields.map excess).sum ≤ 8 * fields.length := by
  have each : ∀ size ∈ fields.map excess, size ≤ 8 := by
    intro size mem
    obtain ⟨field, among, rfl⟩ := List.mem_map.mp mem
    unfold excess
    split
    · exact (typeSize_bounds (basic field among)).2
    · exact Nat.zero_le 8
  have total := List.sum_le_card_nsmul _ 8 each
  rw [List.length_map] at total
  change _ ≤ fields.length * 8 at total
  omega

theorem sum_excess_eq_zero {fields : List Field}
    (basic : ∀ field ∈ fields, IsBasic field) :
    (fields.map excess).sum = 0 ↔
      ∀ field ∈ fields, field.arrayLength ≠ 0 := by
  rw [List.sum_eq_zero_iff]
  simp only [List.mem_map, forall_exists_index, and_imp,
    forall_apply_eq_imp_iff₂]
  refine forall₂_congr fun field mem => ?_
  have positive := (typeSize_bounds (basic field mem)).1
  unfold excess
  by_cases zero : field.arrayLength = 0
  · rw [if_pos zero]
    exact iff_of_false (by omega) (not_not_intro zero)
  · rw [if_neg zero]
    exact iff_of_true rfl zero

/-- What reaches the output is as long as the log says exactly if the size is
counted as it should be. -/
theorem narrowed_eq_iff {fields : List Field}
    (basic : ∀ field ∈ fields, IsBasic field)
    (few : fields.length < 2 ^ 16) :
    (intOfSize (messageSize fields)).toNatClampNeg =
        loggedTotal (fields.map Field.normal) ↔
      ExactSize fields := by
  have total := sum_countedSize fields
  have little := sum_excess_le basic
  unfold ExactSize
  rw [← sum_excess_eq_zero basic, ← Int32.toNat_toInt, intOfSize,
    Int32.toInt_ofNat', messageSize]
  simp only [Int.bmod, Int32.size]
  omega

/-! ## The tables of the writer and the calls that have filled them -/

/-- The names of the formats that have been subscribed to. Where the message of
a subscription has been too long, the subscription is there all the same. -/
def subscribedNames
    (trace : List (Call × Except Exception (Option UInt16))) : List Bytes :=
  trace.filterMap fun
    | (.writeAddLoggedMessage _ _, .error (.usage _)) => none
    | (.writeAddLoggedMessage name _, _) => some name
    | _ => none

/-- A step of a log: a call of a `SimpleWriter`, of those that are `made`, or
data that is handed to the writer without a check. -/
inductive LogStep (made : Call → Prop)
    (admits : SimpleWriter → UInt16 → Bytes → Prop) (before : SimpleWriter) :
    Call → Except Exception (Option UInt16) → SimpleWriter → Prop
  | attempted {call : Call} {outcome : Except Exception (Option UInt16)}
      {after : SimpleWriter} (given : made call)
      (attempted : Attempted before after call outcome) :
      LogStep made admits before call outcome after
  | data {id : UInt16} {payload : Bytes} (admitted : admits before id payload) :
      LogStep made admits before (.writeData id payload)
        ((Writer.Handle.data ⟨id, payload⟩ before.writer).1.map fun _ => none)
        { before with
          writer := (Writer.Handle.data ⟨id, payload⟩ before.writer).2 }

structure Accepted (name : Bytes) (fields : List Field) (output : Bytes) :
    Prop where
  named : matchesFormatName name = true
  fieldsNamed : ∀ field ∈ fields, 59 ∉ field.name
  basic : ∀ field ∈ fields, IsBasic field
  emits : ((Message.messageFormat { name, fields }).serialize []).1 = .ok ()
  emitted : (Message.messageFormat { name, fields }).emitted <:+: output

structure Tabled (trace : List (Call × Except Exception (Option UInt16)))
    (simple : SimpleWriter) : Prop where
  formats : ∀ {name fields},
    (.writeMessageFormat name fields, .ok none) ∈ trace →
    Accepted name fields simple.writer.output ∧
      ∃ format, simple.formats.lookup name = some format ∧
        format.messageSize.toNat = messageSize fields
  subscriptions : simple.subscriptions.map (fun subscription =>
      some subscription.messageSize) =
    (subscribedNames trace).map fun name =>
      (simple.formats.lookup name).map Format.messageSize

theorem Accepted.mono {name : Bytes} {fields : List Field}
    {output longer : Bytes} (accepted : Accepted name fields output)
    (grows : output <+: longer) : Accepted name fields longer :=
  { accepted with emitted := accepted.emitted.trans grows.isInfix }

theorem subscribedNames_concat
    (trace : List (Call × Except Exception (Option UInt16)))
    (entry : Call × Except Exception (Option UInt16)) :
    subscribedNames (trace ++ [entry]) =
      subscribedNames trace ++ subscribedNames [entry] :=
  List.filterMap_append

theorem Emits.output {message : Message} {middle after : SimpleWriter}
    (emits : Emits message middle after) :
    after.writer.output = middle.writer.output ++ message.emitted ∧
      (message.serialize []).1 = .ok () := by
  obtain ⟨output, serialized, rfl⟩ := emits
  rw [message.serialize_append] at serialized
  obtain ⟨outcome, same⟩ := Prod.mk.inj serialized
  exact ⟨same.symm, outcome⟩

namespace Tabled

variable {trace : List (Call × Except Exception (Option UInt16))}
  {before after : SimpleWriter} {call : Call}
  {outcome : Except Exception (Option UInt16)}

theorem constructed (timestampUs : UInt64) :
    Tabled [] (constructed timestampUs) :=
  ⟨nofun, rfl⟩

theorem plain (tabled : Tabled trace before)
    (formats : after.formats = before.formats)
    (subscriptions : after.subscriptions = before.subscriptions)
    (grows : before.writer.output <+: after.writer.output)
    (other : (∀ name fields,
        (call, outcome) ≠ (.writeMessageFormat name fields, .ok none)) ∧
      subscribedNames [(call, outcome)] = []) :
    Tabled (trace ++ [(call, outcome)]) after where
  formats mem := by
    rcases List.mem_append.mp mem with earlier | now
    · obtain ⟨accepted, found⟩ := tabled.formats earlier
      rw [formats]
      exact ⟨accepted.mono grows, found⟩
    · exact absurd (List.mem_singleton.mp now).symm (other.1 _ _)
  subscriptions := by
    rw [subscribedNames_concat, other.2, List.append_nil, formats, subscriptions]
    exact tabled.subscriptions

theorem known (tabled : Tabled trace before) {name : Bytes}
    (mem : name ∈ subscribedNames trace) : name ∈ before.formats := by
  have found : (before.formats.lookup name).map Format.messageSize ∈
      before.subscriptions.map fun subscription =>
        some subscription.messageSize := by
    rw [tabled.subscriptions]
    exact List.mem_map_of_mem mem
  obtain ⟨subscription, _, same⟩ := List.mem_map.mp found
  obtain ⟨format, here, _⟩ := Option.map_eq_some_iff.mp same.symm
  exact Finmap.mem_of_lookup_eq_some here

theorem format (tabled : Tabled trace before) {name : Bytes}
    {fields : List Field} {size : UInt32} (fresh : name ∉ before.formats)
    (formats : after.formats =
      before.formats.insert name { messageSize := size })
    (subscriptions : after.subscriptions = before.subscriptions)
    (grows : before.writer.output <+: after.writer.output)
    (accepts : outcome = .ok none →
      Accepted name fields after.writer.output ∧
        size.toNat = messageSize fields) :
    Tabled (trace ++ [(.writeMessageFormat name fields, outcome)]) after where
  formats {other otherFields} mem := by
    rcases List.mem_append.mp mem with earlier | now
    · obtain ⟨accepted, format, found, sized⟩ := tabled.formats earlier
      refine ⟨accepted.mono grows, format, ?_, sized⟩
      rw [formats, Map.lookup_insert_eq, if_neg, found]
      rintro rfl
      exact fresh (Finmap.mem_of_lookup_eq_some found)
    · cases List.mem_singleton.mp now
      obtain ⟨accepted, sized⟩ := accepts rfl
      refine ⟨accepted, ⟨size⟩, ?_, sized⟩
      rw [formats, Map.lookup_insert_eq, if_pos rfl]
  subscriptions := by
    have none : subscribedNames [(.writeMessageFormat name fields, outcome)] =
        [] := rfl
    rw [subscribedNames_concat, none, List.append_nil, subscriptions,
      tabled.subscriptions]
    apply List.map_congr_left
    intro other mem
    rw [formats, Map.lookup_insert_eq, if_neg]
    rintro rfl
    exact fresh (tabled.known mem)

theorem subscription (tabled : Tabled trace before) {name : Bytes}
    {multiId : UInt8} {format : Format}
    (known : before.formats.lookup name = some format)
    (formats : after.formats = before.formats)
    (subscriptions : after.subscriptions =
      before.subscriptions ++ [⟨format.messageSize⟩])
    (grows : before.writer.output <+: after.writer.output)
    (entered : subscribedNames [(.writeAddLoggedMessage name multiId, outcome)] =
      [name]) :
    Tabled (trace ++ [(.writeAddLoggedMessage name multiId, outcome)])
      after where
  formats mem := by
    rcases List.mem_append.mp mem with earlier | now
    · obtain ⟨accepted, found⟩ := tabled.formats earlier
      rw [formats]
      exact ⟨accepted.mono grows, found⟩
    · cases List.mem_singleton.mp now
  subscriptions := by
    rw [subscribedNames_concat, entered, formats, subscriptions,
      List.map_append, List.map_append, tabled.subscriptions,
      List.map_singleton, List.map_singleton, known]
    rfl

theorem emitted {message : Message} {middle : SimpleWriter}
    (emits : Emits message middle after)
    (same : middle.writer = before.writer) :
    before.writer.output <+: after.writer.output := by
  rw [emits.output.1, same]
  exact List.prefix_append _ _

theorem attempted (tabled : Tabled trace before)
    (attempted : Attempted before after call outcome) :
    Tabled (trace ++ [(call, outcome)]) after := by
  rcases outcome with exception | result
  · cases attempted with
    | checked same =>
        rw [same]
        apply tabled.plain rfl rfl (List.prefix_refl _)
        refine ⟨nofun, ?_⟩
        cases call <;> rfl
    | tooLong plain same =>
        rw [same]
        apply tabled.plain rfl rfl (List.prefix_refl _)
        refine ⟨nofun, ?_⟩
        cases call <;> first | rfl | cases plain
    | writeMessageFormat fresh long same =>
        rw [same]
        exact tabled.format fresh rfl rfl (List.prefix_refl _) nofun
    | writeAddLoggedMessage known long same =>
        rw [same]
        exact tabled.subscription known rfl rfl (List.prefix_refl _) rfl
  · cases attempted with
    | writeInfo header emits | writeParameter header emits
    | writeParameterChange header emits | writeTextMessage header emits
    | writeData header subscribed covered emits =>
        have grows := emitted emits rfl
        obtain ⟨output, _, rfl⟩ := emits
        exact tabled.plain rfl rfl grows ⟨nofun, rfl⟩
    | headerComplete same =>
        rw [same]
        exact tabled.plain rfl rfl (List.prefix_refl _) ⟨nofun, rfl⟩
    | @writeMessageFormat name fields size header fresh named fieldsNamed basic
        sized emits =>
        have grows := @emitted before _ _ _ emits rfl
        obtain ⟨output, written⟩ := emits.output
        obtain ⟨_, _, rfl⟩ := emits
        refine tabled.format fresh rfl rfl grows fun _ => ⟨?_, sized⟩
        refine ⟨named, fieldsNamed, basic, written, ?_⟩
        rw [output]
        exact (List.suffix_append _ _).isInfix
    | writeAddLoggedMessage header known emits =>
        have grows := @emitted before _ _ _ emits rfl
        obtain ⟨output, _, rfl⟩ := emits
        exact tabled.subscription known rfl rfl grows rfl

theorem step {made : Call → Prop}
    {admits : SimpleWriter → UInt16 → Bytes → Prop}
    (tabled : Tabled trace before)
    (step : LogStep made admits before call outcome after) :
    Tabled (trace ++ [(call, outcome)]) after := by
  cases step with
  | attempted given attempted => exact tabled.attempted attempted
  | @data id payload admitted =>
      refine tabled.plain rfl rfl ?_ ⟨nofun, rfl⟩
      change _ <+: ((Message.data ⟨id, payload⟩).serialize _).2
      rw [Message.serialize_append]
      exact List.prefix_append _ _

theorem path {made : Call → Prop}
    {admits : SimpleWriter → UInt16 → Bytes → Prop} {timestampUs : UInt64}
    (path : Exec.Path (LogStep made admits)
      (SimpleWriter.constructed timestampUs) trace after) :
    Tabled trace after :=
  path.invariant (constructed timestampUs) fun tabled next => tabled.step next

theorem size (tabled : Tabled trace before) {name : Bytes}
    {fields : List Field} {id : UInt16} {subscription : Subscription}
    (accepted : (.writeMessageFormat name fields, .ok none) ∈ trace)
    (named : (subscribedNames trace)[id.toNat]? = some name)
    (subscribed : before.subscriptions[id.toNat]? = some subscription) :
    subscription.messageSize.toNat = messageSize fields := by
  obtain ⟨_, format, found, sized⟩ := tabled.formats accepted
  have same := congrArg (fun list : List (Option UInt32) => list[id.toNat]?)
    tabled.subscriptions
  simp only [List.getElem?_map, subscribed, named, Option.map_some, found] at same
  rw [Option.some.inj (Option.some.inj same)]
  exact sized

end Tabled

/-! ## Payloads -/

theorem length_le_encodeFields (fields : List Field) :
    fields.length ≤ (MessageFormat.encodeFields fields).length := by
  induction fields with
  | nil => exact Nat.le_refl 0
  | cons field fields ih =>
      rw [MessageFormat.encodeFields_cons, List.length_append, List.length_cons,
        List.length_cons]
      omega

theorem body_messageFormat (format : MessageFormat) :
    (Message.messageFormat format).body = format.formatStr :=
  List.append_nil _

/-- An accepted format can be read back, with negative array lengths as -1. -/
theorem Accepted.decoded {name : Bytes} {fields : List Field} {output : Bytes}
    (accepted : Accepted name fields output)
    (small : (Message.messageFormat { name, fields }).body.length < 2 ^ 31) :
    MessageFormat.ofMessage (Message.messageFormat { name, fields }).emitted =
        .ok { name, fields := fields.map Field.normal } ∧
      fields.length < 2 ^ 16 := by
  obtain ⟨named, fieldsNamed, basic, emits, _⟩ := accepted
  obtain ⟨emitted, sized, _⟩ :=
    Message.serialize_ok small (Prod.ext emits rfl)
  have noColon := (@not_mem_of_all _ _ 58 named (by decide)).2
  have bytes : (Message.messageFormat { name, fields }).emitted =
      frameBytes (Message.messageFormat { name, fields }).msgType.code
        (MessageFormat.formatStr { name, fields }) := by
    rw [← body_messageFormat]
    exact emitted
  rw [body_messageFormat] at sized
  constructor
  · rw [bytes]
    apply Message.ofMessage_formatStr
    · refine ⟨noColon, fun field mem => ?_⟩
      obtain ⟨noSpace, noBracket, _⟩ := (basic field mem).plain
      exact ⟨noSpace, noBracket, fieldsNamed field mem⟩
    · exact fun field mem => (basic field mem).plain.2.2
    · exact sized
  · apply (length_le_encodeFields fields).trans_lt
    refine Nat.lt_of_le_of_lt ?_ sized
    rw [MessageFormat.formatStr, List.length_append, List.length_cons]
    exact Nat.le_add_left_of_le (Nat.le_succ _)

/-- The bytes of a data message have been written. The payload has the size that
the message of the format in the log tells exactly if the size is counted as it
should. -/
def PayloadAgrees (name : Bytes) (fields : List Field) (id : UInt16)
    (log before after : Bytes) : Prop :=
  (Message.messageFormat { name, fields }).emitted <:+: log ∧
    ∃ (msgSize : Nat) (payload : Bytes) (format : MessageFormat),
      after = before ++ (leBytes 2 msgSize ++ 68 :: leBytes 2 id.toNat) ++
        payload ∧
      MessageFormat.ofMessage (Message.messageFormat { name, fields }).emitted =
        .ok format ∧
      (payload.length = loggedTotal format.fields ↔ ExactSize fields)

theorem data_written {before after bytes : Bytes} {id : UInt16}
    (written : (Message.data ⟨id, bytes⟩).serialize before = (.ok (), after)) :
    (intOfSize (2 + bytes.length)).toInt ≤ 65535 ∧
      after = before ++ (leBytes 2 (UInt16.ofNat (2 + bytes.length)).toNat ++
        68 :: leBytes 2 id.toNat) ++ arriving bytes := by
  rw [Message.serialize_append] at written
  obtain ⟨emits, rfl⟩ := Prod.mk.inj written
  obtain ⟨passed, _, layout⟩ := emitMessage_ok (by rw [length_leBytes]; decide)
    (Prod.ext emits rfl)
  have length : (leBytes 2 id.toNat).length + [bytes].flatten.length =
      2 + bytes.length := by
    rw [length_leBytes, List.flatten_singleton]
  rw [length] at passed layout
  refine ⟨passed, ?_⟩
  rw [List.append_assoc]
  refine congrArg (before ++ ·) (layout.trans ?_)
  rw [List.flatMap_singleton, List.append_assoc]
  rfl

theorem Accepted.payload {name : Bytes} {fields : List Field}
    {log before after data : Bytes} {id : UInt16} {size : Nat}
    (accepted : Accepted name fields log)
    (small : (Message.messageFormat { name, fields }).body.length < 2 ^ 31)
    (sized : size = messageSize fields) (covered : size ≤ data.length)
    (written : (Message.data ⟨id, data.take size⟩).serialize before =
      (.ok (), after)) :
    PayloadAgrees name fields id log before after := by
  obtain ⟨decoded, few⟩ := accepted.decoded small
  obtain ⟨_, layout⟩ := data_written written
  refine ⟨accepted.emitted, _, _, _, layout, decoded, ?_⟩
  rw [length_arriving, List.length_take_of_le covered, sized]
  exact narrowed_eq_iff accepted.basic few

/-! ## Logs that have been recorded -/

def Recorded (made : Call → Prop)
    (admits : SimpleWriter → UInt16 → Bytes → Prop)
    (trace : List (Call × Except Exception (Option UInt16)))
    (simple : SimpleWriter) : Prop :=
  ∃ timestampUs,
    Exec.Path (LogStep made admits) (constructed timestampUs) trace simple

namespace Recorded

variable {made : Call → Prop}
  {admits : SimpleWriter → UInt16 → Bytes → Prop}
  {trace : List (Call × Except Exception (Option UInt16))}
  {before after : SimpleWriter} {call : Call}
  {outcome : Except Exception (Option UInt16)}

theorem constructed (timestampUs : UInt64) :
    Recorded made admits [] (constructed timestampUs) :=
  ⟨timestampUs, .start⟩

theorem step (recorded : Recorded made admits trace before)
    (next : LogStep made admits before call outcome after) :
    Recorded made admits (trace ++ [(call, outcome)]) after :=
  recorded.imp fun _ path => path.step next

theorem tabled (recorded : Recorded made admits trace before) :
    Tabled trace before := by
  obtain ⟨_, path⟩ := recorded
  exact Tabled.path path

theorem synced (recorded : Recorded made admits trace before) : before.Synced := by
  obtain ⟨_, path⟩ := recorded
  refine @Exec.Path.invariant _ _ _ _ _ (fun _ simple => simple.Synced) rfl ?_ _ _
    path
  intro trace before after call outcome synced next
  cases next with
  | attempted given attempted => exact attempted.synced synced
  | @data id payload admitted => exact synced

theorem calls (all : ∀ call, made call) (timestampUs : UInt64)
    (calls : List Call) :
    Recorded made admits
      (Exec.outcomes perform calls (SimpleWriter.constructed timestampUs))
      (Exec.final perform calls (SimpleWriter.constructed timestampUs)) := by
  refine @Exec.Path.invariant _ _ _ _ _ (fun trace simple =>
    Recorded made admits trace simple) (constructed timestampUs) ?_ _ _
    (Exec.path_outcomes perform calls _)
  intro trace before after call outcome recorded performed
  have attempted := @attempted before call recorded.synced
  rw [performed] at attempted
  exact recorded.step (.attempted (all call) attempted)

theorem payload (recorded : Recorded made admits trace before) {name : Bytes}
    {fields : List Field} {id : UInt16} {subscription : Subscription}
    {start final data : Bytes}
    (accepted : (.writeMessageFormat name fields, .ok none) ∈ trace)
    (small : (Message.messageFormat { name, fields }).body.length < 2 ^ 31)
    (named : (subscribedNames trace)[id.toNat]? = some name)
    (subscribed : before.subscriptions[id.toNat]? = some subscription)
    (covered : subscription.messageSize.toNat ≤ data.length)
    (written : (Message.data
      ⟨id, data.take subscription.messageSize.toNat⟩).serialize start =
        (.ok (), final)) :
    PayloadAgrees name fields id before.writer.output start final :=
  (recorded.tabled.formats accepted).1.payload small
    (recorded.tabled.size accepted named subscribed) covered written

end Recorded

end SimpleWriter

end UlogCpp
