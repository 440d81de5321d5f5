import UlogCpp.ZzDataLog.Handles
import UlogCpp.ZzDataLog.Init
import UlogCpp.ZzDataLog.Journal

namespace UlogCpp

/-! The size of the payloads that `SimpleWriter` and `zz_data_log` write. -/

namespace SimpleWriter

variable {before after : SimpleWriter} {id : UInt16} {data : Bytes}

theorem perform_writeData_ok
    (returned : perform (.writeData id data) before = (.ok none, after)) :
    ∃ subscription, before.subscriptions[id.toNat]? = some subscription ∧
      subscription.messageSize.toNat ≤ data.length ∧
      (Message.data ⟨id, data.take subscription.messageSize.toNat⟩).serialize
        before.writer.output = (.ok (), after.writer.output) := by
  cases performed returned with
  | @writeData _ _ subscription header subscribed covered emits =>
      obtain ⟨output, serialized, rfl⟩ := emits
      exact ⟨subscription, subscribed, covered, serialized⟩

end SimpleWriter

namespace ZzDataLog

open SimpleWriter (Call PayloadAgrees subscribedNames)

variable {self after : ZzDataLog} {env : Env} {id : UInt16} {data : Bytes}

theorem emitData_ok
    (returned : Method.emitData id data self = (.ok (), after)) :
    ∃ writer final, self.writer = some writer ∧ after.writer = some final ∧
      (Message.data ⟨id, data⟩).serialize writer.output =
        (.ok (), final.output) := by
  cases has : self.writer with
  | none =>
      simp only [Method.emitData, has] at returned
      cases returned
  | some writer =>
      rw [emitData_apply has] at returned
      obtain ⟨outcome, rfl⟩ := Prod.mk.inj returned
      refine ⟨writer, _, rfl, rfl, Prod.ext ?_ rfl⟩
      cases emitted : (Writer.Handle.data ⟨id, data⟩ writer).1 with
      | error exception =>
          rw [emitted] at outcome
          cases outcome
      | ok value => exact emitted

/-! ## The file that data goes to -/

theorem subscribedNames_seriesEntries (number : Nat) (structs : List StructInfo) :
    subscribedNames (seriesEntries number structs) =
      structs.map StructInfo.messageName := by
  induction structs generalizing number with
  | nil => rfl
  | cons struct structs ih =>
      rw [List.map_cons, ← ih (number + 1)]
      rfl

theorem subscribedNames_initEntries (key keyValue : Bytes)
    (structs : List StructInfo) :
    subscribedNames (initEntries key keyValue structs) =
      structs.map StructInfo.messageName := by
  have formats : subscribedNames (structs.map formatEntry) = [] :=
    List.filterMap_eq_nil_iff.mpr fun entry mem => by
      obtain ⟨struct, _, rfl⟩ := List.mem_map.mp mem
      rfl
  have split : subscribedNames (initEntries key keyValue structs) =
      subscribedNames (structs.map formatEntry) ++
        subscribedNames (seriesEntries 0 structs) := List.filterMap_append
  rw [split, formats, subscribedNames_seriesEntries, List.nil_append]

theorem not_mem_seriesEntries {number : Nat} {structs : List StructInfo}
    {name : Bytes} {fields : List Field}
    {outcome : Except Exception (Option UInt16)} :
    (Call.writeMessageFormat name fields, outcome) ∉
      seriesEntries number structs := by
  induction structs generalizing number with
  | nil => exact List.not_mem_nil
  | cons struct structs ih =>
      rw [seriesEntries, List.mem_cons, not_or]
      refine ⟨fun same => ?_, ih⟩
      cases same

theorem mem_initEntries_format {key keyValue name : Bytes}
    {structs : List StructInfo} {fields : List Field} :
    (Call.writeMessageFormat name fields, .ok none) ∈
        initEntries key keyValue structs ↔
      { messageName := name, fields } ∈ structs := by
  simp only [initEntries, List.mem_cons, List.mem_append, List.mem_map,
    formatEntry, not_mem_seriesEntries, or_false, reduceCtorEq, Prod.mk.injEq,
    false_and, false_or]
  constructor
  · rintro ⟨struct, mem, same, _⟩
    cases same
    exact mem
  · exact fun mem => ⟨_, mem, rfl, trivial⟩

structure Subscribed (log : ZzDataLog) (name : Bytes) (fields : List Field)
    (id : UInt16) : Prop where
  format : (.writeMessageFormat name fields, .ok none) ∈ log.journal
  named : (subscribedNames log.journal)[id.toNat]? = some name

/-- Where the data starts a new file, `Init` writes the same format there and
numbers it as before. -/
def Renumbers (log : ZzDataLog) (name : Bytes) (fields : List Field)
    (id : UInt16) (data : Bytes) : Prop :=
  Rotates log data →
    { messageName := name, fields } ∈ log.initParams.allStructs ∧
      (log.initParams.allStructs[id.toNat]?).map StructInfo.messageName =
        some name

instance (log : ZzDataLog) (name : Bytes) (fields : List Field) (id : UInt16)
    (data : Bytes) : Decidable (Renumbers log name fields id data) :=
  inferInstanceAs (Decidable (_ → _))

theorem rotate_journal {reached : ZzDataLog}
    (opened : ∀ name, self.file = .opened name → self.writer ≠ none)
    (rotated : Method.rotate env self = (.ok (), reached)) :
    reached.journal = initEntries self.initParams.key self.initParams.keyValue
      self.initParams.allStructs := by
  by_cases can : CanRotate env self
  · obtain ⟨name, newFilename, writer, has, same⟩ := Method.rotate_can opened can
    rw [same] at rotated
    obtain ⟨core, rfl, _⟩ := initWith_ok rfl rotated
    rfl
  · obtain ⟨failure, _, failed, _⟩ := Method.rotate_cannot can
    rw [failed] at rotated
    cases rotated

/-- What the calls on the file of the data say of an id, in terms of the log
before. -/
theorem subscribed_makeRoom {reached : ZzDataLog} {name : Bytes}
    {fields : List Field}
    (opened : ∀ name, self.file = .opened name → self.writer ≠ none)
    (subscribed : Subscribed self name fields id)
    (made : Method.makeRoom env data self = (.ok (), reached)) :
    Subscribed reached name fields id ↔ Renumbers self name fields id data := by
  unfold Method.makeRoom at made
  split at made
  next rotates =>
    have journal := @rotate_journal (self.counted data) env reached opened made
    have same : Subscribed reached name fields id ↔
        { messageName := name, fields } ∈ self.initParams.allStructs ∧
          (self.initParams.allStructs[id.toNat]?).map StructInfo.messageName =
            some name := by
      rw [← mem_initEntries_format, ← List.getElem?_map,
        ← subscribedNames_initEntries]
      constructor
      · rintro ⟨format, named⟩
        rw [journal] at format named
        exact ⟨format, named⟩
      · rintro ⟨format, named⟩
        refine ⟨?_, ?_⟩
        · rw [journal]
          exact format
        · rw [journal]
          exact named
    exact same.trans ⟨fun kept _ => kept, fun kept => kept rotates⟩
  next stays =>
    cases made
    exact ⟨fun _ rotates => absurd rotates stays, fun _ =>
      ⟨subscribed.format, subscribed.named⟩⟩

theorem makeRoom_writer {reached : ZzDataLog} {start : Writer}
    (opened : ∀ name, self.file = .opened name → self.writer ≠ none)
    (made : Method.makeRoom env data self = (.ok (), reached))
    (has : reached.writer = some start) :
    ∃ writer, self.writer = some writer := by
  unfold Method.makeRoom at made
  split at made
  next =>
    by_cases can : CanRotate env (self.counted data)
    · obtain ⟨_, _, writer, had, _⟩ :=
        @Method.rotate_can (self.counted data) env opened can
      exact ⟨writer, had⟩
    · obtain ⟨failure, _, failed, _⟩ := Method.rotate_cannot can
      rw [failed] at made
      cases made
  next =>
    cases made
    exact ⟨start, has⟩

theorem writeData_ok
    (returned : Method.writeData env id data self = (.ok (), after)) :
    ∃ subscription reached start final, Accepts self id data subscription ∧
      Method.makeRoom env data self = (.ok (), reached) ∧
      reached.writer = some start ∧ after.writer = some final ∧
      (Message.data ⟨id, data.take subscription.messageSize.toNat⟩).serialize
        start.output = (.ok (), final.output) := by
  rcases Method.writeData_cases env id data self with ⟨reason, refused⟩ |
    ⟨subscription, accepts, same⟩
  · rw [refused] at returned
    cases returned
  · rw [same] at returned
    obtain ⟨_, reached, made, emitted⟩ := Exec.bind_eq_ok.mp returned
    obtain ⟨start, final, has, now, serialized⟩ := emitData_ok emitted
    exact ⟨subscription, reached, start, final, accepts, made, has, now,
      serialized⟩

/-- In the file that data goes to, the id stands for a format with these fields,
and the message of the format is there. -/
structure InFile (reached : ZzDataLog) (start : Writer) (name : Bytes)
    (fields : List Field) (id : UInt16) : Prop where
  subscribed : Subscribed reached name fields id
  emitted : (Message.messageFormat { name, fields }).emitted <:+: start.output

/-- The size of the payload is that of the fields of the subscription, and it is
written where there is room for it. -/
theorem writeData_written {name : Bytes} {fields : List Field}
    (journaled : Journaled (fun _ _ _ => True) self)
    (subscribed : Subscribed self name fields id)
    (returned : Method.writeData env id data self = (.ok (), after)) :
    ∃ reached start final, Method.makeRoom env data self = (.ok (), reached) ∧
      reached.writer = some start ∧ after.writer = some final ∧
      SimpleWriter.messageSize fields ≤ data.length ∧
      (Message.data ⟨id, data.take (SimpleWriter.messageSize fields)⟩).serialize
        start.output = (.ok (), final.output) ∧
      (InFile reached start name fields id ↔
        Renumbers self name fields id data) ∧
      ∃ output, SimpleWriter.Accepted name fields output := by
  obtain ⟨subscription, reached, start, final, accepts, made, has, last,
    written⟩ := writeData_ok returned
  obtain ⟨writer, had⟩ := makeRoom_writer journaled.opened made has
  have tabled := (journaled.current writer had).tabled
  have size := tabled.size subscribed.format subscribed.named accepts.subscribed
  have later : Recorded (fun _ _ _ => True) reached.journal
      (reached.core start) := by
    have kept := @Journaled.makeRoom _ self env journaled data
    rw [made] at kept
    exact kept.current start has
  have file := subscribed_makeRoom journaled.opened subscribed made
  rw [size] at written
  refine ⟨reached, start, final, made, has, last, ?_, written, ?_, _,
    (tabled.formats subscribed.format).1⟩
  · rw [← size]
    exact accepts.le_length
  · exact ⟨fun there => file.mp there.subscribed, fun renumbers =>
      ⟨file.mpr renumbers,
        (later.tabled.formats (file.mpr renumbers).format).1.emitted⟩⟩

/-- Data that has been written agrees with the format in its file exactly if the
size of the format is counted as it should, whatever calls have been made, and
the id keeps its meaning where a `zz_data_log` starts a new file for the data. -/
theorem payload_agrees {name : Bytes} {fields : List Field} {id : UInt16}
    {data : Bytes} :
    (∀ {timestampUs : UInt64} {calls : List Call} {after : SimpleWriter},
      let made := SimpleWriter.constructed timestampUs
      let trace := Exec.outcomes SimpleWriter.perform calls made
      let simple := Exec.final SimpleWriter.perform calls made
      (.writeMessageFormat name fields, .ok none) ∈ trace →
      (Message.messageFormat { name, fields }).body.length < 2 ^ 31 →
      (subscribedNames trace)[id.toNat]? = some name →
      SimpleWriter.perform (.writeData id data) simple = (.ok none, after) →
      PayloadAgrees name fields id simple.writer.output simple.writer.output
        after.writer.output) ∧
    ∀ {constructor : Constructor} {env : Env} {zzDataLogOn : Bool}
      {made : ZzDataLog} {requests : List (Env × Request)} {now : Env}
      {after : ZzDataLog},
      let log := Exec.final perform requests made
      Method.construct env constructor { zzDataLogOn } = (.ok (), made) →
      Subscribed log name fields id →
      (Message.messageFormat { name, fields }).body.length < 2 ^ 31 →
      Method.writeData now id data log = (.ok (), after) →
      ∃ reached start final, Method.makeRoom now data log = (.ok (), reached) ∧
        reached.writer = some start ∧ after.writer = some final ∧
        ∃ (msgSize : Nat) (payload : Bytes) (format : MessageFormat),
          final.output = start.output ++
            (leBytes 2 msgSize ++ 68 :: leBytes 2 id.toNat) ++ payload ∧
          MessageFormat.ofMessage
            (Message.messageFormat { name, fields }).emitted = .ok format ∧
          (InFile reached start name fields id ∧
              payload.length = SimpleWriter.loggedTotal format.fields ↔
            SimpleWriter.ExactSize fields ∧
              Renumbers log name fields id data) := by
  constructor
  · intro timestampUs calls after made trace simple accepted small named returned
    have recorded := @SimpleWriter.Recorded.calls (fun _ => True)
      (fun _ _ _ => True) (fun _ => trivial) timestampUs calls
    obtain ⟨subscription, subscribed, covered, written⟩ :=
      SimpleWriter.perform_writeData_ok returned
    exact recorded.payload accepted small named subscribed covered written
  · intro constructor env zzDataLogOn made requests now after log constructs
      subscribed small returned
    have journaled := @Journaled.final (fun _ _ _ => True) made env constructor
      zzDataLogOn (fun _ _ _ => trivial) constructs requests
    obtain ⟨reached, start, final, room, has, last, covered, written, inFile,
      _, accepted⟩ := writeData_written journaled subscribed returned
    obtain ⟨_, msgSize, payload, format, layout, decoded, size⟩ :=
      accepted.payload small rfl covered written
    exact ⟨reached, start, final, room, has, last, msgSize, payload, format,
      layout, decoded, and_comm.trans (and_congr size inFile)⟩

def emptyArray : List Field :=
  [{ type := ascii "uint64_t", name := ascii "timestamp" },
    { type := ascii "uint8_t", name := [97], arrayLength := 0 }]

def subscribing (fields : List Field) : List Call :=
  [.writeMessageFormat [109] fields, .headerComplete,
    .writeAddLoggedMessage [109] 0]

def started (fields : List Field) : SimpleWriter :=
  Exec.final SimpleWriter.perform (subscribing fields)
    (SimpleWriter.constructed 0)

theorem writeData_oversized :
    (Method.writeData fair 0 oversized (begun numberedFile [timeStruct])).1 =
      .ok () := by
  have ready : (begun numberedFile [timeStruct]).headerComplete = true ∧
      (begun numberedFile [timeStruct]).subscriptions[0]? = some ⟨8⟩ ∧
      (begun numberedFile [timeStruct]).currentFileSize = 0 := by
    decide +kernel
  obtain ⟨header, subscribed, empty⟩ := ready
  rw [Method.writeData_accepted (accepts_oversized header subscribed),
    if_pos (rotates_oversized empty)]
  have size : (SimpleWriter.Subscription.mk 8).messageSize.toNat = 8 := rfl
  rw [size, take_oversized]
  decide +kernel

theorem payload_agrees_timestamp :
    PayloadAgrees [109] timeStruct.fields 0
        (started timeStruct.fields).writer.output
        (started timeStruct.fields).writer.output
        (SimpleWriter.perform (.writeData 0 [1, 2, 3, 4, 5, 6, 7, 8])
          (started timeStruct.fields)).2.writer.output ∧
      ∃ reached start final,
        Method.makeRoom fair oversized (begun numberedFile [timeStruct]) =
          (.ok (), reached) ∧
        reached.writer = some start ∧
        (Method.writeData fair 0 oversized
          (begun numberedFile [timeStruct])).2.writer = some final ∧
        ∃ (msgSize : Nat) (payload : Bytes) (format : MessageFormat),
          final.output = start.output ++ (leBytes 2 msgSize ++ 68 ::
            leBytes 2 (0 : UInt16).toNat) ++ payload ∧
          MessageFormat.ofMessage (Message.messageFormat
            { name := [109], fields := timeStruct.fields }).emitted =
              .ok format ∧
          (InFile reached start [109] timeStruct.fields 0 ∧
              payload.length = SimpleWriter.loggedTotal format.fields ↔
            SimpleWriter.ExactSize timeStruct.fields ∧
              Renumbers (begun numberedFile [timeStruct]) [109]
                timeStruct.fields 0 oversized) :=
  ⟨@(@payload_agrees _ _ 0 [1, 2, 3, 4, 5, 6, 7, 8]).1 0
      (subscribing timeStruct.fields) _ (by decide +kernel) (by decide +kernel)
      (by decide +kernel) (Prod.ext (by decide +kernel) rfl),
    @(@payload_agrees [109] timeStruct.fields 0 oversized).2 numberedFile fair
      true (Method.construct fair numberedFile { zzDataLogOn := true }).2
      [(fair, .init [107] [118] [timeStruct])] fair
      (Method.writeData fair 0 oversized (begun numberedFile [timeStruct])).2
      (Prod.ext (by decide +kernel) rfl)
      ⟨by decide +kernel, by decide +kernel⟩ (by decide +kernel)
      (Exec.apply_of_fst writeData_oversized)⟩

theorem payload_disagrees :
    ¬ ∀ (timestampUs : UInt64) (calls : List Call) (after : SimpleWriter)
      (name : Bytes) (fields : List Field) (id : UInt16) (data : Bytes),
      let made := SimpleWriter.constructed timestampUs
      let trace := Exec.outcomes SimpleWriter.perform calls made
      let simple := Exec.final SimpleWriter.perform calls made
      (.writeMessageFormat name fields, .ok none) ∈ trace →
      (subscribedNames trace)[id.toNat]? = some name →
      SimpleWriter.perform (.writeData id data) simple = (.ok none, after) →
      ∃ (msgSize : Nat) (payload : Bytes) (format : MessageFormat),
        after.writer.output = simple.writer.output ++
          (leBytes 2 msgSize ++ 68 :: leBytes 2 id.toNat) ++ payload ∧
        MessageFormat.ofMessage
          (Message.messageFormat { name, fields }).emitted = .ok format ∧
        payload.length = SimpleWriter.loggedTotal format.fields := by
  intro always
  obtain ⟨msgSize, payload, format, layout, decoded, same⟩ := always 0
    (subscribing emptyArray)
    (SimpleWriter.perform (.writeData 0 [1, 2, 3, 4, 5, 6, 7, 8, 9])
      (started emptyArray)).2
    [109] emptyArray 0 [1, 2, 3, 4, 5, 6, 7, 8, 9] (by decide +kernel)
    (by decide +kernel) (Prod.ext (by decide +kernel) rfl)
  have told : MessageFormat.ofMessage
      (Message.messageFormat { name := [109], fields := emptyArray }).emitted =
      .ok { name := [109], fields := emptyArray } := by
    decide +kernel
  cases told.symm.trans decoded
  have lengths : (SimpleWriter.perform
      (.writeData 0 [1, 2, 3, 4, 5, 6, 7, 8, 9])
        (started emptyArray)).2.writer.output.length =
      ((started emptyArray).writer.output ++
        (leBytes 2 msgSize ++ 68 :: leBytes 2 (0 : UInt16).toNat) ++
          payload).length := congrArg List.length layout
  have grown : (SimpleWriter.perform
      (.writeData 0 [1, 2, 3, 4, 5, 6, 7, 8, 9])
        (started emptyArray)).2.writer.output.length =
      (started emptyArray).writer.output.length + 14 := by
    decide +kernel
  have logged : SimpleWriter.loggedTotal emptyArray = 8 := by decide +kernel
  replace same : payload.length = 8 := same.trans logged
  rw [grown, List.length_append, List.length_append, List.length_append,
    List.length_cons, length_leBytes, length_leBytes, same] at lengths
  exact absurd (Nat.add_left_cancel (lengths.trans (Nat.add_assoc _ _ _)))
    (by decide)

end ZzDataLog

end UlogCpp
