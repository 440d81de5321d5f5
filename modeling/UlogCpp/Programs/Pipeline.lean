import UlogCpp.Programs.Info
import UlogCpp.Programs.Timestamps
import UlogCpp.SimpleWriter.Samples

namespace UlogCpp

/-! The programs, on a file that a `SimpleWriter` has written. -/

def Callback.Plain : Callback → Prop
  | messageInfo info | parameter info => ∃ value, info.typedValue = .ok value
  | parameterDefault _ | dropout _ => False
  | _ => True

namespace Message

theorem Plain.callback {message : Message} (plain : message.Plain) :
    message.callback.Plain := by
  cases message with
  | messageInfo info type =>
      simp only [Message.callback]
      split
      · exact plain.2
      · exact plain.2
  | parameterDefault | dropout | sync => exact plain.elim
  | messageFormat | addLoggedMessage | logging | data => trivial

theorem mem_calls {state : State} {messages : List Message}
    {callback : Callback} (mem : callback ∈ calls state messages) :
    callback = .headerComplete ∨
      ∃ message ∈ messages, callback = message.callback := by
  induction messages generalizing state with
  | nil => cases mem
  | cons message messages ih =>
      rcases List.mem_append.mp mem with here | later
      · have handed : callback = .headerComplete ∨
            callback = message.callback := by
          unfold handOver at here
          grind
        exact handed.imp id fun same => ⟨message, List.mem_cons_self, same⟩
      · rcases ih later with same | ⟨other, among, same⟩
        · exact .inl same
        · exact .inr ⟨other, List.mem_cons_of_mem _ among, same⟩

end Message

namespace Programs

open SimpleWriter (Call Written Sampled perform Sound constructed)

variable {timestampUs : UInt64} {trace : List (Call × Option UInt16)}
  {final : SimpleWriter}

theorem pieces_cons {content : Bytes} (some : content ≠ []) :
    ∃ chunks, pieces content = content.take kBufferSize :: chunks := by
  cases content with
  | nil => exact absurd rfl some
  | cons byte content => exact ⟨_, rfl⟩

structure Recovered (written : Written) (dataContainer : DataContainer) :
    Prop where
  holds : DataContainer.Holds written dataContainer
  dropouts : dataContainer.dropouts = []
  showable : UlogInfo.Showable dataContainer
  numbered : ∀ {id : UInt16} {subscription : Subscription},
    dataContainer.subscriptions.lookup id = some subscription →
      subscription.addLoggedMessage.msgId = id
  formatted : ∀ added ∈ written.subscriptions,
    (written.formats.lookup added.2.messageName).isSome = true
  sampled : Sampled written

theorem plain_calls {prologue : Prologue} {fileHeader : FileHeader}
    {messages : List Message} (opens : prologue.calls = [.fileHeader fileHeader])
    (plain : ∀ message ∈ messages, message.Plain) :
    ∀ callback ∈ prologue.calls ++ Message.calls .readHeader messages,
      callback.Plain := by
  intro callback mem
  rcases List.mem_append.mp mem with first | later
  · rw [opens] at first
    rw [List.mem_singleton.mp first]
    trivial
  · rcases Message.mem_calls later with rfl | ⟨message, among, rfl⟩
    · trivial
    · exact (plain message among).callback

theorem dropouts_of_plain {calls : List Callback} {container : DataContainer}
    (recalls : DataContainer.Recalls calls container)
    (plain : ∀ callback ∈ calls, callback.Plain) :
    container.dropouts = [] := by
  rw [recalls.dropouts]
  refine List.filterMap_eq_nil_iff.mpr fun callback mem => ?_
  have fits := plain callback mem
  cases callback with
  | dropout => exact fits.elim
  | _ => rfl

theorem showable_of_plain {calls : List Callback} {container : DataContainer}
    (recalls : DataContainer.Recalls calls container)
    (plain : ∀ callback ∈ calls, callback.Plain) :
    UlogInfo.Showable container where
  dropouts := by
    rw [dropouts_of_plain recalls plain]
    decide
  infos key info found := by
    rw [recalls.messageInfo] at found
    obtain ⟨callback, mem, single⟩ :=
      List.mem_filterMap.mp (List.mem_of_find?_eq_some found)
    have fits := plain callback mem
    cases callback with
    | messageInfo other =>
        simp only [Callback.single?] at single
        split at single
        · cases single
        · cases single
          exact fits
    | _ => cases single
  defaults key parameter found := by
    rw [recalls.defaultParameters] at found
    obtain ⟨callback, mem, same⟩ :=
      List.mem_filterMap.mp (List.mem_of_find?_eq_some found)
    have fits := plain callback mem
    cases callback with
    | parameterDefault => exact fits.elim
    | _ => cases same
  initials key parameter found := by
    rw [recalls.initialParameters] at found
    obtain ⟨callback, mem, same⟩ :=
      List.mem_filterMap.mp (List.mem_of_find?_eq_some found)
    have among : callback ∈ calls := by
      rw [← Callback.upToHeader_append_afterHeader calls]
      exact List.mem_append_left _ mem
    have fits := plain callback among
    cases callback with
    | parameter => cases same; exact fits
    | _ => cases same

theorem readFile_written
    (run : Exec.Run perform Sound (constructed timestampUs) trace final) :
    ∃ reader, readFile final.writer.output = (.ok (), reader) ∧
      reader.delivery.state ≠ .invalidData ∧
      Recovered (.ofTrace trace) reader.delivery.handler := by
  obtain ⟨messages, mirrors, plain, sampled⟩ := SimpleWriter.run_plain run
  obtain ⟨container, ⟨wires, same, output, ordered, called⟩, holds⟩ :=
    mirrors.arrives
  have copyable := Writer.ofTimestamp_copyable timestampUs
  have long : 59 ≤ final.writer.output.length := by
    rw [output, List.length_append]
    exact Nat.le_add_right _ _
  obtain ⟨chunks, pieces⟩ := pieces_cons (List.ne_nil_of_length_pos
    (Nat.lt_of_lt_of_le (by decide) long))
  have layout := flatten_pieces final.writer.output
  rw [pieces] at layout
  have sized : 59 ≤ (final.writer.output.take kBufferSize).length := by
    rw [List.length_take]
    exact Nat.le_min.mpr ⟨by decide, long⟩
  rw [← same] at ordered called
  obtain ⟨reader, reads, handlerEq, callsEq⟩ :=
    Reader.readChunks_messages rfl ordered (layout.trans output) sized called
  have read : readFile final.writer.output = (.ok (), reader) := by
    rw [readFile, pieces]
    exact reads
  have reachable := readFile_reachable read
  rw [← handlerEq] at holds
  have recalls := DataContainer.container_recalls reachable
  have plainCalls : ∀ callback ∈ reader.delivery.calls, callback.Plain := by
    rw [callsEq, same]
    exact plain_calls copyable.calls plain
  refine ⟨reader, read, fun invalid => ?_, holds,
    dropouts_of_plain recalls plainCalls, showable_of_plain recalls plainCalls,
    recalls_numbered recalls, mirrors.registered.known, sampled⟩
  have fatal := (DataContainer.container_errors reachable).1.mpr invalid
  rw [holds.hadFatalError] at fatal
  cases fatal

section Main

variable {report : DataContainer → Program Int} {program path : Bytes}
  {arguments : List Bytes} {files : Bytes → Option Bytes}

/-- On a log of a `SimpleWriter` a program goes straight to its report. -/
theorem main_recovered
    (run : Exec.Run perform Sound (constructed timestampUs) trace final)
    (opens : files path = some final.writer.output) :
    ∃ dataContainer, Recovered (.ofTrace trace) dataContainer ∧
      main report program (path :: arguments) files [] =
        report dataContainer [] := by
  obtain ⟨reader, read, valid, recovered⟩ := readFile_written run
  refine ⟨reader.delivery.handler, recovered, ?_⟩
  rw [main_report opens read valid, errorsText,
    if_neg (not_not.mpr recovered.holds.parsingErrors)]
  rfl

end Main

end Programs

namespace UlogInfo

open Programs (Choices Recovered lookups_complete)
open SimpleWriter (Call Written perform Sound constructed)

variable {timestampUs : UInt64} {trace : List (Call × Option UInt16)}
  {final : SimpleWriter} {files : Bytes → Option Bytes}

/-- `ulog_info` reports what a `SimpleWriter` has written: no error and no
dropout, and in the table each subscription with the samples that have been
written for it. -/
theorem main_written (choices : Choices) (program path : Bytes)
    (arguments : List Bytes)
    (run : Exec.Run perform Sound (constructed timestampUs) trace final)
    (opens : files path = some final.writer.output) :
    ∃ (dataContainer : DataContainer) (table : List Subscription),
      Recovered (.ofTrace trace) dataContainer ∧
      Programs.main (report choices) program (path :: arguments) files [] =
        (.ok 0, leadText dataContainer ++ (tableHeading ++
          (table.flatMap subscriptionLine ++ tailText dataContainer))) ∧
      (∀ subscription, subscription ∈ table ↔
        (Written.ofTrace trace).subscription
          subscription.addLoggedMessage.msgId = some subscription) ∧
      table.Nodup ∧
      table.Pairwise fun first second =>
        ¬ Precedes (rowKey second) (rowKey first) := by
  obtain ⟨dataContainer, recovered, ran⟩ :=
    @Programs.main_recovered _ _ _ (report choices) program path arguments files
      run opens
  obtain ⟨rows, sorted⟩ := rows_table choices dataContainer.subscriptions
  obtain ⟨complete, once⟩ := lookups_complete rows recovered.numbered
  refine ⟨dataContainer, _, recovered, ?_, fun subscription => ?_, once, sorted⟩
  · rw [ran, report_prints choices recovered.showable, List.nil_append]
  · rw [complete, recovered.holds.subscriptions]

theorem main_written_two :
    let trace : List (Call × Option UInt16) :=
      [(.writeInfo [115] (.string [104, 105]), none),
        (.writeMessageFormat [109] [SimpleWriter.timestampField], none),
        (.headerComplete, none), (.writeAddLoggedMessage [109] 1, some 0),
        (.writeAddLoggedMessage [109] 0, some 1),
        (.writeData 0 [1, 2, 3, 4, 5, 6, 7, 8], none)]
    let content := (Exec.replay perform (constructed 0) trace).writer.output
    ∃ (dataContainer : DataContainer) (table : List Subscription),
      Recovered (.ofTrace trace) dataContainer ∧
      Programs.main (report .ascending) (ascii "ulog_info") [ascii "a.ulg"]
          (fun _ => some content) [] =
        (.ok 0, leadText dataContainer ++ (tableHeading ++
          (table.flatMap subscriptionLine ++ tailText dataContainer))) ∧
      (∀ subscription, subscription ∈ table ↔
        (Written.ofTrace trace).subscription
          subscription.addLoggedMessage.msgId = some subscription) ∧
      table.Nodup ∧
      table.Pairwise fun first second =>
        ¬ Precedes (rowKey second) (rowKey first) := by
  intro trace content
  have opens : (fun _ : Bytes => some content) (ascii "a.ulg") =
      some content := rfl
  exact main_written .ascending _ _ []
    (Exec.Run.start.replay (by decide +kernel)) opens

end UlogInfo

/-! ## ulog_data -/

namespace UlogData

open Programs (Choices Recovered)
open SimpleWriter (Call Written timestampField messageSize perform Sound
  constructed)

section Written

variable {written : Written} {dataContainer : DataContainer}

/-- The format of the message, if there is one, has room for the timestamp. -/
def Roomy (written : Written) : Prop :=
  ∀ format, written.formats.lookup message = some format →
    8 ≤ messageSize format.fields

theorem Roomy.sizeOf (roomy : Roomy written) {format : MessageFormat}
    (found : written.formats.lookup message = some format) :
    8 ≤ written.sizeOf message := by
  rw [Written.sizeOf, found]
  exact roomy format found

def order (choices : Choices) (written : Written)
    (dataContainer : DataContainer) : List AddLoggedMessage :=
  (choices.iterate dataContainer.subscriptions).filterMap fun id =>
    written.subscriptions.lookup id

end Written

variable {timestampUs : UInt64} {trace : List (Call × Option UInt16)}
  {final : SimpleWriter} {files : Bytes → Option Bytes}

end UlogData

end UlogCpp
