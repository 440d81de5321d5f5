import UlogCpp.ZzDataLog.Contents
import UlogCpp.ZzDataLog.Init

namespace UlogCpp

/-! How much a request adds to the file of a `zz_data_log`. -/

namespace ZzDataLog

open SimpleWriter (Call)

def frameLength (entry : Entry) : Nat :=
  ((messageOf entry).map fun message => message.emitted.length).getD 0

/-- The bytes that the calls of a journal have written, after the file header. -/
def bodyLength (journal : List Entry) : Nat := (journal.map frameLength).sum

def headerLength : Nat := 59

section Length

variable {admits : SimpleWriter → UInt16 → Bytes → Prop}
  {journal more : List Entry} {simple : SimpleWriter}

theorem bodyLength_append :
    bodyLength (journal ++ more) = bodyLength journal + bodyLength more := by
  rw [bodyLength, List.map_append, List.sum_append]
  rfl

theorem bodyLength_singleton (entry : Entry) :
    bodyLength [entry] = frameLength entry :=
  Nat.add_zero _

theorem length_messagesOf (journal : List Entry) :
    ((messagesOf journal).flatMap Message.emitted).length =
      bodyLength journal := by
  induction journal with
  | nil => rfl
  | cons entry journal ih =>
      rw [bodyLength, List.map_cons, List.sum_cons, ← bodyLength, ← ih,
        frameLength, messagesOf, messagesOf, List.filterMap_cons]
      cases messageOf entry with
      | none => exact (Nat.zero_add _).symm
      | some message =>
          rw [List.flatMap_cons, List.length_append]
          rfl

theorem length_constructed (timestampUs : UInt64) :
    (SimpleWriter.constructed timestampUs).writer.output.length =
      headerLength := rfl

theorem Recorded.length_output (recorded : Recorded admits journal simple) :
    simple.writer.output.length = headerLength + bodyLength journal := by
  obtain ⟨timestampUs, output⟩ := recorded.output
  rw [output, List.length_append, length_constructed, length_messagesOf]

theorem frameLength_error (call : Call) (exception : Exception) :
    frameLength (call, .error exception) = 0 := by
  cases call <;> rfl

/-- The size of a subscription does not depend on its id. -/
theorem frameLength_subscription (name : Bytes) (multiId : UInt8)
    (id other : UInt16) :
    frameLength (.writeAddLoggedMessage name multiId, .ok (some id)) =
      frameLength (.writeAddLoggedMessage name multiId, .ok (some other)) := by
  have length : ∀ id, frameLength
      (.writeAddLoggedMessage name multiId, .ok (some id)) =
        if 65535 < (intOfSize (3 + [name].flatten.length)).toInt ∨ 255 < 0 then 0
        else 3 + 3 + ([name].flatMap arriving).length := by
    intro id
    have fixed : ([multiId] ++ leBytes 2 id.toNat).length = 3 := by
      rw [List.length_append, length_leBytes]
      rfl
    have whole := @length_emitMessage .addLoggedMsg
      ([multiId] ++ leBytes 2 id.toNat) [name] 0 (by rw [fixed]; decide)
    rw [fixed] at whole
    exact whole
  exact (length id).trans (length other).symm

end Length

/-! ## What is added -/

/-- The file has been given calls of this length at most, and of exactly this
length where the method has returned. -/
structure Grows (length : Nat) (log : ZzDataLog)
    (ran : Except Failure α × ZzDataLog) : Prop where
  closedFiles : ran.2.closedFiles = log.closedFiles
  writer : ran.2.writer.isSome = log.writer.isSome
  journal : ∃ more, ran.2.journal = log.journal ++ more ∧
    (log.writer = none → more = []) ∧ bodyLength more ≤ length ∧
    ∀ value, ran.1 = .ok value → bodyLength more = length

/-- A call that is recorded, whether it has written anything or not. -/
theorem Grows.recorded {log : ZzDataLog} {length : Nat}
    {ran : Except Failure α × ZzDataLog} {writer : Writer} {entry : Entry}
    (has : log.writer = some writer) (same : ran.2.writer.isSome = true)
    (closedFiles : ran.2.closedFiles = log.closedFiles)
    (journal : ran.2.journal = log.journal ++ [entry])
    (fits : (frameLength entry = 0 ∧ ∃ failure, ran.1 = .error failure) ∨
      frameLength entry = length) :
    Grows length log ran := by
  refine ⟨closedFiles, by rw [same, has]; rfl, [entry], journal,
    fun none => (nomatch has.symm.trans none), ?_, fun value returned => ?_⟩
  · rw [bodyLength_singleton]
    rcases fits with ⟨nothing, _⟩ | all
    · exact nothing.trans_le (Nat.zero_le _)
    · exact all.le
  · rw [bodyLength_singleton]
    rcases fits with ⟨_, failure, stopped⟩ | all
    · cases stopped.symm.trans returned
    · exact all

def Adds (length : Nat) (method : Method α) : Prop :=
  ∀ log, Grows length log (method log)

theorem Grows.unchanged {log : ZzDataLog} {ran : Except Failure α × ZzDataLog}
    (same : ran.2.view = log.view) : Grows 0 log ran := by
  obtain ⟨writer, _, _, journal, closedFiles⟩ :
      ran.2.writer = log.writer ∧ ran.2.file = log.file ∧
        ran.2.core = log.core ∧ ran.2.journal = log.journal ∧
          ran.2.closedFiles = log.closedFiles := by
    simpa only [view, Prod.mk.injEq] using same
  refine ⟨closedFiles, by rw [writer], [], ?_, fun _ => rfl, Nat.le_refl _,
    fun _ _ => rfl⟩
  rw [journal, List.append_nil]

theorem Grows.stopped {log : ZzDataLog} {length : Nat}
    {ran : Except Failure α × ZzDataLog} {failure : Failure}
    (same : ran.2.view = log.view) (stops : ran.1 = .error failure) :
    Grows length log ran := by
  obtain ⟨closedFiles, writer, more, journal, still, le, _⟩ :=
    Grows.unchanged same
  refine ⟨closedFiles, writer, more, journal, still,
    Nat.le_trans le (Nat.zero_le _), fun value returned => ?_⟩
  rw [stops] at returned
  cases returned

namespace Adds

variable {length more : Nat}

theorem pure (value : α) : Adds 0 (Pure.pure value : Method α) :=
  fun _ => .unchanged rfl

theorem throw (failure : Failure) :
    Adds length (Exec.throw failure : Method α) :=
  fun _ => .stopped rfl rfl

theorem modify {change : ZzDataLog → ZzDataLog}
    (same : ∀ log, (change log).view = log.view) :
    Adds 0 (Exec.modify change : Method Unit) :=
  fun log => .unchanged (same log)

theorem lift (result : Except Failure α) :
    Adds 0 (Exec.lift result : Method α) :=
  fun _ => .unchanged rfl

theorem bind {method : Method α} {next : α → Method β}
    (first : Adds length method) (second : ∀ value, Adds more (next value)) :
    Adds (length + more) (method >>= next) := by
  intro log
  obtain ⟨closedFiles, writer, entries, journal, still, le, exactly⟩ := first log
  rcases ran : method log with ⟨failure | value, reached⟩
  · rw [ran] at closedFiles writer journal
    rw [Exec.bind_error ran]
    exact ⟨closedFiles, writer, entries, journal, still,
      Nat.le_add_right_of_le le, nofun⟩
  · rw [ran] at closedFiles writer journal exactly
    rw [Exec.bind_ok ran]
    obtain ⟨closedLater, writerLater, others, journalLater, stillLater, leLater,
      exactlyLater⟩ := second value reached
    refine ⟨closedLater.trans closedFiles, writerLater.trans writer,
      entries ++ others, ?_, fun unset => ?_, ?_, fun result returned => ?_⟩
    · rw [journalLater, journal, List.append_assoc]
    · have unsetLater : reached.writer = none := by
        rw [unset] at writer
        exact Option.isNone_iff_eq_none.mp (Option.isSome_eq_false_iff.mp writer)
      rw [still unset, stillLater unsetLater, List.append_nil]
    · rw [bodyLength_append]
      exact Nat.add_le_add le leLater
    · rw [bodyLength_append, exactly value rfl, exactlyLater result returned]

theorem before {method : Method α} {next : α → Method β}
    (first : Adds 0 method) (second : ∀ value, Adds length (next value)) :
    Adds length (method >>= next) := by
  have both := first.bind second
  rwa [Nat.zero_add] at both

theorem returning {method : Method α} (adds : Adds length method)
    (report : α → β) :
    Adds length (method >>= fun value => Pure.pure (report value)) :=
  adds.bind fun _ => pure _

theorem forM {list : List α} {method : α → Method Unit} {lengthOf : α → Nat}
    (each : ∀ value, Adds (lengthOf value) (method value)) :
    Adds (list.map lengthOf).sum (list.forM method) := by
  induction list with
  | nil => exact .pure ()
  | cons value list ih =>
      rw [List.map_cons, List.sum_cons]
      exact (each value).bind fun _ => ih

theorem throwUsageIf (condition : Prop) [Decidable condition]
    (reason : Bytes) : Adds 0 (throwUsageIf condition reason) := by
  unfold ZzDataLog.throwUsageIf
  split
  · exact .throw _
  · exact .pure ()

theorem shared {call : Call} {method : SimpleWriter.Method α}
    {report : α → Option UInt16}
    (same : ∀ value, frameLength (call, .ok (report value)) = length) :
    Adds length (shared call method report) := by
  intro log
  cases has : log.writer with
  | none =>
      unfold ZzDataLog.shared
      simp only [has]
      split <;> exact .stopped rfl rfl
  | some writer =>
      rw [shared_apply has]
      refine .recorded has rfl rfl rfl ?_
      cases (method (log.core writer)).1 with
      | error exception => exact .inl ⟨frameLength_error call exception, _, rfl⟩
      | ok value => exact .inr (same value)

/-! ## Init -/

theorem silent (call : Call) {method : SimpleWriter.Method Unit} :
    Adds (frameLength (call, .ok none))
      (ZzDataLog.shared call method fun _ => none) :=
  shared fun _ => rfl

theorem writeInfo (key : Bytes) (value : SimpleWriter.InfoValue) :
    Adds (frameLength (.writeInfo key value, .ok none))
      (Method.writeInfo key value) :=
  silent _

theorem writeMessageFormat (struct : StructInfo) :
    Adds (frameLength (formatEntry struct))
      (Method.writeMessageFormat struct.messageName struct.fields) :=
  silent _

theorem headerComplete : Adds 0 Method.headerComplete :=
  silent .headerComplete

theorem subscribe (messageName : Bytes) :
    Adds (frameLength (.writeAddLoggedMessage messageName 0, .ok (some 0)))
      (Method.subscribe messageName) := by
  have added : Adds
      (frameLength (.writeAddLoggedMessage messageName 0, .ok (some 0)))
      (Method.writeAddLoggedMessage messageName 0) :=
    .shared fun id => frameLength_subscription messageName 0 id 0
  exact added.bind fun id => @modify
    (fun self => { self with idMap := self.idMap.insert messageName id })
    fun _ => rfl

theorem bodyLength_seriesEntries (number : Nat) (structs : List StructInfo) :
    bodyLength (seriesEntries number structs) =
      (structs.map fun struct => frameLength
        (.writeAddLoggedMessage struct.messageName 0, .ok (some 0))).sum := by
  induction structs generalizing number with
  | nil => rfl
  | cons struct structs ih =>
      rw [List.map_cons, List.sum_cons, ← ih (number + 1),
        ← frameLength_subscription struct.messageName 0
          (UInt16.ofNat number) 0]
      rfl

theorem bodyLength_initEntries (key keyValue : Bytes)
    (structs : List StructInfo) :
    bodyLength (initEntries key keyValue structs) =
      frameLength (.writeInfo key (.string keyValue), .ok none) +
        ((structs.map fun struct => frameLength (formatEntry struct)).sum +
          (structs.map fun struct => frameLength
            (.writeAddLoggedMessage struct.messageName 0, .ok (some 0))).sum) := by
  have formats : bodyLength (structs.map formatEntry) =
      (structs.map fun struct => frameLength (formatEntry struct)).sum := by
    rw [bodyLength, List.map_map]
    rfl
  have whole : bodyLength (initEntries key keyValue structs) =
      frameLength (.writeInfo key (.string keyValue), .ok none) +
        bodyLength (structs.map formatEntry ++
          (.headerComplete, .ok none) :: seriesEntries 0 structs) := by
    rw [bodyLength, initEntries, List.map_cons, List.sum_cons]
    rfl
  have last : bodyLength ((.headerComplete, .ok none) ::
      seriesEntries 0 structs) = bodyLength (seriesEntries 0 structs) :=
    Nat.zero_add _
  rw [whole, bodyLength_append, formats, last, bodyLength_seriesEntries]

theorem initWith (initParams : InitParams) :
    Adds (bodyLength (initEntries initParams.key initParams.keyValue
        initParams.allStructs))
      (Method.initWith initParams) := by
  rw [bodyLength_initEntries]
  exact (throwUsageIf _ _).before fun _ =>
    (writeInfo initParams.key (.string initParams.keyValue)).bind fun _ =>
      (@forM _ initParams.allStructs _ _ writeMessageFormat).bind fun _ =>
        headerComplete.before fun _ =>
          @forM _ initParams.allStructs _ _ fun struct =>
            subscribe struct.messageName

theorem init (key keyValue : Bytes) (structs : List StructInfo) :
    Adds (bodyLength (initEntries key keyValue structs))
      (Method.init key keyValue structs) := by
  have format : ∀ struct : StructInfo,
      Adds (frameLength (formatEntry struct)) (do
        Method.throwIfUnnamed struct
        Exec.modify fun self : ZzDataLog =>
          { self with initParams :=
            { self.initParams with
              allStructs := self.initParams.allStructs ++ [struct] } }
        Method.writeMessageFormat struct.messageName struct.fields) :=
    fun struct => (throwUsageIf _ _).before fun _ =>
      (@modify (fun self => { self with initParams :=
        { self.initParams with
          allStructs := self.initParams.allStructs ++ [struct] } })
        fun _ => rfl).before fun _ => writeMessageFormat struct
  have series : ∀ struct : StructInfo,
      Adds (frameLength
        (.writeAddLoggedMessage struct.messageName 0, .ok (some 0))) (do
          Method.throwIfUnnamed struct
          Method.subscribe struct.messageName) :=
    fun struct => (throwUsageIf _ _).before fun _ =>
      subscribe struct.messageName
  rw [bodyLength_initEntries]
  exact (throwUsageIf _ _).before fun _ =>
    (@modify (fun self => { self with initParams :=
      { self.initParams with key, keyValue } }) fun _ => rfl).before fun _ =>
      (writeInfo key (.string keyValue)).bind fun _ =>
        (@forM _ structs _ _ format).bind fun _ =>
          headerComplete.before fun _ => @forM _ structs _ _ series

/-! ## The other calls -/

theorem emitData (id : UInt16) (data : Bytes) :
    Adds (frameLength (.writeData id data, .ok none))
      (Method.emitData id data) := by
  intro log
  cases has : log.writer with
  | none =>
      unfold Method.emitData
      simp only [has]
      exact .stopped rfl rfl
  | some writer =>
      rw [emitData_apply has]
      refine .recorded has rfl rfl rfl ?_
      cases (Writer.Handle.data ⟨id, data⟩ writer).1 with
      | error exception => exact .inl ⟨rfl, _, rfl⟩
      | ok value => exact .inr rfl

theorem fsync : Adds 0 Method.fsync := by
  intro log
  exact .unchanged (congrArg view (fsync_same log))

theorem createInstance (filename : Bytes) (zzDataLogOn : Bool) :
    Adds 0 (Method.createInstance filename zzDataLogOn) :=
  (throwUsageIf _ _).before fun _ =>
    @modify (fun self => { self with zzDataLogOn }) fun _ => rfl

theorem common (env : Env) {call : Call} (ordinary : call.isData = false) :
    Adds (frameLength (call, .ok (some 0))) (performCommon env call) := by
  cases call with
  | writeInfo key value =>
      exact (silent (.writeInfo key value)).returning fun _ => none
  | writeParameter key value =>
      exact (silent (.writeParameter key value)).returning fun _ => none
  | writeMessageFormat name fields =>
      exact (silent (.writeMessageFormat name fields)).returning fun _ => none
  | headerComplete => exact (silent .headerComplete).returning fun _ => none
  | writeParameterChange key value =>
      exact (silent (.writeParameterChange key value)).returning fun _ => none
  | writeAddLoggedMessage name multiId =>
      have added : Adds
          (frameLength (.writeAddLoggedMessage name multiId, .ok (some 0)))
          (Method.writeAddLoggedMessage name multiId) :=
        shared fun id => frameLength_subscription name multiId id 0
      exact added.returning some
  | writeTextMessage level message timestamp =>
      exact (silent (.writeTextMessage level message timestamp)).returning
        fun _ => none
  | writeData id data => cases ordinary

end Adds

/-- What the request writes to its file, if it is not data and returns. The id
of a subscription does not matter. -/
def Request.planned : Request → List Entry
  | common call => [(call, .ok (some 0))]
  | init key keyValue allStructs => initEntries key keyValue allStructs
  | initWith initParams =>
      initEntries initParams.key initParams.keyValue initParams.allStructs
  | _ => []

theorem perform_grows {log : ZzDataLog} {request : Request}
    (unsampled : request.sample log = none) (env : Env) :
    Grows (bodyLength request.planned) log (perform (env, request) log) := by
  cases request with
  | common call =>
      cases ordinary : call.isData with
      | false => exact Adds.common env ordinary log
      | true =>
          cases call with
          | writeData id data => cases unsampled
          | _ => cases ordinary
  | init key keyValue allStructs =>
      exact (Adds.init key keyValue allStructs).returning (fun _ => none) log
  | initWith initParams =>
      exact (Adds.initWith initParams).returning (fun _ => none) log
  | write messageName data =>
      have same : ∃ result, Method.write env messageName data log =
          (result, log) := by
        rcases @Method.write_none log env messageName data unsampled with
          ⟨reason, refused⟩ | skipped
        · exact ⟨_, refused⟩
        · exact ⟨_, skipped⟩
      obtain ⟨result, ran⟩ := same
      refine .unchanged (congrArg view ?_)
      rw [perform, returns_none_apply, ran]
  | fsync => exact Adds.fsync.returning (fun _ => none) log
  | createInstance filename zzDataLogOn =>
      exact (Adds.createInstance filename zzDataLogOn).returning
        (fun _ => none) log
  | generateNewFilename filename =>
      exact (Adds.lift _).returning (fun _ => none) log
  | generateNewPathOrFilename pathOrFilename =>
      exact (Adds.lift _).returning (fun _ => none) log

end ZzDataLog

end UlogCpp
