import UlogCpp.SimpleWriter.Registration
import UlogCpp.ZzDataLog.Growth
import UlogCpp.ZzDataLog.Handles
import UlogCpp.ZzDataLog.PayloadSize

namespace UlogCpp

/-! The size of the files of a `zz_data_log`, of which its counter knows the
data only. -/

namespace ZzDataLog

structure WithinLimit (log : ZzDataLog) : Prop where
  current : ∀ writer, log.writer = some writer →
    writer.output.length ≤ kMaxFileSize.toNat
  closed : ∀ file ∈ log.closedFiles, file.content.length ≤ kMaxFileSize.toNat

def size (log : ZzDataLog) : Nat :=
  (log.writer.map fun writer => writer.output.length).getD 0

/-- The size that the file of a request has before, and what the request writes
to it. -/
inductive WritesTo (log : ZzDataLog) : Env × Request → Nat → List Entry → Prop
  | messages {env : Env} {request : Request} :
      request.sample log = none →
      WritesTo log (env, request) log.size request.planned
  | data {env : Env} {request : Request} {id : UInt16} {data : Bytes}
      {subscription : SimpleWriter.Subscription} :
      request.sample log = some (id, data) →
      Accepts log id data subscription → ¬ Rotates log data →
      WritesTo log (env, request) log.size
        [(.writeData id (data.take subscription.messageSize.toNat), .ok none)]
  | newFile {env : Env} {request : Request} {id : UInt16} {data : Bytes}
      {subscription : SimpleWriter.Subscription} :
      request.sample log = some (id, data) →
      Accepts log id data subscription → Rotates log data →
      CanRotate env log →
      WritesTo log (env, request) headerLength
        (initEntries log.initParams.key log.initParams.keyValue
            log.initParams.allStructs ++
          [(.writeData id (data.take subscription.messageSize.toNat), .ok none)])

def Returns (log : ZzDataLog) (request : Env × Request) : Prop :=
  ∃ result, (perform request log).1 = .ok result

section Step

variable {log : ZzDataLog} {env : Env} {request : Request} {length : Nat}
  {ran : Except Failure α × ZzDataLog}

abbrev AnyData (log : ZzDataLog) : Prop := Journaled (fun _ _ _ => True) log

theorem Grows.size (grows : Grows length log ran) (before : AnyData log)
    (after : AnyData ran.2) :
    ran.2.size ≤ log.size + length ∧
      ∀ value, ran.1 = .ok value → ran.2.size = log.size + length := by
  obtain ⟨_, writer, more, journal, still, le, exactly⟩ := grows
  cases has : log.writer with
  | none =>
      have unset : ran.2.writer = none := by
        rw [has] at writer
        exact Option.isNone_iff_eq_none.mp (Option.isSome_eq_false_iff.mp writer)
      have same : ran.2.size = log.size := by
        rw [ZzDataLog.size, ZzDataLog.size, unset, has]
      rw [same]
      refine ⟨Nat.le_add_right _ _, fun value returned => ?_⟩
      rw [← exactly value returned, still has]
      rfl
  | some first =>
      obtain ⟨last, now⟩ : ∃ last, ran.2.writer = some last := by
        rw [has] at writer
        exact Option.isSome_iff_exists.mp writer
      have sized : log.size = headerLength + bodyLength log.journal := by
        rw [← (before.current first has).length_output, ZzDataLog.size, has]
        rfl
      have grown : ran.2.size = log.size + bodyLength more := by
        rw [sized, Nat.add_assoc, ← bodyLength_append, ← journal,
          ← (after.current last now).length_output, ZzDataLog.size, now]
        rfl
      rw [grown]
      exact ⟨Nat.add_le_add_left le _, fun value returned => by
        rw [exactly value returned]⟩

theorem withinLimit_iff : WithinLimit log ↔ log.size ≤ kMaxFileSize.toNat ∧
    ∀ file ∈ log.closedFiles, file.content.length ≤ kMaxFileSize.toNat := by
  constructor
  · rintro ⟨current, closed⟩
    refine ⟨?_, closed⟩
    unfold ZzDataLog.size
    cases has : log.writer with
    | none => exact Nat.zero_le _
    | some writer => exact current writer has
  · rintro ⟨small, closed⟩
    refine ⟨fun writer has => ?_, closed⟩
    rwa [ZzDataLog.size, has] at small

theorem Grows.within (grows : Grows length log ran) (before : AnyData log)
    (after : AnyData ran.2) (within : WithinLimit log)
    (room : log.size + length ≤ kMaxFileSize.toNat) : WithinLimit ran.2 := by
  apply withinLimit_iff.mpr
  refine ⟨Nat.le_trans (grows.size before after).1 room, ?_⟩
  rw [grows.closedFiles]
  exact within.closed

theorem Grows.room (grows : Grows length log ran) (before : AnyData log)
    (after : AnyData ran.2) (within : WithinLimit ran.2) {value : α}
    (returned : ran.1 = .ok value) :
    log.size + length ≤ kMaxFileSize.toNat := by
  rw [← (grows.size before after).2 value returned]
  exact (withinLimit_iff.mp within).1

theorem Grows.of_same {other : Except Failure β × ZzDataLog}
    (grows : Grows length log ran) (same : other.2 = ran.2)
    (returns : ∀ value, other.1 = .ok value → ∃ value, ran.1 = .ok value) :
    Grows length log other := by
  obtain ⟨closedFiles, writer, more, journal, still, le, exactly⟩ := grows
  rw [← same] at closedFiles writer journal
  refine ⟨closedFiles, writer, more, journal, still, le, fun value returned => ?_⟩
  obtain ⟨result, ended⟩ := returns value returned
  exact exactly result ended

/-! ## A request -/

theorem WithinLimit.counted (within : WithinLimit log) (data : Bytes) :
    WithinLimit (log.counted data) :=
  ⟨within.current, within.closed⟩

theorem WithinLimit.append (within : WithinLimit log) {writer : Writer}
    (has : log.writer = some writer) (name : Bytes) :
    ∀ file ∈ log.closedFiles ++ [LogFile.mk name writer.output log.journal],
      file.content.length ≤ kMaxFileSize.toNat := by
  intro file mem
  rcases List.mem_append.mp mem with earlier | last
  · exact within.closed file earlier
  · rw [List.mem_singleton.mp last]
    exact within.current writer has

theorem WithinLimit.reopened (within : WithinLimit log) {writer : Writer}
    (has : log.writer = some writer) (name newFilename : Bytes) :
    WithinLimit (log.reopened env name newFilename writer.output) := by
  have header : headerLength ≤ kMaxFileSize.toNat := by decide
  exact withinLimit_iff.mpr ⟨header, fun file mem =>
    within.append has name file (List.mem_filter.mp mem).1⟩

/-- The file that a request writes to, before it does. -/
theorem WritesTo.grows {request : Env × Request} {before : Nat}
    {entries : List Entry} (journaled : AnyData log)
    (writes : WritesTo log request before entries) :
    ∃ start, AnyData start ∧ start.size = before ∧
      (WithinLimit log → WithinLimit start) ∧
      Grows (bodyLength entries) start (perform request log) := by
  cases writes with
  | @messages env request unsampled =>
      exact ⟨log, journaled, rfl, id, perform_grows unsampled env⟩
  | @data env request id data subscription sample accepts stays =>
      refine ⟨log.counted data, journaled.counted data, rfl,
        fun within => within.counted data, ?_⟩
      have ran := @Method.writeData_accepted log env id data subscription accepts
      rw [if_neg stays] at ran
      have added := Adds.emitData id (data.take subscription.messageSize.toNat)
        (log.counted data)
      rw [← ran] at added
      exact added.of_same (perform_sample sample) fun value returned =>
        ⟨(), writeData_returns sample returned⟩
  | @newFile env request id data subscription sample accepts rotates can =>
      obtain ⟨name, newFilename, writer, has, rotated⟩ :=
        @Method.rotate_can (log.counted data) env journaled.opened
          ⟨can.file, can.name, can.opens⟩
      refine ⟨(log.counted data).reopened env name newFilename writer.output,
        (journaled.counted data).reopened has, rfl, fun within =>
          (within.counted data).reopened has name newFilename, ?_⟩
      have ran := @Method.writeData_accepted log env id data subscription accepts
      rw [if_pos rotates, Exec.bind_apply, rotated, ← Exec.bind_apply] at ran
      have added := ((Adds.initWith { log.initParams with
        fileName := newFilename }).bind fun _ =>
          Adds.emitData id (data.take subscription.messageSize.toNat))
        ((log.counted data).reopened env name newFilename writer.output)
      rw [bodyLength_append, bodyLength_singleton]
      refine Grows.of_same added ?_ ?_
      · rw [perform_sample sample, ran]
        rfl
      · intro value returned
        have ended := writeData_returns sample returned
        rw [ran] at ended
        exact ⟨(), ended⟩

theorem performed (journaled : AnyData log) (request : Env × Request) :
    AnyData (perform request log).2 :=
  journaled.perform fun _ _ _ _ _ _ _ _ _ => trivial

end Step

def writeText (text : Bytes) : Env × Request :=
  (fair, .common (.writeTextMessage .info text 0))

structure TakesText (log : ZzDataLog) (size : Nat) : Prop where
  header : log.headerComplete = true
  written : ∃ writer, log.writer = some writer ∧ writer.output.length = size

section Text

variable {log : ZzDataLog} {size : Nat} {text frame : Bytes}

theorem TakesText.write (takes : TakesText log size)
    (serialized : ∀ output, (Message.logging (.ofText .info text 0)).serialize
      output = (.ok (), output ++ frame)) :
    TakesText (perform (writeText text) log).2 (size + frame.length) := by
  obtain ⟨header, writer, has, length⟩ := takes
  have closed : SimpleWriter.headerClosed (log.core writer) =
      (.ok (), log.core writer) := by
    apply SimpleWriter.throwUsageIf_ok
    intro incomplete
    exact Bool.false_ne_true (incomplete.symm.trans header)
  have handed : SimpleWriter.Method.writeTextMessage .info text 0
      (log.core writer) = (.ok (), (log.core writer).handed
        (.logging (.ofText .info text 0))) := by
    apply (Exec.bind_ok closed _).trans
    refine (@SimpleWriter.onWriter_handed (log.core writer)
      (Writer.Handle.logging _) (.logging _) rfl).trans ?_
    rw [serialized]
  have shared := @shared_apply log writer _ (.writeTextMessage .info text 0)
    (SimpleWriter.Method.writeTextMessage .info text 0) (fun _ => none) has
  rw [handed] at shared
  have performed := Exec.bind_ok shared fun _ =>
    (pure none : Method (Option UInt16))
  rw [writeText, perform, performCommon, Method.writeTextMessage, performed]
  refine ⟨header, _, rfl, ?_⟩
  refine (congrArg (fun ran => ran.2.length) (serialized writer.output)).trans ?_
  rw [List.length_append, length]

theorem TakesText.repeated (takes : TakesText log size)
    (serialized : ∀ output, (Message.logging (.ofText .info text 0)).serialize
      output = (.ok (), output ++ frame)) (count : Nat) :
    TakesText (Exec.final perform (List.replicate count (writeText text)) log)
      (size + count * frame.length) := by
  induction count generalizing log size with
  | zero =>
      rw [Nat.zero_mul]
      exact takes
  | succ count ih =>
      have later := ih (takes.write serialized)
      rw [Nat.succ_mul, Nat.add_comm (count * frame.length), ← Nat.add_assoc]
      exact later

end Text

end ZzDataLog

end UlogCpp
