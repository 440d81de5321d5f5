import UlogCpp.SimpleWriter.Payload
import UlogCpp.ZzDataLog.Run

namespace UlogCpp

/-! Each file of a `zz_data_log` has been written by the calls of its journal,
as a `SimpleWriter` writes them. -/

namespace ZzDataLog

open SimpleWriter (Call)

variable {admits : SimpleWriter → UInt16 → Bytes → Prop}

/-- What the calls of a journal have made of a new log. Data comes from
`emitData`, which leaves the checks to its callers. -/
def Recorded (admits : SimpleWriter → UInt16 → Bytes → Prop) :
    List Entry → SimpleWriter → Prop :=
  SimpleWriter.Recorded (fun call => call.isData = false) admits

structure Journaled (admits : SimpleWriter → UInt16 → Bytes → Prop)
    (log : ZzDataLog) : Prop where
  opened : ∀ name, log.file = .opened name → log.writer ≠ none
  current : ∀ writer, log.writer = some writer →
    Recorded admits log.journal (log.core writer)
  closed : ∀ file ∈ log.closedFiles, ∃ simple,
    Recorded admits file.journal simple ∧ simple.writer.output = file.content

namespace Journaled

variable {self before after : ZzDataLog} {env : Env} {writer : Writer}

theorem of_view (same : after.view = before.view)
    (journaled : Journaled admits before) : Journaled admits after := by
  obtain ⟨sameWriter, sameFile, sameCore, sameJournal, sameClosed⟩ :
      after.writer = before.writer ∧ after.file = before.file ∧
        after.core = before.core ∧ after.journal = before.journal ∧
          after.closedFiles = before.closedFiles := by
    simpa only [view, Prod.mk.injEq] using same
  obtain ⟨opened, current, closed⟩ := journaled
  refine ⟨?_, ?_, ?_⟩
  · rw [sameWriter, sameFile]
    exact opened
  · rw [sameWriter, sameCore, sameJournal]
    exact current
  · rw [sameClosed]
    exact closed

theorem written {call : Call} {outcome : Except Exception (Option UInt16)}
    {core : SimpleWriter} (journaled : Journaled admits self)
    (has : self.writer = some writer)
    (next : SimpleWriter.LogStep (fun call => call.isData = false) admits
      (self.core writer) call outcome core) :
    Journaled admits ((self.withCore core).record call outcome) where
  opened _ _ := nofun
  current _ same := by
    cases same
    exact (journaled.current writer has).step next
  closed := journaled.closed

def Preserved (admits : SimpleWriter → UInt16 → Bytes → Prop)
    (method : Method α) : Prop :=
  Exec.Keeps (Journaled admits) (fun _ => True) method

namespace Preserved

theorem intro {method : Method α}
    (kept : ∀ {log}, Journaled admits log → Journaled admits (method log).2) :
    Preserved admits method :=
  Exec.Keeps.intro fun _ journaled => ⟨fun _ _ => trivial, kept journaled⟩

theorem elim {method : Method α} (preserved : Preserved admits method)
    (journaled : Journaled admits self) : Journaled admits (method self).2 :=
  (Exec.Keeps.outcome preserved journaled).2

theorem rules : Rules (Journaled admits) fun _ => True where
  stopped _ := trivial
  modify same := Exec.Keeps.modify fun log => of_view (same log)
  shared ordinary faithful := by
    apply intro
    intro log journaled
    cases has : log.writer with
    | none =>
        rw [shared_null has]
        exact journaled
    | some writer =>
        rw [shared_apply has]
        apply journaled.written has
        exact .attempted ordinary
          (faithful _ (journaled.current writer has).synced)

theorem fsync : Preserved admits Method.fsync := by
  apply Exec.Keeps.get_bind
  intro log
  cases log.file with
  | closed => exact .throw trivial
  | null | opened name => exact .pure ()

end Preserved

/-! ## Data -/

theorem emitData {id : UInt16} {data : Bytes}
    (journaled : Journaled admits self)
    (admitted : ∀ writer, self.writer = some writer →
      admits (self.core writer) id data) :
    Journaled admits (Method.emitData id data self).2 := by
  cases has : self.writer with
  | none =>
      have same : (Method.emitData id data self).2 = self := by
        simp only [Method.emitData, has]
      rwa [same]
  | some writer =>
      rw [emitData_apply has]
      exact journaled.written has (.data (admitted writer has))

theorem counted (journaled : Journaled admits self) (data : Bytes) :
    Journaled admits (self.counted data) :=
  @of_view admits self _ rfl journaled

theorem reopened (journaled : Journaled admits self) {name newFilename : Bytes}
    (has : self.writer = some writer) :
    Journaled admits (self.reopened env name newFilename writer.output) where
  opened _ _ := nofun
  current _ same := by
    cases same
    exact SimpleWriter.Recorded.constructed env.timeUs
  closed file mem := by
    rcases List.mem_append.mp (List.mem_filter.mp mem).1 with earlier | last
    · exact journaled.closed file earlier
    · rw [List.mem_singleton.mp last]
      exact ⟨_, journaled.current writer has, rfl⟩

theorem rotate (journaled : Journaled admits self) :
    Journaled admits (Method.rotate env self).2 := by
  by_cases can : CanRotate env self
  · obtain ⟨name, newFilename, writer, has, rotated⟩ :=
      Method.rotate_can journaled.opened can
    rw [rotated]
    exact Preserved.elim (Preserved.rules.composes.initWith _)
      (journaled.reopened has)
  · obtain ⟨failure, reached, failed, none, unopened, closed⟩ :=
      Method.rotate_cannot can
    rw [failed]
    refine ⟨fun name same => absurd same (unopened name), ?_, ?_⟩
    · rw [none]
      exact nofun
    · rcases closed with same | ⟨name, file, closed⟩
      · rw [same]
        exact journaled.closed
      · obtain ⟨writer, has⟩ :=
          Option.ne_none_iff_exists'.mp (journaled.opened name file)
        rw [closed, has]
        intro file mem
        rcases List.mem_append.mp mem with earlier | last
        · exact journaled.closed file earlier
        · rw [List.mem_singleton.mp last]
          exact ⟨_, journaled.current writer has, rfl⟩

theorem makeRoom (journaled : Journaled admits self) (data : Bytes) :
    Journaled admits (Method.makeRoom env data self).2 := by
  unfold Method.makeRoom
  split
  · exact (journaled.counted data).rotate
  · exact journaled.counted data

end Journaled

def Admitted (admits : SimpleWriter → UInt16 → Bytes → Prop) (env : Env)
    (self : ZzDataLog) (id : UInt16) (data : Bytes) : Prop :=
  ∀ {subscription reached writer}, Accepts self id data subscription →
    Method.makeRoom env data self = (.ok (), reached) →
    reached.writer = some writer →
    admits (reached.core writer) id
      (data.take subscription.messageSize.toNat)

namespace Journaled

variable {self : ZzDataLog} {env : Env}

theorem writeData {id : UInt16} {data : Bytes}
    (journaled : Journaled admits self)
    (admitted : Admitted admits env self id data) :
    Journaled admits (Method.writeData env id data self).2 := by
  rcases Method.writeData_cases env id data self with ⟨reason, refused⟩ |
    ⟨subscription, accepts, same⟩
  · rwa [refused]
  · rw [same]
    have roomy := @makeRoom _ _ env journaled data
    rcases made : Method.makeRoom env data self with ⟨failure | value, reached⟩
    · rw [made] at roomy
      rwa [Exec.bind_error made]
    · rw [made] at roomy
      rw [Exec.bind_ok made]
      exact roomy.emitData fun writer has => admitted accepts made has

def Admissible (admits : SimpleWriter → UInt16 → Bytes → Prop)
    (self : ZzDataLog) (request : Env × Request) : Prop :=
  ∀ id data, request.2.sample self = some (id, data) →
    Admitted admits request.1 self id data

theorem perform {request : Request} (journaled : Journaled admits self)
    (admissible : Admissible admits self (env, request)) :
    Journaled admits (ZzDataLog.perform (env, request) self).2 := by
  cases sample : request.sample self with
  | none =>
      exact (@Rules.perform self env _ _ _ Preserved.rules sample
        Preserved.fsync journaled).2
  | some pair =>
      obtain ⟨id, data⟩ := pair
      rw [perform_sample sample]
      exact journaled.writeData (admissible id data sample)

theorem made (constructor : Constructor) (env : Env) (zzDataLogOn : Bool) :
    Journaled admits (constructor.made env zzDataLogOn) := by
  cases constructor with
  | callback timestampUs =>
      refine ⟨nofun, fun writer same => ?_, nofun⟩
      cases same
      exact SimpleWriter.Recorded.constructed timestampUs
  | fileAt filename timestampUs =>
      refine ⟨fun _ _ => nofun, fun writer same => ?_, nofun⟩
      cases same
      exact SimpleWriter.Recorded.constructed timestampUs
  | file filename =>
      refine ⟨fun _ _ => nofun, fun writer same => ?_, nofun⟩
      cases same
      exact SimpleWriter.Recorded.constructed env.timeUs

/-- Where any data is admitted, all files have been written by the calls of
their journals. -/
theorem final {constructor : Constructor} {zzDataLogOn : Bool}
    (any : ∀ simple id payload, admits simple id payload)
    (constructs : Method.construct env constructor { zzDataLogOn } =
      (.ok (), self)) (requests : List (Env × Request)) :
    Journaled admits (Exec.final ZzDataLog.perform requests self) := by
  apply Exec.final_invariant
  · intro log request _ journaled
    exact journaled.perform fun id data _ _ _ _ _ _ _ => any _ _ _
  · rw [construct_ok constructs]
    exact made constructor env zzDataLogOn

end Journaled

end ZzDataLog

end UlogCpp
