import UlogCpp.Data.Lock
import UlogCpp.ZzDataLog.PayloadSize
import UlogCpp.ZzDataLog.Series

namespace UlogCpp

/-! `Write` from several threads: what it does while it holds `mutex_`. -/

namespace ZzDataLog

open SimpleWriter (Call)

structure WriteCall (τ : Type) where
  type : τ
  messageName : Bytes
  data : Bytes
  opens : Bool := true
  timeUs : UInt64 := 0

inductive FileEvent (τ : Type) where
  | wrote (type : τ)
  | synced (type : τ)
  deriving DecidableEq

/-- The object, and the static count in each `Write<T>`. The events are a
history variable. -/
structure Shared (τ : Type) where
  log : ZzDataLog
  counts : τ → Nat
  events : List (FileEvent τ) := []

/-- Where `Write` is, once it has the lock. -/
inductive WritePoint where
  | find
  | write (id : UInt16)
  | fetchAdd
  | load
  | store
  | fsync
  deriving DecidableEq

/-- An exception, which releases the lock. -/
def Failure.isException : Failure → Bool
  | .stopped (.raised _) => true
  | _ => false

namespace Shared

variable {τ : Type} [DecidableEq τ]

abbrev Method (τ : Type) := Exec Failure (Shared τ)

def onLog (method : ZzDataLog.Method α) : Method τ α :=
  Exec.focus Shared.log (fun log shared => { shared with log }) method

def record (event : FileEvent τ) : Method τ Unit :=
  Exec.modify fun shared => { shared with events := shared.events ++ [event] }

def setCount (type : τ) (value : Nat) : Method τ Unit :=
  Exec.modify fun shared =>
    { shared with counts := Function.update shared.counts type value }

end Shared

namespace WriteCall

variable {τ : Type} [DecidableEq τ]

/-- What the system does during the call, if it comes to ten as said. -/
def env (call : WriteCall τ) (tenth : Bool) : Env where
  opens := call.opens
  timeUs := call.timeUs
  tenth := tenth

def request (call : WriteCall τ) : Env × Request :=
  (call.env false, .write call.messageName call.data)

def step (call : WriteCall τ) : WritePoint → Shared.Method τ (Option WritePoint)
  | .find => do
      let shared ← Exec.get
      match shared.log.idMap.lookup call.messageName with
      | none => Exec.throw (.raised (.usage (ascii "id not found")))
      | some id => return if shared.log.zzDataLogOn then some (.write id) else none
  | .write id => do
      Shared.onLog (Method.writeData (call.env false) id call.data)
      Shared.record (.wrote call.type)
      return some .fetchAdd
  | .fetchAdd => do
      let shared ← Exec.get
      Shared.setCount call.type (shared.counts call.type + 1)
      return some .load
  | .load => do
      let shared ← Exec.get
      return if shared.counts call.type = 10 then some .store else none
  | .store => do
      Shared.setCount call.type 0
      return some .fsync
  | .fsync => do
      Shared.onLog Method.fsync
      Shared.record (.synced call.type)
      return none

/-- `Write` under its lock. -/
def monitor : Monitor (WriteCall τ) Failure (Shared τ) WritePoint where
  entry _ := .find
  step := step
  raises failure := failure.isException = true

end WriteCall

/-! ## What a call does that no other one comes between -/

section Completes

variable {τ : Type} [DecidableEq τ] {call : WriteCall τ}
  {before after : Shared τ} {outcome : Except Failure Unit}

def Shared.wrote (shared : Shared τ) (call : WriteCall τ) (log : ZzDataLog) :
    Shared τ where
  log := log
  counts := Function.update shared.counts call.type
    (shared.counts call.type + 1)
  events := shared.events ++ [.wrote call.type]

def Shared.cleared (shared : Shared τ) (call : WriteCall τ) : Shared τ :=
  { shared with counts := Function.update shared.counts call.type 0 }

def Shared.synced (shared : Shared τ) (call : WriteCall τ) : Shared τ :=
  { shared with events := shared.events ++ [.synced call.type] }

inductive WriteCall.Ends (call : WriteCall τ) (before : Shared τ) :
    Except Failure Unit → Shared τ → Prop
  | unknown (missing : before.log.idMap.lookup call.messageName = none) :
      Ends call before
        (.error (.raised (.usage (ascii "id not found")))) before
  | off {id : UInt16}
      (known : before.log.idMap.lookup call.messageName = some id)
      (off : before.log.zzDataLogOn = false) :
      Ends call before (.ok ()) before
  | failed {id : UInt16} {failure : Failure} {reached : ZzDataLog}
      (known : before.log.idMap.lookup call.messageName = some id)
      (on : before.log.zzDataLogOn = true)
      (stopped : Method.writeData (call.env false) id call.data before.log =
        (.error failure, reached)) :
      Ends call before (.error failure) { before with log := reached }
  | written {id : UInt16} {reached : ZzDataLog}
      (known : before.log.idMap.lookup call.messageName = some id)
      (on : before.log.zzDataLogOn = true)
      (returned : Method.writeData (call.env false) id call.data before.log =
        (.ok (), reached))
      (early : before.counts call.type + 1 ≠ 10) :
      Ends call before (.ok ()) (before.wrote call reached)
  | synced {id : UInt16} {reached : ZzDataLog}
      (known : before.log.idMap.lookup call.messageName = some id)
      (on : before.log.zzDataLogOn = true)
      (returned : Method.writeData (call.env false) id call.data before.log =
        (.ok (), reached))
      (tenth : before.counts call.type + 1 = 10)
      (flushed : (Method.fsync reached).1 = .ok ()) :
      Ends call before (.ok ())
        (((before.wrote call reached).cleared call).synced call)
  | unsynced {id : UInt16} {reached : ZzDataLog} {failure : Failure}
      (known : before.log.idMap.lookup call.messageName = some id)
      (on : before.log.zzDataLogOn = true)
      (returned : Method.writeData (call.env false) id call.data before.log =
        (.ok (), reached))
      (tenth : before.counts call.type + 1 = 10)
      (dangling : (Method.fsync reached).1 = .error failure) :
      Ends call before (.error failure)
        ((before.wrote call reached).cleared call)

omit [DecidableEq τ] in
theorem Shared.onLog_apply (method : ZzDataLog.Method Unit)
    (shared : Shared τ) :
    Shared.onLog method shared =
      ((method shared.log).1, { shared with log := (method shared.log).2 }) :=
  rfl

theorem WriteCall.step_write {id : UInt16} :
    call.step (.write id) before =
      match Method.writeData (call.env false) id call.data before.log with
      | (.ok _, reached) => (.ok (some .fetchAdd),
          { before with
            log := reached
            events := before.events ++ [.wrote call.type] })
      | (.error failure, reached) =>
          (.error failure, { before with log := reached }) := by
  rw [step, Exec.bind_apply, Shared.onLog_apply]
  rcases Method.writeData (call.env false) id call.data before.log with
    ⟨_ | _, reached⟩ <;> rfl

theorem WriteCall.step_fsync :
    call.step .fsync before =
      match (Method.fsync before.log).1 with
      | .ok _ => (.ok none,
          { before with events := before.events ++ [.synced call.type] })
      | .error failure => (.error failure, before) := by
  have same := fsync_same before.log
  rw [step, Exec.bind_apply, Shared.onLog_apply, same]
  cases (Method.fsync before.log).1 <;> rfl

theorem WriteCall.wrote_comesTo {reached : ZzDataLog}
    {ended : Except Failure Unit × Shared τ} :
    Exec.ComesTo call.step .fetchAdd
        { before with
          log := reached
          events := before.events ++ [.wrote call.type] } ended ↔
      if before.counts call.type + 1 = 10 then
        Exec.ComesTo call.step .fsync ((before.wrote call reached).cleared call)
          ended
      else ended = (.ok (), before.wrote call reached) := by
  have added : call.step .fetchAdd
      { before with
        log := reached
        events := before.events ++ [.wrote call.type] } =
      (.ok (some .load), before.wrote call reached) := rfl
  rw [Exec.ComesTo.next_iff added]
  have count : (before.wrote call reached).counts call.type =
      before.counts call.type + 1 := Function.update_self ..
  by_cases tenth : before.counts call.type + 1 = 10
  · have loaded : call.step .load (before.wrote call reached) =
        (.ok (some .store), before.wrote call reached) := by
      rw [step, Exec.get_bind_apply, count, if_pos tenth]
      rfl
    have stored : call.step .store (before.wrote call reached) =
        (.ok (some .fsync), (before.wrote call reached).cleared call) := rfl
    rw [if_pos tenth, Exec.ComesTo.next_iff loaded,
      Exec.ComesTo.next_iff stored]
  · have loaded : call.step .load (before.wrote call reached) =
        (.ok none, before.wrote call reached) := by
      rw [step, Exec.get_bind_apply, count, if_neg tenth]
      rfl
    rw [if_neg tenth, Exec.ComesTo.done_iff loaded]

theorem WriteCall.ends_of_wrote {id : UInt16} {reached : ZzDataLog}
    (known : before.log.idMap.lookup call.messageName = some id)
    (on : before.log.zzDataLogOn = true)
    (returned : Method.writeData (call.env false) id call.data before.log =
      (.ok (), reached))
    (comes : Exec.ComesTo call.step .fetchAdd
      { before with
        log := reached
        events := before.events ++ [.wrote call.type] } (outcome, after)) :
    call.Ends before outcome after := by
  rw [wrote_comesTo] at comes
  split at comes
  next tenth =>
    have fsync := @step_fsync _ _ call ((before.wrote call reached).cleared call)
    have log : ((before.wrote call reached).cleared call).log = reached := rfl
    rw [log] at fsync
    cases flushed : (Method.fsync reached).1 with
    | error failure =>
        rw [flushed] at fsync
        cases (Exec.ComesTo.stop_iff fsync).mp comes
        exact .unsynced known on returned tenth flushed
    | ok value =>
        rw [flushed] at fsync
        cases (Exec.ComesTo.done_iff fsync).mp comes
        exact .synced known on returned tenth flushed
  next early =>
    cases comes
    exact .written known on returned early

theorem WriteCall.step_find_on {id : UInt16}
    (known : before.log.idMap.lookup call.messageName = some id)
    (on : before.log.zzDataLogOn = true) :
    call.step .find before = (.ok (some (.write id)), before) := by
  rw [step, Exec.get_bind_apply, known, on]
  rfl

theorem WriteCall.completes_iff {id : UInt16} {reached : ZzDataLog}
    (known : before.log.idMap.lookup call.messageName = some id)
    (on : before.log.zzDataLogOn = true)
    (returned : Method.writeData (call.env false) id call.data before.log =
      (.ok (), reached)) :
    WriteCall.monitor.Completes before call outcome after ↔
      Exec.ComesTo call.step .fetchAdd
        { before with
          log := reached
          events := before.events ++ [.wrote call.type] } (outcome, after) := by
  have write := @step_write _ _ call before id
  rw [returned] at write
  refine (Exec.ComesTo.next_iff (step_find_on known on)).trans ?_
  exact Exec.ComesTo.next_iff write

theorem WriteCall.ends_of_completes
    (completes : WriteCall.monitor.Completes before call outcome after) :
    call.Ends before outcome after := by
  have comes : Exec.ComesTo call.step .find before (outcome, after) := completes
  cases known : before.log.idMap.lookup call.messageName with
  | none =>
      have missing : call.step .find before =
          (.error (.raised (.usage (ascii "id not found"))), before) := by
        rw [step, Exec.get_bind_apply, known]
        rfl
      cases (Exec.ComesTo.stop_iff missing).mp comes
      exact .unknown known
  | some id =>
      cases on : before.log.zzDataLogOn with
      | false =>
          have off : call.step .find before = (.ok none, before) := by
            rw [step, Exec.get_bind_apply, known, on]
            rfl
          cases (Exec.ComesTo.done_iff off).mp comes
          exact .off known on
      | true =>
          rcases ran : Method.writeData (call.env false) id call.data before.log
            with ⟨failure | value, reached⟩
          · have write := @step_write _ _ call before id
            rw [ran] at write
            rw [Exec.ComesTo.next_iff (step_find_on known on)] at comes
            cases (Exec.ComesTo.stop_iff write).mp comes
            exact .failed known on ran
          · exact ends_of_wrote known on ran
              ((completes_iff known on ran).mp completes)

end Completes

/-! ## The log -/

section Log

variable {τ : Type} [DecidableEq τ] {call : WriteCall τ}
  {before after : Shared τ} {outcome : Except Failure Unit}

def served (left : List ((ι × WriteCall τ) × Except Failure Unit)) :
    List (Env × Request) :=
  left.map fun entry => entry.1.2.request

omit [DecidableEq τ] in
theorem served_concat {ι : Type}
    (left : List ((ι × WriteCall τ) × Except Failure Unit))
    (entry : (ι × WriteCall τ) × Except Failure Unit) :
    served (left ++ [entry]) = served left ++ [entry.1.2.request] :=
  List.map_append

theorem perform_write_known {env : Env} {name data : Bytes} {id : UInt16}
    {log : ZzDataLog} (known : log.idMap.lookup name = some id)
    (on : log.zzDataLogOn = true) :
    (perform (env, .write name data) log).2 =
      (Method.writeData env id data log).2 := by
  apply perform_sample
  rw [Request.sample, on, known]
  rfl

theorem perform_write_unsampled {env : Env} {name data : Bytes}
    {log : ZzDataLog} (none : (Request.write name data).sample log = none) :
    (perform (env, .write name data) log).2 = log := by
  refine (returns_none_apply _ _).trans ?_
  rcases @Method.write_none log env _ _ none with ⟨reason, same⟩ | same
  · rw [same]
  · rw [same]

/-- The log is what `Write` alone makes of it. -/
theorem WriteCall.Ends.log (ends : call.Ends before outcome after) :
    after.log = (perform call.request before.log).2 := by
  cases ends with
  | unknown missing =>
      refine (perform_write_unsampled ?_).symm
      rw [Request.sample, missing]
      split <;> rfl
  | off known off =>
      refine (perform_write_unsampled ?_).symm
      rw [Request.sample, off]
      rfl
  | failed known on stopped =>
      exact ((perform_write_known known on).trans
        (congrArg Prod.snd stopped)).symm
  | written known on returned | synced known on returned
  | unsynced known on returned =>
      exact ((perform_write_known known on).trans
        (congrArg Prod.snd returned)).symm

/-- Calls one after the other make of the log what the same requests make of
it. -/
theorem served_log {ι : Type} {start reached : Shared τ}
    {left : List ((ι × WriteCall τ) × Except Failure Unit)}
    (history : WriteCall.monitor.History start left reached) :
    reached.log = Exec.final perform (served left) start.log := by
  refine @Exec.Path.invariant _ _ _ _ _ (fun left shared =>
    shared.log = Exec.final perform (served left) start.log) rfl ?_ _ _ history
  intro left before after call outcome same completes
  rw [(WriteCall.ends_of_completes completes).log, same, served_concat,
    Exec.final_append]
  rfl

end Log

end ZzDataLog

end UlogCpp
