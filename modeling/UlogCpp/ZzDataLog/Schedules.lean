import UlogCpp.ZzDataLog.Serving
import UlogCpp.ZzDataLog.Syncing

namespace UlogCpp

/-! `Write` under any schedule of the threads that call it. -/

namespace ZzDataLog

/-! ## The files -/

section Files

variable {τ : Type} [DecidableEq τ] {call : WriteCall τ}
  {before after : Shared τ} {outcome : Except Failure Unit}
  {base key keyValue : Bytes} {structs : List StructInfo} {value : Nat}

theorem Serving.ends
    (serving : Serving base key keyValue structs value before.log)
    (suits : Suits key keyValue structs) (opens : call.opens = true)
    (small : startsFile before.log call.request = true → value + 1 < 2 ^ 31)
    (ends : call.Ends before outcome after) :
    (¬ Covers structs call.messageName call.data ∧
        (∃ reason, outcome = .error (.raised (.usage reason))) ∧
        after.log = before.log) ∨
      (Covers structs call.messageName call.data ∧ outcome = .ok () ∧
        ∃ (id : UInt16) (struct : StructInfo), structs[id.toNat]? = some struct ∧
          struct.messageName = call.messageName ∧
          Serving base key keyValue structs
            (value + if startsFile before.log call.request then 1 else 0)
            after.log ∧
          after.log.written = before.log.written ++
            [(id, call.data.take (SimpleWriter.messageSize struct.fields))]) := by
  by_cases covers : Covers structs call.messageName call.data
  · obtain ⟨id, struct, reached, known, here, named, returned, next, written⟩ :=
      serving.adds suits opens small covers
    refine .inr ⟨covers, ?_⟩
    cases ends with
    | unknown missing => cases missing.symm.trans known
    | off _ off => cases off.symm.trans serving.on
    | failed also on stopped =>
        cases also.symm.trans known
        cases stopped.symm.trans returned
    | written also on wrote early | synced also on wrote tenth =>
        cases also.symm.trans known
        cases wrote.symm.trans returned
        exact ⟨rfl, id, struct, here, named, next, written⟩
    | unsynced also on wrote tenth dangling =>
        cases also.symm.trans known
        cases wrote.symm.trans returned
        rw [next.fsync] at dangling
        cases dangling
  · refine .inl ⟨covers, ?_⟩
    cases ends with
    | unknown missing => exact ⟨⟨_, rfl⟩, rfl⟩
    | off _ off => cases off.symm.trans serving.on
    | failed known on stopped =>
        obtain ⟨reason, failed⟩ := serving.refused suits covers known
          (call.env false)
        cases stopped.symm.trans failed
        exact ⟨⟨reason, rfl⟩, rfl⟩
    | written known on wrote | synced known on wrote | unsynced known on wrote =>
        obtain ⟨reason, failed⟩ := serving.refused suits covers known
          (call.env false)
        cases wrote.symm.trans failed

theorem rotations_concat (requests : List (Env × Request))
    (request : Env × Request) (log : ZzDataLog) :
    rotations (requests ++ [request]) log = rotations requests log +
      if startsFile (Exec.final perform requests log) request then 1 else 0 := by
  induction requests generalizing log with
  | nil => exact Nat.add_comm _ _
  | cons first requests ih =>
      rw [List.cons_append, rotations, rotations, ih, Nat.add_assoc]
      rfl

def valueLeft (name : Bytes) :
    (ι × WriteCall τ) × Except Failure Unit → Option Bytes
  | ((_, call), .ok _) =>
      if call.messageName = name then some call.data else none
  | (_, .error _) => none

def valuesLeft (name : Bytes)
    (left : List ((ι × WriteCall τ) × Except Failure Unit)) : List Bytes :=
  left.filterMap (valueLeft name)

/-- A call is refused exactly if its value does not cover a struct. -/
def Answered (structs : List StructInfo)
    (entry : (ι × WriteCall τ) × Except Failure Unit) : Prop :=
  if Covers structs entry.1.2.messageName entry.1.2.data then entry.2 = .ok ()
  else ∃ reason, entry.2 = .error (.raised (.usage reason))

structure Kept (base key keyValue : Bytes) (structs : List StructInfo)
    (value : Nat) (begun : ZzDataLog)
    (left : List ((ι × WriteCall τ) × Except Failure Unit))
    (log : ZzDataLog) : Prop where
  serving : ∃ last ≤ value + rotations (served left) begun,
    Serving base key keyValue structs last log
  written : ∃ samples, log.written = begun.written ++ samples ∧
    ∀ name, samplesNamed structs name samples =
      (valuesLeft name left).map (List.take (begun.messageSizeOf name))
  answered : ∀ entry ∈ left, Answered structs entry

omit [DecidableEq τ] in
theorem valuesLeft_concat {ι : Type} {name : Bytes}
    {left : List ((ι × WriteCall τ) × Except Failure Unit)}
    {entry : (ι × WriteCall τ) × Except Failure Unit} :
    valuesLeft name (left ++ [entry]) =
      valuesLeft name left ++ (valueLeft name entry).toList := by
  rw [valuesLeft, List.filterMap_append, List.filterMap_cons]
  cases valueLeft name entry <;> rfl

theorem samplesNamed_singleton {id : UInt16} {data name : Bytes}
    {struct : StructInfo} (known : structs[id.toNat]? = some struct) :
    samplesNamed structs name [(id, data)] =
      if struct.messageName = name then [data] else [] :=
  samplesNamed_cons known

namespace Kept

variable {ι : Type} {begun log reached : ZzDataLog} {thread : ι}
  {left : List ((ι × WriteCall τ) × Except Failure Unit)}
  (kept : Kept base key keyValue structs value begun left log)

include kept

omit [DecidableEq τ] in
theorem refused (uncovered : ¬ Covers structs call.messageName call.data)
    (reason : Bytes) :
    Kept base key keyValue structs value begun
      (left ++ [((thread, call), .error (.raised (.usage reason)))]) log := by
  obtain ⟨⟨last, bound, serving⟩, ⟨samples, whole, same⟩, answered⟩ := kept
  refine ⟨⟨last, bound.trans ?_, serving⟩, ⟨samples, whole, fun name => ?_⟩, ?_⟩
  · rw [served_concat, rotations_concat]
    exact Nat.add_le_add_left (Nat.le_add_right _ _) value
  · rw [valuesLeft_concat, same]
    exact congrArg _ (List.append_nil _).symm
  · refine List.forall_mem_append.mpr
      ⟨answered, List.forall_mem_singleton.mpr ?_⟩
    rw [Answered, if_neg uncovered]
    exact ⟨reason, rfl⟩

omit [DecidableEq τ] in
theorem wrote (covers : Covers structs call.messageName call.data)
    {last : Nat} (bound : last ≤ value +
      rotations (served (left ++ [((thread, call), .ok ())])) begun)
    (next : Serving base key keyValue structs last reached) {id : UInt16}
    {struct : StructInfo} (known : structs[id.toNat]? = some struct)
    (named : struct.messageName = call.messageName)
    (size : begun.messageSizeOf struct.messageName =
      SimpleWriter.messageSize struct.fields)
    (more : reached.written = log.written ++
      [(id, call.data.take (SimpleWriter.messageSize struct.fields))]) :
    Kept base key keyValue structs value begun
      (left ++ [((thread, call), .ok ())]) reached := by
  obtain ⟨_, ⟨samples, whole, same⟩, answered⟩ := kept
  refine ⟨⟨last, bound, next⟩, ⟨samples ++
    [(id, call.data.take (SimpleWriter.messageSize struct.fields))], ?_, ?_⟩, ?_⟩
  · rw [more, whole, List.append_assoc]
  · intro name
    rw [samplesNamed_append, same, samplesNamed_singleton known,
      valuesLeft_concat, List.map_append, valueLeft, ← named]
    by_cases this : struct.messageName = name
    · rw [if_pos this, if_pos this, ← size, this]
      rfl
    · rw [if_neg this, if_neg this]
      rfl
  · refine List.forall_mem_append.mpr
      ⟨answered, List.forall_mem_singleton.mpr ?_⟩
    rw [Answered, if_pos covers]

end Kept

theorem kept_history {ι : Type} {start reached : Shared τ}
    {left : List ((ι × WriteCall τ) × Except Failure Unit)}
    (serving : Serving base key keyValue structs value start.log)
    (suits : Suits key keyValue structs)
    (history : WriteCall.monitor.History start left reached)
    (opens : ∀ entry ∈ left, entry.1.2.opens = true)
    (below : value + rotations (served left) start.log < 2 ^ 31 - 1) :
    Kept base key keyValue structs value start.log left reached.log := by
  induction history with
  | start =>
      refine ⟨⟨value, Nat.le_add_right _ _, serving⟩,
        ⟨[], (List.append_nil _).symm, fun _ => rfl⟩, List.forall_mem_nil _⟩
  | @step left before after call outcome path completes ih =>
      obtain ⟨thread, call⟩ := call
      obtain ⟨earlier, here⟩ := List.forall_mem_append.mp opens
      have total : rotations (served (left ++ [((thread, call), outcome)]))
          start.log = rotations (served left) start.log +
            if startsFile before.log call.request then 1 else 0 := by
        rw [served_concat, rotations_concat, ← served_log path]
      rw [total] at below
      have kept := ih earlier (by omega)
      obtain ⟨last, bound, now⟩ := kept.serving
      have ends := now.ends suits (here _ List.mem_cons_self)
        (fun starts => by rw [if_pos starts] at below; omega)
        (WriteCall.ends_of_completes completes)
      rcases ends with ⟨uncovered, ⟨reason, rfl⟩, same⟩ |
        ⟨covers, rfl, id, struct, known, named, next, more⟩
      · rw [same]
        exact kept.refused uncovered reason
      · apply kept.wrote covers _ next known named _ more
        · rw [total, ← Nat.add_assoc]
          exact Nat.add_le_add_right bound _
        · exact serving.toRolling.messageSizeOf (List.mem_of_getElem? known)

end Files

/-! ## Two threads -/

def timed (value : UInt8) : WriteCall Unit where
  type := ()
  messageName := [109]
  data := .replicate 8 value

def eightCounted : Shared Unit where
  log := begun firstFile [timeStruct]
  counts _ := 8

def timedPrograms (thread : Bool) : List (WriteCall Unit) :=
  [timed (if thread then 1 else 2)]

def firstTimed : ZzDataLog :=
  (Method.writeData ((timed 1).env false) 0 (.replicate 8 1)
    (begun firstFile [timeStruct])).2

def secondTimed : ZzDataLog :=
  (Method.writeData ((timed 2).env false) 0 (.replicate 8 2) firstTimed).2

theorem firstTimed_completes :
    WriteCall.monitor.Completes eightCounted (timed 1) (.ok ())
      (eightCounted.wrote (timed 1) firstTimed) := by
  have ready : (begun firstFile [timeStruct]).idMap.lookup [109] = some 0 ∧
      (begun firstFile [timeStruct]).zzDataLogOn = true ∧
      (Method.writeData ((timed 1).env false) 0 (.replicate 8 1)
        (begun firstFile [timeStruct])).1 = .ok () := by
    decide +kernel
  obtain ⟨known, on, returned⟩ := ready
  refine (@WriteCall.completes_iff _ _ (timed 1) eightCounted _ _ 0 firstTimed
    known on (Prod.ext returned rfl)).mpr ?_
  rw [WriteCall.wrote_comesTo, if_neg (by decide)]

theorem secondTimed_completes :
    WriteCall.monitor.Completes (eightCounted.wrote (timed 1) firstTimed)
      (timed 2) (.ok ())
      ((((eightCounted.wrote (timed 1) firstTimed).wrote (timed 2)
        secondTimed).cleared (timed 2)).synced (timed 2)) := by
  have ready : firstTimed.idMap.lookup [109] = some 0 ∧
      firstTimed.zzDataLogOn = true ∧
      (Method.writeData ((timed 2).env false) 0 (.replicate 8 2)
        firstTimed).1 = .ok () ∧ (Method.fsync secondTimed).1 = .ok () := by
    decide +kernel
  obtain ⟨known, on, returned, flushed⟩ := ready
  refine (@WriteCall.completes_iff _ _ (timed 2)
    (eightCounted.wrote (timed 1) firstTimed) _ _ 0 secondTimed
    known on (Prod.ext returned rfl)).mpr ?_
  have tenth : (eightCounted.wrote (timed 1) firstTimed).counts () + 1 = 10 := rfl
  rw [WriteCall.wrote_comesTo, if_pos tenth]
  have fsync := @WriteCall.step_fsync _ _ (timed 2)
    (((eightCounted.wrote (timed 1) firstTimed).wrote (timed 2)
      secondTimed).cleared (timed 2))
  have log : (((eightCounted.wrote (timed 1) firstTimed).wrote (timed 2)
      secondTimed).cleared (timed 2)).log = secondTimed := rfl
  rw [log, flushed] at fsync
  exact (Exec.ComesTo.done_iff fsync).mpr rfl

theorem timed_reachable :
    ∃ threads : Threads Bool (WriteCall Unit) Failure (Shared Unit) WritePoint,
      Threads.Reachable WriteCall.monitor eightCounted timedPrograms threads ∧
      threads.owner = none ∧
      threads.left =
        [((true, timed 1), .ok ()), ((false, timed 2), .ok ())] := by
  have start : Threads.Reachable WriteCall.monitor eightCounted timedPrograms
      (Threads.begin eightCounted timedPrograms) := .refl
  have first := @Threads.Reachable.complete _ _ _ _ _ _ _ _ _ _ start rfl true
    (timed 1) [] rfl _ _ firstTimed_completes nofun
  exact ⟨_, @Threads.Reachable.complete _ _ _ _ _ _ _ _ _ _ first rfl false
    (timed 2) [] rfl _ _ secondTimed_completes nofun, rfl, rfl⟩

theorem suits_timeStruct : Suits [107] [118] [timeStruct] :=
  ⟨⟨by decide, by decide +kernel, by decide +kernel⟩, by decide,
    by decide +kernel⟩

theorem timed_constructs :
    Method.construct fair (.file (fileName [97] [49])) { zzDataLogOn := true } =
      (.ok (), firstFile.made fair true) :=
  Prod.ext (by decide +kernel) rfl

theorem timed_begins :
    perform (fair, .init [107] [118] [timeStruct]) (firstFile.made fair true) =
      (.ok none, begun firstFile [timeStruct]) :=
  Prod.ext (by decide +kernel) rfl

/-! ## Schedules -/

section Schedules

variable {ι τ : Type} [DecidableEq ι] [DecidableEq τ] {counts : τ → Nat}
  {programs : ι → List (WriteCall τ)}
  {threads : Threads ι (WriteCall τ) Failure (Shared τ) WritePoint}

/-- Threads call `Write` after `Init`, in any order of their steps. Whenever none
is inside a call, readers of the files find the values of the calls that have
returned, each once and in the order of the calls, and nothing else. -/
theorem threads_transparent {base version key keyValue : Bytes} {value : Nat}
    {env initEnv : Env} {structs : List StructInfo} {made begun : ZzDataLog}
    (numeral : Numeral version value)
    (constructs : Method.construct env (.file (fileName base version))
      { zzDataLogOn := true } = (.ok (), made))
    (begins : perform (initEnv, .init key keyValue structs) made =
      (.ok none, begun))
    (suits : Suits key keyValue structs)
    (reachable : Threads.Reachable WriteCall.monitor { log := begun, counts }
      programs threads)
    (free : threads.owner = none)
    (opens : ∀ entry ∈ threads.left, entry.1.2.opens = true)
    (below : value + rotations (served threads.left) begun < 2 ^ 31 - 1) :
    (∀ thread,
      threads.leftBy thread ++ threads.program thread = programs thread) ∧
    (∀ entry ∈ threads.left, Answered structs entry) ∧
    ∃ containers,
      List.Forall₂ ReadsAs threads.object.log.files containers ∧
      (∀ container ∈ containers, container.parsingErrors = []) ∧
      ∀ name, containers.flatMap (DataContainer.payloads name) =
        (valuesLeft name threads.left).map
          (List.take (messageSizeOf begun name)) := by
  obtain ⟨_, _, returned, rest⟩ := Exec.bind_eq_ok.mp begins
  cases rest
  obtain ⟨serving, empty, fields⟩ :=
    serving_of_init numeral constructs suits returned
  obtain ⟨⟨last, _, final⟩, ⟨samples, whole, same⟩, answered⟩ :=
    kept_history serving suits (reachable.history free) opens below
  obtain ⟨containers, reads, errors, payloads⟩ := final.reads suits fields
  refine ⟨reachable.leftBy_append free, answered, containers, reads, errors, ?_⟩
  intro name
  rw [payloads, whole, empty, List.nil_append, same]

end Schedules

theorem threads_transparent_timed :
    ∃ threads : Threads Bool (WriteCall Unit) Failure (Shared Unit) WritePoint,
      threads.left =
        [((true, timed 1), .ok ()), ((false, timed 2), .ok ())] ∧
      ∃ containers,
        List.Forall₂ ReadsAs threads.object.log.files containers ∧
        (∀ container ∈ containers, container.parsingErrors = []) ∧
        ∀ name, containers.flatMap (DataContainer.payloads name) =
          (valuesLeft name threads.left).map
            (List.take (messageSizeOf (begun firstFile [timeStruct]) name)) := by
  obtain ⟨threads, reachable, free, left⟩ := timed_reachable
  have shown := threads_transparent numeral_one timed_constructs timed_begins
    suits_timeStruct reachable free (by rw [left]; decide)
    (by rw [left]; decide +kernel)
  exact ⟨threads, left, shown.2.2⟩

section Schedules

variable {ι τ : Type} [DecidableEq ι] [DecidableEq τ] {counts : τ → Nat}
  {programs : ι → List (WriteCall τ)}
  {threads : Threads ι (WriteCall τ) Failure (Shared τ) WritePoint}

/-- Whatever has been called on the object before, and in whatever order threads
call `Write`: `fsync` follows on every tenth write of a type, and so there are
at most nine which it has not followed on. -/
theorem threads_synced {constructor : Constructor} {env : Env}
    {zzDataLogOn : Bool} {made : ZzDataLog} {requests : List (Env × Request)}
    {type : τ}
    (constructs : Method.construct env constructor { zzDataLogOn } =
      (.ok (), made))
    (few : counts type < 10)
    (reachable : Threads.Reachable WriteCall.monitor
      { log := Exec.final perform requests made, counts } programs threads)
    (free : threads.owner = none) :
    threads.object.counts type =
      (counts type + threads.object.events.count (.wrote type)) % 10 ∧
    threads.object.events.count (.synced type) =
      (counts type + threads.object.events.count (.wrote type)) / 10 ∧
    Unsynced type threads.object.events 9 := by
  have flushable : Flushable (Exec.final perform requests made) := by
    apply Exec.final_invariant
    · exact fun _ flushable => flushable.perform _
    · cases construct_ok constructs
      cases constructor <;> exact .inr nofun
  obtain ⟨count, syncs, recent⟩ :=
    counted_history flushable few rfl (reachable.history free)
  refine ⟨count, syncs, fun earlier later same none => ?_⟩
  have recently := recent earlier later same none
  omega

end Schedules

theorem threads_synced_timed :
    ∃ threads : Threads Bool (WriteCall Unit) Failure (Shared Unit) WritePoint,
      threads.left =
        [((true, timed 1), .ok ()), ((false, timed 2), .ok ())] ∧
      threads.object.counts () =
        (8 + threads.object.events.count (.wrote ())) % 10 ∧
      threads.object.events.count (.synced ()) =
        (8 + threads.object.events.count (.wrote ())) / 10 ∧
      Unsynced () threads.object.events 9 := by
  obtain ⟨threads, reachable, free, left⟩ := timed_reachable
  have shown := @threads_synced _ _ _ _ (fun _ => 8) _ _ _ _ _ _
    [(fair, .init [107] [118] [timeStruct])] () timed_constructs
    (by decide) reachable free
  exact ⟨threads, left, shown⟩

section Schedules

variable {ι τ : Type} [DecidableEq ι] [DecidableEq τ] {counts : τ → Nat}
  {programs : ι → List (WriteCall τ)}
  {threads : Threads ι (WriteCall τ) Failure (Shared τ) WritePoint}

def WritePoint.rank : WritePoint → Nat
  | .find => 5
  | .write _ => 4
  | .fetchAdd => 3
  | .load => 2
  | .store => 1
  | .fsync => 0

theorem WriteCall.rank_lt {call : WriteCall τ} {point next : WritePoint}
    {before reached : Shared τ}
    (moved : call.step point before = (.ok (some next), reached)) :
    next.rank < point.rank := by
  cases point with
  | find =>
      rw [step, Exec.get_bind_apply] at moved
      cases known : before.log.idMap.lookup call.messageName with
      | none =>
          rw [known] at moved
          cases moved
      | some id =>
          rw [known] at moved
          cases on : before.log.zzDataLogOn <;> rw [on] at moved <;> cases moved
          exact Nat.lt_succ_self 4
  | write id =>
      rw [step_write] at moved
      rcases wrote : Method.writeData (call.env false) id call.data before.log
        with ⟨_ | _, _⟩ <;> rw [wrote] at moved <;> cases moved
      exact Nat.lt_succ_self 3
  | fetchAdd =>
      cases moved
      exact Nat.lt_succ_self 2
  | load =>
      rw [step, Exec.get_bind_apply] at moved
      by_cases tenth : before.counts call.type = 10
      · rw [if_pos tenth] at moved
        cases moved
        exact Nat.lt_succ_self 1
      · rw [if_neg tenth] at moved
        cases moved
  | store =>
      cases moved
      exact Nat.lt_succ_self 0
  | fsync =>
      rw [step_fsync] at moved
      cases flushed : (Method.fsync before.log).1 <;> rw [flushed] at moved <;>
        cases moved

theorem alive {base key keyValue : Bytes} {structs : List StructInfo}
    {value : Nat} {start : Shared τ}
    (serving : Serving base key keyValue structs value start.log)
    (suits : Suits key keyValue structs)
    (opens : ∀ thread, ∀ call ∈ programs thread, call.opens = true)
    (reachable : Threads.Reachable WriteCall.monitor start programs threads)
    (below : value + rotations (served threads.left) start.log < 2 ^ 31 - 2) :
    ¬ Threads.Dead WriteCall.monitor threads := by
  rintro ⟨thread, call, point, stop, here, stopped, fatal⟩
  obtain ⟨_, _, start, history, reaches⟩ := reachable.serial.inside here
  have ends := WriteCall.ends_of_completes
    ⟨point, _, reaches, .stop (Prod.ext stopped rfl)⟩
  have kept := kept_history serving suits history
    (fun entry mem => opens _ _ (reachable.mem_left mem)) (by omega)
  obtain ⟨last, bound, now⟩ := kept.serving
  rcases now.ends suits (opens _ _ (reachable.mem_inside here))
    (fun _ => by omega) ends with ⟨_, ⟨reason, same⟩, _⟩ | ⟨_, same, _⟩
  · cases same
    exact fatal rfl
  · cases same

/-- At most one thread is inside `Write`; where no thread can go on, all calls
have been left; and that is what every schedule comes to. -/
theorem threads_finish [Fintype ι] {base version key keyValue : Bytes}
    {value : Nat} {env initEnv : Env} {structs : List StructInfo}
    {made begun : ZzDataLog}
    (numeral : Numeral version value)
    (constructs : Method.construct env (.file (fileName base version))
      { zzDataLogOn := true } = (.ok (), made))
    (begins : perform (initEnv, .init key keyValue structs) made =
      (.ok none, begun))
    (suits : Suits key keyValue structs)
    (opens : ∀ thread, ∀ call ∈ programs thread, call.opens = true)
    (reachable : Threads.Reachable WriteCall.monitor { log := begun, counts }
      programs threads)
    (below : value + rotations (served threads.left) begun < 2 ^ 31 - 2) :
    (∀ thread other, threads.inside thread ≠ none →
      threads.inside other ≠ none → other = thread) ∧
    ((∃ later, Threads.Step WriteCall.monitor threads later) ∨
      ∀ thread, threads.inside thread = none ∧ threads.program thread = [] ∧
        threads.leftBy thread = programs thread) ∧
    ∀ run : Nat → Threads ι (WriteCall τ) Failure (Shared τ) WritePoint,
      ∃ time, ¬ Threads.Step WriteCall.monitor (run time) (run (time + 1)) := by
  obtain ⟨_, _, returned, rest⟩ := Exec.bind_eq_ok.mp begins
  cases rest
  obtain ⟨serving, _⟩ := serving_of_init numeral constructs suits returned
  refine ⟨fun _ _ => reachable.serial.excludes, ?_, fun run => ?_⟩
  · rcases reachable.progress (alive serving suits opens reachable below) with
      more | finished
    · exact .inl more
    · refine .inr fun thread => ⟨(finished thread).1, (finished thread).2, ?_⟩
      have calls := reachable.callsOf thread
      rw [Threads.callsOf, (finished thread).1, (finished thread).2] at calls
      simpa using calls
  · exact Threads.finite_schedule WritePoint.rank 5 WriteCall.rank_lt
      (fun call => Nat.le_refl (WriteCall.monitor.entry call).rank) run

end Schedules

theorem threads_finish_timed :
    ∃ threads : Threads Bool (WriteCall Unit) Failure (Shared Unit) WritePoint,
      threads.left =
        [((true, timed 1), .ok ()), ((false, timed 2), .ok ())] ∧
      ((∃ later, Threads.Step WriteCall.monitor threads later) ∨
        ∀ thread, threads.inside thread = none ∧
          threads.program thread = [] ∧
          threads.leftBy thread = timedPrograms thread) := by
  obtain ⟨threads, reachable, _, left⟩ := timed_reachable
  have shown := threads_finish numeral_one timed_constructs timed_begins
    suits_timeStruct (by decide) reachable (by rw [left]; decide +kernel)
  exact ⟨threads, left, shown.2.1⟩

end ZzDataLog

end UlogCpp
