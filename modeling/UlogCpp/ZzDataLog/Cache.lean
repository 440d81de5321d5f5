import UlogCpp.ZzDataLog.Arguments
import UlogCpp.ZzDataLog.Handles

namespace UlogCpp

/-! What `Init` keeps for the files that are begun later. -/

theorem SimpleWriter.writeInfo_late {simple : SimpleWriter}
    (complete : simple.headerComplete = true) (key : Bytes)
    (value : InfoValue) :
    Method.writeInfo key value simple =
      (.error (.usage (ascii "Header already complete")), simple) := by
  refine Exec.bind_error ?_ _
  unfold headerOpen throwUsageIf
  rw [Exec.get_bind_apply, if_pos complete]
  rfl

namespace ZzDataLog

structure InitCall where
  key : Bytes
  keyValue : Bytes
  allStructs : List StructInfo
  deriving DecidableEq

def InitCall.perform (call : InitCall) : Method Unit :=
  Method.init call.key call.keyValue call.allStructs

def InitCall.IsNarrow (call : InitCall) : Prop :=
  Narrow call.key call.keyValue call.allStructs

/-- The next file begins with what `Init` has written to the current one, and
the tables are those of the current one. -/
structure Repeats (env : Env) (before reached next : ZzDataLog) : Prop where
  output : ∃ written, reached.output = before.output ++ written ∧
    next.output =
      (SimpleWriter.constructed env.timeUs).writer.output ++ written
  headerComplete : next.headerComplete = reached.headerComplete
  formats : next.formats = reached.formats
  subscriptions : next.subscriptions = reached.subscriptions
  idMap : next.idMap = reached.idMap

/-- The parameters that are kept are those of the call, if it returns, and the
earlier ones, if it throws. -/
structure Reflects (log : ZzDataLog) (call : InitCall) : Prop where
  unchanged : ∀ failure reached,
    call.perform log = (.error failure, reached) →
      reached.initParams = log.initParams
  cached : ∀ reached, call.perform log = (.ok (), reached) →
    reached.initParams =
      { log.initParams with
        key := call.key
        keyValue := call.keyValue
        allStructs := call.allStructs }
  replayed : ∀ reached, call.perform log = (.ok (), reached) →
    ∀ (env : Env) (later : ZzDataLog),
      later.initParams = reached.initParams → CanRotate env later →
        ∃ next, Method.rotate env later = (.ok (), next) ∧
          Repeats env log reached next

/-- The call has no effect on the parameters, or is right from the start. -/
def Consistent (log : ZzDataLog) (call : InitCall) : Prop :=
  call.key = [] ∨ call.keyValue = [] ∨
    if log.headerComplete then
      log.initParams.key = call.key ∧ log.initParams.keyValue = call.keyValue
    else Acceptable call.key call.keyValue call.allStructs

section Cache

variable {log reached : ZzDataLog} {key keyValue : Bytes}
  {structs : List StructInfo} {call : InitCall}

/-! ## Calls that throw -/

theorem init_keyless (keyless : key = [] ∨ keyValue = []) :
    ∃ failure, Method.init key keyValue structs log = (.error failure, log) := by
  have refused : Method.throwIfKeyless key keyValue log = (.error _, log) :=
    congrFun (if_pos keyless) log
  exact ⟨_, Exec.bind_error refused _⟩

theorem shared_initParams {call : SimpleWriter.Call}
    {method : SimpleWriter.Method α} {report : α → Option UInt16} :
    (shared call method report log).2.initParams = log.initParams := by
  cases has : log.writer with
  | none => rw [shared_null has]
  | some writer =>
      rw [shared_apply has]
      rfl

theorem init_keyed (keyed : ¬ (key = [] ∨ keyValue = [])) :
    (Method.init key keyValue structs log).2.initParams.key = key ∧
      (Method.init key keyValue structs log).2.initParams.keyValue =
        keyValue := by
  have keeps : ∀ {α : Type} {call : SimpleWriter.Call}
      {method : SimpleWriter.Method α} {report : α → Option UInt16},
      Exec.Keeps (fun log : ZzDataLog =>
        log.initParams.key = key ∧ log.initParams.keyValue = keyValue)
        (fun _ => True) (shared call method report) := by
    intro α call method report
    apply Exec.Keeps.intro
    intro log kept
    rw [shared_initParams]
    exact ⟨fun _ _ => trivial, kept⟩
  have checks : ∀ {condition : Prop} [Decidable condition] {reason : Bytes},
      Exec.Keeps (fun log : ZzDataLog =>
        log.initParams.key = key ∧ log.initParams.keyValue = keyValue)
        (fun _ => True) (throwUsageIf condition reason) :=
    .ite (.throw trivial) (.pure ())
  unfold Method.init Method.throwIfKeyless throwUsageIf
  rw [if_neg keyed, Exec.pure_bind_apply, Exec.modify_bind_apply]
  refine (Exec.Keeps.outcome (.bind keeps fun _ => ?_) ⟨rfl, rfl⟩).2
  refine .bind (.forM fun struct => ?_) fun _ => .bind keeps fun _ =>
    .forM fun struct => ?_
  · exact .bind checks fun _ => .bind (.modify fun _ => id) fun _ => keeps
  · exact .bind checks fun _ => .bind keeps fun _ => .modify fun _ => id

theorem init_late (complete : log.headerComplete = true)
    (keyed : ¬ (key = [] ∨ keyValue = [])) :
    ∃ failure reached,
      Method.init key keyValue structs log = (.error failure, reached) ∧
        reached.headerComplete = true ∧
        reached.initParams = { log.initParams with key, keyValue } := by
  have late : ∀ log : ZzDataLog, log.headerComplete = true →
      ∃ failure reached, Method.writeInfo key (.string keyValue) log =
        (.error failure, reached) ∧ reached.headerComplete = true ∧
          reached.initParams = log.initParams := by
    intro log complete
    cases has : log.writer with
    | none =>
        refine ⟨.raised (.usage (ascii "Header already complete")), log, ?_,
          complete, rfl⟩
        have refused := @SimpleWriter.writeInfo_late
          (log.core { output := [] }) complete key (.string keyValue)
        simp only [Method.writeInfo, shared, has, refused]
    | some writer =>
        have refused := @SimpleWriter.writeInfo_late (log.core writer) complete
          key (.string keyValue)
        rw [Method.writeInfo, shared_apply has, refused]
        exact ⟨_, _, rfl, complete, rfl⟩
  obtain ⟨failure, reached, refused, still, same⟩ :=
    late (log.withParams { log.initParams with key, keyValue }) complete
  refine ⟨failure, reached, ?_, still, same⟩
  unfold Method.init Method.throwIfKeyless throwUsageIf
  rw [if_neg keyed, Exec.pure_bind_apply, Exec.modify_bind_apply]
  exact Exec.bind_error refused _

/-! ## Calls that return -/

/-- What has been written to the one file is written to the other. -/
theorem init_repeats {image : ZzDataLog} {env : Env} {fileName : Bytes}
    (new : IsNew log) (renewed : IsNew image)
    (header : image.output =
      (SimpleWriter.constructed env.timeUs).writer.output)
    (returned : Method.init key keyValue structs log = (.ok (), reached)) :
    ∃ next,
      Method.initWith { fileName, key, keyValue, allStructs := structs } image =
          (.ok (), next) ∧
        Repeats env log reached next := by
  have first := @initWith_of_init _ _ _ _ _ fileName returned
  have second := renewed.initWith_apply
    { fileName, key, keyValue, allStructs := structs }
  rw [new.initWith_apply] at first
  rcases ran : Method.initWith
      { fileName, key, keyValue, allStructs := structs } (blank true) with
    ⟨outcome, written⟩
  rw [ran] at first second
  obtain ⟨rfl, same⟩ := Prod.mk.inj first
  obtain ⟨core, is, _⟩ := init_ok new.subscriptions returned
  have moved : written.writer.map (Writer.after log.output) =
      some core.writer := by
    have writers := congrArg ZzDataLog.writer same
    rwa [is] at writers
  obtain ⟨writer, wrote, _⟩ := Option.map_eq_some_iff.mp moved
  have outputs := congrArg output same
  have complete := congrArg ZzDataLog.headerComplete same
  have formats := congrArg ZzDataLog.formats same
  have subscriptions := congrArg ZzDataLog.subscriptions same
  have idMap := congrArg ZzDataLog.idMap same
  rw [output_moveTo _ _ wrote] at outputs
  refine ⟨_, second, ⟨writer.output, outputs.symm, ?_⟩, complete, formats,
    subscriptions, idMap⟩
  rw [output_moveTo _ _ wrote, header]

/-! ## Histories -/

structure Fresh (log : ZzDataLog) : Prop where
  new : IsNew log
  keyless : log.initParams.key = []
  structless : log.initParams.allStructs = []

theorem fresh_made (constructor : Constructor) (env : Env)
    (zzDataLogOn : Bool) : Fresh (constructor.made env zzDataLogOn) := by
  refine ⟨isNew_made constructor env zzDataLogOn, ?_, ?_⟩ <;>
    cases constructor <;> rfl

theorem reflects_stopped_iff {failure : Failure}
    (stopped : call.perform log = (.error failure, reached)) :
    Reflects log call ↔ reached.initParams = log.initParams := by
  constructor
  · intro reflects
    exact reflects.unchanged failure reached stopped
  · intro same
    refine ⟨fun other final ran => ?_, fun final ran => ?_, fun final ran => ?_⟩
    · cases stopped.symm.trans ran
      exact same
    · cases stopped.symm.trans ran
    · cases stopped.symm.trans ran

theorem reflects_keyless (keyless : call.key = [] ∨ call.keyValue = []) :
    Reflects log call := by
  obtain ⟨failure, refused⟩ := @init_keyless log _ _ call.allStructs keyless
  exact (reflects_stopped_iff refused).mpr rfl

theorem Fresh.reflects (fresh : Fresh log)
    (returned : call.perform log = (.ok (), reached)) : Reflects log call := by
  obtain ⟨core, is, _⟩ := init_ok fresh.new.subscriptions returned
  have cached : reached.initParams =
      { log.initParams with
        key := call.key
        keyValue := call.keyValue
        allStructs := call.allStructs } := by
    rw [is, fresh.structless, List.nil_append]
  refine ⟨fun failure other ran => ?_, fun other ran => ?_,
    fun other ran env later same can => ?_⟩
  · cases returned.symm.trans ran
  · cases returned.symm.trans ran
    exact cached
  · cases returned.symm.trans ran
    obtain ⟨⟨name, file⟩, ⟨newFilename, generated⟩, opens⟩ := can
    have rotated := Method.rotate_opened file generated opens
    rw [same, cached] at rotated
    obtain ⟨next, again, repeats⟩ := @init_repeats log reached _ _ _ _ env
      newFilename fresh.new (isNew_reopened later env name newFilename
        ((later.writer.map Writer.output).getD [])) rfl returned
    exact ⟨next, rotated.trans again, repeats⟩

/-- In a new file the first call with a key reflects its arguments exactly if
they are acceptable, since otherwise it throws with the key kept. -/
theorem Fresh.reflects_iff (fresh : Fresh log) (narrow : call.IsNarrow)
    (keyed : call.key ≠ []) (valued : call.keyValue ≠ []) :
    Reflects log call ↔
      Acceptable call.key call.keyValue call.allStructs := by
  have decided : Exec.Decides (Acceptable call.key call.keyValue call.allStructs)
      (fun _ => True) (call.perform log) :=
    init_decides fresh.new narrow
  rcases ran : call.perform log with ⟨failure | _, reached⟩
  · refine iff_of_false (fun reflects => ?_) (decided.of_error ran)
    have same := (reflects_stopped_iff ran).mp reflects
    obtain ⟨kept, _⟩ := @init_keyed log call.key call.keyValue call.allStructs
      (not_or.mpr ⟨keyed, valued⟩)
    have here : (call.perform log).2.initParams.key = call.key := kept
    rw [ran, same, fresh.keyless] at here
    exact keyed here.symm
  · exact iff_of_true (fresh.reflects ran) (decided.of_ok ran).1

/-- After the header every call with a key throws, and keeps it. -/
theorem reflects_late_iff (complete : log.headerComplete = true)
    (keyed : call.key ≠ []) (valued : call.keyValue ≠ []) :
    Reflects log call ↔
      log.initParams.key = call.key ∧
        log.initParams.keyValue = call.keyValue := by
  obtain ⟨failure, reached, refused, _, kept⟩ :=
    @init_late log call.key call.keyValue call.allStructs complete
      (not_or.mpr ⟨keyed, valued⟩)
  rw [reflects_stopped_iff refused, kept]
  constructor
  · intro same
    exact ⟨(congrArg InitParams.key same).symm,
      (congrArg InitParams.keyValue same).symm⟩
  · rintro ⟨key, keyValue⟩
    rw [← key, ← keyValue]

theorem reflects_iff (known : Fresh log ∨ log.headerComplete = true)
    (narrow : call.IsNarrow) :
    Reflects log call ↔ Consistent log call := by
  unfold Consistent
  by_cases keyed : call.key = []
  · exact iff_of_true (reflects_keyless (.inl keyed)) (.inl keyed)
  by_cases valued : call.keyValue = []
  · exact iff_of_true (reflects_keyless (.inr valued)) (.inr (.inl valued))
  rw [or_iff_right keyed, or_iff_right valued]
  rcases known with fresh | complete
  · rw [fresh.new.headerComplete]
    exact fresh.reflects_iff narrow keyed valued
  · rw [if_pos complete]
    exact reflects_late_iff complete keyed valued

/-- A call that reflects its arguments leaves a new log as it is, or completes
the header. -/
theorem Reflects.kept (reflects : Reflects log call)
    (known : Fresh log ∨ log.headerComplete = true) (narrow : call.IsNarrow) :
    Fresh (call.perform log).2 ∨ (call.perform log).2.headerComplete = true := by
  by_cases keyless : call.key = [] ∨ call.keyValue = []
  · obtain ⟨failure, refused⟩ := @init_keyless log _ _ call.allStructs keyless
    have stopped : call.perform log = (.error failure, log) := refused
    rwa [stopped]
  · rcases known with fresh | complete
    · obtain ⟨keyed, valued⟩ := not_or.mp keyless
      have acceptable := (fresh.reflects_iff narrow keyed valued).mp reflects
      have decided := init_decides fresh.new narrow
      obtain ⟨_, reached, returned⟩ := decided.returns_iff.mpr acceptable
      obtain ⟨core, is, header, _⟩ := init_ok fresh.new.subscriptions returned
      have ran : call.perform log = (.ok (), reached) := returned
      rw [ran, is]
      exact .inr header
    · obtain ⟨failure, reached, refused, still, _⟩ :=
        @init_late log call.key call.keyValue call.allStructs complete keyless
      have ran : call.perform log = (.error failure, reached) := refused
      rw [ran]
      exact .inr still

end Cache

/-- The parameters that are kept are those of the `Init` that has succeeded
throughout exactly the histories in which each call is consistent. -/
theorem reflects_throughout_iff {constructor : Constructor} {env : Env}
    {zzDataLogOn : Bool} {made : ZzDataLog}
    (constructs : Method.construct env constructor { zzDataLogOn } =
      (.ok (), made)) {calls : List InitCall}
    (narrow : ∀ call ∈ calls, call.IsNarrow) :
    Exec.Throughout InitCall.perform Reflects calls made ↔
      Exec.Throughout InitCall.perform Consistent calls made := by
  refine @Exec.throughout_iff _ _ _ _ _
    (fun log => Fresh log ∨ log.headerComplete = true) _ _ _ ?_ ?_ _ ?_
  · exact fun mem known => reflects_iff known (narrow _ mem)
  · exact fun mem known reflects => reflects.kept known (narrow _ mem)
  · rw [construct_ok constructs]
    exact .inl (fresh_made constructor env zzDataLogOn)

theorem reflects_throughout_iff_numberedFile :
    let made := (Method.construct fair numberedFile { zzDataLogOn := true }).2
    Exec.Throughout InitCall.perform Reflects
        [⟨[107], [118], [timeStruct]⟩, ⟨[107], [118], []⟩] made ↔
      Exec.Throughout InitCall.perform Consistent
        [⟨[107], [118], [timeStruct]⟩, ⟨[107], [118], []⟩] made :=
  reflects_throughout_iff (Prod.ext (by decide +kernel) rfl)
    (List.forall_mem_cons.mpr
      ⟨⟨by decide +kernel, by decide +kernel, by decide +kernel⟩,
        List.forall_mem_singleton.mpr
          ⟨by decide +kernel, by decide +kernel, by decide +kernel⟩⟩)

def spacedStruct : StructInfo where
  messageName := ascii "m m"
  fields := timeStruct.fields

def attempted : ZzDataLog :=
  (InitCall.perform ⟨[107], [118], [spacedStruct]⟩
    (numberedFile.made fair true)).2

def retried : ZzDataLog :=
  (InitCall.perform ⟨[107], [118], [timeStruct]⟩ attempted).2

/-- The struct of an `Init` that has thrown is replayed after the next one has
succeeded, where it throws again. -/
theorem not_reflects_throughout :
    ¬ ∀ (constructor : Constructor) (env : Env) (zzDataLogOn : Bool)
      (made : ZzDataLog) (calls : List InitCall),
      Method.construct env constructor { zzDataLogOn } = (.ok (), made) →
        Exec.Throughout InitCall.perform Reflects calls made := by
  intro always
  obtain ⟨_, second, _⟩ := always numberedFile fair true
    (numberedFile.made fair true)
    [⟨[107], [118], [spacedStruct]⟩, ⟨[107], [118], [timeStruct]⟩]
    (Prod.ext (by decide +kernel) rfl)
  have returned : InitCall.perform ⟨[107], [118], [timeStruct]⟩ attempted =
      (.ok (), retried) := Prod.ext (by decide +kernel) rfl
  have can : CanRotate fair retried :=
    ⟨⟨ascii "a.1.ulg", by decide +kernel⟩,
      ⟨ascii "a.2.ulg", by decide +kernel⟩, rfl⟩
  have throws : (Method.rotate fair retried).1 ≠ .ok () := by decide +kernel
  obtain ⟨next, rotated, _⟩ := second.replayed retried returned fair retried rfl
    can
  exact throws (congrArg Prod.fst rotated)

end ZzDataLog

end UlogCpp
