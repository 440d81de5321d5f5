import UlogCpp.ZzDataLog.Init

namespace UlogCpp

/-! `Init` succeeds again in a new file, since it does not depend on what the
file begins with. -/

namespace Writer

def after (start : Bytes) (writer : Writer) : Writer :=
  { writer with output := start ++ writer.output }

theorem commutes_emit (start : Bytes) (message : Message) :
    Exec.Commutes (after start) (emit message.serialize) := by
  intro writer
  unfold emit Exec.focus after
  rw [message.serialize_append (start ++ writer.output),
    message.serialize_append writer.output, List.append_assoc]

end Writer

namespace SimpleWriter

def after (start : Bytes) (simple : SimpleWriter) : SimpleWriter :=
  { simple with writer := simple.writer.after start }

section Commutes

variable {start : Bytes}

theorem commutes_throwUsageIf (condition : Prop) [Decidable condition]
    (reason : Bytes) :
    Exec.Commutes (after start) (throwUsageIf condition reason) :=
  .ite (.throw _) (.pure ())

theorem commutes_headerOpen : Exec.Commutes (after start) headerOpen :=
  .get_bind (fun _ => rfl) fun _ => commutes_throwUsageIf _ _

theorem commutes_headerClosed : Exec.Commutes (after start) headerClosed :=
  .get_bind (fun _ => rfl) fun _ => commutes_throwUsageIf _ _

theorem commutes_onWriter {handle : Writer.Handle}
    (commutes : Exec.Commutes (Writer.after start) handle) :
    Exec.Commutes (after start) (onWriter handle) :=
  commutes.focus (fun _ => rfl) fun _ _ => rfl

theorem commutes_addSizes (fields : List Field) (size : UInt32) :
    Exec.Commutes (after start) (addSizes size fields) := by
  induction fields generalizing size with
  | nil => exact .pure size
  | cons field fields ih =>
      unfold addSizes
      split
      · exact .throw _
      · exact .bind (commutes_throwUsageIf _ _) fun _ => ih _

theorem commutes_writeInfo (key : Bytes) (value : InfoValue) :
    Exec.Commutes (after start) (Method.writeInfo key value) := by
  apply Exec.Commutes.bind commutes_headerOpen
  intro _
  apply commutes_onWriter
  exact Writer.commutes_emit start (.messageInfo (value.messageInfo key) .info)

theorem commutes_writeFormat (matchesField : Bytes → Bool) (regex name : Bytes)
    (fields : List Field) :
    Exec.Commutes (after start)
      (Method.writeFormat matchesField regex name fields) := by
  apply Exec.Commutes.bind commutes_headerOpen
  intro _
  apply Exec.Commutes.bind (commutes_throwUsageIf _ _)
  intro _
  refine Exec.Commutes.get_bind (fun _ => rfl) fun _ => ?_
  apply Exec.Commutes.bind (commutes_throwUsageIf _ _)
  intro _
  apply Exec.Commutes.bind (commutes_throwUsageIf _ _)
  intro _
  apply Exec.Commutes.bind (.forM fun _ => commutes_throwUsageIf _ _)
  intro _
  apply Exec.Commutes.bind (commutes_addSizes fields 0)
  intro _
  refine Exec.Commutes.bind (.modify fun _ => rfl) fun _ => ?_
  apply commutes_onWriter
  refine Exec.Commutes.get_bind (fun _ => rfl) fun _ => ?_
  apply Exec.Commutes.ite (.throw _)
  exact Writer.commutes_emit start (.messageFormat { name, fields })

theorem commutes_headerComplete :
    Exec.Commutes (after start) Method.headerComplete := by
  apply Exec.Commutes.bind commutes_headerOpen
  intro _
  refine Exec.Commutes.bind (commutes_onWriter (.modify fun _ => rfl))
    fun _ => ?_
  exact .modify fun _ => rfl

theorem commutes_writeAddLoggedMessage (name : Bytes) (multiId : UInt8) :
    Exec.Commutes (after start) (Method.writeAddLoggedMessage name multiId) := by
  apply Exec.Commutes.bind commutes_headerClosed
  intro _
  refine Exec.Commutes.get_bind (fun _ => rfl) fun simple => ?_
  cases simple.formats.lookup name with
  | none => exact .throw _
  | some format =>
      refine Exec.Commutes.bind (.modify fun _ => rfl) fun _ => ?_
      refine Exec.Commutes.bind ?_ fun _ => .pure _
      apply commutes_onWriter
      refine Exec.Commutes.get_bind (fun _ => rfl) fun _ => ?_
      refine Exec.Commutes.ite ?_ (.throw _)
      exact Writer.commutes_emit start (.addLoggedMessage _)

end Commutes

end SimpleWriter

namespace ZzDataLog

open SimpleWriter (Call)

/-- A change of what `Init` does not look at: there are bytes before the output,
and the fields may change that it leaves alone. -/
structure Moves (start : Bytes) (change : ZzDataLog → ZzDataLog) : Prop where
  writer : ∀ log, (change log).writer = log.writer.map (Writer.after start)
  core : ∀ log writer, (change log).core writer = log.core writer
  record : ∀ log core call outcome,
    ((change log).withCore (core.after start)).record call outcome =
      change ((log.withCore core).record call outcome)
  idMap : ∀ log name id,
    { change log with idMap := (change log).idMap.insert name id } =
      change { log with idMap := log.idMap.insert name id }

namespace Moves

variable {start : Bytes} {change : ZzDataLog → ZzDataLog}
  (moves : Moves start change)

include moves

theorem shared {call : Call} {method : SimpleWriter.Method α}
    {report : α → Option UInt16}
    (commutes : Exec.Commutes (SimpleWriter.after start) method) :
    Exec.Commutes change (shared call method report) := by
  intro log
  cases has : log.writer with
  | none =>
      have none : (change log).writer = none := by
        rw [moves.writer, has]
        rfl
      simp only [ZzDataLog.shared, has, none, moves.core]
      split <;> rfl
  | some writer =>
      have moved : (change log).writer = some (writer.after start) := by
        rw [moves.writer, has]
        rfl
      have same : (change log).core (writer.after start) =
          (log.core writer).after start := moves.core log _
      rw [shared_apply has, shared_apply moved, same, commutes]
      exact congrArg (Prod.mk _) (moves.record log _ call _)

omit moves in
theorem throwUsageIf (condition : Prop) [Decidable condition]
    (reason : Bytes) :
    Exec.Commutes change (ZzDataLog.throwUsageIf condition reason) :=
  .ite (.throw _) (.pure ())

theorem writeInfo (key : Bytes) (value : SimpleWriter.InfoValue) :
    Exec.Commutes change (Method.writeInfo key value) :=
  moves.shared (SimpleWriter.commutes_writeInfo key value)

theorem headerComplete : Exec.Commutes change Method.headerComplete :=
  moves.shared SimpleWriter.commutes_headerComplete

theorem writeMessageFormat (name : Bytes) (fields : List Field) :
    Exec.Commutes change (Method.writeMessageFormat name fields) :=
  moves.shared (SimpleWriter.commutes_writeFormat _ _ name fields)

theorem subscribe (messageName : Bytes) :
    Exec.Commutes change (Method.subscribe messageName) := by
  refine Exec.Commutes.bind
    (moves.shared (SimpleWriter.commutes_writeAddLoggedMessage _ _)) fun id => ?_
  exact .modify fun log => moves.idMap log messageName id

theorem initWith (initParams : InitParams) :
    Exec.Commutes change (Method.initWith initParams) := by
  refine Exec.Commutes.bind (Moves.throwUsageIf _ _) fun _ => ?_
  refine Exec.Commutes.bind (moves.writeInfo _ _) fun _ => ?_
  refine Exec.Commutes.bind (.forM fun _ => moves.writeMessageFormat _ _)
    fun _ => ?_
  refine Exec.Commutes.bind moves.headerComplete fun _ => ?_
  exact .forM fun _ => moves.subscribe _

end Moves

section Replay

variable {self reached : ZzDataLog} {structs : List StructInfo}

def withParams (initParams : InitParams) (self : ZzDataLog) : ZzDataLog :=
  { self with initParams }

theorem moves_withParams (initParams : InitParams) :
    Moves [] (withParams initParams) where
  writer log := by
    change log.writer = _
    cases log.writer <;> rfl
  core _ _ := rfl
  record _ _ _ _ := rfl
  idMap _ _ _ := rfl

theorem keptFormats_withParams {initParams : InitParams}
    (returned : (structs.forM fun struct => do
      Exec.modify fun self : ZzDataLog => { self with initParams :=
        { self.initParams with
          allStructs := self.initParams.allStructs ++ [struct] } }
      Method.writeMessageFormat struct.messageName struct.fields) self =
        (.ok (), reached)) :
    (structs.forM fun struct =>
      Method.writeMessageFormat struct.messageName struct.fields)
        (self.withParams initParams) =
      (.ok (), reached.withParams initParams) := by
  induction structs generalizing self with
  | nil =>
      cases returned
      rfl
  | cons struct structs ih =>
      obtain ⟨_, here, later⟩ := Exec.forM_cons_eq_ok.mp returned
      rw [Exec.modify_bind_apply] at here
      have moved := ((moves_withParams initParams).writeMessageFormat _ _).ok here
      exact Exec.forM_cons_eq_ok.mpr ⟨_, moved, ih later⟩

/-- `Init(init_params)` does what `Init(key, key_value, all_structs)` has done
with the same arguments, apart from keeping them. -/
theorem initWith_of_init {key keyValue fileName : Bytes}
    (returned : Method.init key keyValue structs self = (.ok (), reached)) :
    Method.initWith { fileName, key, keyValue, allStructs := structs } self =
      (.ok (), reached.withParams self.initParams) := by
  have moves := moves_withParams self.initParams
  obtain ⟨_, _, checked, rest⟩ := Exec.bind_eq_ok.mp returned
  obtain ⟨_, rfl⟩ := throwUsageIf_ok checked
  rw [Exec.modify_bind_apply] at rest
  obtain ⟨_, _, info, rest⟩ := Exec.bind_eq_ok.mp rest
  obtain ⟨_, _, formats, rest⟩ := Exec.bind_eq_ok.mp rest
  obtain ⟨_, _, complete, series⟩ := Exec.bind_eq_ok.mp rest
  refine Exec.bind_eq_ok.mpr ⟨_, _, checked, ?_⟩
  have moved := (moves.writeInfo key (.string keyValue)).ok info
  refine Exec.bind_eq_ok.mpr ⟨_, _, moved, ?_⟩
  refine Exec.bind_eq_ok.mpr ⟨_, _,
    keptFormats_withParams (forM_throwUsageIf formats), ?_⟩
  refine Exec.bind_eq_ok.mpr ⟨_, _, moves.headerComplete.ok complete, ?_⟩
  exact (Exec.Commutes.forM fun _ => moves.subscribe _).ok
    (forM_throwUsageIf series)

def blank (zzDataLogOn : Bool) : ZzDataLog where
  writer := some { output := [] }
  zzDataLogOn := zzDataLogOn

def moveTo (start : Bytes) (target log : ZzDataLog) : ZzDataLog :=
  { target with
    writer := log.writer.map (Writer.after start)
    headerComplete := log.headerComplete
    formats := log.formats
    subscriptions := log.subscriptions
    idMap := log.idMap
    journal := log.journal }

theorem moves_moveTo (start : Bytes) (target : ZzDataLog) :
    Moves start (moveTo start target) where
  writer _ := rfl
  core _ _ := rfl
  record _ _ _ _ := rfl
  idMap _ _ _ := rfl

structure IsNew (log : ZzDataLog) : Prop where
  writer : ∃ timestampUs,
    log.writer = some (SimpleWriter.constructed timestampUs).writer
  headerComplete : log.headerComplete = false
  formats : log.formats = ∅
  subscriptions : log.subscriptions = []
  idMap : log.idMap = ∅
  journal : log.journal = []

theorem IsNew.moved (new : IsNew self) (zzDataLogOn : Bool) :
    ∃ start, self = moveTo start self (blank zzDataLogOn) := by
  obtain ⟨⟨timestampUs, writer⟩, header, formats, subscriptions, idMap,
    journal⟩ := new
  have made := congrArg Prod.snd (SimpleWriter.construct_ok timestampUs)
  refine ⟨(Writer.ofTimestamp_copyable timestampUs).prologue.toBytes, ?_⟩
  cases self with
  | mk =>
      simp only at writer header formats subscriptions idMap journal
      have start : (SimpleWriter.constructed timestampUs).writer =
          { output := (Writer.ofTimestamp_copyable
            timestampUs).prologue.toBytes } :=
        congrArg SimpleWriter.writer made
      rw [writer, header, formats, subscriptions, idMap, journal, start]
      simp only [moveTo, blank, Option.map_some, Writer.after, List.append_nil]

theorem isNew_made (constructor : Constructor) (env : Env)
    (zzDataLogOn : Bool) : IsNew (constructor.made env zzDataLogOn) := by
  cases constructor <;> exact ⟨⟨_, rfl⟩, rfl, rfl, rfl, rfl, rfl⟩

theorem isNew_reopened (self : ZzDataLog) (env : Env)
    (name newFilename output : Bytes) :
    IsNew (self.reopened env name newFilename output) :=
  ⟨⟨_, rfl⟩, rfl, rfl, rfl, rfl, rfl⟩

def output (log : ZzDataLog) : Bytes := (log.writer.map Writer.output).getD []

theorem output_moveTo (start : Bytes) (target : ZzDataLog) {log : ZzDataLog}
    {writer : Writer} (has : log.writer = some writer) :
    (moveTo start target log).output = start ++ writer.output := by
  unfold output moveTo
  rw [has]
  rfl

/-- `Init` writes the same to every new file. -/
theorem IsNew.initWith_apply (new : IsNew self) (initParams : InitParams) :
    Method.initWith initParams self =
      ((Method.initWith initParams (blank true)).1,
        moveTo self.output self (Method.initWith initParams (blank true)).2) := by
  obtain ⟨start, moved⟩ := new.moved true
  have begins : self.output = start := by
    rw [moved, output_moveTo start self rfl]
    exact List.append_nil start
  have commutes := (moves_moveTo start self).initWith initParams (blank true)
  rwa [← moved, ← begins] at commutes

/-- What `Init` has done once it can do in any new file. -/
theorem initWith_replays {key keyValue fileName : Bytes} {image : ZzDataLog}
    (returned : Method.init key keyValue structs self = (.ok (), reached))
    (new : IsNew self) (renewed : IsNew image) :
    ∃ final,
      Method.initWith { fileName, key, keyValue, allStructs := structs } image =
        (.ok (), final) := by
  have first := @initWith_of_init _ _ _ _ _ fileName returned
  rw [new.initWith_apply] at first
  obtain ⟨outcome, _⟩ := Prod.mk.inj first
  rw [renewed.initWith_apply, outcome]
  exact ⟨_, rfl⟩

end Replay

end ZzDataLog

end UlogCpp
