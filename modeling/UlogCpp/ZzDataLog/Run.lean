import UlogCpp.SimpleWriter.Attempt
import UlogCpp.SimpleWriter.Fidelity
import UlogCpp.ZzDataLog.Model

namespace UlogCpp

/-! What the calls on a `zz_data_log` do. -/

namespace ZzDataLog

open SimpleWriter (Call Faithful)

def Failure.isFault : Failure → Bool
  | .stopped _ => false
  | .nullWriter | .nullFile | .closedFile => true

variable {self reached : ZzDataLog} {env : Env} {writer : Writer}
  {name newFilename : Bytes}

/-! ## The shared methods -/

theorem shared_apply {call : Call} {method : SimpleWriter.Method α}
    {report : α → Option UInt16} (has : self.writer = some writer) :
    shared call method report self =
      ((method (self.core writer)).1.mapError .raised,
        (self.withCore (method (self.core writer)).2).record call
          ((method (self.core writer)).1.map report)) := by
  simp only [shared, has]

theorem shared_null {call : Call} {method : SimpleWriter.Method α}
    {report : α → Option UInt16} (none : self.writer = none) :
    (shared call method report self).2 = self := by
  simp only [shared, none]
  split <;> rfl

theorem onWriter_apply {handle : Writer.Handle}
    (has : self.writer = some writer) :
    onWriter handle self =
      ((handle writer).1.mapError .raised,
        { self with writer := some (handle writer).2 }) := by
  simp only [onWriter, has]

theorem emitData_apply {id : UInt16} {data : Bytes}
    (has : self.writer = some writer) :
    Method.emitData id data self =
      ((Writer.Handle.data ⟨id, data⟩ writer).1.mapError .raised,
        { self with
          writer := some (Writer.Handle.data ⟨id, data⟩ writer).2 }.record
            (.writeData id data)
            ((Writer.Handle.data ⟨id, data⟩ writer).1.map fun _ => none)) := by
  simp only [Method.emitData, has]

/-! ## What is kept by Init -/

theorem faithful_writeMessageFormat (name : Bytes) (fields : List Field) :
    Faithful (.writeMessageFormat name fields)
      (SimpleWriter.Method.writeFormat matchesFieldName
        (ascii "[a-zA-Z0-9_]+") name fields) fun _ => none := by
  apply SimpleWriter.faithful_writeFormat
  intro name matched
  exact (SimpleWriter.not_mem_of_all matched (by decide)).2

def view (log : ZzDataLog) :=
  (log.writer, log.file, log.core, log.journal, log.closedFiles)

/-! ## The parts of calls -/

/-- A property that calls have if their parts have it: everything but rotations
and data. -/
structure Composes (holds : (α : Type) → Method α → Prop) : Prop where
  pure : ∀ {α : Type} (value : α), holds α (pure value)
  bind : ∀ {α β : Type} {method : Method α} {next : α → Method β},
    holds α method → (∀ value, holds β (next value)) → holds β (method >>= next)
  stopped : ∀ {α : Type} (stop : Stop), holds α (Exec.throw (.stopped stop))
  modify : ∀ {change : ZzDataLog → ZzDataLog},
    (∀ log, (change log).view = log.view) →
    (∀ log, (change log).initParams.fileName = log.initParams.fileName) →
    holds Unit (Exec.modify change)
  shared : ∀ {α : Type} {call : Call} {method : SimpleWriter.Method α}
    {report : α → Option UInt16}, call.isData = false →
    Faithful call method report → holds α (shared call method report)

namespace Composes

variable {holds : (α : Type) → Method α → Prop} (composes : Composes holds)

include composes

theorem throwUsageIf (condition : Prop) [Decidable condition]
    (reason : Bytes) : holds Unit (throwUsageIf condition reason) := by
  unfold ZzDataLog.throwUsageIf
  split
  · exact composes.stopped _
  · exact composes.pure ()

theorem forM {list : List α} {method : α → Method Unit}
    (each : ∀ value, holds Unit (method value)) :
    holds Unit (list.forM method) := by
  induction list with
  | nil => exact composes.pure ()
  | cons value list ih => exact composes.bind (each value) fun _ => ih

theorem writeMessageFormat (name : Bytes) (fields : List Field) :
    holds Unit (Method.writeMessageFormat name fields) :=
  composes.shared rfl (faithful_writeMessageFormat name fields)

theorem writeInfo (key : Bytes) (value : SimpleWriter.InfoValue) :
    holds Unit (Method.writeInfo key value) :=
  composes.shared rfl (SimpleWriter.faithful_of_perform rfl)

theorem headerComplete : holds Unit Method.headerComplete :=
  composes.shared rfl (SimpleWriter.faithful_of_perform rfl)

theorem subscribe (messageName : Bytes) :
    holds Unit (Method.subscribe messageName) := by
  apply composes.bind
  · exact composes.shared rfl (SimpleWriter.faithful_of_perform rfl)
  · intro id
    exact composes.modify (fun _ => rfl) fun _ => rfl

theorem initWith (initParams : InitParams) :
    holds Unit (Method.initWith initParams) := by
  apply composes.bind (composes.throwUsageIf _ _)
  intro _
  apply composes.bind (composes.writeInfo _ _)
  intro _
  apply composes.bind (composes.forM fun _ => composes.writeMessageFormat _ _)
  intro _
  apply composes.bind composes.headerComplete
  intro _
  exact composes.forM fun _ => composes.subscribe _

theorem init (key keyValue : Bytes) (allStructs : List StructInfo) :
    holds Unit (Method.init key keyValue allStructs) := by
  apply composes.bind (composes.throwUsageIf _ _)
  intro _
  apply composes.bind
  · exact composes.modify (fun _ => rfl) fun _ => rfl
  intro _
  apply composes.bind (composes.writeInfo _ _)
  intro _
  apply composes.bind
  · apply composes.forM
    intro struct
    apply composes.bind (composes.throwUsageIf _ _)
    intro _
    apply composes.bind
    · exact composes.modify (fun _ => rfl) fun _ => rfl
    exact fun _ => composes.writeMessageFormat _ _
  intro _
  apply composes.bind composes.headerComplete
  intro _
  apply composes.forM
  intro struct
  exact composes.bind (composes.throwUsageIf _ _) fun _ => composes.subscribe _

theorem createInstance (filename : Bytes) (zzDataLogOn : Bool) :
    holds Unit (Method.createInstance filename zzDataLogOn) := by
  apply composes.bind (composes.throwUsageIf _ _)
  intro _
  exact composes.modify (fun _ => rfl) fun _ => rfl

theorem liftStop (result : Except Stop α) : holds α (liftStop result) := by
  cases result with
  | ok value => exact composes.pure value
  | error stop => exact composes.stopped stop

theorem performCommon (env : Env) {call : Call}
    (ordinary : call.isData = false) :
    holds (Option UInt16) (performCommon env call) := by
  have returns : ∀ {α : Type} {method : SimpleWriter.Method α}
      {report : α → Option UInt16}, Faithful call method report →
      ∀ result : α → Option UInt16, holds (Option UInt16)
        (ZzDataLog.shared call method report >>= fun value =>
          Pure.pure (result value)) :=
    fun faithful _ =>
      composes.bind (composes.shared ordinary faithful) fun _ => composes.pure _
  cases call with
  | writeMessageFormat name fields =>
      exact returns (faithful_writeMessageFormat name fields) fun _ => none
  | writeData id data => cases ordinary
  | writeAddLoggedMessage name multiId =>
      exact returns (SimpleWriter.faithful_of_perform rfl) some
  | writeInfo | writeParameter | headerComplete | writeParameterChange
  | writeTextMessage =>
      exact returns (SimpleWriter.faithful_of_perform rfl) fun _ => none

end Composes

section Keeps

variable {invariant : ZzDataLog → Prop} {stops : Failure → Prop}

structure Rules (invariant : ZzDataLog → Prop) (stops : Failure → Prop) :
    Prop where
  stopped : ∀ stop, stops (.stopped stop)
  modify : ∀ {change : ZzDataLog → ZzDataLog},
    (∀ log, (change log).view = log.view) →
    Exec.Keeps invariant stops (Exec.modify change)
  shared : ∀ {α : Type} {call : Call} {method : SimpleWriter.Method α}
    {report : α → Option UInt16}, call.isData = false →
    Faithful call method report →
    Exec.Keeps invariant stops (shared call method report)

theorem Rules.composes (rules : Rules invariant stops) :
    Composes fun _ method => Exec.Keeps invariant stops method where
  pure := .pure
  bind := .bind
  stopped stop := .throw (rules.stopped stop)
  modify same _ := rules.modify same
  shared := rules.shared

end Keeps

/-! ## Rotation -/

def reopened (self : ZzDataLog) (env : Env)
    (name newFilename output : Bytes) : ZzDataLog where
  writer := some (SimpleWriter.constructed env.timeUs).writer
  file := .opened newFilename
  zzDataLogOn := self.zzDataLogOn
  initParams := { self.initParams with fileName := newFilename }
  closedFiles :=
    (self.closedFiles ++ [LogFile.mk name output self.journal]).filter
      fun file => file.name != newFilename

structure CanRotate (env : Env) (log : ZzDataLog) : Prop where
  file : ∃ name, log.file = .opened name
  name : ∃ newFilename,
    generateNewPathOrFilename log.initParams.fileName = .ok newFilename
  opens : env.opens = true

namespace Method

theorem newWriter_apply (timestampUs : UInt64) (self : ZzDataLog) :
    newWriter timestampUs self =
      (.ok (), { self with
        writer := some (SimpleWriter.constructed timestampUs).writer
        journal := [] }) := by
  have made := SimpleWriter.construct_ok timestampUs
  have same : (SimpleWriter.constructed timestampUs).writer =
      (Writer.Handle.fileHeader (.ofTimestamp timestampUs false)
        { output := [] }).2 := rfl
  have returned : (Writer.Handle.fileHeader (.ofTimestamp timestampUs false)
      { output := [] }).1 = .ok () := congrArg Prod.fst made
  unfold newWriter
  rw [Exec.modify_bind_apply, onWriter_apply rfl, returned, same]
  rfl

theorem rotate_unopened (unopened : ∀ name, self.file ≠ .opened name) :
    ∃ failure, failure.isFault = true ∧
      rotate env self = (.error failure, { self with writer := none }) := by
  cases file : self.file with
  | null =>
      refine ⟨.nullFile, rfl, ?_⟩
      simp only [rotate, resetWriter, closeFile, Exec.bind_apply, Exec.get_apply,
        Exec.modify_apply, Exec.pure_apply, file, Exec.throw_apply]
  | closed =>
      refine ⟨.closedFile, rfl, ?_⟩
      simp only [rotate, resetWriter, closeFile, Exec.bind_apply, Exec.get_apply,
        Exec.modify_apply, Exec.pure_apply, file, Exec.throw_apply]
  | opened name => exact absurd file (unopened name)

/-- A rotation that fails after it has closed the file leaves no writer. -/
theorem rotate_fails (file : self.file = .opened name)
    (fails : ∀ newFilename,
      generateNewPathOrFilename self.initParams.fileName = .ok newFilename →
        env.opens = false) :
    ∃ stop reached, rotate env self = (.error (.stopped stop), reached) ∧
      reached.writer = none ∧ (∀ name, reached.file ≠ .opened name) ∧
      reached.headerComplete = false ∧
      reached.closedFiles = self.closedFiles ++
        [LogFile.mk name ((self.writer.map Writer.output).getD [])
          self.journal] := by
  cases generated : generateNewPathOrFilename self.initParams.fileName with
  | error stop =>
      refine ⟨stop, _, Prod.ext ?_ rfl, ?_⟩ <;>
        simp only [rotate, resetWriter, closeFile, liftStop, Exec.bind_apply,
          Exec.get_apply, Exec.modify_apply, Exec.pure_apply, file,
          Exec.lift_apply, generated, Except.mapError]
      exact ⟨trivial, nofun, trivial, trivial⟩
  | ok newFilename =>
      have shut := fails newFilename generated
      refine ⟨.raised (.parsing (ascii "Failed to open file")), _,
        Prod.ext ?_ rfl, ?_⟩ <;>
        simp only [rotate, resetWriter, closeFile, liftStop, Exec.bind_apply,
          Exec.get_apply, Exec.modify_apply, Exec.pure_apply, file,
          Exec.lift_apply, generated, Except.mapError, openFile, shut,
          Bool.false_eq_true, if_false, Exec.throw_apply, Failure.raised]
      exact ⟨trivial, nofun, trivial, trivial⟩

theorem rotate_opened (file : self.file = .opened name)
    (generated : generateNewPathOrFilename self.initParams.fileName =
      .ok newFilename) (opens : env.opens = true) :
    rotate env self =
      initWith { self.initParams with fileName := newFilename }
        (self.reopened env name newFilename
          ((self.writer.map Writer.output).getD [])) := by
  simp only [rotate, resetWriter, closeFile, liftStop, Exec.bind_apply,
    Exec.get_apply, Exec.modify_apply, Exec.pure_apply, file, Exec.lift_apply,
    generated, Except.mapError, openFile, opens, if_true, newWriter_apply]
  rfl

theorem rotate_reopened (has : self.writer = some writer)
    (file : self.file = .opened name)
    (generated : generateNewPathOrFilename self.initParams.fileName =
      .ok newFilename) (opens : env.opens = true) :
    rotate env self =
      initWith { self.initParams with fileName := newFilename }
        (self.reopened env name newFilename writer.output) := by
  rw [rotate_opened file generated opens, has]
  rfl

theorem rotate_can
    (writes : ∀ name, self.file = .opened name → self.writer ≠ none)
    (can : CanRotate env self) :
    ∃ name newFilename writer, self.writer = some writer ∧
      rotate env self =
        initWith { self.initParams with fileName := newFilename }
          (self.reopened env name newFilename writer.output) := by
  obtain ⟨⟨name, file⟩, ⟨newFilename, generated⟩, opens⟩ := can
  obtain ⟨writer, has⟩ := Option.ne_none_iff_exists'.mp (writes name file)
  exact ⟨name, newFilename, writer, has,
    rotate_reopened has file generated opens⟩

/-- A rotation that does not succeed leaves no writer and no open file. If there
was a file it has been closed. -/
theorem rotate_cannot (cannot : ¬ CanRotate env self) :
    ∃ failure reached, rotate env self = (.error failure, reached) ∧
      reached.writer = none ∧ (∀ name, reached.file ≠ .opened name) ∧
      (reached.closedFiles = self.closedFiles ∨
        ∃ name, self.file = .opened name ∧
          reached.closedFiles = self.closedFiles ++
            [LogFile.mk name ((self.writer.map Writer.output).getD [])
              self.journal]) := by
  by_cases isOpen : ∃ name, self.file = .opened name
  · obtain ⟨name, file⟩ := isOpen
    obtain ⟨stop, reached, failed, none, unopened, _, closed⟩ :=
      @rotate_fails self env name file fun newFilename generated =>
        Bool.eq_false_iff.mpr fun opens =>
          cannot ⟨⟨name, file⟩, ⟨newFilename, generated⟩, opens⟩
    exact ⟨_, reached, failed, none, unopened, .inr ⟨name, file, closed⟩⟩
  · have unopened := not_exists.mp isOpen
    obtain ⟨failure, _, failed⟩ := @rotate_unopened self env unopened
    exact ⟨failure, _, failed, rfl, unopened, .inl rfl⟩

end Method

/-! ## Construction -/

def Constructor.made (env : Env) (zzDataLogOn : Bool) : Constructor → ZzDataLog
  | callback timestampUs =>
      { writer := some (SimpleWriter.constructed timestampUs).writer
        zzDataLogOn }
  | fileAt filename timestampUs =>
      { writer := some (SimpleWriter.constructed timestampUs).writer
        file := .opened filename
        zzDataLogOn }
  | file filename =>
      { writer := some (SimpleWriter.constructed env.timeUs).writer
        file := .opened filename
        zzDataLogOn
        initParams := { fileName := filename } }

theorem openFile_ok (returned : Method.openFile env.opens name self =
      (.ok (), reached)) :
    reached = { self with
      file := .opened name
      closedFiles := self.closedFiles.filter fun file => file.name != name } := by
  cases opens : env.opens with
  | false =>
      rw [opens] at returned
      cases returned
  | true =>
      rw [opens] at returned
      cases returned
      rfl

theorem construct_ok {constructor : Constructor} {zzDataLogOn : Bool}
    (constructs : Method.construct env constructor { zzDataLogOn } =
      (.ok (), reached)) : reached = constructor.made env zzDataLogOn := by
  cases constructor with
  | callback timestampUs =>
      change Method.newWriter timestampUs _ = _ at constructs
      rw [Method.newWriter_apply] at constructs
      cases constructs
      rfl
  | fileAt filename timestampUs =>
      obtain ⟨_, _, opened, rest⟩ := Exec.bind_eq_ok.mp constructs
      rw [openFile_ok opened, Method.newWriter_apply] at rest
      cases rest
      rfl
  | file filename =>
      obtain ⟨_, _, valid, rest⟩ := Exec.bind_eq_ok.mp constructs
      unfold throwUsageIf at valid
      split at valid
      next => cases valid
      next =>
        cases valid
        rw [Exec.modify_bind_apply] at rest
        obtain ⟨_, _, opened, rest⟩ := Exec.bind_eq_ok.mp rest
        rw [openFile_ok opened, Method.newWriter_apply] at rest
        cases rest
        rfl

/-! ## Data -/

structure Accepts (log : ZzDataLog) (id : UInt16) (data : Bytes)
    (subscription : SimpleWriter.Subscription) : Prop where
  header : log.headerComplete = true
  subscribed : log.subscriptions[id.toNat]? = some subscription
  covered : subscription.messageSize ≤ UInt32.ofNat data.length

theorem Accepts.le_length {id : UInt16} {data : Bytes}
    {subscription : SimpleWriter.Subscription}
    (accepts : Accepts self id data subscription) :
    subscription.messageSize.toNat ≤ data.length := by
  have enough := UInt32.le_iff_toNat_le.mp accepts.covered
  rw [UInt32.toNat_ofNat'] at enough
  exact Nat.le_trans enough (Nat.mod_le _ _)

def counted (self : ZzDataLog) (data : Bytes) : ZzDataLog :=
  { self with
    currentFileSize :=
      self.currentFileSize + (UInt32.ofNat data.length).toUInt64 }

/-- The file becomes too large with the data. -/
def Rotates (self : ZzDataLog) (data : Bytes) : Prop :=
  kMaxFileSize ≤ (self.counted data).currentFileSize

instance (self : ZzDataLog) (data : Bytes) : Decidable (Rotates self data) :=
  inferInstanceAs (Decidable (_ ≤ _))

namespace Method

variable {id : UInt16} {data : Bytes} {subscription : SimpleWriter.Subscription}

theorem writeData_refused
    (refused : ∀ subscription, ¬ Accepts self id data subscription) :
    ∃ reason, writeData env id data self =
      (.error (.raised (.usage reason)), self) := by
  unfold writeData writeDataImpl throwUsageIf
  rw [Exec.get_bind_apply]
  by_cases header : self.headerComplete = false
  · rw [if_pos header]
    exact ⟨_, rfl⟩
  · rw [if_neg header]
    cases subscribed : self.subscriptions[id.toNat]? with
    | none => exact ⟨_, rfl⟩
    | some subscription =>
        have short : UInt32.ofNat data.length < subscription.messageSize :=
          UInt32.not_le.mp fun covered => refused subscription
            ⟨by simpa using header, subscribed, covered⟩
        simp only [Exec.pure_bind_apply, if_pos short]
        exact ⟨_, rfl⟩

theorem writeData_accepted (accepts : Accepts self id data subscription) :
    writeData env id data self =
      if Rotates self data then
        (rotate env >>= fun _ =>
          emitData id (data.take subscription.messageSize.toNat))
          (self.counted data)
      else
        emitData id (data.take subscription.messageSize.toNat)
          (self.counted data) := by
  obtain ⟨header, subscribed, covered⟩ := accepts
  unfold writeData writeDataImpl throwUsageIf
  rw [Exec.get_bind_apply, if_neg (by rw [header]; nofun),
    Exec.pure_bind_apply, subscribed]
  simp only [if_neg (UInt32.not_lt.mpr covered), Exec.pure_bind_apply,
    Exec.modify_bind_apply, Exec.get_bind_apply]
  by_cases rotates : Rotates self data
  · rw [if_pos rotates]
    exact congrFun (if_pos rotates) _
  · rw [if_neg rotates]
    exact congrFun (if_neg rotates) _

/-- What `writeDataImpl` does between its checks and the message. -/
def makeRoom (env : Env) (data : Bytes) : Method Unit := fun self =>
  if Rotates self data then rotate env (self.counted data)
  else (.ok (), self.counted data)

/-- A check fails, or data is emitted after there is room for it. -/
theorem writeData_cases (env : Env) (id : UInt16) (data : Bytes)
    (self : ZzDataLog) :
    (∃ reason, writeData env id data self =
      (.error (.raised (.usage reason)), self)) ∨
    ∃ subscription, Accepts self id data subscription ∧
      writeData env id data self = (makeRoom env data >>= fun _ =>
        emitData id (data.take subscription.messageSize.toNat)) self := by
  by_cases accepted : ∃ subscription, Accepts self id data subscription
  · obtain ⟨subscription, accepts⟩ := accepted
    refine .inr ⟨subscription, accepts, ?_⟩
    rw [writeData_accepted accepts, Exec.bind_apply, Exec.bind_apply, makeRoom]
    split <;> rfl
  · exact .inl (writeData_refused (not_exists.mp accepted))

end Method

/-! ## Requests -/

theorem fsync_same (self : ZzDataLog) : (Method.fsync self).2 = self := by
  unfold Method.fsync
  rw [Exec.get_bind_apply]
  cases self.file <;> rfl

theorem returns_none_apply (method : Method Unit) (self : ZzDataLog) :
    ((method >>= fun _ => (pure none : Method (Option UInt16))) self).2 =
      (method self).2 := by
  rw [Exec.bind_apply]
  rcases method self with ⟨_ | _, _⟩ <;> rfl

/-- The id and the data that a request writes. -/
def Request.sample (self : ZzDataLog) : Request → Option (UInt16 × Bytes)
  | common (.writeData id data) => some (id, data)
  | write messageName data =>
      if self.zzDataLogOn then
        (self.idMap.lookup messageName).map fun id => (id, data)
      else none
  | _ => none

theorem Method.write_sample {messageName bytes data : Bytes} {id : UInt16}
    (sample : (Request.write messageName bytes).sample self = some (id, data)) :
    Method.write env messageName bytes self =
      (Method.writeData env id data >>= fun _ =>
        if env.tenth then Method.fsync else pure ()) self := by
  unfold Method.write
  rw [Exec.get_bind_apply]
  rw [Request.sample] at sample
  split at sample
  next on =>
    obtain ⟨_, known, same⟩ := Option.map_eq_some_iff.mp sample
    cases same
    rw [known]
    exact congrFun (if_pos on) self
  next => cases sample

theorem Method.write_none {messageName bytes : Bytes}
    (none : (Request.write messageName bytes).sample self = none) :
    (∃ reason, Method.write env messageName bytes self =
      (.error (.raised (.usage reason)), self)) ∨
    Method.write env messageName bytes self = (.ok (), self) := by
  unfold Method.write
  rw [Exec.get_bind_apply]
  cases known : self.idMap.lookup messageName with
  | none => exact .inl ⟨_, rfl⟩
  | some id =>
      refine .inr (congrFun (if_neg ?_) self)
      intro on
      rw [Request.sample, on, known] at none
      cases none

/-- A request that writes data is a call of `writeData`. -/
theorem perform_sample {request : Request} {id : UInt16} {data : Bytes}
    (sample : request.sample self = some (id, data)) :
    (perform (env, request) self).2 = (Method.writeData env id data self).2 := by
  cases request with
  | common call =>
      cases call with
      | writeData otherId otherData =>
          cases sample
          exact returns_none_apply _ _
      | _ => cases sample
  | write messageName bytes =>
      refine (returns_none_apply _ _).trans ?_
      rw [Method.write_sample sample, Exec.bind_apply]
      rcases Method.writeData env id data self with ⟨_ | _, reached⟩
      · rfl
      · change ((if env.tenth then Method.fsync else pure ()) reached).2 = _
        split
        · exact fsync_same reached
        · rfl
  | _ => cases sample

theorem writeData_returns {request : Request} {result : Option UInt16}
    {id : UInt16} {data : Bytes} (sample : request.sample self = some (id, data))
    (returned : (perform (env, request) self).1 = .ok result) :
    (Method.writeData env id data self).1 = .ok () := by
  have whole : perform (env, request) self =
      (.ok result, (perform (env, request) self).2) := Prod.ext returned rfl
  cases request with
  | common call =>
      cases call with
      | writeData otherId otherData =>
          cases sample
          obtain ⟨_, _, written, _⟩ := Exec.bind_eq_ok.mp whole
          exact congrArg Prod.fst written
      | _ => cases sample
  | write messageName bytes =>
      obtain ⟨_, _, wrote, _⟩ := Exec.bind_eq_ok.mp whole
      rw [Method.write_sample sample] at wrote
      obtain ⟨_, _, written, _⟩ := Exec.bind_eq_ok.mp wrote
      exact congrArg Prod.fst written
  | _ => cases sample

theorem Composes.perform {holds : (α : Type) → Method α → Prop}
    {request : Request} (composes : Composes holds)
    (none : request.sample self = none) (fsync : holds Unit Method.fsync)
    (env : Env) :
    ∃ method, holds (Option UInt16) method ∧
      ZzDataLog.perform (env, request) self = method self := by
  have silent : ∀ {method : Method Unit}, holds Unit method →
      holds (Option UInt16) (method >>= fun _ => Pure.pure .none) :=
    fun held => composes.bind held fun _ => composes.pure _
  cases request with
  | common call =>
      refine ⟨_, composes.performCommon env ?_, rfl⟩
      cases call with
      | writeData id data => cases none
      | _ => rfl
  | init key keyValue allStructs =>
      exact ⟨_, silent (composes.init key keyValue allStructs), rfl⟩
  | initWith initParams => exact ⟨_, silent (composes.initWith initParams), rfl⟩
  | write messageName data =>
      rcases @Method.write_none self env _ _ none with ⟨reason, same⟩ | same
      · exact ⟨_, composes.stopped _, Exec.bind_error same _⟩
      · exact ⟨_, composes.pure .none, Exec.bind_ok same _⟩
  | fsync => exact ⟨_, silent fsync, rfl⟩
  | createInstance filename on =>
      exact ⟨_, silent (composes.createInstance filename on), rfl⟩
  | generateNewFilename filename =>
      exact ⟨_, composes.bind (composes.liftStop _) fun _ => composes.pure _, rfl⟩
  | generateNewPathOrFilename filename =>
      exact ⟨_, composes.bind (composes.liftStop _) fun _ => composes.pure _, rfl⟩

/-- A request that writes no data keeps what its parts keep. -/
theorem Rules.perform {invariant : ZzDataLog → Prop} {stops : Failure → Prop}
    {request : Request} (rules : Rules invariant stops)
    (none : request.sample self = none)
    (fsync : Exec.Keeps invariant stops Method.fsync) (holds : invariant self) :
    (∀ failure, (ZzDataLog.perform (env, request) self).1 = .error failure →
        stops failure) ∧
      invariant (ZzDataLog.perform (env, request) self).2 := by
  obtain ⟨method, keeps, same⟩ := rules.composes.perform none fsync env
  rw [same]
  exact Exec.Keeps.outcome keeps holds

end ZzDataLog

end UlogCpp
