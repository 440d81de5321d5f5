import UlogCpp.ZzDataLog.Run

namespace UlogCpp

/-! When the writer and the file of a `zz_data_log` stay usable. -/

namespace ZzDataLog

open SimpleWriter (Call)

def Constructor.isCallback : Constructor → Bool
  | .callback _ => true
  | .fileAt _ _ | .file _ => false

def Faultless (outcome : Except Failure α) : Prop :=
  ∀ failure, outcome = .error failure → failure.isFault = false

structure HandlesValid (constructor : Constructor) (log : ZzDataLog) :
    Prop where
  writer : log.writer ≠ none
  file : log.file = .null ∧ constructor.isCallback = true ∨
    ∃ name, log.file = .opened name

structure Intact (constructor : Constructor)
    (result : Except Failure α × ZzDataLog) : Prop where
  faultless : Faultless result.1
  valid : HandlesValid constructor result.2

structure Served (constructor : Constructor) (log : ZzDataLog)
    (request : Env × Request) : Prop where
  intact : Intact constructor (perform request log)
  destructor : Faultless (Method.destruct (perform request log).2).1

/-- Data that makes the file too large comes when the log can be rotated. -/
def RotatesSafely (self : ZzDataLog) (request : Env × Request) : Prop :=
  ∀ id data subscription, request.2.sample self = some (id, data) →
    Accepts self id data subscription → Rotates self data →
    CanRotate request.1 self

theorem rotatesSafely_iff {self : ZzDataLog} {env : Env} {request : Request}
    {id : UInt16} {data : Bytes}
    (sample : request.sample self = some (id, data)) :
    RotatesSafely self (env, request) ↔
      ∀ subscription, Accepts self id data subscription → Rotates self data →
        CanRotate env self := by
  constructor
  · intro safely subscription
    exact safely id data subscription sample
  · intro safely other bytes subscription same
    cases sample.symm.trans same
    exact safely subscription

theorem rotatesSafely_none {self : ZzDataLog} {env : Env} {request : Request}
    (none : request.sample self = none) :
    RotatesSafely self (env, request) :=
  fun _ _ _ same => nomatch none.symm.trans same

/-! ## What leaves the handles alone -/

section Guarded

variable {constructor : Constructor} {self : ZzDataLog} {env : Env}

theorem faultless_ok (value : α) : Faultless (.ok value) := nofun

theorem faultless_stopped (stop : Stop) :
    Faultless (.error (.stopped stop) : Except Failure α) := by
  intro failure same
  cases same
  rfl

theorem faultless_raised {result : Except Exception α} :
    Faultless (result.mapError Failure.raised) := by
  cases result with
  | ok value => exact faultless_ok value
  | error exception => exact faultless_stopped _

def Guarded (constructor : Constructor) (method : Method α) : Prop :=
  Exec.Keeps (HandlesValid constructor) (fun failure => failure.isFault = false)
    method

namespace Guarded

theorem intact {method : Method α} (guarded : Guarded constructor method)
    (valid : HandlesValid constructor self) :
    Intact constructor (method self) := by
  obtain ⟨faultless, kept⟩ := Exec.Keeps.outcome guarded valid
  exact ⟨faultless, kept⟩

theorem of_writer {method : Method α}
    (intact : ∀ self writer, HandlesValid constructor self →
      self.writer = some writer → Intact constructor (method self)) :
    Guarded constructor method := by
  apply Exec.Keeps.intro
  intro self valid
  obtain ⟨writer, has⟩ := Option.ne_none_iff_exists'.mp valid.writer
  obtain ⟨faultless, kept⟩ := intact self writer valid has
  exact ⟨faultless, kept⟩

theorem rules : Rules (HandlesValid constructor)
    fun failure => failure.isFault = false where
  stopped _ := rfl
  modify same := by
    apply Exec.Keeps.modify
    rintro self ⟨some, usable⟩
    have writer := congrArg Prod.fst (same self)
    have file := congrArg (fun view => view.2.1) (same self)
    refine ⟨?_, ?_⟩
    · rw [show (_ : ZzDataLog).writer = _ from writer]
      exact some
    · rw [show (_ : ZzDataLog).file = _ from file]
      exact usable
  shared _ _ := by
    apply of_writer
    intro self writer valid has
    rw [shared_apply has]
    exact ⟨faultless_raised, nofun, valid.file⟩

theorem emitData (id : UInt16) (data : Bytes) :
    Guarded constructor (Method.emitData id data) := by
  apply of_writer
  intro self writer valid has
  rw [emitData_apply has]
  exact ⟨faultless_raised, nofun, valid.file⟩

theorem fsync : Guarded constructor Method.fsync := by
  apply Exec.Keeps.intro
  intro self valid
  unfold Method.fsync
  rw [Exec.get_bind_apply]
  rcases valid.file with ⟨null, _⟩ | ⟨name, opened⟩
  · rw [null]
    exact ⟨nofun, valid⟩
  · rw [opened]
    exact ⟨nofun, valid⟩

end Guarded

/-- What follows a method makes no difference, if it is guarded and changes
nothing. -/
theorem intact_bind_iff {method : Method α} {next : α → Method β}
    (same : ∀ value self, (next value self).2 = self)
    (guarded : ∀ value, Guarded constructor (next value)) :
    Intact constructor ((method >>= next) self) ↔
      Intact constructor (method self) := by
  rcases ran : method self with ⟨failure | value, reached⟩
  · rw [Exec.bind_error ran]
    constructor <;> rintro ⟨faultless, valid⟩ <;>
      exact ⟨fun other is => by cases is; exact faultless failure rfl, valid⟩
  · rw [Exec.bind_ok ran]
    constructor
    · rintro ⟨_, valid⟩
      rw [same] at valid
      exact ⟨faultless_ok value, valid⟩
    · rintro ⟨_, valid⟩
      exact (guarded value).intact valid

theorem intact_none_iff {method : Method Unit} :
    Intact constructor ((method >>= fun _ => (pure none : Method (Option UInt16)))
      self) ↔ Intact constructor (method self) :=
  intact_bind_iff (fun _ _ => rfl) fun _ => Exec.Keeps.pure _

/-! ## Rotation -/

theorem HandlesValid.destruct (valid : HandlesValid constructor self) :
    Faultless (Method.destruct self).1 := by
  simp only [Method.destruct, Method.resetWriter, Exec.bind_apply,
    Exec.get_apply, Exec.modify_apply, Exec.pure_apply]
  rcases valid.file with ⟨null, _⟩ | ⟨name, opened⟩
  · rw [null]
    exact faultless_ok ()
  · simp only [opened, Method.closeFile, Exec.bind_apply, Exec.get_apply,
      Exec.modify_apply]
    exact faultless_ok ()

theorem intact_rotate_iff {next : Unit → Method α}
    (guarded : ∀ value, Guarded constructor (next value))
    (valid : HandlesValid constructor self) :
    Intact constructor ((Method.rotate env >>= next) self) ↔
      CanRotate env self := by
  by_cases can : CanRotate env self
  · obtain ⟨name, newFilename, writer, has, rotated⟩ :=
      Method.rotate_can (fun _ _ => valid.writer) can
    refine iff_of_true ?_ can
    have renewed : HandlesValid constructor
        (self.reopened env name newFilename writer.output) :=
      ⟨nofun, .inr ⟨newFilename, rfl⟩⟩
    rw [Exec.bind_apply, rotated]
    exact Guarded.intact (.bind (Guarded.rules.composes.initWith _) guarded) renewed
  · refine iff_of_false (fun intact => ?_) can
    obtain ⟨failure, reached, failed, none, _⟩ := Method.rotate_cannot can
    rw [Exec.bind_error failed] at intact
    exact intact.valid.writer none

theorem intact_writeData_iff (valid : HandlesValid constructor self)
    {id : UInt16} {data : Bytes} :
    Intact constructor (Method.writeData env id data self) ↔
      ∀ subscription, Accepts self id data subscription → Rotates self data →
        CanRotate env self := by
  have counted : HandlesValid constructor (self.counted data) := { valid with }
  by_cases accepted : ∃ subscription, Accepts self id data subscription
  · obtain ⟨subscription, accepts⟩ := accepted
    have guarded : Guarded constructor
        (Method.emitData id (data.take subscription.messageSize.toNat)) :=
      .emitData _ _
    rw [Method.writeData_accepted accepts]
    by_cases rotates : Rotates self data
    · rw [if_pos rotates, intact_rotate_iff (fun _ => guarded) counted]
      constructor
      · exact fun can _ _ _ => { can with }
      · exact fun safely => { safely subscription accepts rotates with }
    · rw [if_neg rotates]
      exact iff_of_true (guarded.intact counted) fun _ _ large => absurd large rotates
  · rw [not_exists] at accepted
    obtain ⟨reason, refused⟩ := Method.writeData_refused accepted
    rw [refused]
    exact iff_of_true ⟨faultless_stopped _, valid⟩ fun subscription accepts =>
      absurd accepts (accepted subscription)

theorem intact_sample_iff {request : Request} {id : UInt16} {data : Bytes}
    (sample : request.sample self = some (id, data)) :
    Intact constructor (perform (env, request) self) ↔
      Intact constructor (Method.writeData env id data self) := by
  cases request with
  | common call =>
      cases call with
      | writeData otherId otherData =>
          cases sample
          exact intact_none_iff
      | _ => cases sample
  | write messageName bytes =>
      refine intact_none_iff.trans ?_
      rw [Method.write_sample sample]
      apply intact_bind_iff
      · intro _ self
        split
        · exact fsync_same self
        · rfl
      · intro _
        split
        · exact .fsync
        · exact Exec.Keeps.pure ()
  | _ => cases sample

end Guarded

theorem intact_perform_iff {constructor : Constructor} {self : ZzDataLog}
    {request : Env × Request} (valid : HandlesValid constructor self) :
    Intact constructor (perform request self) ↔
      RotatesSafely self request := by
  obtain ⟨env, request⟩ := request
  cases sample : request.sample self with
  | none =>
      obtain ⟨faultless, kept⟩ :=
        @Rules.perform self env _ _ _ Guarded.rules sample Guarded.fsync valid
      exact iff_of_true ⟨faultless, kept⟩ (rotatesSafely_none sample)
  | some pair =>
      obtain ⟨id, data⟩ := pair
      rw [rotatesSafely_iff sample, intact_sample_iff sample]
      exact intact_writeData_iff valid

theorem made_valid (constructor : Constructor) (env : Env)
    (zzDataLogOn : Bool) :
    HandlesValid constructor (constructor.made env zzDataLogOn) := by
  cases constructor with
  | callback timestampUs => exact ⟨nofun, .inl ⟨rfl, rfl⟩⟩
  | fileAt filename timestampUs => exact ⟨nofun, .inr ⟨filename, rfl⟩⟩
  | file filename => exact ⟨nofun, .inr ⟨filename, rfl⟩⟩

/-- All requests are served, whatever the earlier ones have come to, exactly if
the log can be rotated wherever it is. -/
theorem served_iff {constructor : Constructor} {env : Env} {zzDataLogOn : Bool}
    {made : ZzDataLog}
    (constructs : Method.construct env constructor { zzDataLogOn } =
      (.ok (), made)) (requests : List (Env × Request)) :
    HandlesValid constructor made ∧ Faultless (Method.destruct made).1 ∧
      (Exec.Throughout perform (Served constructor) requests made ↔
        Exec.Throughout perform RotatesSafely requests made) := by
  have valid := made_valid constructor env zzDataLogOn
  rw [← construct_ok constructs] at valid
  refine ⟨valid, valid.destruct, ?_⟩
  refine @Exec.throughout_iff _ _ _ _ _ (HandlesValid constructor) _ _ _ ?_ ?_
    _ ?_
  · intro self request _ valid
    rw [← intact_perform_iff valid]
    exact ⟨Served.intact, fun intact => ⟨intact, intact.valid.destruct⟩⟩
  · exact fun _ _ served => served.intact.valid
  · exact valid

def fair : Env := { opens := true, timeUs := 0, tenth := false }

def unversioned : Constructor := .file (ascii "test.ulg")

def numberedFile : Constructor := .file (ascii "a.1.ulg")

def timeStruct : StructInfo where
  messageName := [109]
  fields := [{ type := ascii "uint64_t", name := ascii "timestamp" }]

def begun (constructor : Constructor) (structs : List StructInfo) : ZzDataLog :=
  (perform (fair, .init [107] [118] structs)
    (Method.construct fair constructor { zzDataLogOn := true }).2).2

def oversized : Bytes := .replicate 10485760 0

theorem length_oversized : oversized.length = 10485760 := List.length_replicate

theorem take_oversized : oversized.take 8 = List.replicate 8 0 :=
  List.take_replicate

theorem rotates_oversized {self : ZzDataLog} (empty : self.currentFileSize = 0) :
    Rotates self oversized := by
  rw [Rotates, counted, length_oversized, empty]
  change kMaxFileSize ≤ 0 + (UInt32.ofNat 10485760).toUInt64
  decide

theorem sample_oversized {self : ZzDataLog} (on : self.zzDataLogOn = true)
    (known : self.idMap.lookup [109] = some 0) :
    (Request.write [109] oversized).sample self = some (0, oversized) := by
  rw [Request.sample, on, known]
  rfl

theorem accepts_oversized {self : ZzDataLog} (header : self.headerComplete = true)
    (subscribed : self.subscriptions[0]? = some ⟨8⟩) :
    Accepts self 0 oversized ⟨8⟩ := by
  refine ⟨header, subscribed, ?_⟩
  rw [length_oversized]
  decide

theorem served_iff_numberedFile :
    let made := (Method.construct fair numberedFile { zzDataLogOn := true }).2
    HandlesValid numberedFile made ∧ Faultless (Method.destruct made).1 ∧
      (Exec.Throughout perform (Served numberedFile)
          [(fair, .init [107] [118] [timeStruct]),
            (fair, .write [109] oversized),
            (fair, .write [109] [1, 2, 3, 4, 5, 6, 7, 8])] made ↔
        Exec.Throughout perform RotatesSafely
          [(fair, .init [107] [118] [timeStruct]),
            (fair, .write [109] oversized),
            (fair, .write [109] [1, 2, 3, 4, 5, 6, 7, 8])] made) :=
  served_iff (Prod.ext (by decide +kernel) rfl) _

theorem not_served :
    ¬ ∀ (constructor : Constructor) (env : Env) (zzDataLogOn : Bool)
      (made : ZzDataLog) (requests : List (Env × Request)),
      Method.construct env constructor { zzDataLogOn } = (.ok (), made) →
      Exec.Throughout perform (Served constructor) requests made := by
  intro always
  obtain ⟨⟨⟨_, valid⟩, _⟩, ⟨intact, _⟩, _⟩ := always unversioned fair true
    (Method.construct fair unversioned { zzDataLogOn := true }).2
    [(fair, .init [107] [118] [timeStruct]), (fair, .write [109] oversized)]
    (Prod.ext (by decide +kernel) rfl)
  have safely : RotatesSafely (begun unversioned [timeStruct])
      (fair, .write [109] oversized) := (intact_perform_iff valid).mp intact
  have ready : (begun unversioned [timeStruct]).headerComplete = true ∧
      (begun unversioned [timeStruct]).subscriptions[0]? = some ⟨8⟩ ∧
      (begun unversioned [timeStruct]).currentFileSize = 0 ∧
      (begun unversioned [timeStruct]).zzDataLogOn = true ∧
      (begun unversioned [timeStruct]).idMap.lookup [109] = some 0 ∧
      (begun unversioned [timeStruct]).initParams.fileName =
        ascii "test.ulg" := by
    decide +kernel
  obtain ⟨header, subscribed, empty, on, known, fileName⟩ := ready
  obtain ⟨_, ⟨newFilename, generated⟩, _⟩ := safely 0 oversized ⟨8⟩
    (sample_oversized on known) (accepts_oversized header subscribed)
    (rotates_oversized empty)
  rw [fileName] at generated
  have nameless : generateNewPathOrFilename (ascii "test.ulg") =
      .error (.raised .invalidArgument) := by
    decide +kernel
  rw [nameless] at generated
  cases generated

end ZzDataLog

end UlogCpp
