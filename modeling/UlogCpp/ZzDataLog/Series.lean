import UlogCpp.ZzDataLog.Contents
import UlogCpp.ZzDataLog.Handles
import UlogCpp.ZzDataLog.Replay

namespace UlogCpp

/-! What becomes of the subscription ids of a `zz_data_log` when it starts a new
file. -/

namespace ZzDataLog

open SimpleWriter (Call)

def Call.isLater : Call → Bool
  | .writeAddLoggedMessage _ _ | .writeTextMessage _ _ _ | .writeData _ _ => true
  | _ => false

def Request.isLater : Request → Bool
  | common call => Call.isLater call
  | write _ _ => true
  | _ => false

structure Session (lives : ZzDataLog → Prop) (log : ZzDataLog) : Prop where
  opened : ∀ name, log.file = .opened name → log.writer ≠ none
  live : log.writer ≠ none → lives log

structure Carried (lives : ZzDataLog → Prop) : Prop where
  more : ∀ {before after : ZzDataLog} {entry : Entry}, lives before →
    after.initParams = before.initParams → after.idMap = before.idMap →
    after.journal = before.journal ++ [entry] →
    Call.isLater entry.1 = true → lives after
  counted : ∀ {log : ZzDataLog} (data : Bytes), lives log →
    lives (log.counted data)
  rotate : ∀ {env : Env} {log : ZzDataLog}, CanRotate env log →
    log.writer ≠ none → lives log →
    (Method.rotate env log).2.writer ≠ none ∧ lives (Method.rotate env log).2

section Session

variable {lives : ZzDataLog → Prop} {log : ZzDataLog} {env : Env}
  {request : Env × Request}

namespace Session

theorem of_null (null : log.writer = none)
    (unopened : ∀ name, log.file ≠ .opened name) : Session lives log :=
  ⟨fun name same => absurd same (unopened name), fun some => absurd null some⟩

theorem of_live (some : log.writer ≠ none) (live : lives log) :
    Session lives log :=
  ⟨fun _ _ => some, fun _ => live⟩

variable (carried : Carried lives) (session : Session lives log)

include carried session

theorem counted (data : Bytes) : Session lives (log.counted data) :=
  ⟨session.opened, fun some => carried.counted data (session.live some)⟩

theorem emitData (id : UInt16) (data : Bytes) :
    Session lives (Method.emitData id data log).2 := by
  cases has : log.writer with
  | none =>
      have same : (Method.emitData id data log).2 = log := by
        simp only [Method.emitData, has]
      rwa [same]
  | some writer =>
      rw [emitData_apply has]
      have live := session.live (by rw [has]; exact Option.some_ne_none writer)
      exact .of_live (Option.some_ne_none _) (carried.more live rfl rfl rfl rfl)

theorem rotate : Session lives (Method.rotate env log).2 := by
  by_cases can : CanRotate env log
  · obtain ⟨name, file⟩ := can.file
    have some := session.opened name file
    obtain ⟨renewed, live⟩ := carried.rotate can some (session.live some)
    exact .of_live renewed live
  · obtain ⟨failure, reached, failed, null, unopened, _⟩ :=
      Method.rotate_cannot can
    rw [failed]
    exact .of_null null unopened

theorem writeData (id : UInt16) (data : Bytes) :
    Session lives (Method.writeData env id data log).2 := by
  rcases Method.writeData_cases env id data log with ⟨reason, refused⟩ |
    ⟨subscription, accepts, same⟩
  · rwa [refused]
  · have roomy : Session lives (Method.makeRoom env data log).2 := by
      unfold Method.makeRoom
      split
      · exact (session.counted carried data).rotate carried
      · exact session.counted carried data
    rw [same]
    rcases made : Method.makeRoom env data log with ⟨failure | value, reached⟩
    · rw [made] at roomy
      rwa [Exec.bind_error made]
    · rw [made] at roomy
      rw [Exec.bind_ok made]
      exact roomy.emitData carried id _

omit session in
theorem keeps_shared {call : Call} {method : SimpleWriter.Method α}
    {report : α → Option UInt16} (later : Call.isLater call = true) :
    Exec.Keeps (Session lives) (fun _ => True) (shared call method report) := by
  apply Exec.Keeps.intro
  intro log session
  refine ⟨fun _ _ => trivial, ?_⟩
  cases has : log.writer with
  | none =>
      rw [shared_null has]
      exact session
  | some writer =>
      rw [shared_apply has]
      have live := session.live (by rw [has]; nofun)
      exact .of_live nofun (carried.more live rfl rfl rfl later)

theorem perform (later : request.2.isLater = true) :
    Session lives (ZzDataLog.perform request log).2 := by
  obtain ⟨env, request⟩ := request
  cases sample : request.sample log with
  | some pair =>
      obtain ⟨id, data⟩ := pair
      rw [perform_sample sample]
      exact session.writeData carried id data
  | none =>
      cases request with
      | write messageName data =>
          refine (congrArg (Session lives) (returns_none_apply _ log)).mpr ?_
          rcases @Method.write_none log env _ _ sample with ⟨reason, same⟩ | same
          · rwa [same]
          · rwa [same]
      | common call =>
          have shared : ∀ {α : Type} {method : SimpleWriter.Method α}
              {report : α → Option UInt16} (result : α → Option UInt16),
              Session lives ((ZzDataLog.shared call method report
                >>= fun value => pure (result value)) log).2 := by
            intro α method report result
            have kept := Exec.Keeps.bind (@keeps_shared lives carried α call
              method report later) fun value => .pure (result value)
            exact (Exec.Keeps.outcome kept session).2
          cases call with
          | writeAddLoggedMessage name multiId => exact shared some
          | writeTextMessage level message timestamp =>
              exact shared fun _ => none
          | writeData id data => cases sample
          | _ => cases later
      | _ => cases later

end Session

end Session

/-! ## Logs that Init has been called on -/

section Live

variable {key keyValue : Bytes} {structs : List StructInfo}
  {log reached : ZzDataLog} {env : Env} {request : Env × Request}

structure Live (key keyValue : Bytes) (structs : List StructInfo)
    (log : ZzDataLog) : Prop where
  key_eq : log.initParams.key = key
  keyValue_eq : log.initParams.keyValue = keyValue
  allStructs : log.initParams.allStructs = structs
  idMap : log.idMap = numbered 0 structs ∅
  journal : ∃ later,
    log.journal = initEntries key keyValue structs ++ later ∧
      ∀ entry ∈ later, Call.isLater entry.1 = true

structure Renewed (env : Env) (key keyValue : Bytes)
    (structs : List StructInfo) (log reached : ZzDataLog) : Prop where
  files : ∃ name newFilename writer, log.file = .opened name ∧
    log.writer = some writer ∧
    generateNewPathOrFilename log.initParams.fileName = .ok newFilename ∧
    env.opens = true ∧
    ∃ core : SimpleWriter, core.headerComplete = true ∧
      reached = { (log.reopened env name newFilename writer.output).advanced core
        (initEntries key keyValue structs) with
          idMap := numbered 0 structs ∅ }

theorem Renewed.live (live : Live key keyValue structs log)
    (renewed : Renewed env key keyValue structs log reached) :
    reached.writer ≠ none ∧ reached.headerComplete = true ∧
      reached.journal = initEntries key keyValue structs ∧
      Live key keyValue structs reached := by
  obtain ⟨name, newFilename, writer, _, _, _, _, core, header, rfl⟩ :=
    renewed.files
  refine ⟨nofun, header, rfl, ?_⟩
  exact ⟨live.key_eq, live.keyValue_eq, live.allStructs, rfl, [],
    (List.append_nil _).symm, nofun⟩

/-- What has been given to `Init` can be replayed in any new file. -/
def Replays (key keyValue : Bytes) (structs : List StructInfo) : Prop :=
  ∀ (fileName : Bytes) (image : ZzDataLog), IsNew image → ∃ final,
    Method.initWith { fileName, key, keyValue, allStructs := structs } image =
      (.ok (), final)

theorem Live.rotate_ok (live : Live key keyValue structs log)
    (replays : Replays key keyValue structs) (some : log.writer ≠ none)
    (can : CanRotate env log) :
    ∃ reached, Method.rotate env log = (.ok (), reached) ∧
      Renewed env key keyValue structs log reached := by
  obtain ⟨⟨name, file⟩, ⟨newFilename, generated⟩, opens⟩ := can
  obtain ⟨writer, has⟩ := Option.ne_none_iff_exists'.mp some
  obtain ⟨final, returned⟩ := replays newFilename _
    (isNew_reopened log env name newFilename writer.output)
  have rotated := Method.rotate_reopened has file generated opens
  have same : { log.initParams with fileName := newFilename } =
      InitParams.mk newFilename key keyValue structs := by
    rw [← live.key_eq, ← live.keyValue_eq, ← live.allStructs]
  rw [same, returned] at rotated
  obtain ⟨core, rfl, header, _⟩ := initWith_ok rfl returned
  exact ⟨_, rotated, name, newFilename, writer, file, has, generated, opens,
    core, header, rfl⟩

theorem Live.counted (live : Live key keyValue structs log) (data : Bytes) :
    Live key keyValue structs (log.counted data) :=
  { live with }

theorem carried_live (replays : Replays key keyValue structs) :
    Carried (Live key keyValue structs) where
  more {before after entry} live initParams idMap journal later := by
    obtain ⟨key_eq, keyValue_eq, allStructs, numbered, more, same, all⟩ := live
    rw [← initParams] at key_eq keyValue_eq allStructs
    refine ⟨key_eq, keyValue_eq, allStructs, idMap.trans numbered,
      more ++ [entry], ?_, ?_⟩
    · rw [journal, same, List.append_assoc]
    · exact List.forall_mem_append.mpr ⟨all, List.forall_mem_singleton.mpr later⟩
  counted data live := live.counted data
  rotate can some live := by
    obtain ⟨reached, rotated, renewed⟩ := live.rotate_ok replays some can
    obtain ⟨has, _, _, now⟩ := renewed.live live
    rw [rotated]
    exact ⟨has, now⟩

theorem live_of_init {made begun : ZzDataLog} (new : IsNew made)
    (unset : made.initParams.allStructs = [])
    (returned : Method.init key keyValue structs made = (.ok (), begun)) :
    begun.writer ≠ none ∧ Live key keyValue structs begun ∧
      Replays key keyValue structs := by
  have replays : Replays key keyValue structs := fun fileName image renewed =>
    initWith_replays returned new renewed
  obtain ⟨core, rfl, _, _⟩ := init_ok new.subscriptions returned
  refine ⟨nofun, ⟨rfl, rfl, ?_, ?_, [], ?_, nofun⟩, replays⟩
  · exact congrArg (· ++ structs) unset
  · exact congrArg (numbered 0 structs) new.idMap
  · rw [List.append_nil]
    exact congrArg (· ++ initEntries key keyValue structs) new.journal

def Keyless (log : ZzDataLog) : Prop := log.initParams.key = []

theorem Keyless.rotate (keyless : Keyless log) (some : log.writer ≠ none)
    (can : CanRotate env log) :
    ∃ failure name newFilename output, Method.rotate env log =
      (.error failure, log.reopened env name newFilename output) := by
  obtain ⟨⟨name, file⟩, ⟨newFilename, generated⟩, opens⟩ := can
  obtain ⟨writer, has⟩ := Option.ne_none_iff_exists'.mp some
  rw [Method.rotate_reopened has file generated opens]
  have refused : ∀ image, Method.throwIfKeyless log.initParams.key
      log.initParams.keyValue image = (.error (.raised (.usage (ascii
        "Filename, key and key_value must not be empty."))), image) :=
    congrFun (if_pos (.inl keyless))
  exact ⟨_, name, newFilename, writer.output, Exec.bind_error (refused _) _⟩

theorem carried_keyless : Carried Keyless where
  more keyless initParams _ _ _ := (congrArg InitParams.key initParams).trans keyless
  counted _ keyless := keyless
  rotate can some keyless := by
    obtain ⟨failure, name, newFilename, output, failed⟩ :=
      keyless.rotate some can
    rw [failed]
    exact ⟨nofun, keyless⟩

end Live

/-! ## The ids that Init issues -/

section Issued

variable {key keyValue : Bytes} {structs : List StructInfo}
  {log : ZzDataLog} {writer : Writer}
  {admits : SimpleWriter → UInt16 → Bytes → Prop}

theorem issued_append (journal more : List Entry) :
    issued (journal ++ more) = issued journal ++ issued more :=
  List.filterMap_append

theorem issued_initEntries (key keyValue : Bytes) (structs : List StructInfo) :
    issued (initEntries key keyValue structs) =
      issued (seriesEntries 0 structs) := by
  have none : issued (structs.map formatEntry) = [] := by
    rw [issued, List.filterMap_map]
    exact List.filterMap_eq_nil_iff.mpr fun _ _ => rfl
  calc
    issued (initEntries key keyValue structs)
      = issued (structs.map formatEntry ++
          (.headerComplete, .ok .none) :: seriesEntries 0 structs) := rfl
    _ = issued (seriesEntries 0 structs) := by
      rw [issued_append, none]
      rfl

theorem getElem?_issued (structs : List StructInfo) (number index : Nat) :
    (issued (seriesEntries number structs))[index]? =
      structs[index]?.map fun struct =>
        (UInt16.ofNat (number + index), struct.messageName, 0) := by
  induction structs generalizing number index with
  | nil => rfl
  | cons struct structs ih =>
      cases index with
      | zero => rfl
      | succ index =>
          have next := ih (number + 1) index
          rw [Nat.add_right_comm] at next
          exact next

theorem lookup_issued (structs : List StructInfo) {number : Nat} {id : UInt16}
    (below : number ≤ id.toNat) :
    (issued (seriesEntries number structs)).lookup id =
      structs[id.toNat - number]?.map fun struct =>
        (struct.messageName, 0) := by
  induction structs generalizing number with
  | nil => rfl
  | cons struct structs ih =>
      change ((UInt16.ofNat number, struct.messageName, (0 : UInt8)) ::
        issued (seriesEntries (number + 1) structs)).lookup id = _
      rw [List.lookup_cons]
      by_cases same : id.toNat = number
      · have here : (id == UInt16.ofNat number) = true := by
          rw [← same, UInt16.ofNat_toNat]
          exact beq_self_eq_true id
        rw [here, same, Nat.sub_self]
        rfl
      · have elsewhere : (id == UInt16.ofNat number) = false := by
          refine beq_eq_false_iff_ne.mpr fun equal => same ?_
          have bound : number < 65536 := below.trans_lt id.toNat_lt
          rw [equal, UInt16.toNat_ofNat']
          exact Nat.mod_eq_of_lt bound
        have next : number + 1 ≤ id.toNat :=
          Nat.lt_of_le_of_ne below (Ne.symm same)
        have index : id.toNat - number = id.toNat - (number + 1) + 1 := by
          omega
        rw [elsewhere, index, List.getElem?_cons_succ]
        exact ih next

/-- The ids of `Init` denote its structs, whatever is added later. -/
theorem Live.lookup (live : Live key keyValue structs log) {id : UInt16}
    {struct : StructInfo} (known : structs[id.toNat]? = some struct) :
    (issued log.journal).lookup id = some (struct.messageName, 0) := by
  obtain ⟨more, same, _⟩ := live.journal
  rw [same, issued_append, issued_initEntries, List.lookup_append,
    lookup_issued structs (Nat.zero_le _), Nat.sub_zero, known]
  rfl

theorem plain_initEntries {more : List Entry}
    (plain : Plain (initEntries key keyValue structs))
    (later : ∀ entry ∈ more, Call.isLater entry.1 = true) :
    Plain (initEntries key keyValue structs ++ more) := by
  intro name fields outcome mem
  rcases List.mem_append.mp mem with early | late
  · exact plain name fields outcome early
  · cases later _ late

theorem Live.plain (live : Live key keyValue structs log)
    (plain : Plain (initEntries key keyValue structs)) : Plain log.journal := by
  obtain ⟨more, same, later⟩ := live.journal
  rw [same]
  exact plain_initEntries plain later

theorem Live.format (live : Live key keyValue structs log)
    {struct : StructInfo} (mem : struct ∈ structs) :
    formatEntry struct ∈ log.journal := by
  obtain ⟨more, same, _⟩ := live.journal
  rw [same]
  apply List.mem_append_left
  apply List.mem_cons_of_mem
  exact List.mem_append_left _ (List.mem_map_of_mem mem)

theorem Live.messageSize (live : Live key keyValue structs log)
    (plain : Plain (initEntries key keyValue structs))
    (recorded : Recorded admits log.journal (log.core writer))
    {id other : UInt16} {multiId : UInt8} {struct : StructInfo}
    {subscription : SimpleWriter.Subscription} (mem : struct ∈ structs)
    (named : (issued log.journal)[id.toNat]? =
      some (other, struct.messageName, multiId))
    (subscribed : log.subscriptions[id.toNat]? = some subscription) :
    subscription.messageSize.toNat = SimpleWriter.messageSize struct.fields := by
  have tidy := recorded.tidy (live.plain plain)
  refine recorded.tabled.size (live.format mem) ?_ subscribed
  rw [tidy.names, List.getElem?_map, named]
  rfl

end Issued

end ZzDataLog

end UlogCpp
