import UlogCpp.ZzDataLog.Rotation

namespace UlogCpp

/-! What becomes of any call of `Write` after `Init`, whether it returns or
throws. -/

namespace ZzDataLog

structure Suits (key keyValue : Bytes) (structs : List StructInfo) : Prop
    extends Carries key keyValue structs where
  distinct : (structs.map StructInfo.messageName).Nodup
  sized : ∀ struct ∈ structs, SimpleWriter.messageSize struct.fields ≠ 0 ∧
    2 + SimpleWriter.messageSize struct.fields < 2 ^ 16

/-- The object is large enough for the struct that has its name. -/
def Covers (structs : List StructInfo) (name data : Bytes) : Prop :=
  ∃ struct ∈ structs, struct.messageName = name ∧
    SimpleWriter.messageSize struct.fields ≤ (UInt32.ofNat data.length).toNat

instance (structs : List StructInfo) (name data : Bytes) :
    Decidable (Covers structs name data) :=
  inferInstanceAs (Decidable (∃ struct ∈ structs, _ ∧ _))

structure Serving (base key keyValue : Bytes) (structs : List StructInfo)
    (value : Nat) (log : ZzDataLog) : Prop
    extends Rolling base key keyValue structs value log where
  header : log.headerComplete = true
  plain : Plain (initEntries key keyValue structs)
  replays : Replays key keyValue structs

section Serving

variable {base key keyValue name data : Bytes} {structs : List StructInfo}
  {value : Nat} {log after : ZzDataLog} {env : Env}

theorem lookup_numbered_some {number : Nat} {idMap : Map Bytes UInt16}
    (mem : name ∈ structs.map StructInfo.messageName ∨
      idMap.lookup name ≠ none) :
    (numbered number structs idMap).lookup name ≠ none := by
  induction structs generalizing number idMap with
  | nil => exact mem.resolve_left List.not_mem_nil
  | cons struct structs ih =>
      apply ih
      rw [Map.lookup_insert_eq]
      by_cases same : name = struct.messageName
      · rw [if_pos same]
        exact .inr (Option.some_ne_none _)
      · rw [if_neg same]
        refine mem.imp_left fun mem => ?_
        exact (List.mem_cons.mp mem).resolve_left same

theorem Method.writeData_makeRoom {id : UInt16}
    {subscription : SimpleWriter.Subscription}
    (accepts : Accepts log id data subscription) :
    Method.writeData env id data log = (Method.makeRoom env data >>= fun _ =>
      Method.emitData id (data.take subscription.messageSize.toNat)) log := by
  rw [Method.writeData_accepted accepts, Exec.bind_apply, Exec.bind_apply,
    Method.makeRoom]
  split <;> rfl

namespace Serving

variable (serving : Serving base key keyValue structs value log)

include serving

theorem subscribed {id : UInt16} {struct : StructInfo} (known : structs[id.toNat]? = some struct) :
    ∃ subscription, log.subscriptions[id.toNat]? = some subscription ∧
      subscription.messageSize.toNat =
        SimpleWriter.messageSize struct.fields := by
  obtain ⟨writer, has⟩ := Option.ne_none_iff_exists'.mp serving.some
  have recorded := serving.journaled.current writer has
  obtain ⟨samples, journal, _⟩ := serving.toRolling.current
  have names := (recorded.tidy (serving.live.plain serving.plain)).names
  have count := congrArg List.length recorded.tabled.subscriptions
  rw [List.length_map, List.length_map, names, List.length_map, journal,
    issued_filled, length_issued] at count
  have below : id.toNat < log.subscriptions.length := by
    rw [show log.subscriptions.length = structs.length from count]
    exact (List.getElem?_eq_some_iff.mp known).1
  refine ⟨log.subscriptions[id.toNat], List.getElem?_eq_getElem below, ?_⟩
  exact serving.messageSize serving.plain known (List.getElem?_eq_getElem below)

theorem accepts_iff {id : UInt16} {struct : StructInfo} (known : structs[id.toNat]? = some struct) :
    (∃ subscription, Accepts log id data subscription) ↔
      SimpleWriter.messageSize struct.fields ≤
        (UInt32.ofNat data.length).toNat := by
  obtain ⟨subscription, subscribed, size⟩ := serving.subscribed known
  constructor
  · rintro ⟨other, accepts⟩
    cases subscribed.symm.trans accepts.subscribed
    rw [← size]
    exact UInt32.le_iff_toNat_le.mp accepts.covered
  · intro covered
    rw [← size] at covered
    exact ⟨subscription, serving.header, subscribed,
      UInt32.le_iff_toNat_le.mpr covered⟩

theorem counted (data : Bytes) :
    Serving base key keyValue structs value (log.counted data) :=
  { serving with
    toRolling := serving.toRolling.counted data }

theorem rotate (opens : env.opens = true) (small : value + 1 < 2 ^ 31) :
    ∃ reached, Method.rotate env log = (.ok (), reached) ∧
      Serving base key keyValue structs (value + 1) reached := by
  obtain ⟨reached, rotated, rolling, _⟩ :=
    serving.toRolling.rotate serving.replays opens small
  obtain ⟨other, also, renewed⟩ := serving.live.rotate_ok serving.replays
    serving.some (serving.canRotate opens small)
  cases rotated.symm.trans also
  have header := (renewed.live serving.live).2.1
  exact ⟨reached, rotated, rolling, header, serving.plain, serving.replays⟩

theorem makeRoom (opens : env.opens = true)
    (small : Rotates log data → value + 1 < 2 ^ 31) :
    ∃ reached last, Method.makeRoom env data log = (.ok (), reached) ∧
      Serving base key keyValue structs last reached := by
  unfold Method.makeRoom
  by_cases rotates : Rotates log data
  · obtain ⟨reached, rotated, next⟩ :=
      (serving.counted data).rotate opens (small rotates)
    rw [if_pos rotates]
    exact ⟨reached, value + 1, rotated, next⟩
  · rw [if_neg rotates]
    exact ⟨_, value, rfl, serving.counted data⟩

theorem emitData (id : UInt16) (sized : 2 + data.length < 2 ^ 16) :
    (Method.emitData id data log).1 = .ok () ∧
      (Method.emitData id data log).2.headerComplete = true := by
  obtain ⟨writer, has⟩ := Option.ne_none_iff_exists'.mp serving.some
  have length : (Message.data ⟨id, data⟩).body.length = 2 + data.length := by
    rw [Message.body, Message.fixed, Message.pieces, List.flatten_singleton,
      List.length_append, length_leBytes]
  have serialized := @Message.serialize_fits (.data ⟨id, data⟩) writer.output
    (by rwa [length]) (show 0 < 2 ^ 8 by decide)
  rw [emitData_apply has]
  refine ⟨?_, serving.header⟩
  exact congrArg (fun ran => Except.mapError Failure.raised ran.1) serialized

theorem sample {id : UInt16} (known : log.idMap.lookup name = some id) :
    (Request.write name data).sample log = some (id, data) := by
  rw [Request.sample, serving.on, known]
  rfl

/-- Without a struct of this name, or with too little data for it, nothing
happens. -/
theorem refused (suits : Suits key keyValue structs)
    (uncovered : ¬ Covers structs name data) {id : UInt16}
    (known : log.idMap.lookup name = some id) (env : Env) :
    ∃ reason, Method.writeData env id data log =
      (.error (.raised (.usage reason)), log) := by
  obtain ⟨struct, here, named⟩ := serving.struct_of_lookup suits.few known
  have mem := List.mem_of_getElem? here
  apply Method.writeData_refused
  apply not_exists.mp
  rw [serving.accepts_iff here]
  exact fun covered => uncovered ⟨struct, mem, named, covered⟩

theorem fsync : Method.fsync log = (.ok (), log) := by
  obtain ⟨_, _, _, file⟩ := serving.named
  rw [Method.fsync, Exec.get_bind_apply, file]
  rfl

theorem found (suits : Suits key keyValue structs)
    (covers : Covers structs name data) :
    ∃ id struct subscription, log.idMap.lookup name = some id ∧
      structs[id.toNat]? = some struct ∧ struct.messageName = name ∧
      Accepts log id data subscription ∧
      subscription.messageSize.toNat =
        SimpleWriter.messageSize struct.fields := by
  obtain ⟨other, mem, named, covered⟩ := covers
  have known : log.idMap.lookup name ≠ none := by
    rw [serving.live.idMap]
    exact lookup_numbered_some
      (.inl (List.mem_map.mpr ⟨other, mem, named⟩))
  obtain ⟨id, known⟩ := Option.ne_none_iff_exists'.mp known
  obtain ⟨struct, here, same⟩ := serving.struct_of_lookup suits.few known
  have equal : struct = other := List.inj_on_of_nodup_map suits.distinct
    (List.mem_of_getElem? here) mem (same.trans named.symm)
  rw [← equal] at covered
  obtain ⟨subscription, accepts⟩ := (serving.accepts_iff here).mpr covered
  obtain ⟨_, subscribed, size⟩ := serving.subscribed here
  cases accepts.subscribed.symm.trans subscribed
  exact ⟨id, struct, subscription, known, here, same, accepts, size⟩

theorem journaled_write (suits : Suits key keyValue structs) {id : UInt16}
    (known : log.idMap.lookup name = some id) :
    Journaled Fits (Method.writeData env id data log).2 := by
  have session : Session (Live key keyValue structs) log :=
    .of_live serving.some serving.live
  have initial : Initial structs log :=
    serving.current.initial suits.few rfl
  rw [← @perform_sample log env _ _ _ (serving.sample known)]
  exact serving.journaled.perform (admissible_fits session serving.replays
    serving.plain serving.journaled fun _ _ _ _ _ _ _ => initial)

/-- Any other call writes the first bytes of its value, perhaps to a new
file. -/
theorem adds (suits : Suits key keyValue structs) (opens : env.opens = true)
    (small : startsFile log (env, .write name data) = true →
      value + 1 < 2 ^ 31)
    (covers : Covers structs name data) :
    ∃ id struct reached, log.idMap.lookup name = some id ∧
      structs[id.toNat]? = some struct ∧ struct.messageName = name ∧
      Method.writeData env id data log = (.ok (), reached) ∧
      Serving base key keyValue structs
        (value + if startsFile log (env, .write name data) then 1 else 0)
        reached ∧
      reached.written = log.written ++
        [(id, data.take (SimpleWriter.messageSize struct.fields))] := by
  obtain ⟨id, struct, subscription, known, here, named, accepts, size⟩ :=
    serving.found suits covers
  have journaled := @journaled_write _ _ _ _ data _ _ _ env serving suits _ known
  rw [startsFile_of_sample (serving.sample known)] at small ⊢
  have room := fun rotates => small (decide_eq_true rotates)
  obtain ⟨positive, narrow⟩ := suits.sized struct (List.mem_of_getElem? here)
  have length := List.length_take_of_le accepts.le_length
  rw [← size, ← length] at positive narrow
  obtain ⟨middle, last, made, next⟩ := serving.makeRoom opens room
  obtain ⟨emitted, header⟩ := next.emitData id narrow
  have whole : Method.writeData env id data log = Method.emitData id
      (data.take subscription.messageSize.toNat) middle := by
    rw [Method.writeData_makeRoom accepts, Exec.bind_ok made]
  rw [← whole] at emitted header
  have returned : Method.writeData env id data log =
      (.ok (), (Method.writeData env id data log).2) := Prod.ext emitted rfl
  obtain ⟨rolling, written⟩ := serving.toRolling.writeData serving.replays opens
    room accepts (List.ne_nil_of_length_pos (Nat.pos_of_ne_zero positive))
    (by omega) returned journaled
  rw [size] at written
  exact ⟨id, struct, _, known, here, named, returned,
    ⟨rolling, header, serving.plain, serving.replays⟩, written⟩

/-- The files are read without errors, and hold what has been written. -/
theorem reads (suits : Suits key keyValue structs)
    (fields : ∀ struct ∈ structs, struct.fields ≠ []) :
    ∃ containers, List.Forall₂ ReadsAs log.files containers ∧
      (∀ container ∈ containers, container.parsingErrors = []) ∧
      ∀ name, containers.flatMap (DataContainer.payloads name) =
        samplesNamed structs name log.written := by
  have all : ∀ file ∈ log.files, ∃ container, ReadsAs file container ∧
      container.parsingErrors = [] ∧
        ∀ name, container.payloads name =
          samplesNamed structs name (file.journal.filterMap dataOf) := by
    intro file mem
    obtain ⟨simple, recorded, content⟩ := serving.toRolling.recorded file mem
    exact (serving.filled file mem).readsAs suits.toCarries fields
      suits.distinct recorded file content
  obtain ⟨containers, reads, errors, payloads⟩ := containers_of_files all
  refine ⟨containers, reads, errors, fun name => ?_⟩
  rw [payloads, samplesNamed_flatMap]
  rfl

end Serving

theorem serving_of_init {version : Bytes} {made begun : ZzDataLog}
    (numeral : Numeral version value)
    (constructs : Method.construct env (.file (fileName base version))
      { zzDataLogOn := true } = (.ok (), made))
    (suits : Suits key keyValue structs)
    (returned : Method.init key keyValue structs made = (.ok (), begun)) :
    Serving base key keyValue structs value begun ∧ begun.written = [] ∧
      ∀ struct ∈ structs, struct.fields ≠ [] := by
  obtain ⟨rolling, empty, replays, fields⟩ :=
    rolling_of_init numeral constructs returned
  have plain := (rolling.current.readable suits.toCarries fields).plain
  obtain ⟨later, whole, _⟩ := rolling.live.journal
  rw [whole] at plain
  cases construct_ok constructs
  have new := isNew_made (.file (fileName base version)) env true
  obtain ⟨core, same, header, _⟩ := init_ok new.subscriptions returned
  refine ⟨⟨rolling, ?_, plain.earlier, replays⟩, empty, fields⟩
  rw [same]
  exact header

end Serving

end ZzDataLog

end UlogCpp
