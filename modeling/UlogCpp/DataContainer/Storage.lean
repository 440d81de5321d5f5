import UlogCpp.DataContainer.Frame
import UlogCpp.Messages.Message
import UlogCpp.Reader.Protocol
import UlogCpp.Reader.Prologue

namespace UlogCpp.DataContainer

open Callback (upToHeader afterHeader Divided)

/-! A container for the header, beside a container for the full log that
receives the calls of the header only. -/

/-- Make the calls; the container keeps what it has when one of them throws. -/
def receive (container : DataContainer) (calls : List Callback) :
    DataContainer :=
  calls.foldl (fun container callback => (handler.call callback container).2)
    container

def stored (container : DataContainer) : DataContainer :=
  { container with storageConfig := .header, parsingErrors := [] }

/-- A container for the header stores what a container for the full log stores
up to the end of the header, and later calls do not change it. -/
structure KeepsHeader (calls : List Callback) : Prop where
  same :
    (receive { storageConfig := .header } calls).stored =
      (receive { storageConfig := .fullLog } (upToHeader calls)).stored
  unchanged : ∀ before callback after, calls = before ++ callback :: after →
    .headerComplete ∈ before →
    (receive { storageConfig := .header } (before ++ [callback])).stored =
      (receive { storageConfig := .header } before).stored

/-- Every default that comes after the header has the name of one in it. -/
def DefaultsKnown (calls : List Callback) : Prop :=
  ∀ late, .parameterDefault late ∈ afterHeader calls →
    ∃ early, .parameterDefault early ∈ upToHeader calls ∧
      early.field.name = late.field.name

section Receive

variable {container : DataContainer} {callback : Callback}
  {calls : List Callback}

theorem receive_append (container : DataContainer)
    (calls more : List Callback) :
    receive container (calls ++ more) =
      receive (receive container calls) more :=
  List.foldl_append

def frame (container : DataContainer) :
    StorageConfig × Bool × Map Bytes ParameterDefault :=
  (container.storageConfig, container.headerComplete,
    container.defaultParameters)

theorem frame_call {callback : Callback} (container : DataContainer)
    (other : callback ≠ .headerComplete ∧
      ∀ parameter, callback ≠ .parameterDefault parameter) :
    (handler.call callback container).2.frame = container.frame := by
  by_cases here : ∃ parameter, callback = .parameter parameter
  · obtain ⟨parameter, rfl⟩ := here
    have keeps : KeepsView frame (handler.call (.parameter parameter)) :=
      .unlessSkipped (.modify fun _ => by split <;> rfl)
    exact keeps.outcome container
  · have keeps := (call_keepsParameters callback
      ⟨other.1, not_exists.mp here, other.2⟩).outcome container
    exact congrArg (fun store : ParameterStore => (store.storageConfig,
      store.headerComplete, store.defaultParameters)) keeps

theorem call_defaultParameters {callback : Callback} (container : DataContainer)
    (other : ∀ parameter, callback ≠ .parameterDefault parameter) :
    (handler.call callback container).2.defaultParameters =
      container.defaultParameters := by
  by_cases complete : callback = .headerComplete
  · rw [complete]
    rfl
  · have same := frame_call container ⟨complete, other⟩
    exact (Prod.mk.inj (Prod.mk.inj same).2).2

theorem mem_insertNew {key other : Bytes} {value : ParameterDefault}
    {map : Map Bytes ParameterDefault} :
    other ∈ map.insertNew key value ↔ other ∈ map ∨ key = other := by
  unfold Map.insertNew
  split
  next present =>
    exact ⟨.inl, fun either => either.elim id fun same => same ▸ present⟩
  next => rw [Finmap.mem_insert, eq_comm, or_comm]

theorem mem_defaultParameters {key : Bytes} :
    key ∈ (receive container calls).defaultParameters ↔
      key ∈ container.defaultParameters ∨
        ∃ parameter, .parameterDefault parameter ∈ calls ∧
          parameter.field.name = key := by
  induction calls generalizing container with
  | nil =>
      constructor
      · exact .inl
      · rintro (held | ⟨_, impossible, _⟩)
        · exact held
        · cases impossible
  | cons callback calls ih =>
      refine ih.trans ?_
      by_cases default : ∃ parameter, callback = .parameterDefault parameter
      · obtain ⟨parameter, rfl⟩ := default
        refine (or_congr_left mem_insertNew).trans ?_
        grind
      · rw [call_defaultParameters container (not_exists.mp default)]
        grind

end Receive

/-! ## Before the end of the header -/

theorem unlessSkipped_open {container : DataContainer} (handle : Handle)
    (incomplete : container.headerComplete = false) :
    unlessSkipped handle container = handle container := by
  apply unlessSkipped_kept
  rw [skips, incomplete]
  rfl

def withConfig (container : DataContainer) (config : StorageConfig) :
    DataContainer :=
  { container with storageConfig := config }

def IgnoresConfig (container : DataContainer) (handle : Handle) : Prop :=
  ∀ config, handle (container.withConfig config) =
    ((handle container).1, (handle container).2.withConfig config)

theorem IgnoresConfig.unlessSkipped {container : DataContainer}
    {handle : Handle} (incomplete : container.headerComplete = false)
    (ignores : container.IgnoresConfig handle) :
    container.IgnoresConfig (unlessSkipped handle) := by
  intro config
  rw [unlessSkipped_open handle incomplete, ← ignores config]
  exact unlessSkipped_open handle incomplete

theorem call_ignoresConfig {container : DataContainer} {callback : Callback}
    (incomplete : container.headerComplete = false)
    (opening : callback.Opening) :
    container.IgnoresConfig (handler.call callback) := by
  cases callback with
  | error | fileHeader | parameterDefault | sync => exact fun _ => rfl
  | headerComplete => exact absurd rfl opening.1
  | addLoggedMessage | logging | data | dropout => exact absurd rfl opening.2
  | messageInfo info =>
      apply IgnoresConfig.unlessSkipped incomplete
      intro config
      cases info.isMulti with
      | false => rfl
      | true =>
          cases info.continued with
          | false => rfl
          | true =>
              simp only [if_true, Exec.modify_bind_apply, Exec.get_bind_apply,
                withConfig]
              split <;> rfl
  | messageFormat format =>
      intro config
      change Handle.messageFormat format _ =
        ((Handle.messageFormat format container).1,
          (Handle.messageFormat format container).2.withConfig config)
      simp only [Handle.messageFormat, Exec.get_bind_apply, withConfig]
      split <;> rfl
  | parameter parameter =>
      apply IgnoresConfig.unlessSkipped incomplete
      intro config
      simp only [Exec.modify_apply, incomplete, withConfig, Bool.false_eq_true,
        if_false]

theorem receive_opening {container : DataContainer} {calls : List Callback}
    (incomplete : container.headerComplete = false)
    (opening : ∀ callback ∈ calls, callback.Opening) (config : StorageConfig) :
    receive (container.withConfig config) calls =
      (receive container calls).withConfig config := by
  induction calls generalizing container with
  | nil => rfl
  | cons callback calls ih =>
      obtain ⟨here, later⟩ := List.forall_mem_cons.mp opening
      have moved := congrArg Prod.snd (call_ignoresConfig incomplete here config)
      have stays : (handler.call callback container).2.headerComplete =
          false := by
        by_cases default : ∃ parameter, callback = .parameterDefault parameter
        · obtain ⟨parameter, rfl⟩ := default
          exact incomplete
        · have same := frame_call container
            ⟨Divided.ne_headerComplete here, not_exists.mp default⟩
          exact (Prod.mk.inj (Prod.mk.inj same).2).1.trans incomplete
      exact (congrArg (receive · calls) moved).trans (ih stays later)

/-! ## After it -/

structure Full (container : DataContainer) (calls : List Callback) : Prop where
  storageConfig : container.storageConfig = .header
  headerComplete : container.headerComplete = true
  known : ∀ parameter, .parameterDefault parameter ∈ calls →
    parameter.field.name ∈ container.defaultParameters

/-- Nothing but the errors of such a container changes. -/
theorem call_late {container : DataContainer} {callback : Callback}
    (full : container.Full [callback]) (late : callback.Late) :
    (handler.call callback container).2 = { container with
      parsingErrors := (handler.call callback container).2.parsingErrors } := by
  have skips : container.skips = true := by
    rw [DataContainer.skips, full.storageConfig, full.headerComplete]
    rfl
  have skipped := @unlessSkipped_skipped container skips
  cases callback with
  | error msg isRecoverable =>
      cases isRecoverable with
      | true =>
          change { container with
            hadFatalError := container.hadFatalError || false
            parsingErrors := _ } = _
          rw [Bool.or_false]
          rfl
      | false => cases late
  | messageInfo | parameter | addLoggedMessage | logging | dropout =>
      change (unlessSkipped _ container).2 = { container with
        parsingErrors := (unlessSkipped _ container).2.parsingErrors }
      rw [skipped]
  | parameterDefault parameter =>
      have present := full.known parameter List.mem_cons_self
      change { container with
        defaultParameters := container.defaultParameters.insertNew _ _ } = _
      rw [Map.insertNew, if_pos present]
      rfl
  | data data =>
      change (Handle.data data container).2 = { container with
        parsingErrors := (Handle.data data container).2.parsingErrors }
      unfold Handle.data
      rw [Exec.get_bind_apply, if_pos full.storageConfig]
      rfl
  | sync => rfl
  | headerComplete | fileHeader | messageFormat =>
      rcases late with kind | kind <;> cases kind

theorem receive_late {container : DataContainer} {calls : List Callback}
    (full : container.Full calls)
    (late : ∀ callback ∈ calls, callback.Late) :
    (receive container calls).stored = container.stored := by
  induction calls generalizing container with
  | nil => rfl
  | cons callback calls ih =>
      obtain ⟨here, later⟩ := List.forall_mem_cons.mp late
      have first : container.Full [callback] :=
        ⟨full.storageConfig, full.headerComplete, fun parameter mem =>
          full.known parameter
            (List.mem_singleton.mp mem ▸ List.mem_cons_self)⟩
      have same := call_late first here
      have stays : (handler.call callback container).2.Full calls := by
        rw [same]
        exact ⟨full.storageConfig, full.headerComplete, fun parameter mem =>
          full.known parameter (List.mem_cons_of_mem _ mem)⟩
      refine (ih stays later).trans ?_
      rw [same]
      rfl

/-! ## The calls of a reader -/

section Sides

variable {calls : List Callback} {complete : Bool}

/-- Both containers have the same when the header is complete. -/
theorem receive_upToHeader (divided : Divided calls complete)
    (config : StorageConfig) :
    receive { storageConfig := config } (upToHeader calls) =
      (receive { storageConfig := .fullLog } (upToHeader calls)).withConfig
        config := by
  obtain ⟨before, opening, _, ⟨same, _⟩ | same⟩ := divided.sides
  · rw [same]
    exact @receive_opening { storageConfig := .fullLog } _ rfl opening config
  · rw [same, receive_append, receive_append]
    exact congrArg (receive · [.headerComplete])
      (@receive_opening { storageConfig := .fullLog } _ rfl opening config)

theorem full_upToHeader (divided : Divided calls complete)
    (known : DefaultsKnown calls) (some : afterHeader calls ≠ []) :
    (receive { storageConfig := .header } (upToHeader calls)).Full
      (afterHeader calls) := by
  obtain ⟨before, opening, _, ⟨_, none⟩ | same⟩ := divided.sides
  · exact absurd none some
  · refine ⟨?_, ?_, ?_⟩
    · rw [receive_upToHeader divided]
      rfl
    · rw [same, receive_append]
      rfl
    · intro parameter mem
      exact mem_defaultParameters.mpr (.inr (known parameter mem))

/-- Any number of the late calls leaves what is stored as it was at the end of
the header. -/
theorem receive_stored (divided : Divided calls complete)
    (known : DefaultsKnown calls) {late : List Callback}
    (some : afterHeader calls ≠ []) (within : late ⊆ afterHeader calls) :
    (receive { storageConfig := .header } (upToHeader calls ++ late)).stored =
      (receive { storageConfig := .fullLog } (upToHeader calls)).stored := by
  obtain ⟨_, _, lates, _⟩ := divided.sides
  have full := full_upToHeader divided known some
  have covered : Full _ late :=
    ⟨full.storageConfig, full.headerComplete, fun parameter mem =>
      full.known parameter (within mem)⟩
  rw [receive_append, receive_late covered fun callback mem =>
    lates callback (within mem)]
  rw [receive_upToHeader divided]
  rfl

end Sides

theorem exists_late {before more : List Callback}
    (complete : .headerComplete ∈ before) :
    ∃ late, before = upToHeader (before ++ more) ++ late ∧
      afterHeader (before ++ more) = late ++ more := by
  induction before with
  | nil => cases complete
  | cons callback before ih =>
      simp only [List.cons_append, upToHeader, afterHeader]
      by_cases here : callback = .headerComplete
      · simp only [here, if_true]
        exact ⟨before, rfl, rfl⟩
      · simp only [here, if_false]
        obtain ⟨late, same, rest⟩ :=
          ih ((List.mem_cons.mp complete).resolve_left (Ne.symm here))
        exact ⟨late, congrArg (callback :: ·) same, rest⟩

/-- For the calls of every run of a reader, a container for the header keeps
what belongs to the header exactly when all defaults after it are known. -/
theorem keepsHeader_iff {σ : Type} {handler : DataHandlerInterface σ}
    {state : σ} {reader : Reader σ}
    (reachable : Reader.Reachable handler state reader) :
    KeepsHeader reader.delivery.calls ↔
      DefaultsKnown reader.delivery.calls := by
  obtain ⟨complete, divided⟩ := Reader.calls_divided reachable
  generalize reader.delivery.calls = calls at divided
  have whole := Callback.upToHeader_append_afterHeader calls
  constructor
  · rintro ⟨same, _⟩ parameter mem
    have held : parameter.field.name ∈
        (receive { storageConfig := .header } calls).stored.defaultParameters :=
      mem_defaultParameters.mpr (.inr ⟨parameter,
        whole ▸ List.mem_append_right _ mem, rfl⟩)
    rw [same] at held
    exact (mem_defaultParameters.mp held).resolve_left Finmap.notMem_empty
  · intro known
    constructor
    · by_cases none : afterHeader calls = []
      · rw [none, List.append_nil] at whole
        have both := receive_upToHeader divided .header
        rw [whole] at both ⊢
        rw [both]
        rfl
      · have stored := receive_stored divided known none (List.Subset.refl _)
        rwa [whole] at stored
    · intro before callback after split mem
      obtain ⟨late, same, rest⟩ := @exists_late before (callback :: after) mem
      rw [← split] at same rest
      have some : afterHeader calls ≠ [] := by
        rw [rest]
        exact List.append_ne_nil_of_right_ne_nil _ (List.cons_ne_nil _ _)
      have earlier := @receive_stored _ _ divided known late some
        (by rw [rest]; exact List.subset_append_left _ _)
      have later := @receive_stored _ _ divided known (late ++ [callback]) some
        (by rw [rest]; simp)
      rw [← List.append_assoc, ← same] at later
      rw [← same] at earlier
      exact later.trans earlier.symm

def lateDefaultLog : Bytes :=
  (Prologue.ofTimestamp 0).toBytes ++
    (Message.addLoggedMessage ⟨0, 0, [109]⟩).toBytes ++
    (Message.parameterDefault
      ⟨{ type := ascii "float", name := [97] }, [0, 0, 0, 0], 1⟩).toBytes

def lateDefaultReader : Reader DataContainer :=
  (Reader.readChunk handler (Cursor.ofChunk lateDefaultLog)
    (Reader.init { storageConfig := .header })).2

theorem keepsHeader_iff_lateDefault :
    KeepsHeader lateDefaultReader.delivery.calls ↔
      DefaultsKnown lateDefaultReader.delivery.calls :=
  keepsHeader_iff (.readChunk .init (Cursor.ofChunk_valid lateDefaultLog))

theorem not_keepsHeader :
    ¬ ∀ (σ : Type) (handler : DataHandlerInterface σ) (state : σ)
      (reader : Reader σ), Reader.Reachable handler state reader →
      KeepsHeader reader.delivery.calls := by
  intro always
  have kept := (always _ _ _ lateDefaultReader
    (.readChunk .init (Cursor.ofChunk_valid lateDefaultLog))).same
  have lookup := congrArg (fun container : DataContainer =>
    (container.defaultParameters.lookup [97]).isSome) kept
  revert lookup
  decide +kernel

end UlogCpp.DataContainer
