import UlogCpp.Data.Views
import UlogCpp.DataContainer.Escape
import UlogCpp.DataContainer.Grouping
import UlogCpp.Reader.Errors
import UlogCpp.Reader.Replay

namespace UlogCpp

/-! What a container for the full log holds, in terms of the calls that have
been made on it. -/

namespace Callback

def error? : Callback → Option (Bytes × Bool)
  | error msg isRecoverable => some (msg, isRecoverable)
  | _ => none

def fileHeader? : Callback → Option FileHeader
  | fileHeader header => some header
  | _ => none

def single? : Callback → Option MessageInfo
  | messageInfo info => if info.isMulti then none else some info
  | _ => none

def messageFormat? : Callback → Option MessageFormat
  | messageFormat format => some format
  | _ => none

def parameter? : Callback → Option Parameter
  | parameter value => some value
  | _ => none

def parameterDefault? : Callback → Option ParameterDefault
  | parameterDefault value => some value
  | _ => none

def logging? : Callback → Option Logging
  | logging value => some value
  | _ => none

def dropout? : Callback → Option Dropout
  | dropout value => some value
  | _ => none

def dataFor? (id : UInt16) : Callback → Option Data
  | data value => if value.msgId = id then some value else none
  | _ => none

def subscribe (id : UInt16) (held : Option Subscription) :
    Callback → Option Subscription
  | addLoggedMessage addLogged =>
      if addLogged.msgId = id then
        held.or (some { addLoggedMessage := addLogged, data := [] })
      else held
  | data value =>
      if value.msgId = id then
        held.map fun subscription =>
          { subscription with data := subscription.data ++ [value] }
      else held
  | _ => held

def subscriptionFor (id : UInt16) : List Callback → Option Subscription
  | [] => none
  | addLoggedMessage addLogged :: calls =>
      if addLogged.msgId = id then
        some { addLoggedMessage := addLogged,
               data := calls.filterMap (dataFor? id) }
      else subscriptionFor id calls
  | _ :: calls => subscriptionFor id calls

theorem subscribe_some (id : UInt16) (subscription : Subscription)
    (calls : List Callback) :
    calls.foldl (subscribe id) (some subscription) =
      some { subscription with
        data := subscription.data ++ calls.filterMap (dataFor? id) } := by
  induction calls generalizing subscription with
  | nil => simp
  | cons callback calls ih =>
      rw [List.foldl_cons]
      cases callback with
      | addLoggedMessage addLogged =>
          have kept : subscribe id (some subscription)
              (.addLoggedMessage addLogged) = some subscription := by
            simp [subscribe]
          rw [kept, ih, List.filterMap_cons_none rfl]
      | data value =>
          by_cases same : value.msgId = id
          · simp only [subscribe, same, if_true, Option.map_some, ih]
            simp [dataFor?, same]
          · simp only [subscribe, same, if_false, ih]
            simp [dataFor?, same]
      | _ => exact ih subscription

theorem subscribe_none (id : UInt16) (calls : List Callback) :
    calls.foldl (subscribe id) none = subscriptionFor id calls := by
  induction calls with
  | nil => rfl
  | cons callback calls ih =>
      rw [List.foldl_cons]
      cases callback with
      | addLoggedMessage addLogged =>
          by_cases same : addLogged.msgId = id
          · simp only [subscribe, subscriptionFor, same, if_true, Option.none_or,
              subscribe_some, List.nil_append]
          · simp only [subscribe, subscriptionFor, same, if_false, ih]
      | data value =>
          have nothing : subscribe id none (.data value) = none := by
            simp [subscribe]
          rw [nothing]
          exact ih
      | _ => exact ih

end Callback

namespace DataContainer

open Callback (upToHeader afterHeader subscriptionFor)

structure Recalls (calls : List Callback) (container : DataContainer) :
    Prop where
  hadFatalError : container.hadFatalError =
    (calls.filterMap Callback.error?).any fun error => !error.2
  parsingErrors : container.parsingErrors =
    (calls.filterMap Callback.error?).map Prod.fst
  headerComplete : container.headerComplete = decide (.headerComplete ∈ calls)
  fileHeader : container.fileHeader =
    (calls.filterMap Callback.fileHeader?).getLast?.getD (.ofTimestamp 0 false)
  messageInfo : ∀ key, container.messageInfo.lookup key =
    (calls.filterMap Callback.single?).find? (·.field.name = key)
  messageFormats : ∀ name, container.messageFormats.lookup name =
    (calls.filterMap Callback.messageFormat?).find? (·.name = name)
  initialParameters : ∀ key, container.initialParameters.lookup key =
    ((upToHeader calls).filterMap Callback.parameter?).find? (·.field.name = key)
  changedParameters : container.changedParameters =
    (afterHeader calls).filterMap Callback.parameter?
  defaultParameters : ∀ key, container.defaultParameters.lookup key =
    (calls.filterMap Callback.parameterDefault?).find? (·.field.name = key)
  subscriptions : ∀ id, container.subscriptions.lookup id =
    subscriptionFor id calls
  logging : container.logging = calls.filterMap Callback.logging?
  dropouts : container.dropouts = calls.filterMap Callback.dropout?

section Receive

variable {container : DataContainer} {calls : List Callback}
  (fullLog : container.storageConfig = .fullLog)

include fullLog in
theorem receive_view {τ α : Type} {view : DataContainer → τ}
    {pick : Callback → Option α} {next : τ → α → τ}
    (others : ∀ callback, pick callback = none → Spares view callback)
    (own : ∀ container callback value, container.storageConfig = .fullLog →
      pick callback = some value →
      view (handler.call callback container).2 = next (view container) value)
    (calls : List Callback) :
    view (receive container calls) =
      (calls.filterMap pick).foldl next (view container) :=
  @foldl_view _ _ _ _ _ view pick next (·.storageConfig = .fullLog)
    (fun container callback held =>
      (storageConfig_call callback container).trans held)
    (fun container callback _ nothing =>
      (KeepsView.call (others callback nothing)).outcome container)
    (fun container callback value held => own container callback value held)
    container fullLog calls

theorem receive_errors (container : DataContainer) (calls : List Callback) :
    ((receive container calls).parsingErrors,
        (receive container calls).hadFatalError) =
      (calls.filterMap Callback.error?).foldl
        (fun held error => (held.1 ++ [error.1], held.2 || !error.2))
        (container.parsingErrors, container.hadFatalError) := by
  have spares : ∀ callback, Callback.error? callback = none →
      Spares (fun container : DataContainer =>
        (container.parsingErrors, container.hadFatalError)) callback := by
    intro callback nothing
    cases callback with
    | error => cases nothing
    | messageInfo => exact ⟨fun _ _ _ => rfl, fun _ _ _ => rfl⟩
    | parameter => exact fun _ _ _ => rfl
    | sync => trivial
    | _ => exact fun _ _ => rfl
  refine @foldl_view _ _ _ _ _
    (fun container => (container.parsingErrors, container.hadFatalError))
    Callback.error? _ (fun _ => True) (fun _ _ _ => trivial)
    (fun container callback _ nothing =>
      (KeepsView.call (spares callback nothing)).outcome container)
    (fun container callback error _ picked => ?_) container trivial calls
  · cases callback with
    | error =>
        cases picked
        rfl
    | _ => cases picked

include fullLog in
theorem receive_fileHeader (calls : List Callback) :
    (receive container calls).fileHeader =
      (calls.filterMap Callback.fileHeader?).getLast?.getD
        container.fileHeader := by
  rw [← foldl_last]
  refine @receive_view _ fullLog _ _ fileHeader _ _
    (fun callback nothing => ?_) (fun container callback header _ picked => ?_) calls
  · cases callback with
    | fileHeader => cases nothing
    | messageInfo => exact ⟨fun _ _ _ => rfl, fun _ _ _ => rfl⟩
    | error | parameter => exact fun _ _ _ => rfl
    | sync => trivial
    | _ => exact fun _ _ => rfl
  · cases callback with
    | fileHeader =>
        cases picked
        rfl
    | _ => cases picked

include fullLog in
theorem receive_headerComplete (calls : List Callback) :
    (receive container calls).headerComplete =
      (container.headerComplete || decide (.headerComplete ∈ calls)) := by
  induction calls generalizing container with
  | nil => simp [receive]
  | cons callback calls ih =>
      refine (ih ((storageConfig_call callback container).trans fullLog)).trans ?_
      by_cases complete : callback = .headerComplete
      · rw [complete]
        simp [handler, Handle.headerComplete]
      · have kept : (handler.call callback container).2.headerComplete =
            container.headerComplete := by
          by_cases other : ∀ parameter, callback ≠ .parameterDefault parameter
          · have same := frame_call container ⟨complete, other⟩
            exact (Prod.mk.inj (Prod.mk.inj same).2).1
          · simp only [ne_eq, not_forall, not_not] at other
            obtain ⟨parameter, rfl⟩ := other
            rfl
        rw [kept]
        simp [Ne.symm complete]

include fullLog in
theorem receive_messageInfo (calls : List Callback) :
    (receive container calls).messageInfo =
      (calls.filterMap Callback.single?).foldl
        (fun map info => map.insertNew info.field.name info)
        container.messageInfo := by
  refine @receive_view _ fullLog _ _ messageInfo _ _
    (fun callback nothing => ?_) (fun container callback info held picked => ?_)
    calls
  · cases callback with
    | messageInfo info =>
        refine ⟨fun _ _ _ => rfl, fun single => ?_⟩
        simp [Callback.single?, single] at nothing
    | error | parameter => exact fun _ _ _ => rfl
    | sync => trivial
    | _ => exact fun _ _ => rfl
  · cases callback with
    | messageInfo message =>
        cases multi : message.isMulti with
        | true => simp [Callback.single?, multi] at picked
        | false =>
            simp [Callback.single?, multi] at picked
            rw [call_messageInfo held multi, ← picked]
    | _ => cases picked

include fullLog in
theorem receive_messageFormats (calls : List Callback) :
    (receive container calls).messageFormats =
      (calls.filterMap Callback.messageFormat?).foldl
        (fun map format => map.insertNew format.name format)
        container.messageFormats := by
  refine @receive_view _ fullLog _ _ messageFormats _ _
    (fun callback nothing => ?_) (fun container callback format held picked => ?_)
    calls
  · cases callback with
    | messageFormat => cases nothing
    | messageInfo => exact ⟨fun _ _ _ => rfl, fun _ _ _ => rfl⟩
    | error | parameter => exact fun _ _ _ => rfl
    | sync => trivial
    | _ => exact fun _ _ => rfl
  · cases callback with
    | messageFormat =>
        cases picked
        change (Handle.messageFormat format container).2.messageFormats = _
        unfold Handle.messageFormat
        rw [Exec.get_bind_apply]
        by_cases present : format.name ∈ container.messageFormats
        · rw [if_pos present, Map.insertNew, if_pos present]
          rfl
        · rw [if_neg present]
          rfl
    | _ => cases picked

include fullLog in
theorem receive_defaultParameters (calls : List Callback) :
    (receive container calls).defaultParameters =
      (calls.filterMap Callback.parameterDefault?).foldl
        (fun map parameter => map.insertNew parameter.field.name parameter)
        container.defaultParameters := by
  refine @receive_view _ fullLog _ _ defaultParameters _ _
    (fun callback nothing => ?_) (fun container callback parameter _ picked => ?_)
    calls
  · cases callback with
    | parameterDefault => cases nothing
    | messageInfo => exact ⟨fun _ _ _ => rfl, fun _ _ _ => rfl⟩
    | error | parameter => exact fun _ _ _ => rfl
    | sync => trivial
    | _ => exact fun _ _ => rfl
  · cases callback with
    | parameterDefault =>
        cases picked
        rfl
    | _ => cases picked

include fullLog in
theorem receive_logging (calls : List Callback) :
    (receive container calls).logging =
      container.logging ++ calls.filterMap Callback.logging? := by
  rw [← foldl_concat]
  refine @receive_view _ fullLog _ _ logging _ _
    (fun callback nothing => ?_) (fun container callback logging held picked => ?_)
    calls
  · cases callback with
    | logging => cases nothing
    | messageInfo => exact ⟨fun _ _ _ => rfl, fun _ _ _ => rfl⟩
    | error | parameter => exact fun _ _ _ => rfl
    | sync => trivial
    | _ => exact fun _ _ => rfl
  · cases callback with
    | logging =>
        cases picked
        rw [call_logging held]
    | _ => cases picked

include fullLog in
theorem receive_dropouts (calls : List Callback) :
    (receive container calls).dropouts =
      container.dropouts ++ calls.filterMap Callback.dropout? := by
  rw [← foldl_concat]
  refine @receive_view _ fullLog _ _ dropouts _ _
    (fun callback nothing => ?_) (fun container callback dropout held picked => ?_)
    calls
  · cases callback with
    | dropout => cases nothing
    | messageInfo => exact ⟨fun _ _ _ => rfl, fun _ _ _ => rfl⟩
    | error | parameter => exact fun _ _ _ => rfl
    | sync => trivial
    | _ => exact fun _ _ => rfl
  · cases callback with
    | dropout =>
        cases picked
        change (unlessSkipped _ container).2.dropouts = _
        rw [unlessSkipped_fullLog held]
        rfl
    | _ => cases picked

/-! ## Parameters -/

theorem receive_cons (callback : Callback) (calls : List Callback) :
    receive container (callback :: calls) =
      receive (handler.call callback container).2 calls := rfl

include fullLog in
theorem parameters_call (callback : Callback) :
    (handler.call callback container).2.initialParameters =
        (if container.headerComplete then [] else
          (Callback.parameter? callback).toList).foldl
            (fun map parameter => map.insertNew parameter.field.name parameter)
            container.initialParameters ∧
      (handler.call callback container).2.changedParameters =
        container.changedParameters ++ if container.headerComplete then
          (Callback.parameter? callback).toList else [] := by
  by_cases here : ∃ parameter, callback = .parameter parameter
  · obtain ⟨parameter, rfl⟩ := here
    change (unlessSkipped _ container).2.initialParameters = _ ∧
      (unlessSkipped _ container).2.changedParameters = _
    rw [unlessSkipped_fullLog fullLog, Exec.modify_apply]
    cases container.headerComplete with
    | true => exact ⟨rfl, rfl⟩
    | false => exact ⟨rfl, (List.append_nil _).symm⟩
  · have keeps : KeepsView (fun container =>
        (container.initialParameters, container.changedParameters))
        (handler.call callback) := by
      apply KeepsView.call
      cases callback with
      | parameter parameter => exact absurd ⟨parameter, rfl⟩ here
      | messageInfo => exact ⟨fun _ _ _ => rfl, fun _ _ _ => rfl⟩
      | error => exact fun _ _ _ => rfl
      | sync => trivial
      | _ => exact fun _ _ => rfl
    have nothing : Callback.parameter? callback = none := by
      cases callback with
      | parameter parameter => exact absurd ⟨parameter, rfl⟩ here
      | _ => rfl
    obtain ⟨initial, changed⟩ := Prod.mk.inj (keeps.outcome container)
    rw [initial, changed, nothing]
    cases container.headerComplete <;> exact ⟨rfl, (List.append_nil _).symm⟩

include fullLog in
theorem receive_changes (complete : container.headerComplete = true)
    (calls : List Callback) :
    (receive container calls).initialParameters =
        container.initialParameters ∧
      (receive container calls).changedParameters =
        container.changedParameters ++ calls.filterMap Callback.parameter? := by
  induction calls generalizing container with
  | nil => exact ⟨rfl, (List.append_nil _).symm⟩
  | cons callback calls ih =>
      have still : (handler.call callback container).2.headerComplete = true := by
        have after := receive_headerComplete fullLog [callback]
        rwa [complete, Bool.true_or] at after
      obtain ⟨initial, changed⟩ :=
        ih ((storageConfig_call callback container).trans fullLog) still
      obtain ⟨sameInitial, added⟩ := parameters_call fullLog callback
      rw [complete] at sameInitial added
      rw [receive_cons, initial, changed, sameInitial, added]
      refine ⟨rfl, (List.append_assoc ..).trans (congrArg (_ ++ ·) ?_)⟩
      cases picked : Callback.parameter? callback with
      | none => rw [List.filterMap_cons_none picked]; rfl
      | some parameter => rw [List.filterMap_cons_some picked]; rfl

include fullLog in
theorem receive_parameters (incomplete : container.headerComplete = false)
    (calls : List Callback) :
    (receive container calls).initialParameters =
        ((upToHeader calls).filterMap Callback.parameter?).foldl
          (fun map parameter => map.insertNew parameter.field.name parameter)
          container.initialParameters ∧
      (receive container calls).changedParameters =
        container.changedParameters ++
          (afterHeader calls).filterMap Callback.parameter? := by
  induction calls generalizing container with
  | nil => exact ⟨rfl, (List.append_nil _).symm⟩
  | cons callback calls ih =>
      have config := (storageConfig_call callback container).trans fullLog
      rw [receive_cons]
      by_cases complete : callback = .headerComplete
      · subst complete
        obtain ⟨initial, changed⟩ := receive_changes config
          (show (handler.call .headerComplete container).2.headerComplete = true
            from rfl) calls
        rw [initial, changed]
        exact ⟨rfl, rfl⟩
      · have still : (handler.call callback container).2.headerComplete =
            false := by
          have after := receive_headerComplete fullLog [callback]
          rwa [incomplete, Bool.false_or,
            decide_eq_false (by simpa using Ne.symm complete)] at after
        obtain ⟨initial, changed⟩ := ih config still
        obtain ⟨added, sameChanged⟩ := parameters_call fullLog callback
        rw [incomplete] at added sameChanged
        rw [initial, changed, added, sameChanged]
        simp only [upToHeader, afterHeader, complete, if_false,
          Bool.false_eq_true, List.append_nil, and_true]
        cases picked : Callback.parameter? callback with
        | none => rw [List.filterMap_cons_none picked]; rfl
        | some parameter => rw [List.filterMap_cons_some picked]; rfl

/-! ## Subscriptions -/

include fullLog in
theorem subscription_call (id : UInt16) (callback : Callback) :
    (handler.call callback container).2.subscriptions.lookup id =
      Callback.subscribe id (container.subscriptions.lookup id) callback := by
  have spared : ∀ {callback : Callback}, Spares subscriptions callback →
      (handler.call callback container).2.subscriptions.lookup id =
        container.subscriptions.lookup id := fun spares =>
    congrArg (Finmap.lookup id) ((KeepsView.call spares).outcome container)
  cases callback with
  | addLoggedMessage addLogged =>
      change (unlessSkipped _ container).2.subscriptions.lookup id = _
      rw [unlessSkipped_fullLog fullLog, Exec.get_bind_apply]
      by_cases present : addLogged.msgId ∈ container.subscriptions
      · rw [if_pos present]
        obtain ⟨held, found⟩ := Finmap.mem_iff.mp present
        by_cases same : addLogged.msgId = id
        · subst same
          simp [Callback.subscribe, throwParsing, found]
        · simp [Callback.subscribe, throwParsing, same]
      · rw [if_neg present, Exec.modify_apply]
        refine (Map.lookup_insertNew ..).trans ?_
        by_cases same : addLogged.msgId = id
        · simp [Callback.subscribe, same]
        · simp [Callback.subscribe, same, Ne.symm same]
  | data value =>
      change (Handle.data value container).2.subscriptions.lookup id = _
      unfold Handle.data
      rw [Exec.get_bind_apply, if_neg (by rw [fullLog]; decide)]
      by_cases same : value.msgId = id
      · subst same
        cases found : container.subscriptions.lookup value.msgId with
        | none => simp [Callback.subscribe, throwParsing, found]
        | some subscription =>
            simp [Callback.subscribe]
      · cases found : container.subscriptions.lookup value.msgId with
        | none => simp [Callback.subscribe, throwParsing, same]
        | some subscription =>
            simp [Callback.subscribe, same, Ne.symm same]
  | error | parameter => exact spared fun _ _ _ => rfl
  | messageInfo => exact spared ⟨fun _ _ _ => rfl, fun _ _ _ => rfl⟩
  | sync => exact spared trivial
  | _ => exact spared fun _ _ => rfl

include fullLog in
theorem receive_subscriptions (id : UInt16) (calls : List Callback) :
    (receive container calls).subscriptions.lookup id =
      calls.foldl (Callback.subscribe id) (container.subscriptions.lookup id) := by
  induction calls generalizing container with
  | nil => rfl
  | cons callback calls ih =>
      rw [receive_cons,
        ih ((storageConfig_call callback container).trans fullLog),
        subscription_call fullLog, List.foldl_cons]

end Receive

theorem foldl_errors (errors : List (Bytes × Bool)) (held : List Bytes × Bool) :
    errors.foldl (fun held error => (held.1 ++ [error.1], held.2 || !error.2))
        held =
      (held.1 ++ errors.map Prod.fst, held.2 || errors.any fun error =>
        !error.2) := by
  induction errors generalizing held with
  | nil => simp
  | cons error errors ih =>
      rw [List.foldl_cons, ih]
      simp [Bool.or_assoc]

theorem receive_recalls (calls : List Callback) :
    Recalls calls (receive { storageConfig := .fullLog } calls) := by
  have errors := (receive_errors { storageConfig := .fullLog } calls).trans
    (foldl_errors ..)
  obtain ⟨parsing, fatal⟩ := Prod.mk.inj errors
  obtain ⟨initial, changed⟩ :=
    @receive_parameters { storageConfig := .fullLog } rfl rfl calls
  exact {
    parsingErrors := parsing
    hadFatalError := fatal
    headerComplete := receive_headerComplete rfl calls
    fileHeader := receive_fileHeader rfl calls
    messageInfo := fun key => by
      rw [receive_messageInfo rfl]
      exact Map.lookup_foldl_insertNew ..
    messageFormats := fun name => by
      rw [receive_messageFormats rfl]
      exact Map.lookup_foldl_insertNew ..
    initialParameters := fun key => by
      rw [initial]
      exact Map.lookup_foldl_insertNew ..
    changedParameters := changed
    defaultParameters := fun key => by
      rw [receive_defaultParameters rfl]
      exact Map.lookup_foldl_insertNew ..
    subscriptions := fun id =>
      (receive_subscriptions rfl id calls).trans (Callback.subscribe_none id calls)
    logging := receive_logging rfl calls
    dropouts := receive_dropouts rfl calls }

/-! ## Containers that a reader fills -/

section Reading

open Reader (Reachable MayReport startErrors corruptionError)

variable {reader : Reader DataContainer}

/-- In every run the container holds what the calls of the reader say. -/
theorem container_recalls
    (reachable : Reachable handler { storageConfig := .fullLog } reader) :
    Recalls reader.delivery.calls reader.delivery.handler := by
  rw [reachable.replays]
  exact receive_recalls reader.delivery.calls

def zerosRead (storageConfig : StorageConfig) : Reader DataContainer :=
  Exec.final (Reader.readEach handler) Reader.zerosLog (.init { storageConfig })

theorem container_recalls_zeros :
    Recalls (zerosRead .fullLog).delivery.calls
      (zerosRead .fullLog).delivery.handler :=
  container_recalls (Reachable.init.readEach _)

theorem length_error? (calls : List Callback) :
    (calls.filterMap Callback.error?).length =
      calls.countP (·.kind == .error) := by
  induction calls with
  | nil => rfl
  | cons callback calls ih =>
      rw [List.countP_cons]
      cases callback with
      | error => exact congrArg Nat.succ ih
      | _ => exact ih

theorem any_fatal (calls : List Callback) :
    ((calls.filterMap Callback.error?).any fun error => !error.2) = true ↔
      ∃ msg, .error msg false ∈ startErrors calls := by
  constructor
  · intro found
    obtain ⟨⟨msg, isRecoverable⟩, among, fatal⟩ := List.any_eq_true.mp found
    obtain ⟨callback, here, same⟩ := List.mem_filterMap.mp among
    cases callback with
    | error =>
        cases same
        cases isRecoverable with
        | true => cases fatal
        | false =>
            refine ⟨msg, List.mem_filter.mpr ⟨here, ?_⟩⟩
            simp [corruptionError, Callback.kind]
    | _ => cases same
  · rintro ⟨msg, among⟩
    obtain ⟨here, _⟩ := List.mem_filter.mp among
    exact List.any_eq_true.mpr
      ⟨(msg, false), List.mem_filterMap.mpr ⟨_, here, rfl⟩, rfl⟩

theorem fatal_iff {state : State} {errors : List Callback}
    (may : MayReport state errors) :
    (∃ msg, .error msg false ∈ errors) ↔ state = .invalidData := by
  cases state with
  | invalidData =>
      obtain ⟨msg, rfl | rfl⟩ := may
      · simp
      · simp
  | readMagic | readFlagBits =>
      rw [show errors = [] from may]
      simp
  | readHeader | readData =>
      rcases may with rfl | rfl
      · simp
      · simp [Reader.appendedOffsetsError]

/-- `hadFatalError()` tells whether the reader has given up, and the list of
parsing errors stays short. -/
theorem container_errors {storageConfig : StorageConfig}
    (reachable : Reachable handler { storageConfig } reader) :
    (reader.delivery.handler.hadFatalError = true ↔
        reader.delivery.state = .invalidData) ∧
      reader.delivery.handler.parsingErrors.length ≤ 3 := by
  have errors := (receive_errors { storageConfig } reader.delivery.calls).trans
    (foldl_errors ..)
  have received : reader.delivery.handler =
      receive { storageConfig } reader.delivery.calls := reachable.replays
  rw [← received] at errors
  obtain ⟨parsing, fatal⟩ := Prod.mk.inj errors
  obtain ⟨may, _, few⟩ := Reader.errors_limited handler_contained.early reachable
  constructor
  · rw [fatal, Bool.false_or, any_fatal]
    exact fatal_iff may
  · rw [parsing, List.nil_append, List.length_map, length_error?]
    exact few

theorem container_errors_zeros :
    ((zerosRead .header).delivery.handler.hadFatalError = true ↔
        (zerosRead .header).delivery.state = .invalidData) ∧
      (zerosRead .header).delivery.handler.parsingErrors.length ≤ 3 :=
  container_errors (Reachable.init.readEach _)

end Reading

end DataContainer

end UlogCpp
