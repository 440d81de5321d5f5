import UlogCpp.DataContainer.History
import UlogCpp.Programs.Model
import UlogCpp.Reader.Kept

namespace UlogCpp

/-! What the programs print, for a file of any bytes. -/

theorem Callback.subscriptionFor_msgId {id : UInt16} {calls : List Callback}
    {subscription : Subscription}
    (found : subscriptionFor id calls = some subscription) :
    subscription.addLoggedMessage.msgId = id := by
  induction calls with
  | nil => cases found
  | cons callback calls ih =>
      cases callback with
      | addLoggedMessage addLogged =>
          simp only [subscriptionFor] at found
          split at found
          next same =>
            cases found
            exact same
          next => exact ih found
      | _ => exact ih found

namespace Programs

section Prints

variable {program : Program α} {value : α} {text more : Bytes}

def Prints (program : Program α) (value : α) (text : Bytes) : Prop :=
  ∀ printed, program printed = (.ok value, printed ++ text)

def Returns (program : Program α) (value : α) : Prop :=
  ∃ printed reached, program printed = (.ok value, reached)

theorem prints_printf (text : Bytes) : Prints (printf text) () text :=
  fun _ => rfl

theorem Prints.of_eq (prints : Prints program value more)
    (same : more = text) : Prints program value text := by
  rw [← same]
  exact prints

theorem Prints.pure (value : α) : Prints (pure value : Program α) value [] :=
  fun printed => congrArg (Prod.mk _) (List.append_nil printed).symm

theorem Prints.bind {next : α → Program β} {final : β}
    (first : Prints program value text) (rest : Prints (next value) final more) :
    Prints (program >>= next) final (text ++ more) := by
  intro printed
  rw [Exec.bind_ok (first printed), rest, List.append_assoc]

theorem Prints.forM {body : β → Program Unit} {line : β → Bytes}
    {list : List β} (each : ∀ element ∈ list, Prints (body element) ()
      (line element)) :
    Prints (list.forM body) () (list.flatMap line) := by
  induction list with
  | nil => exact .pure ()
  | cons element list ih =>
      obtain ⟨here, later⟩ := List.forall_mem_cons.mp each
      exact here.bind (ih later)

theorem prints_fromLibrary {result : Except Stop α}
    (returned : result = .ok value) : Prints (fromLibrary result) value [] := by
  intro printed
  rw [returned, List.append_nil]
  rfl

theorem returns_bind {next : α → Program β} {final : β}
    (returned : Returns (program >>= next) final) :
    ∃ value, Returns program value ∧ Returns (next value) final := by
  obtain ⟨printed, reached, ran⟩ := returned
  obtain ⟨value, middle, first, rest⟩ := Exec.bind_eq_ok.mp ran
  exact ⟨value, ⟨printed, middle, first⟩, middle, reached, rest⟩

theorem returns_forM {body : β → Program Unit} {list : List β}
    (returned : Returns (list.forM body) ()) :
    ∀ element ∈ list, Returns (body element) () := by
  induction list with
  | nil => exact nofun
  | cons element list ih =>
      obtain ⟨_, here, later⟩ := returns_bind returned
      intro other mem
      rcases List.mem_cons.mp mem with rfl | mem
      · exact here
      · exact ih later other mem

theorem returns_fromLibrary {result : Except Stop α}
    (returned : Returns (fromLibrary result) value) : result = .ok value := by
  obtain ⟨_, _, ran⟩ := returned
  cases result with
  | error => cases ran
  | ok => cases ran; rfl

end Prints

/-! ## Pieces of a file -/

theorem flatten_freads {size : Nat} (positive : 0 < size) (rounds : Nat)
    (content : Bytes) (enough : content.length ≤ rounds) :
    (freads size rounds content).flatten = content := by
  induction rounds generalizing content with
  | zero =>
      rw [List.length_eq_zero_iff.mp (Nat.le_zero.mp enough)]
      rfl
  | succ rounds ih =>
      unfold freads
      split
      next empty => rw [empty]; rfl
      next some =>
        have more := List.length_pos_iff.mpr some
        rw [List.flatten_cons, ih _ (by rw [List.length_drop]; omega),
          List.take_append_drop]

theorem flatten_pieces (content : Bytes) :
    (pieces content).flatten = content :=
  flatten_freads (by decide) _ content (Nat.le_refl _)

def readFile (content : Bytes) : Except Stop Unit × Reader DataContainer :=
  Reader.readChunks DataContainer.handler (pieces content)
    (.init { storageConfig := .fullLog })

theorem readFile_reachable {content : Bytes} {reader : Reader DataContainer}
    (read : readFile content = (.ok (), reader)) :
    Reader.Reachable DataContainer.handler { storageConfig := .fullLog }
      reader :=
  Reader.Reachable.init.readChunks read

def errorsText (dataContainer : DataContainer) : Bytes :=
  if dataContainer.parsingErrors ≠ [] then
    ascii "###### File Parsing Errors ######\n" ++
      dataContainer.parsingErrors.flatMap fun parsingError =>
        ascii "   " ++ (cStr parsingError ++ ascii "\n")
  else []

theorem printErrors_prints (dataContainer : DataContainer) :
    Prints (printErrors dataContainer) () (errorsText dataContainer) := by
  unfold printErrors errorsText
  split
  · exact (prints_printf _).bind (.forM fun _ _ => prints_printf _)
  · exact .pure ()

section Main

variable {report : DataContainer → Program Int} {program path content : Bytes}
  {arguments : List Bytes} {files : Bytes → Option Bytes}
  {reader : Reader DataContainer}

theorem main_read (opens : files path = some content)
    (read : readFile content = (.ok (), reader)) (printed : Bytes) :
    main report program (path :: arguments) files printed =
      (if reader.delivery.handler.hadFatalError then do
        printf (ascii "Fatal parsing error, exiting\n")
        return -1
      else report reader.delivery.handler)
        (printed ++ errorsText reader.delivery.handler) := by
  have loaded : load content printed =
      (.ok reader.delivery.handler, printed) := by
    unfold load
    rw [show Reader.readChunks DataContainer.handler (pieces content)
      (.init { storageConfig := .fullLog }) = (.ok (), reader) from read]
    rfl
  unfold main
  simp only [opens]
  rw [Exec.bind_ok loaded, Exec.bind_ok (printErrors_prints _ printed)]

theorem main_stops {stop : Stop} (opens : files path = some content)
    (read : readFile content = (.error stop, reader)) (printed : Bytes) :
    main report program (path :: arguments) files printed =
      (.error (.stopped stop), printed) := by
  have loaded : load content printed = (.error (.stopped stop), printed) := by
    unfold load
    rw [show Reader.readChunks DataContainer.handler (pieces content)
      (.init { storageConfig := .fullLog }) = (.error stop, reader) from read]
    rfl
  unfold main
  simp only [opens]
  exact Exec.bind_error loaded _

theorem main_fatal (opens : files path = some content)
    (read : readFile content = (.ok (), reader))
    (invalid : reader.delivery.state = .invalidData) (printed : Bytes) :
    (main report program (path :: arguments) files printed).1 = .ok (-1) := by
  have fatal := (DataContainer.container_errors (readFile_reachable read)).1
  rw [main_read opens read, fatal.mpr invalid]
  rfl

theorem main_report (opens : files path = some content)
    (read : readFile content = (.ok (), reader))
    (valid : reader.delivery.state ≠ .invalidData) (printed : Bytes) :
    main report program (path :: arguments) files printed =
      report reader.delivery.handler
        (printed ++ errorsText reader.delivery.handler) := by
  have fatal := (DataContainer.container_errors (readFile_reachable read)).1
  rw [main_read opens read, if_neg fun had => valid (fatal.mp had)]

end Main

/-! ## Subscriptions -/

theorem Choices.mem_iterate {choices : Choices}
    {subscriptions : Map UInt16 Subscription} {id : UInt16} :
    id ∈ choices.iterate subscriptions ↔
      ∃ subscription, subscriptions.lookup id = some subscription := by
  rw [(choices.perm subscriptions).mem_iff, Finset.mem_sort, Finmap.mem_keys,
    Finmap.mem_iff]

theorem recalls_numbered {calls : List Callback} {container : DataContainer}
    (recalls : DataContainer.Recalls calls container) {id : UInt16}
    {subscription : Subscription}
    (found : container.subscriptions.lookup id = some subscription) :
    subscription.addLoggedMessage.msgId = id := by
  rw [recalls.subscriptions] at found
  exact Callback.subscriptionFor_msgId found

/-- If each id is that of its subscription, looking up all ids finds all
subscriptions, each once. -/
theorem lookups_complete {subscriptions : Map UInt16 Subscription}
    {list : List Subscription}
    (perm : list.Perm (subscriptions.entries.map Prod.snd))
    (numbered : ∀ {id : UInt16} {subscription : Subscription},
      subscriptions.lookup id = some subscription →
        subscription.addLoggedMessage.msgId = id) :
    (∀ subscription, subscription ∈ list ↔
      subscriptions.lookup subscription.addLoggedMessage.msgId =
        some subscription) ∧
      list.Nodup := by
  constructor
  · intro subscription
    rw [perm.mem_iff]
    constructor
    · intro mem
      obtain ⟨⟨id, _⟩, among, rfl⟩ := List.mem_map.mp mem
      have found := Map.mem_entries.mp among
      rw [numbered found]
      exact found
    · intro found
      exact List.mem_map.mpr ⟨_, Map.mem_entries.mpr found, rfl⟩
  · rw [perm.nodup_iff]
    apply List.Nodup.of_map fun subscription =>
      subscription.addLoggedMessage.msgId
    have ids : (subscriptions.entries.map Prod.snd).map (fun subscription =>
          subscription.addLoggedMessage.msgId) =
        subscriptions.entries.map Prod.fst := by
      rw [List.map_map]
      exact List.map_congr_left fun entry mem =>
        numbered (Map.mem_entries.mp mem)
    rw [ids, Map.keys_entries]
    exact Finset.sort_nodup _ _

end Programs

end UlogCpp
