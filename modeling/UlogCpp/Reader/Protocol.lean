import UlogCpp.Reader.Invariant

namespace UlogCpp

/-! The order of sections, as an automaton over the calls on a handler. -/

inductive Phase where
  | start
  | header
  | data
  deriving DecidableEq

namespace Phase

def next : Phase → CallbackKind → Option Phase
  | phase, .error => some phase
  | .start, .fileHeader => some .header
  | .header, .format => some .header
  | .header, .definition => some .header
  | .header, .headerComplete => some .data
  | .data, .definition => some .data
  | .data, .data => some .data
  | _, _ => none

def run (phase : Phase) : List Callback → Option Phase
  | [] => some phase
  | callback :: calls => (phase.next callback.kind).bind fun after =>
      after.run calls

theorem run_cons {phase final : Phase} {callback : Callback}
    {calls : List Callback} (ran : phase.run (callback :: calls) = some final) :
    ∃ after, phase.next callback.kind = some after ∧
      after.run calls = some final :=
  Option.bind_eq_some_iff.mp ran

theorem run_append (phase : Phase) (calls more : List Callback) :
    phase.run (calls ++ more) =
      (phase.run calls).bind fun after => after.run more := by
  induction calls generalizing phase with
  | nil => rfl
  | cons callback calls ih =>
      simp only [List.cons_append, run, Option.bind_assoc, ih]

def opened : Phase → Nat
  | .start => 0
  | .header | .data => 1

def completed : Phase → Nat
  | .start | .header => 0
  | .data => 1

def countKind (kind : CallbackKind) (calls : List Callback) : Nat :=
  calls.countP fun callback => callback.kind = kind

theorem run_counts {phase final : Phase} {calls : List Callback}
    (ran : phase.run calls = some final) :
    countKind .fileHeader calls + phase.opened = final.opened ∧
      countKind .headerComplete calls + phase.completed = final.completed := by
  induction calls generalizing phase with
  | nil =>
      cases ran
      exact ⟨Nat.zero_add _, Nat.zero_add _⟩
  | cons callback calls ih =>
      obtain ⟨after, moved, rest⟩ := run_cons ran
      obtain ⟨headers, completions⟩ := ih rest
      unfold countKind at headers completions ⊢
      rw [List.countP_cons, List.countP_cons]
      rw [← headers, ← completions]
      cases phase <;> cases kind : callback.kind <;> rw [kind] at moved <;>
        cases moved <;> constructor <;> simp [opened, completed]

end Phase

structure ObeysSections (calls : List Callback) : Prop where
  fileHeader_once : Phase.countKind .fileHeader calls ≤ 1
  headerComplete_once : Phase.countKind .headerComplete calls ≤ 1
  /-- What comes after a file header. -/
  message : ∀ before callback after, calls = before ++ callback :: after →
    callback.kind ≠ .error → callback.kind ≠ .fileHeader →
    ∃ header ∈ before, header.kind = .fileHeader
  format : ∀ before callback after, calls = before ++ callback :: after →
    callback.kind = .format →
    ∀ earlier ∈ before, earlier.kind ≠ .headerComplete
  data : ∀ before callback after, calls = before ++ callback :: after →
    callback.kind = .data →
    ∃ complete ∈ before, complete.kind = .headerComplete

namespace Phase

theorem exists_of_countKind {kind : CallbackKind} {calls : List Callback}
    (some : 0 < countKind kind calls) :
    ∃ callback ∈ calls, callback.kind = kind := by
  obtain ⟨callback, member, holds⟩ := List.countP_pos_iff.mp some
  exact ⟨callback, member, of_decide_eq_true holds⟩

theorem absent_of_countKind {kind : CallbackKind} {calls : List Callback}
    (none : countKind kind calls = 0) :
    ∀ callback ∈ calls, callback.kind ≠ kind := by
  intro callback member same
  exact List.countP_eq_zero.mp none callback member (decide_eq_true same)

/-- What the phase before a call tells about the earlier calls. -/
theorem run_split {final : Phase} {before after : List Callback}
    {callback : Callback}
    (ran : Phase.start.run (before ++ callback :: after) = some final) :
    ∃ phase : Phase, (phase.next callback.kind).isSome ∧
      countKind .fileHeader before = phase.opened ∧
      countKind .headerComplete before = phase.completed := by
  rw [run_append] at ran
  obtain ⟨phase, first, rest⟩ := Option.bind_eq_some_iff.mp ran
  obtain ⟨next, moved, _⟩ := run_cons rest
  obtain ⟨headers, completions⟩ := run_counts first
  exact ⟨phase, by rw [moved]; rfl, headers, completions⟩

theorem obeysSections {final : Phase} {calls : List Callback}
    (ran : Phase.start.run calls = some final) : ObeysSections calls where
  fileHeader_once := by
    obtain ⟨headers, _⟩ := run_counts ran
    cases final <;> simp only [opened] at headers <;> omega
  headerComplete_once := by
    obtain ⟨_, completions⟩ := run_counts ran
    cases final <;> simp only [completed] at completions <;> omega
  message before callback after split notError notHeader := by
    subst split
    obtain ⟨phase, allowed, headers, _⟩ := run_split ran
    apply exists_of_countKind
    rw [headers]
    cases phase with
    | start =>
        cases kind : callback.kind <;> rw [kind] at allowed notError notHeader <;>
          first
          | exact absurd rfl notError
          | exact absurd rfl notHeader
          | cases allowed
    | header | data => exact Nat.one_pos
  format before callback after split kind := by
    subst split
    obtain ⟨phase, allowed, _, completions⟩ := run_split ran
    apply absent_of_countKind
    rw [completions]
    rw [kind] at allowed
    cases phase with
    | header => rfl
    | start | data => cases allowed
  data before callback after split kind := by
    subst split
    obtain ⟨phase, allowed, _, completions⟩ := run_split ran
    apply exists_of_countKind
    rw [completions]
    rw [kind] at allowed
    cases phase with
    | data => exact Nat.one_pos
    | start | header => cases allowed

end Phase

namespace Reader

variable {σ : Type} {handler : DataHandlerInterface σ}

def phaseOf : State → Phase
  | .readHeader => .header
  | .readData => .data
  | .readMagic | .readFlagBits | .invalidData => .start

def Tracks (delivery : Delivery σ) : Prop :=
  Phase.start.run delivery.calls = some (phaseOf delivery.state)

theorem Tracks.append {delivery reached : Delivery σ}
    {calls : List Callback} (tracks : Tracks delivery)
    (made : reached.calls = delivery.calls ++ calls)
    (ran : (phaseOf delivery.state).run calls = some (phaseOf reached.state)) :
    Tracks reached := by
  unfold Tracks at tracks ⊢
  rw [made, Phase.run_append, tracks]
  exact ran

theorem answer_run {phase : Phase} {decoding : Except Stop (Option Callback)}
    (allowed : ∀ callback, decoding = .ok (some callback) →
      phase.next callback.kind = some phase) :
    phase.run (Delivery.answer decoding) = some phase := by
  rcases decoding with stop | _ | callback
  · rfl
  · rfl
  · simp only [Delivery.answer, Phase.run, allowed callback rfl]
    rfl

theorem decodeData_run (message : Bytes) :
    Phase.data.run (Delivery.answer (Delivery.decodeData message)) =
      some .data := by
  refine answer_run fun callback decoded => ?_
  rcases Delivery.decodeData_kind decoded with kind | kind <;>
    rw [kind] <;> rfl

theorem callbacks_run (state : State) (message : Bytes) :
    (phaseOf state).run (Delivery.callbacks state message) =
      some (phaseOf (Delivery.nextState state message)) := by
  cases state with
  | readHeader =>
      by_cases ends :
        Delivery.decodeHeader message = .ok (some .headerComplete)
      · obtain ⟨calls, next, _⟩ := Delivery.header_complete ends
        rw [calls, next]
        exact decodeData_run message
      · obtain ⟨calls, next, _⟩ := Delivery.header_ordinary rfl ends
        rw [calls, next]
        refine answer_run fun callback decoded => ?_
        rcases Delivery.decodeHeader_kind decoded with same | kind | kind
        · rw [decoded, same] at ends
          exact absurd rfl ends
        · rw [kind]
          rfl
        · rw [kind]
          rfl
  | readData => exact decodeData_run message
  | readMagic | readFlagBits | invalidData => rfl

/-- Where the calls for a message begin with the end of the header, the reader
goes over to the data section. -/
theorem nextState_of_headerComplete {state : State} {message : Bytes}
    {rest : List Callback}
    (calls : Delivery.callbacks state message = .headerComplete :: rest) :
    (phaseOf state).run [.headerComplete] =
      some (phaseOf (Delivery.nextState state message)) := by
  obtain ⟨rfl, next⟩ := Delivery.callbacks_headerComplete calls
  rw [next]
  rfl

theorem tracks_invariant
    (accepts : ∀ header, handler.Accepts (.fileHeader header)) :
    DeliveryInvariant handler Tracks where
  error msg isRecoverable delivery tracks _ :=
    tracks.append rfl (by
      rw [Delivery.call_state]
      cases delivery.state <;> rfl)
  deliver message delivery tracks := by
    obtain ⟨state, calls | ⟨_, calls, rest, expected⟩⟩ :=
      @Delivery.deliver_progress _ handler message delivery
    · refine tracks.append calls ?_
      rw [state]
      exact callbacks_run _ _
    · refine tracks.append calls ?_
      rw [state]
      exact nextState_of_headerComplete expected
  magic delivery tracks early := by
    unfold Tracks at tracks ⊢
    rw [tracks, early]
    rfl
  invalid delivery tracks early := by
    unfold Tracks at tracks ⊢
    rw [tracks]
    rcases early with early | early <;> rw [early] <;> rfl
  fileHeader header delivery tracks early := by
    have accepted :=
      @Delivery.call_accepted _ _ _ delivery (accepts header)
    rcases called : Delivery.call handler (.fileHeader header) delivery with
      ⟨outcome, reached⟩
    rw [called] at accepted
    cases accepted
    have made : reached.calls = delivery.calls ++ [.fileHeader header] :=
      (congrArg (fun outcome => outcome.2.calls) called).symm
    refine Tracks.append tracks made ?_
    rw [early]
    rfl

/-- The order of sections holds in every run on any bytes, for a handler that
may throw from all but `fileHeader`. -/
theorem calls_obeySections
    (accepts : ∀ header, handler.Accepts (.fileHeader header)) {state : σ}
    {reader : Reader σ} (reachable : Reachable handler state reader) :
    ObeysSections reader.delivery.calls :=
  Phase.obeysSections
    ((tracks_invariant accepts).reachable rfl reachable)

theorem calls_obeySections_zeros :
    ObeysSections (Exec.final (readEach DataHandlerInterface.base) zerosLog
      (init ())).delivery.calls :=
  calls_obeySections (fun _ state => ⟨state, rfl⟩) (Reachable.init.readEach _)

/-! ## The two sides of the end of the header -/

end Reader

namespace Callback

def Opening (callback : Callback) : Prop :=
  callback.kind ≠ .headerComplete ∧ callback.kind ≠ .data

def Late : Callback → Prop
  | .error _ isRecoverable => isRecoverable = true
  | callback => callback.kind = .definition ∨ callback.kind = .data

theorem late_of_kind {callback : Callback}
    (kind : callback.kind = .definition ∨ callback.kind = .data) :
    callback.Late := by
  cases callback <;> first | exact kind | rcases kind with kind | kind <;> cases kind

/-- The calls up to and including `headerComplete`, or all of them. -/
def upToHeader : List Callback → List Callback
  | [] => []
  | callback :: calls =>
      if callback = .headerComplete then [callback]
      else callback :: upToHeader calls

def afterHeader : List Callback → List Callback
  | [] => []
  | callback :: calls =>
      if callback = .headerComplete then calls else afterHeader calls

theorem upToHeader_append_afterHeader (calls : List Callback) :
    upToHeader calls ++ afterHeader calls = calls := by
  induction calls with
  | nil => rfl
  | cons callback calls ih =>
      unfold upToHeader afterHeader
      by_cases complete : callback = .headerComplete
      · rw [if_pos complete, if_pos complete]
        rfl
      · rw [if_neg complete, if_neg complete, List.cons_append, ih]

inductive Divided : List Callback → Bool → Prop
  | header {calls : List Callback}
      (opening : ∀ callback ∈ calls, callback.Opening) : Divided calls false
  | data {before after : List Callback}
      (opening : ∀ callback ∈ before, callback.Opening)
      (late : ∀ callback ∈ after, callback.Late) :
      Divided (before ++ .headerComplete :: after) true

namespace Divided

variable {calls more : List Callback}

theorem open_append (divided : Divided calls false)
    (opening : ∀ callback ∈ more, callback.Opening) :
    Divided (calls ++ more) false := by
  cases divided with
  | header earlier =>
      exact .header fun callback mem =>
        (List.mem_append.mp mem).elim (earlier _) (opening _)

theorem complete (divided : Divided calls false)
    (late : ∀ callback ∈ more, callback.Late) :
    Divided (calls ++ .headerComplete :: more) true := by
  cases divided with
  | header earlier => exact .data earlier late

theorem late_append (divided : Divided calls true)
    (late : ∀ callback ∈ more, callback.Late) :
    Divided (calls ++ more) true := by
  cases divided with
  | data opening earlier =>
      rw [List.append_assoc]
      exact .data opening fun callback mem =>
        (List.mem_append.mp mem).elim (earlier _) (late _)

theorem ne_headerComplete {callback : Callback} (opening : callback.Opening) :
    callback ≠ .headerComplete := by
  rintro rfl
  exact opening.1 rfl

theorem upToHeader_opening (opening : ∀ callback ∈ calls, callback.Opening) :
    upToHeader (calls ++ more) = calls ++ upToHeader more ∧
      afterHeader (calls ++ more) = afterHeader more := by
  induction calls with
  | nil => exact ⟨rfl, rfl⟩
  | cons callback calls ih =>
      obtain ⟨here, others⟩ := List.forall_mem_cons.mp opening
      obtain ⟨before, after⟩ := ih others
      have other := ne_headerComplete here
      simp only [List.cons_append, upToHeader, afterHeader, other, if_false,
        before, after, and_self]

theorem sides {complete : Bool} (divided : Divided calls complete) :
    ∃ before, (∀ callback ∈ before, callback.Opening) ∧
      (∀ callback ∈ afterHeader calls, callback.Late) ∧
      (upToHeader calls = before ∧ afterHeader calls = [] ∨
        upToHeader calls = before ++ [.headerComplete]) := by
  cases divided with
  | header opening =>
      obtain ⟨before, after⟩ := @upToHeader_opening _ [] opening
      rw [List.append_nil] at before after
      refine ⟨calls, opening, ?_, .inl ⟨?_, after⟩⟩
      · rw [after]
        exact nofun
      · exact before.trans (List.append_nil calls)
  | @data earlier later opening late =>
      obtain ⟨before, after⟩ :=
        @upToHeader_opening _ (.headerComplete :: later) opening
      refine ⟨earlier, opening, ?_, .inr before⟩
      rw [after]
      exact late

end Divided

end Callback

namespace Reader

open Callback (Divided)

def Divides (delivery : Delivery σ) : Prop :=
  Divided delivery.calls (delivery.state = .readData)

theorem answer_late (message : Bytes) :
    ∀ callback ∈ Delivery.answer (Delivery.decodeData message),
      callback.Late := by
  intro callback mem
  rcases decoded : Delivery.decodeData message with stop | _ | answered
  all_goals
    rw [decoded] at mem
    cases mem
  · exact Callback.late_of_kind (Delivery.decodeData_kind decoded)
  · contradiction

theorem answer_opening {message : Bytes}
    (ordinary : Delivery.decodeHeader message ≠ .ok (some .headerComplete)) :
    ∀ callback ∈ Delivery.answer (Delivery.decodeHeader message),
      callback.Opening := by
  intro callback mem
  rcases decoded : Delivery.decodeHeader message with stop | _ | answered
  all_goals
    rw [decoded] at mem
    cases mem
  · rcases Delivery.decodeHeader_kind decoded with rfl | kind | kind
    · exact absurd decoded ordinary
    all_goals exact ⟨by rw [kind]; decide, by rw [kind]; decide⟩
  · contradiction

theorem Divides.append_opening {delivery reached : Delivery σ}
    {calls : List Callback} (divides : Divides delivery)
    (early : delivery.state ≠ .readData) (later : reached.state ≠ .readData)
    (made : reached.calls = delivery.calls ++ calls)
    (opening : ∀ callback ∈ calls, callback.Opening) : Divides reached := by
  unfold Divides at divides ⊢
  rw [decide_eq_false early] at divides
  rw [decide_eq_false later, made]
  exact divides.open_append opening

theorem Divides.append_late {delivery reached : Delivery σ}
    {calls : List Callback} (divides : Divides delivery)
    (data : delivery.state = .readData) (stays : reached.state = .readData)
    (made : reached.calls = delivery.calls ++ calls)
    (late : ∀ callback ∈ calls, callback.Late) : Divides reached := by
  unfold Divides at divides ⊢
  rw [decide_eq_true data] at divides
  rw [decide_eq_true stays, made]
  exact divides.late_append late

theorem Divides.complete {delivery reached : Delivery σ}
    {calls : List Callback} (divides : Divides delivery)
    (header : delivery.state = .readHeader) (data : reached.state = .readData)
    (made : reached.calls = delivery.calls ++ .headerComplete :: calls)
    (late : ∀ callback ∈ calls, callback.Late) : Divides reached := by
  unfold Divides at divides ⊢
  rw [decide_eq_false (by rw [header]; decide)] at divides
  rw [decide_eq_true data, made]
  exact divides.complete late

theorem deliver_divides (message : Bytes) {delivery : Delivery σ}
    (divides : Divides delivery) :
    Divides (Delivery.deliver handler message delivery).2 := by
  obtain ⟨state, calls⟩ :=
    @Delivery.deliver_progress _ handler message delivery
  cases here : delivery.state with
  | readHeader =>
      rw [here] at state calls
      by_cases ends :
        Delivery.decodeHeader message = .ok (some .headerComplete)
      · obtain ⟨expected, next, _⟩ := Delivery.header_complete ends
        rw [next] at state
        rw [expected] at calls
        rcases calls with calls | ⟨_, calls, _⟩
        · exact divides.complete here state calls (answer_late message)
        · exact divides.complete here state calls nofun
      · obtain ⟨expected, next, _⟩ := Delivery.header_ordinary rfl ends
        rw [next] at state
        rcases calls with calls | ⟨_, _, rest, impossible⟩
        · rw [expected] at calls
          exact divides.append_opening (by rw [here]; decide)
            (by rw [state]; decide) calls (answer_opening ends)
        · have moved := (Delivery.callbacks_headerComplete impossible).2
          rw [next] at moved
          cases moved
  | readData =>
      rw [here] at state calls
      rcases calls with calls | ⟨_, _, rest, impossible⟩
      · exact divides.append_late here state calls (answer_late message)
      · cases (Delivery.callbacks_headerComplete impossible).1
  | readMagic | readFlagBits | invalidData =>
      rw [here] at state calls
      rcases calls with calls | ⟨_, _, rest, impossible⟩
      · exact divides.append_opening (by rw [here]; decide)
          (by rw [state]; nofun) calls nofun
      · cases (Delivery.callbacks_headerComplete impossible).1

theorem divides_invariant : DeliveryInvariant handler Divides where
  error msg isRecoverable delivery divides early := by
    have made : (Delivery.call handler (.error msg isRecoverable)
        delivery).2.calls = delivery.calls ++ [.error msg isRecoverable] := rfl
    by_cases data : delivery.state = .readData
    · refine divides.append_late data data made ?_
      rcases early with recoverable | state | state
      · exact List.forall_mem_singleton.mpr recoverable
      all_goals
        rw [data] at state
        cases state
    · exact divides.append_opening data data made
        (List.forall_mem_singleton.mpr ⟨nofun, nofun⟩)
  deliver message _ divides := deliver_divides message divides
  magic delivery divides early := by
    unfold Divides at divides ⊢
    rwa [early] at divides
  invalid delivery divides early := by
    unfold Divides at divides ⊢
    rcases early with early | early <;> rwa [early] at divides
  fileHeader header delivery divides early := by
    have reached : ∀ state, state ≠ .readData → Divides
        { (Delivery.call handler (.fileHeader header) delivery).2 with
          state } := fun state other =>
      divides.append_opening (by rw [early]; decide) other rfl
        (List.forall_mem_singleton.mpr ⟨nofun, nofun⟩)
    split
    next called =>
      have entered := reached .readHeader (by decide)
      rw [called] at entered
      exact entered
    next called =>
      have stays := reached .readFlagBits (by decide)
      rw [called] at stays
      have same : _ = delivery.state :=
        (congrArg (fun outcome => outcome.2.state) called).symm
      rw [early] at same
      rw [← same] at stays
      exact stays

/-- The calls of every run are divided by the end of the header. -/
theorem calls_divided {state : σ} {reader : Reader σ}
    (reachable : Reachable handler state reader) :
    ∃ complete, Divided reader.delivery.calls complete :=
  ⟨_, divides_invariant.reachable (.header nofun) reachable⟩

end Reader

end UlogCpp
