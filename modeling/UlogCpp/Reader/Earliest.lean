import UlogCpp.Reader.Tidy

namespace UlogCpp

namespace Reader

variable {σ : Type} {handler : DataHandlerInterface σ}

/-! The search of recovery, over the calls of a run. -/

/-- The least position with a plausible header. -/
def Earliest (bytes : Bytes) (position : Nat) : Prop :=
  resumable (bytes.drop position) = true ∧
    ∀ earlier < position, resumable (bytes.drop earlier) = false

/-- The header is complete when the piece, which is not empty, has come after
as many bytes. -/
def Due (bytes : Bytes) (supplied : Nat) (piece : Bytes) (position : Nat) :
    Prop :=
  piece ≠ [] ∧ Earliest bytes position ∧ position + 4 ≤ supplied + piece.length

/-- How a call ends that supplies the next piece of the bytes to a reader that
needs recovery. -/
structure CallResyncs (handler : DataHandlerInterface σ) (delivery : Delivery σ)
    (bytes : Bytes) (supplied : Nat) (piece : Bytes)
    (outcome : Except Stop Unit × Reader σ) (onward : Reader σ → Prop) :
    Prop where
  /-- The loop of `readChunk` goes on with the bytes from the position on. -/
  resumes : ∀ position, Due bytes supplied piece position →
    ∃ (left rest : Bytes) (resumed : Reader σ),
      outcome = readLoop handler rest resumed ∧
      resumed.needRecovery = false ∧ resumed.delivery = delivery ∧
      resumed.partialMessageBuffer = left ∧
      left ++ rest = (bytes.take (supplied + piece.length)).drop position
  waits : (∀ position, ¬ Due bytes supplied piece position) →
    ∃ waiting, outcome = (.ok (), waiting) ∧ waiting.needRecovery = true ∧
      waiting.delivery = delivery ∧ onward waiting

/-- The call that supplies a piece and the later calls, as long as the reader
waits. -/
def Resyncs (handler : DataHandlerInterface σ) (delivery : Delivery σ)
    (bytes : Bytes) :
    List Bytes → Nat → Bytes → Except Stop Unit × Reader σ → Prop
  | [], supplied, piece, outcome =>
      CallResyncs handler delivery bytes supplied piece outcome fun _ => True
  | next :: later, supplied, piece, outcome =>
      CallResyncs handler delivery bytes supplied piece outcome fun waiting =>
        Resyncs handler delivery bytes later (supplied + piece.length) next
          (readChunk handler (.ofChunk next) waiting)

section Search

variable {reader : Reader σ} {delivery : Delivery σ}
  {bytes buffer piece future : Bytes} {supplied position : Nat}
  {later : List Bytes} {onward : Reader σ → Prop}

theorem Earliest.firstFrom (earliest : Earliest bytes position) :
    firstFrom resumable bytes = some (bytes.drop position) := by
  obtain ⟨here, least⟩ := earliest
  rw [firstFrom_drop fun earlier below => least earlier below]
  apply firstFrom_head _ here
  intro empty
  rw [empty, resumable_lookahead.empty] at here
  cases here

theorem recoverLoop_resyncs (recovers : reader.Recovers buffer delivery)
    (scanned : piece = [] → firstFrom resumable buffer = none)
    (remains : firstFrom resumable (buffer ++ piece ++ future) =
      firstFrom resumable bytes)
    (counted : bytes.length = supplied + piece.length + future.length)
    (goes : ∀ {waiting : Reader σ} {kept : Bytes},
      waiting.Recovers kept delivery → firstFrom resumable kept = none →
      firstFrom resumable (kept ++ future) = firstFrom resumable bytes →
      onward waiting) :
    CallResyncs handler delivery bytes supplied piece
      (recoverLoop handler piece reader) onward := by
  have ends := @recoverLoop_scanned _ handler _ _ _ _ recovers scanned
  by_cases empty : piece = []
  · subst empty
    refine ⟨fun position due => absurd rfl due.1, fun _ =>
      ⟨reader, recoverLoop_done reader, recovers.recovering,
        recovers.delivery_eq, goes recovers (scanned rfl) ?_⟩⟩
    rwa [List.append_nil] at remains
  · generalize recoverLoop handler piece reader = outcome at ends ⊢
    cases ends with
    | waits recovers nothing within same =>
        constructor
        · rintro position ⟨_, earliest, supplies⟩
          have late := resumable_lookahead.found_late nothing
            (remains.trans earliest.firstFrom)
          rw [List.length_drop] at late
          omega
        · intro _
          refine ⟨_, rfl, recovers.recovering, recovers.delivery_eq,
            goes recovers ?_ ((same future).trans remains)⟩
          have none := same []
          rwa [List.append_nil, List.append_nil, nothing] at none
    | @resumes resumed left rest follows found =>
        have whole := resumable_lookahead.firstFrom_append_some found future
        rw [remains] at whole
        constructor
        · rintro position ⟨_, earliest, supplies⟩
          refine ⟨left, rest, resumed, rfl, follows.normal, follows.delivery_eq,
            follows.pending_eq, ?_⟩
          have same := Option.some.inj (earliest.firstFrom.symm.trans whole)
          have lengths := congrArg List.length same
          rw [List.length_drop, List.length_append] at lengths
          rw [List.drop_take, same, List.take_left']
          omega
        · intro never
          obtain ⟨position, same, least⟩ := firstFrom_position whole
          have long := resumable_lookahead.needs (firstFrom_holds found)
          have lengths := congrArg List.length same
          rw [List.length_drop, List.length_append] at lengths
          refine absurd ⟨empty, ⟨?_, least⟩, ?_⟩ (never position)
          · rw [← same]
            exact firstFrom_holds whole
          · omega

theorem Recovers.resyncs (recovers : reader.Recovers buffer delivery)
    (scanned : piece = [] → firstFrom resumable buffer = none)
    (remains : firstFrom resumable (buffer ++ piece ++ later.flatten) =
      firstFrom resumable bytes)
    (counted : bytes.length = supplied + piece.length + later.flatten.length) :
    Resyncs handler delivery bytes later supplied piece
      (recoverLoop handler piece reader) := by
  induction later generalizing reader buffer piece supplied with
  | nil =>
      exact recoverLoop_resyncs recovers scanned remains counted
        fun _ _ _ => trivial
  | cons next later ih =>
      refine recoverLoop_resyncs recovers scanned remains counted
        fun {waiting kept} recovers nothing same => ?_
      rw [List.flatten_cons] at counted same
      rw [List.length_append, ← Nat.add_assoc] at counted
      rw [recovers.readChunk]
      refine ih recovers (fun _ => nothing) ?_ counted
      rwa [List.append_assoc]

end Search

section Entry

variable {start : σ} {reader inside : Reader σ} {cursor rest : Cursor}

theorem runLoop_recoverLoop (tidy : Tidy (.tryToRecover, rest) reader) :
    Exec.runLoop .outOfFuel (step handler) work (.tryToRecover, rest) reader =
        recoverLoop handler rest.data reader ∧
      (rest.data = [] → firstFrom resumable reader.partialMessageBuffer =
        none) := by
  have valid : rest.Valid := tidy.ready.valid
  by_cases positive : rest.length > 0
  · refine ⟨?_, fun empty => ?_⟩
    · rw [recoverLoop, ← valid.eq_ofChunk positive]
    · rw [Cursor.Valid, empty, List.length_nil] at valid
      omega
  · have empty : rest.data = [] := by
      rw [Cursor.Valid] at valid
      apply List.length_eq_zero_iff.mp
      omega
    refine ⟨?_, fun _ => tidy.scanned (tidy.ready.recovers rfl) (.inr positive)⟩
    rw [empty, recoverLoop_done]
    exact Exec.runLoop_done (step_searched positive)

/-- Wherever recovery is entered, it ends at the least position with a plausible
header, in the call that completes that header; until then nothing is called. -/
theorem readChunk_resyncs (reachable : Reachable handler start reader)
    (valid : cursor.Valid)
    (entered : Exec.Reaches (step handler) (.readChunk, cursor) reader
      (.tryToRecover, rest) inside)
    (live : inside.delivery.state ≠ .invalidData) (later : List Bytes) :
    Resyncs handler inside.delivery
      (inside.partialMessageBuffer ++ (rest.data ++ later.flatten)) later
      inside.partialMessageBuffer.length rest.data
      (readChunk handler cursor reader) := by
  have safe := reachable.safe
  have tidy := (reachable.atRest.tidy valid).reaches entered
  obtain ⟨same, scanned⟩ := @runLoop_recoverLoop _ handler _ _ tidy
  have whole : readChunk handler cursor reader =
      recoverLoop handler rest.data inside :=
    (step_variant.runLoop_reaches (readChunk_ready safe valid) entered).trans same
  rw [whole]
  apply (tidy.recovers live).resyncs scanned
  · rw [List.append_assoc]
  · rw [List.length_append, List.length_append, Nat.add_assoc]

def struckReader : Reader Unit :=
  (readChunk DataHandlerInterface.base
    (.ofChunk (ulogFileMagicBytes ++ [1] ++ leBytes 8 7 ++ List.replicate 43 0))
    (init ())).2

theorem readChunk_resyncs_struck :
    Resyncs DataHandlerInterface.base struckReader.delivery
      (struckReader.partialMessageBuffer ++ ([1] ++ [[0, 65, 7]].flatten))
      [[0, 65, 7]] struckReader.partialMessageBuffer.length [1]
      (readChunk DataHandlerInterface.base (.ofChunk [1]) struckReader) := by
  have header : struckReader.delivery.state = .readHeader := by decide +kernel
  have recovering : struckReader.needRecovery = true := by decide +kernel
  exact readChunk_resyncs (.readChunk .init (Cursor.ofChunk_valid _))
    (Cursor.ofChunk_valid [1])
    (.tail (.tail .refl (step_readChunk_inLog (.inl header) _))
      (step_recovers recovering _))
    (by rw [header]; nofun) [[0, 65, 7]]

end Entry

end Reader

end UlogCpp
