import UlogCpp.Reader.Chunking

namespace UlogCpp

/-- Where a search through the bytes of frames should end: at the first one. -/
def Frame.stream? : List Frame → Option Bytes
  | [] => none
  | frame :: frames => some (stream (frame :: frames))

theorem Frame.stream?_eq_some {frames : List Frame} {bytes : Bytes}
    (found : stream? frames = some bytes) : bytes = stream frames := by
  cases frames with
  | nil => cases found
  | cons frame frames => exact (Option.some.inj found).symm

namespace Reader

variable {σ : Type} {handler : DataHandlerInterface σ}

/-! ## The search for a message -/

/-- `tryToRecover`, and what it tail calls. -/
def recoverLoop (handler : DataHandlerInterface σ) (chunk : Bytes) :
    Exec Stop (Reader σ) Unit :=
  Exec.runLoop .outOfFuel (step handler) work (.tryToRecover, .ofChunk chunk)

structure Recovers (reader : Reader σ) (buffer : Bytes)
    (delivery : Delivery σ) : Prop where
  safe : reader.Safe
  recovering : reader.needRecovery = true
  inLog : delivery.state.InLog
  buffer_eq : reader.partialMessageBuffer = buffer
  delivery_eq : reader.delivery = delivery
  reported : reader.corruptionReported = true

inductive Searched (handler : DataHandlerInterface σ) (delivery : Delivery σ)
    (future bytes : Bytes) : Except Stop Unit × Reader σ → Prop
  | waits {reader : Reader σ} {buffer : Bytes}
      (recovers : reader.Recovers buffer delivery)
      (scanned : firstFrom resumable buffer = none)
      (remains : firstFrom resumable (buffer ++ future) =
        firstFrom resumable bytes)
      (within : buffer ++ future <:+ bytes) :
      Searched handler delivery future bytes (.ok (), reader)
  | resumes {reader : Reader σ} {left rest : Bytes}
      (follows : reader.Follows left delivery true)
      (found : firstFrom resumable bytes = some (left ++ rest ++ future)) :
      Searched handler delivery future bytes (readLoop handler rest reader)

inductive Scanned (handler : DataHandlerInterface σ) (delivery : Delivery σ)
    (bytes : Bytes) : Except Stop Unit × Reader σ → Prop
  | waits {reader : Reader σ} {buffer : Bytes}
      (recovers : reader.Recovers buffer delivery)
      (nothing : firstFrom resumable bytes = none)
      (within : buffer <:+ bytes)
      (remains : ∀ more, firstFrom resumable (buffer ++ more) =
        firstFrom resumable (bytes ++ more)) :
      Scanned handler delivery bytes (.ok (), reader)
  | resumes {reader : Reader σ} {left rest : Bytes}
      (follows : reader.Follows left delivery true)
      (found : firstFrom resumable bytes = some (left ++ rest)) :
      Scanned handler delivery bytes (readLoop handler rest reader)

theorem Scanned.ofSuffix {delivery : Delivery σ} {bytes shorter : Bytes}
    {outcome : Except Stop Unit × Reader σ}
    (ends : Scanned handler delivery shorter outcome)
    (suffix : shorter <:+ bytes)
    (same : ∀ more, firstFrom resumable (shorter ++ more) =
      firstFrom resumable (bytes ++ more)) :
    Scanned handler delivery bytes outcome := by
  have here := same []
  rw [List.append_nil, List.append_nil] at here
  cases ends with
  | waits recovers nothing within remains =>
      exact .waits recovers (here.symm.trans nothing) (within.trans suffix)
        fun more => (remains more).trans (same more)
  | resumes follows found => exact .resumes follows (here.symm.trans found)

section Search

variable {reader : Reader σ} {buffer chunk : Bytes} {delivery : Delivery σ}

theorem Recovers.ready (recovers : reader.Recovers buffer delivery)
    {point : Point} : Ready (point, .ofChunk chunk) reader :=
  ⟨recovers.safe, Cursor.ofChunk_valid chunk, fun _ => recovers.recovering⟩

theorem recoverLoop_done (reader : Reader σ) :
    recoverLoop handler [] reader = (.ok (), reader) := by
  apply Exec.runLoop_done
  exact step_searched (by decide)

theorem Recovers.readLoop (recovers : reader.Recovers buffer delivery)
    (chunk : Bytes) :
    readLoop handler chunk reader = recoverLoop handler chunk reader :=
  step_variant.runLoop_next recovers.ready
    (step_recovers recovers.recovering _)

theorem Recovers.readChunk (recovers : reader.Recovers buffer delivery)
    (chunk : Bytes) :
    readChunk handler (.ofChunk chunk) reader =
      recoverLoop handler chunk reader := by
  rw [readChunk_inLog recovers.safe
    (by rw [recovers.delivery_eq]; exact recovers.inLog), recovers.readLoop]

theorem Recovers.kept {content : Bytes}
    (recovers : reader.Recovers buffer delivery) (few : content.length ≤ 3) :
    Recovers { reader with partialMessageBuffer := content } content delivery := by
  obtain ⟨safe, recovering, inLog, rfl, rfl, reported⟩ := recovers
  have roomy := safe.roomy
  simp only [kBufferSizeInit] at roomy
  exact ⟨⟨by simp only; omega, safe.roomy, fun _ => by simp only; omega⟩,
    recovering, inLog, rfl, rfl, reported⟩

theorem Recovers.found {content : Bytes}
    (recovers : reader.Recovers buffer delivery)
    (fits : content.length ≤ reader.partialMessageBufferLengthCapacity) :
    Follows { reader with partialMessageBuffer := content, needRecovery := false }
      content delivery true := by
  obtain ⟨safe, _, inLog, rfl, rfl, reported⟩ := recovers
  exact ⟨.ofNormal fits safe.roomy rfl, rfl, inLog, rfl, rfl, reported⟩

/-- Of bytes in which nothing has been found the last three are kept. -/
theorem firstFrom_kept {bytes : Bytes}
    (nothing : firstFrom resumable bytes = none) (more : Bytes) :
    firstFrom resumable (bytes.drop (bytes.length - 3) ++ more) =
      firstFrom resumable (bytes ++ more) :=
  (resumable_lookahead.firstFrom_append_none nothing more).symm

theorem recoverLoop_scanned (recovers : reader.Recovers buffer delivery)
    (scanned : chunk = [] → firstFrom resumable buffer = none) :
    Scanned handler delivery (buffer ++ chunk)
      (recoverLoop handler chunk reader) := by
  generalize bound : chunk.length = length
  induction length using Nat.strongRecOn generalizing reader buffer chunk with
  | ind length ih =>
      by_cases more : chunk = []
      · subst more
        rw [recoverLoop_done, List.append_nil]
        exact .waits recovers (scanned rfl) (List.suffix_refl _) fun _ => rfl
      · obtain rfl := recovers.buffer_eq
        obtain ⟨count, some, within, fits, _, round⟩ :=
          recoverRound_ofChunk recovers.safe recovers.recovering more
        have split : reader.partialMessageBuffer ++ chunk =
            reader.partialMessageBuffer ++ chunk.take count ++
              chunk.drop count := by
          rw [List.append_assoc, List.take_append_drop]
        have contentLength :
            (reader.partialMessageBuffer ++ chunk.take count).length =
              reader.partialMessageBuffer.length + count := by
          rw [List.length_append, List.length_take, Nat.min_eq_left within]
        rw [split]
        cases scan : firstFrom resumable
            (reader.partialMessageBuffer ++ chunk.take count) with
        | some found =>
            rw [scan] at round
            have stepped := @step_tryToRecover _ _ _ handler _ _ more round
            have shorter := (firstFrom_suffix scan).length_le
            have follows := @Recovers.found _ _ _ _ found recovers (by omega)
            have next : recoverLoop handler chunk reader =
                Reader.readChunk handler (.ofChunk (chunk.drop count)) _ :=
              step_variant.runLoop_next recovers.ready stepped
            rw [next, follows.readChunk]
            exact .resumes follows
              (resumable_lookahead.firstFrom_append_some scan _)
        | none =>
            rw [scan, ← contentLength] at round
            have stepped := @step_tryToRecover _ _ _ handler _ _ more round
            have next : recoverLoop handler chunk reader =
                recoverLoop handler (chunk.drop count) _ :=
              step_variant.runLoop_next recovers.ready stepped
            generalize reader.partialMessageBuffer ++ chunk.take count = content
              at scan stepped next ⊢
            have few : (content.drop (content.length - 3)).length ≤ 3 := by
              rw [List.length_drop]
              omega
            have ends := ih (chunk.drop count).length (by
                rw [← bound, List.length_drop]
                omega) (recovers.kept few) (fun _ =>
              firstFrom_eq_none fun skipped _ => resumable_lookahead.short (by
                rw [List.length_drop]
                omega)) rfl
            rw [next]
            refine ends.ofSuffix
              (List.suffix_append_self_iff.mpr (List.drop_suffix _ content))
              fun later => ?_
            rw [List.append_assoc, List.append_assoc]
            exact firstFrom_kept scan _

theorem recoverLoop_searched (recovers : reader.Recovers buffer delivery)
    (scanned : chunk = [] → firstFrom resumable buffer = none)
    (future : Bytes) :
    Searched handler delivery future (buffer ++ chunk ++ future)
      (recoverLoop handler chunk reader) := by
  have ends := @recoverLoop_scanned _ handler _ _ _ _ recovers scanned
  generalize recoverLoop handler chunk reader = outcome at ends
  cases ends with
  | waits recovers nothing within remains =>
      refine .waits recovers ?_ (remains future)
        (List.suffix_append_self_iff.mpr within)
      have empty := remains []
      rwa [List.append_nil, List.append_nil, nothing] at empty
  | resumes follows found =>
      exact .resumes follows
        (resumable_lookahead.firstFrom_append_some found future)

end Search

/-! ## An interruption of a log -/

structure Interruption (handler : DataHandlerInterface σ)
    (middle struck : Delivery σ) (message junk : Bytes) (rest : List Frame) :
    Prop where
  whole : IsMessage message
  parsed : ∀ reader : Reader σ, reader.delivery = middle →
    reader.corruptionReported = false →
    parseMessage handler message reader =
      (.ok (), { reader with
        delivery := struck, corruptionReported := true, needRecovery := true })
  inLog : struck.state.InLog
  search : firstFrom resumable (junk ++ Frame.stream rest) =
    Frame.stream? rest

inductive Stage (handler : DataHandlerInterface σ) (middle struck : Delivery σ)
    (message junk : Bytes) (rest : List Frame) (future : Bytes)
    (reader : Reader σ) : Prop
  | approaching {remaining : List Frame} {pending : Bytes}
      {delivery : Delivery σ} (follows : reader.Follows pending delivery false)
      (delivered : Delivery.deliverAll handler remaining delivery =
        (.ok (), middle))
      (layout : pending ++ future =
        Frame.stream remaining ++ (message ++ (junk ++ Frame.stream rest)))
      (unfinished : Frame.Unfinished pending remaining)
      (last : remaining = [] → ¬ HasMessage pending ∨ pending.length ≤ 3)
  | searching {buffer : Bytes} (recovers : reader.Recovers buffer struck)
      (scanned : firstFrom resumable buffer = none)
      (target : firstFrom resumable (buffer ++ future) = Frame.stream? rest)
      (within : buffer ++ future <:+ junk ++ Frame.stream rest)
  | resumed {complete remaining : List Frame} {pending : Bytes}
      {delivery : Delivery σ} (split : rest = complete ++ remaining)
      (delivered : Delivery.deliverAll handler complete struck =
        (.ok (), delivery))
      (follows : reader.Follows pending delivery true)
      (layout : pending ++ future = Frame.stream remaining)

section Stages

variable {middle struck final : Delivery σ} {message junk : Bytes}
  {rest : List Frame} {future : Bytes} {reader : Reader σ}

theorem readLoop_stashed {delivery : Delivery σ} {reported : Bool}
    {chunk : Bytes} (follows : reader.Follows [] delivery reported)
    (few : chunk.length ≤ 3) :
    ∃ reached, readLoop handler chunk reader = (.ok (), reached) ∧
      reached.Follows chunk delivery reported := by
  by_cases more : chunk = []
  · subst more
    exact ⟨reader, readLoop_done follows, follows⟩
  · have empty := follows.pending_eq
    obtain ⟨count, _, _, all, stepped⟩ :=
      @step_waiting _ handler _ chunk chunk follows.safe follows.normal
        (by rw [empty]; rfl) more (.inr ⟨empty, few⟩)
    have full := all (.inr (Nat.le_trans few (by decide)))
    rw [full, List.drop_length, List.take_length] at stepped
    have follows' := follows.buffered chunk
    exact ⟨_, (readLoop_next follows stepped).trans (readLoop_done follows'),
      follows'⟩

theorem Stage.ofProgressed {complete remaining : List Frame}
    {delivery : Delivery σ} {arrived : Bytes}
    (split : rest = complete ++ remaining)
    (delivered : Delivery.deliverAll handler complete struck =
      (.ok (), delivery))
    (progressed : Progressed handler remaining arrived future delivery true
      reader) :
    Stage handler middle struck message junk rest future reader := by
  obtain ⟨complete', remaining', pending, delivery', rfl, _, after, _,
    delivered', follows⟩ := progressed
  exact .resumed (split.trans (List.append_assoc _ _ _).symm)
    (Delivery.deliverAll_append_eq_ok.mpr ⟨delivery, delivered, delivered'⟩)
    follows after

theorem Stage.ofSearched {bytes : Bytes}
    {outcome : Except Stop Unit × Reader σ}
    (accepted : Delivery.deliverAll handler rest struck = (.ok (), final))
    (searched : Searched handler struck future bytes outcome)
    (search : firstFrom resumable bytes = Frame.stream? rest)
    (suffix : bytes <:+ junk ++ Frame.stream rest) :
    ∃ reached, outcome = (.ok (), reached) ∧
      Stage handler middle struck message junk rest future reached := by
  cases searched with
  | waits recovers scanned remains within =>
      exact ⟨_, rfl, .searching recovers scanned (remains.trans search)
        (within.trans suffix)⟩
  | @resumes between left chunk follows found =>
      have layout := Frame.stream?_eq_some (search.symm.trans found)
      by_cases more : chunk = []
      · rw [more] at layout ⊢
        refine ⟨between, readLoop_done follows,
          @Stage.resumed _ _ _ _ _ _ _ _ _ [] rest left struck rfl rfl follows
            ?_⟩
        rwa [List.append_nil] at layout
      · obtain ⟨reached, read, progressed⟩ :=
          readLoop_progress follows (fun empty => absurd empty more) layout
            accepted
        exact ⟨reached, read, @Stage.ofProgressed _ _ _ _ _ _ _ _ _ [] rest _ _
          rfl rfl progressed⟩

theorem readLoop_interrupted {chunk buffer more : Bytes}
    (interruption : Interruption handler middle struck message junk rest)
    (accepted : Delivery.deliverAll handler rest struck = (.ok (), final))
    (follows : reader.Follows buffer middle false)
    (arrived : buffer ++ chunk = message ++ more)
    (layout : more ++ future = junk ++ Frame.stream rest)
    (nonempty : chunk ≠ []) (long : buffer ≠ [] ∨ 3 < chunk.length) :
    ∃ reached, readLoop handler chunk reader = (.ok (), reached) ∧
      Stage handler middle struck message junk rest future reached := by
  obtain ⟨left, left', capacity, same, split, consumed, room, roomy⟩ :=
    readLoop_parsed follows arrived interruption.whole nonempty long
      (interruption.parsed reader follows.delivery_eq follows.reported_eq)
  have recovers : Recovers (Reader.stored { reader with
      delivery := struck, corruptionReported := true, needRecovery := true }
      left capacity) left struck :=
    ⟨⟨Nat.le_of_lt room, roomy, fun _ => room⟩, rfl, interruption.inLog, rfl,
      rfl, rfl⟩
  have searched := @recoverLoop_searched _ handler _ _ left' _ recovers
    (fun empty => by rw [consumed empty]; rfl) future
  rw [split, layout] at searched
  rw [same, recovers.readLoop]
  exact Stage.ofSearched accepted searched interruption.search
    (List.suffix_refl _)

theorem Stage.readChunk_approaching {remaining : List Frame}
    {chunk pending : Bytes} {delivery : Delivery σ}
    (interruption : Interruption handler middle struck message junk rest)
    (accepted : Delivery.deliverAll handler rest struck = (.ok (), final))
    (follows : reader.Follows pending delivery false)
    (delivered : Delivery.deliverAll handler remaining delivery =
      (.ok (), middle))
    (layout : pending ++ chunk ++ future =
      Frame.stream remaining ++ (message ++ (junk ++ Frame.stream rest)))
    (nonempty : chunk ≠ []) :
    ∃ reached, readLoop handler chunk reader = (.ok (), reached) ∧
      Stage handler middle struck message junk rest future reached := by
  obtain ⟨complete, waiting, pending', rfl, arrived, after, unfinished⟩ :=
    Frame.split_stream layout
  obtain ⟨between, first, later⟩ :=
    Delivery.deliverAll_append_eq_ok.mp delivered
  by_cases waits : HasMessage pending'
  · -- all frames before the message have arrived, and it has arrived as well
    have none : waiting = [] := by
      apply Classical.byContradiction
      intro more
      exact unfinished.not_hasMessage after (fun empty => absurd empty more)
        waits
    subst none
    cases later
    obtain ⟨reached, left, chunk', same, follows', split, consumed⟩ :=
      readLoop_frames follows arrived (fun empty => absurd empty nonempty) first
    rw [same]
    have size := interruption.whole.fullMessageLength_append
      (junk ++ Frame.stream rest)
    rw [Frame.stream_nil, List.nil_append] at after
    rw [← after, fullMessageLength_append (Nat.le_trans (by decide)
      waits.header_le)] at size
    obtain ⟨more, rfl⟩ := layout_prefix after (by rw [← size]; exact waits)
    rw [List.append_assoc] at after
    have nonempty' : chunk' ≠ [] := by
      intro empty
      rw [consumed empty, empty] at split
      have nothing := (List.append_eq_nil_iff.mp split.symm).1
      have header := interruption.whole.header_le
      rw [nothing] at header
      cases header
    by_cases long : left ≠ [] ∨ 3 < chunk'.length
    · exact readLoop_interrupted interruption accepted follows' split
        (List.append_cancel_left after) nonempty' long
    · obtain ⟨empty, few⟩ := not_or.mp long
      have empty := Classical.not_not.mp empty
      subst empty
      obtain ⟨reached', read, follows''⟩ :=
        @readLoop_stashed _ handler _ _ _ _ follows' (Nat.le_of_not_lt few)
      have arrived' : chunk' = message ++ more := split
      rw [← List.append_assoc, ← arrived'] at after
      exact ⟨reached', read, @Stage.approaching _ _ _ _ _ _ _ _ _ [] chunk'
        middle follows'' rfl after trivial fun _ =>
          .inr (Nat.le_of_not_lt few)⟩
  · obtain ⟨reached, read, follows'⟩ :=
      readLoop_arrived follows arrived (fun empty => absurd empty nonempty)
        waits first
    exact ⟨reached, read, .approaching follows' later after unfinished
      fun _ => .inl waits⟩

/-- Every chunk leads from one stage to the same or a later one. -/
theorem Stage.readChunk {chunk : Bytes}
    (interruption : Interruption handler middle struck message junk rest)
    (accepted : Delivery.deliverAll handler rest struck = (.ok (), final))
    (stage : Stage handler middle struck message junk rest (chunk ++ future)
      reader) :
    ∃ reached,
      readChunk handler (.ofChunk chunk) reader = (.ok (), reached) ∧
      Stage handler middle struck message junk rest future reached := by
  cases stage with
  | approaching follows delivered layout unfinished last =>
      rw [follows.readChunk]
      by_cases more : chunk = []
      · subst more
        exact ⟨reader, readLoop_done follows,
          .approaching follows delivered layout unfinished last⟩
      · exact Stage.readChunk_approaching interruption accepted follows
          delivered (by rw [List.append_assoc]; exact layout) more
  | searching recovers scanned target within =>
      rw [recovers.readChunk]
      have searched := @recoverLoop_searched _ handler _ _ chunk _ recovers
        (fun _ => scanned) future
      rw [List.append_assoc] at searched
      exact Stage.ofSearched accepted searched target within
  | @resumed complete remaining pending delivery split delivered follows
      layout =>
      rw [follows.readChunk]
      by_cases more : chunk = []
      · subst more
        exact ⟨reader, readLoop_done follows,
          .resumed split delivered follows layout⟩
      · rw [split] at accepted
        obtain ⟨_, delivered', later⟩ :=
          Delivery.deliverAll_append_eq_ok.mp accepted
        rw [delivered] at delivered'
        cases delivered'
        obtain ⟨reached, read, progressed⟩ :=
          readLoop_progress follows (fun empty => absurd empty more)
            (by rw [List.append_assoc]; exact layout) later
        exact ⟨reached, read, .ofProgressed split delivered progressed⟩

theorem Stage.readChunks {chunks : List Bytes}
    (interruption : Interruption handler middle struck message junk rest)
    (accepted : Delivery.deliverAll handler rest struck = (.ok (), final))
    (stage : Stage handler middle struck message junk rest
      (chunks.flatten ++ future) reader) :
    ∃ reached, readChunks handler chunks reader = (.ok (), reached) ∧
      Stage handler middle struck message junk rest future reached := by
  induction chunks generalizing reader with
  | nil => exact ⟨reader, rfl, stage⟩
  | cons chunk chunks ih =>
      rw [List.flatten_cons, List.append_assoc] at stage
      obtain ⟨between, read, stage'⟩ :=
        Stage.readChunk interruption accepted stage
      obtain ⟨reached, reads, stage''⟩ := ih stage'
      exact ⟨reached, (Exec.bind_ok read _).trans reads, stage''⟩

end Stages

end Reader

end UlogCpp
