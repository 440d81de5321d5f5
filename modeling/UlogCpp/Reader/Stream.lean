import UlogCpp.Reader.Safety

namespace UlogCpp

/-! A reader that follows a stream of frames, over calls of `readChunk`. -/

def State.InLog (state : State) : Prop :=
  state = .readHeader ∨ state = .readData

namespace Delivery

variable {σ : Type} {handler : DataHandlerInterface σ}

def deliverAll (handler : DataHandlerInterface σ) (frames : List Frame) :
    Exec Stop (Delivery σ) Unit :=
  frames.forM fun frame => deliver handler frame.toBytes

theorem deliverAll_cons_eq_ok {frame : Frame} {frames : List Frame}
    {delivery final : Delivery σ} :
    deliverAll handler (frame :: frames) delivery = (.ok (), final) ↔
      ∃ reached, deliver handler frame.toBytes delivery = (.ok (), reached) ∧
        deliverAll handler frames reached = (.ok (), final) :=
  Exec.forM_cons_eq_ok

theorem deliverAll_append_eq_ok {frames more : List Frame}
    {delivery final : Delivery σ} :
    deliverAll handler (frames ++ more) delivery = (.ok (), final) ↔
      ∃ reached, deliverAll handler frames delivery = (.ok (), reached) ∧
        deliverAll handler more reached = (.ok (), final) :=
  Exec.forM_append_eq_ok

theorem nextState_inLog {state : State} (inLog : state.InLog)
    (message : Bytes) : (nextState state message).InLog := by
  rcases inLog with rfl | rfl
  · simp only [nextState]
    split
    · exact .inr rfl
    · exact .inl rfl
  · exact .inr rfl

theorem deliver_inLog {message : Bytes} {delivery : Delivery σ}
    (inLog : delivery.state.InLog) :
    (deliver handler message delivery).2.state.InLog := by
  rw [(deliver_progress message delivery).state_eq]
  exact nextState_inLog inLog message

theorem deliverAll_inLog {frames : List Frame} {delivery final : Delivery σ}
    (inLog : delivery.state.InLog)
    (delivered : deliverAll handler frames delivery = (.ok (), final)) :
    final.state.InLog := by
  induction frames generalizing delivery with
  | nil =>
      cases delivered
      exact inLog
  | cons frame frames ih =>
      obtain ⟨reached, first, rest⟩ := deliverAll_cons_eq_ok.mp delivered
      have kept := @deliver_inLog _ handler frame.toBytes _ inLog
      rw [first] at kept
      exact ih kept rest

end Delivery

namespace Reader

variable {σ : Type} {handler : DataHandlerInterface σ}

/-- `readChunk` from the beginning of its loop. -/
def readLoop (handler : DataHandlerInterface σ) (chunk : Bytes) :
    Exec Stop (Reader σ) Unit :=
  Exec.runLoop .outOfFuel (step handler) work (.readLoop, .ofChunk chunk)

def readChunks (handler : DataHandlerInterface σ) (chunks : List Bytes) :
    Exec Stop (Reader σ) Unit :=
  chunks.forM fun chunk => readChunk handler (.ofChunk chunk)

/-- The reader between two steps, in the middle of a log. What has arrived and
has not been delivered is in the buffer. -/
structure Follows (reader : Reader σ) (pending : Bytes)
    (delivery : Delivery σ) (reported : Bool) : Prop where
  safe : reader.Safe
  normal : reader.needRecovery = false
  inLog : delivery.state.InLog
  pending_eq : reader.partialMessageBuffer = pending
  delivery_eq : reader.delivery = delivery
  reported_eq : reader.corruptionReported = reported

section Loop

variable {reader : Reader σ} {pending buffer chunk after : Bytes}
  {delivery final : Delivery σ} {reported : Bool}

theorem Follows.ready (follows : reader.Follows pending delivery reported) :
    Ready (.readLoop, .ofChunk chunk) reader :=
  readLoop_ready follows.safe (Cursor.ofChunk_valid chunk)

theorem Follows.buffered (follows : reader.Follows pending delivery reported)
    (content : Bytes) :
    (reader.buffered content).Follows content delivery reported where
  safe := follows.safe.buffered follows.normal content
  normal := follows.normal
  inLog := follows.inLog
  pending_eq := rfl
  delivery_eq := follows.delivery_eq
  reported_eq := follows.reported_eq

theorem readLoop_done (follows : reader.Follows pending delivery reported) :
    readLoop handler [] reader = (.ok (), reader) := by
  apply Exec.runLoop_done
  exact step_leaves follows.normal (by decide)

theorem readLoop_next {next : Point × Cursor} {reached : Reader σ}
    (follows : reader.Follows pending delivery reported)
    (moved : step handler (.readLoop, .ofChunk chunk) reader =
      (.ok (some next), reached)) :
    readLoop handler chunk reader =
      Exec.runLoop .outOfFuel (step handler) work next reached :=
  step_variant.runLoop_next follows.ready moved

/-- A message that has arrived is parsed, and the loop goes on with what follows
it. -/
theorem readLoop_parsed {message : Bytes} {reached : Reader σ}
    (follows : reader.Follows buffer delivery reported)
    (layout : buffer ++ chunk = message ++ after) (whole : IsMessage message)
    (more : chunk ≠ []) (long : buffer ≠ [] ∨ 3 < chunk.length)
    (parsed : parseMessage handler message reader = (.ok (), reached)) :
    ∃ left rest capacity,
      readLoop handler chunk reader =
        readLoop handler rest (reached.stored left capacity) ∧
      left ++ rest = after ∧ (rest = [] → left = []) ∧
      left.length < capacity ∧ kBufferSizeInit ≤ capacity := by
  have held := follows.pending_eq
  have size := whole.fullMessageLength_append after
  obtain ⟨left, rest, _, capacity, split, _, consumed, room, _, larger, _,
      stepped⟩ :=
    @step_complete _ handler _ _ _ follows.safe follows.normal
      (by rw [held, layout]) more (whole.hasMessage_append after)
      (by rw [held]; exact long)
  rw [size, List.drop_left] at split
  rw [size, List.take_left] at stepped
  exact ⟨left, rest, capacity, readLoop_next follows (stepped _ _ parsed),
    split, consumed, room, Nat.le_trans follows.safe.roomy larger⟩

theorem frame_not_corrupt (frame : Frame) : ¬ Corrupt frame.toBytes := by
  have long := frame.length_pos
  rintro (empty | untyped)
  · have full := toNat_msgSize frame.toBytes
    rw [empty, frame.fullMessageLength_toBytes] at full
    simp only [UInt16.toNat_zero] at full
    omega
  · rw [frame.msgType_toBytes] at untyped
    exact frame.typed untyped

theorem long_of_frame {frame : Frame} {buffer chunk after : Bytes}
    (layout : buffer ++ chunk = frame.toBytes ++ after) :
    buffer ≠ [] ∨ 3 < chunk.length := by
  have long := frame.length_pos
  have lengths := congrArg List.length layout
  simp only [List.length_append, Frame.length_toBytes] at lengths
  by_cases empty : buffer = []
  · rw [empty, List.length_nil] at lengths
    exact .inr (by omega)
  · exact .inl empty

theorem readLoop_frame {frame : Frame}
    (follows : reader.Follows buffer delivery reported)
    (layout : buffer ++ chunk = frame.toBytes ++ after) (more : chunk ≠ [])
    (delivered : Delivery.deliver handler frame.toBytes delivery =
      (.ok (), final)) :
    ∃ reached left rest,
      readLoop handler chunk reader = readLoop handler rest reached ∧
      reached.Follows left final reported ∧ left ++ rest = after ∧
      (rest = [] → left = []) := by
  have state := @Delivery.deliver_inLog _ handler frame.toBytes _ follows.inLog
  rw [delivered] at state
  have delivered' : Delivery.deliver handler frame.toBytes reader.delivery =
      (.ok (), final) := by rw [follows.delivery_eq]; exact delivered
  obtain ⟨left, rest, capacity, same, split, consumed, room, roomy⟩ :=
    readLoop_parsed follows layout frame.isMessage more (long_of_frame layout)
      (parseMessage_delivered frame.isMessage.header_le
        (frame_not_corrupt frame) delivered')
  exact ⟨_, left, rest, same, ⟨⟨Nat.le_of_lt room, roomy, fun _ => room⟩,
    follows.normal, state, rfl, rfl, follows.reported_eq⟩, split, consumed⟩

theorem readLoop_frames {frames : List Frame}
    (follows : reader.Follows buffer delivery reported)
    (layout : buffer ++ chunk = Frame.stream frames ++ after)
    (consumed : chunk = [] → buffer = [])
    (delivered : Delivery.deliverAll handler frames delivery =
      (.ok (), final)) :
    ∃ reached left rest,
      readLoop handler chunk reader = readLoop handler rest reached ∧
      reached.Follows left final reported ∧ left ++ rest = after ∧
      (rest = [] → left = []) := by
  induction frames generalizing reader buffer chunk delivery with
  | nil =>
      cases delivered
      exact ⟨reader, buffer, chunk, rfl, follows, layout, consumed⟩
  | cons frame frames ih =>
      obtain ⟨middle, first, rest⟩ :=
        Delivery.deliverAll_cons_eq_ok.mp delivered
      rw [Frame.stream_cons, List.append_assoc] at layout
      have more : chunk ≠ [] := by
        intro empty
        rw [consumed empty, empty] at layout
        have lengths := congrArg List.length layout
        simp only [List.length_append, Frame.length_toBytes,
          List.length_nil] at lengths
        omega
      obtain ⟨between, left, chunk', same, follows', layout', consumed'⟩ :=
        readLoop_frame follows layout more first
      rw [same]
      exact ih follows' layout' consumed' rest

/-- An unfinished message stays in the buffer, and so does a header that the
chunk ends with. -/
theorem readLoop_buffered (safe : reader.Safe)
    (normal : reader.needRecovery = false)
    (layout : reader.partialMessageBuffer ++ chunk = pending)
    (short : ¬ HasMessage pending ∨
      reader.partialMessageBuffer = [] ∧ chunk.length ≤ 3) :
    readLoop handler chunk reader = (.ok (), reader.buffered pending) := by
  have leaves : ∀ {reached : Reader σ}, reached.needRecovery = false →
      readLoop handler [] reached = (.ok (), reached) :=
    fun normal => Exec.runLoop_done (step_leaves normal (by decide))
  have ready : ∀ {reached : Reader σ} {bytes : Bytes}, reached.Safe →
      Ready (.readLoop, .ofChunk bytes) reached :=
    fun safe => readLoop_ready safe (Cursor.ofChunk_valid _)
  by_cases more : chunk = []
  · rw [more, List.append_nil] at layout
    rw [more, leaves normal, ← layout, buffered_self safe]
  · obtain ⟨count, grows, within, all, stepped⟩ :=
      @step_waiting _ handler _ _ pending safe normal layout.symm more short
    have safe' := safe.buffered normal (pending.take count)
    have next : readLoop handler chunk reader =
        readLoop handler (pending.drop count) _ :=
      step_variant.runLoop_next (ready safe) stepped
    by_cases rest : pending.drop count = []
    · rw [rest] at next
      rw [List.take_of_length_le (List.drop_eq_nil_iff.mp rest)] at next
      exact next.trans (leaves normal)
    · have waits : ¬ HasMessage pending := by
        refine short.resolve_right fun few => rest ?_
        have length : pending.length ≤ 3 := by
          rw [← layout, few.1]
          exact few.2
        rw [all (.inr (Nat.le_trans length (by decide))), List.drop_length]
      obtain ⟨_, _, _, all, stepped'⟩ :=
        @step_waiting _ handler _ _ pending safe' normal
          (by rw [buffered_partialMessageBuffer, List.take_append_drop]) rest
          (.inl waits)
      have full := all (.inl (by
        rw [buffered_partialMessageBuffer, ne_eq, List.take_eq_nil_iff]
        rintro (none | nothing)
        · omega
        · rw [nothing, List.drop_nil] at rest
          exact rest rfl))
      rw [full, List.drop_length, List.take_length, buffered_buffered _ _
        (List.length_take_le' _ _)] at stepped'
      exact (next.trans (step_variant.runLoop_next (ready safe') stepped')).trans
        (leaves normal)

theorem readLoop_waits (follows : reader.Follows buffer delivery reported)
    (layout : buffer ++ chunk = pending)
    (short : ¬ HasMessage pending ∨ buffer = [] ∧ chunk.length ≤ 3) :
    ∃ reached, readLoop handler chunk reader = (.ok (), reached) ∧
      reached.Follows pending delivery reported := by
  rw [← follows.pending_eq] at layout short
  exact ⟨_, readLoop_buffered follows.safe follows.normal layout short,
    follows.buffered pending⟩

/-- The complete frames that have arrived are delivered, each of them once. -/
theorem readLoop_arrived {frames : List Frame}
    (follows : reader.Follows buffer delivery reported)
    (layout : buffer ++ chunk = Frame.stream frames ++ pending)
    (consumed : chunk = [] → frames = [])
    (waits : ¬ HasMessage pending)
    (delivered : Delivery.deliverAll handler frames delivery =
      (.ok (), final)) :
    ∃ reached, readLoop handler chunk reader = (.ok (), reached) ∧
      reached.Follows pending final reported := by
  by_cases empty : chunk = []
  · rw [consumed empty] at layout delivered
    cases delivered
    exact readLoop_waits follows layout (.inl waits)
  · obtain ⟨between, left, rest, same, follows', layout', _⟩ :=
      readLoop_frames follows layout (fun nothing => absurd nothing empty)
        delivered
    rw [same]
    exact readLoop_waits follows' layout' (.inl waits)

end Loop

/-! ## Chunks -/

section Chunks

variable {reader : Reader σ} {pending future : Bytes}
  {delivery final : Delivery σ} {reported : Bool}

theorem step_readChunk_inLog (inLog : reader.delivery.state.InLog)
    (cursor : Cursor) :
    step handler (.readChunk, cursor) reader =
      (.ok (some (.readLoop, cursor)), reader) := by
  have noMagic : skipMagic handler cursor reader = (.ok cursor, reader) := by
    unfold skipMagic
    rw [Exec.get_bind_apply, if_neg, Exec.pure_apply]
    rcases inLog with header | data
    · rw [header]; nofun
    · rw [data]; nofun
  have noFlagBits : skipFlagBits handler cursor reader =
      (.ok cursor, reader) := by
    unfold skipFlagBits
    rw [Exec.get_bind_apply, if_neg, Exec.pure_apply]
    rcases inLog with header | data
    · rw [header]; exact fun both => nomatch both.1
    · rw [data]; exact fun both => nomatch both.1
  rw [step_readChunk_live, Exec.bind_ok noMagic, Exec.bind_ok noFlagBits,
    Exec.pure_apply]
  rcases inLog with header | data
  · rw [header]; nofun
  · rw [data]; nofun

theorem readChunk_inLog (safe : reader.Safe)
    (inLog : reader.delivery.state.InLog) (chunk : Bytes) :
    readChunk handler (.ofChunk chunk) reader =
      readLoop handler chunk reader :=
  step_variant.runLoop_next
    (readChunk_ready safe (Cursor.ofChunk_valid chunk))
    (step_readChunk_inLog inLog _)

theorem Follows.readChunk (follows : reader.Follows pending delivery reported)
    (chunk : Bytes) :
    readChunk handler (.ofChunk chunk) reader =
      readLoop handler chunk reader :=
  readChunk_inLog follows.safe
    (by rw [follows.delivery_eq]; exact follows.inLog) chunk

theorem readChunks_cons (chunk : Bytes) (chunks : List Bytes)
    (reader : Reader σ) :
    readChunks handler (chunk :: chunks) reader =
      (readChunk handler (.ofChunk chunk) >>= fun _ =>
        readChunks handler chunks) reader := rfl

theorem readChunks_append (chunks more : List Bytes) :
    readChunks handler (chunks ++ more) =
      (do
        readChunks handler chunks
        readChunks handler more) :=
  List.forM_append

/-- How far a reader has come in a stream of frames of which `arrived` has
arrived. -/
def Progressed (handler : DataHandlerInterface σ) (frames : List Frame)
    (arrived future : Bytes) (start : Delivery σ) (reported : Bool)
    (reader : Reader σ) : Prop :=
  ∃ complete remaining pending delivery,
    frames = complete ++ remaining ∧
      arrived = Frame.stream complete ++ pending ∧
      pending ++ future = Frame.stream remaining ∧
      Frame.Unfinished pending remaining ∧
      Delivery.deliverAll handler complete start = (.ok (), delivery) ∧
      reader.Follows pending delivery reported

/-- The part of the loop that one chunk allows. An empty chunk does not help to
deliver frames that have arrived. -/
theorem readLoop_progress {frames : List Frame} {chunk : Bytes}
    (follows : reader.Follows pending delivery reported)
    (unfinished : chunk = [] → Frame.Unfinished pending frames)
    (layout : pending ++ chunk ++ future = Frame.stream frames)
    (delivered : Delivery.deliverAll handler frames delivery =
      (.ok (), final)) :
    ∃ reached, readLoop handler chunk reader = (.ok (), reached) ∧
      Progressed handler frames (pending ++ chunk) future delivery reported
        reached := by
  rw [← List.append_nil (Frame.stream frames)] at layout
  obtain ⟨complete, remaining, rest, rfl, arrived, after, unfinished'⟩ :=
    Frame.split_stream layout
  obtain ⟨middle, first, later⟩ :=
    Delivery.deliverAll_append_eq_ok.mp delivered
  have waits : ¬ HasMessage rest := unfinished'.not_hasMessage after (by
    rintro rfl
    rw [(List.append_eq_nil_iff.mp after).1]
    exact Frame.not_hasMessage_nil)
  obtain ⟨reached, read, follows'⟩ :=
    readLoop_arrived follows arrived (by
      rintro rfl
      rw [List.append_nil] at arrived
      cases complete with
      | nil => rfl
      | cons frame complete =>
          have short : pending.length < frame.toBytes.length := unfinished rfl
          have lengths := congrArg List.length arrived
          simp only [Frame.stream_cons, List.length_append] at lengths
          omega) waits first
  rw [List.append_nil] at after
  exact ⟨reached, read, complete, remaining, rest, middle, rfl, arrived, after,
    unfinished', first, follows'⟩

/-- However a stream of frames is cut into chunks, the complete frames are
delivered in order and the rest waits. -/
theorem readChunks_frames {frames : List Frame} {chunks : List Bytes}
    (follows : reader.Follows pending delivery reported)
    (unfinished : Frame.Unfinished pending frames)
    (layout : pending ++ chunks.flatten ++ future = Frame.stream frames)
    (delivered : Delivery.deliverAll handler frames delivery =
      (.ok (), final)) :
    ∃ reached, readChunks handler chunks reader = (.ok (), reached) ∧
      Progressed handler frames (pending ++ chunks.flatten) future delivery
        reported reached := by
  induction chunks generalizing reader pending frames delivery with
  | nil =>
      refine ⟨reader, rfl, [], frames, pending, delivery, rfl, ?_, ?_,
        unfinished, rfl, follows⟩
      · exact List.append_nil pending
      · rwa [List.flatten_nil, List.append_nil] at layout
  | cons chunk chunks ih =>
      rw [List.flatten_cons, ← List.append_assoc, List.append_assoc] at layout
      obtain ⟨between, read, complete, remaining, rest, middle, rfl, arrived,
          after, unfinished', first, follows'⟩ :=
        readLoop_progress follows (fun _ => unfinished) layout delivered
      obtain ⟨_, first', later⟩ :=
        Delivery.deliverAll_append_eq_ok.mp delivered
      rw [first] at first'
      cases first'
      rw [← follows.readChunk] at read
      obtain ⟨reached, reads, complete', remaining', pending', delivery', rfl,
          arrived', after', unfinished'', delivered', follows''⟩ :=
        ih follows' unfinished' (by rw [List.append_assoc]; exact after) later
      refine ⟨reached, (Exec.bind_ok read _).trans reads,
        complete ++ complete', remaining', pending', delivery',
        (List.append_assoc _ _ _).symm, ?_, after', unfinished'',
        Delivery.deliverAll_append_eq_ok.mpr ⟨middle, first, delivered'⟩,
        follows''⟩
      rw [List.flatten_cons, ← List.append_assoc, arrived, List.append_assoc,
        arrived', Frame.stream_append, List.append_assoc]

end Chunks

end Reader

end UlogCpp
