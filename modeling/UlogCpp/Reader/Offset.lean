import UlogCpp.Reader.Chunking
import UlogCpp.Reader.Escape

namespace UlogCpp

/-! Where in a log the messages lie that the reader parses. -/

namespace Reader

variable {σ : Type} {handler : DataHandlerInterface σ} {reader : Reader σ}

/-! ## Pending bytes -/

theorem runLoop_pending {point : Point × Cursor} {reached : Reader σ}
    (ready : Ready point reader)
    (ran : Exec.runLoop .outOfFuel (step handler) work point reader =
      (.ok (), reached)) :
    reached.partialMessageBuffer.length ≤ pendingBytes point reader := by
  obtain ⟨last, inside, reaches, ends⟩ :
      ∃ last inside, Exec.Reaches (step handler) point reader last inside ∧
        Exec.EndsAt (step handler) last inside (.ok (), reached) :=
    ran ▸ step_variant.runLoop_ends ready
  cases ends with
  | done returned =>
      have sound := @step_sound _ handler _ _ (reaches.keeps step_variant ready)
      rw [returned] at sound
      cases sound
      have kept := pendingBytes_reaches ready reaches
      unfold pendingBytes at kept ⊢
      omega

theorem readChunks_pending {chunks : List Bytes} {reached : Reader σ}
    (safe : reader.Safe)
    (ran : readChunks handler chunks reader = (.ok (), reached)) :
    reached.partialMessageBuffer.length ≤
      reader.partialMessageBuffer.length + chunks.flatten.length := by
  induction chunks generalizing reader with
  | nil =>
      cases ran
      exact Nat.le_refl _
  | cons chunk chunks ih =>
      rw [readChunks_cons] at ran
      obtain ⟨_, next, first, rest⟩ := Exec.bind_eq_ok.mp ran
      have kept := runLoop_pending
        (readChunk_ready safe (Cursor.ofChunk_valid chunk)) first
      have later := ih (readChunk_safe safe first) rest
      simp only [pendingBytes, Cursor.length_ofChunk, Int.toNat_natCast] at kept
      rw [List.flatten_cons, List.length_append]
      omega

/-- A message that is parsed is pending no more when the call returns. -/
theorem Parses.consumed {point : Point × Cursor} {message : Bytes}
    {reached : Reader σ} (ready : Ready point reader)
    (parses : Parses point reader message)
    (ran : Exec.runLoop .outOfFuel (step handler) work point reader =
      (.ok (), reached)) :
    reached.partialMessageBuffer.length < pendingBytes point reader := by
  obtain ⟨chunk, rfl, more, normal, complete, long, rfl⟩ :=
    (parses_iff ready).mp parses
  obtain ⟨left, rest, _, _, split, _, _, _, _, _, _, parsed⟩ :=
    @step_complete _ handler _ _ _ ready.safe normal rfl more complete long
  rcases outcome : parseMessage handler _ reader with ⟨stop | _, after⟩
  · rw [Exec.runLoop_stop (parsed _ _ outcome)] at ran
    cases ran
  · have stepped := parsed _ _ outcome
    rw [step_variant.runLoop_next ready stepped] at ran
    have kept := runLoop_pending (step_variant.keeps ready stepped) ran
    have lengths := congrArg List.length split
    have header := header_le_fullMessageLength
      (reader.partialMessageBuffer ++ chunk)
    unfold HasMessage at complete
    simp only [List.length_append, List.length_drop] at lengths complete
    simp only [pendingBytes, stored_partialMessageBuffer, Cursor.length_ofChunk,
      Int.toNat_natCast] at kept ⊢
    omega

/-- The calls come to parse the message at the offset. Offsets count from the
first byte that the reader holds before the calls. -/
def ParsesAt (handler : DataHandlerInterface σ) (chunks : List Bytes)
    (start : Reader σ) (offset : Nat) (message : Bytes) : Prop :=
  ∃ before chunk after reader point inside,
    chunks = before ++ chunk :: after ∧
    readChunks handler before start = (.ok (), reader) ∧
    Exec.Reaches (step handler) (.readChunk, .ofChunk chunk) reader point
      inside ∧
    Parses point inside message ∧
    offset + pendingBytes point inside =
      start.partialMessageBuffer.length + before.flatten.length + chunk.length

section ParsesAt

variable {chunk message : Bytes} {chunks : List Bytes} {offset : Nat}

theorem ParsesAt.here {point : Point × Cursor} {inside : Reader σ}
    (reaches : Exec.Reaches (step handler) (.readChunk, .ofChunk chunk) reader
      point inside)
    (parses : Parses point inside message)
    (counted : offset + pendingBytes point inside =
      reader.partialMessageBuffer.length + chunk.length) :
    ParsesAt handler (chunk :: chunks) reader offset message :=
  ⟨[], chunk, chunks, reader, point, inside, rfl, rfl, reaches, parses, counted⟩

theorem ParsesAt.later {next : Reader σ} {later : Nat}
    (ran : readChunk handler (.ofChunk chunk) reader = (.ok (), next))
    (parses : ParsesAt handler chunks next later message)
    (counted : offset + next.partialMessageBuffer.length =
      later + reader.partialMessageBuffer.length + chunk.length) :
    ParsesAt handler (chunk :: chunks) reader offset message := by
  obtain ⟨before, last, after, between, point, inside, rfl, earlier, reaches,
    here, counted'⟩ := parses
  refine ⟨chunk :: before, last, after, between, point, inside, rfl,
    (Exec.bind_ok ran _).trans earlier, reaches, here, ?_⟩
  simp only [List.flatten_cons, List.length_append]
  omega

theorem ParsesAt.cases_head (safe : reader.Safe)
    (parses : ParsesAt handler (chunk :: chunks) reader offset message) :
    (∃ point inside,
      Exec.Reaches (step handler) (.readChunk, .ofChunk chunk) reader point
        inside ∧ Parses point inside message ∧
      offset + pendingBytes point inside =
        reader.partialMessageBuffer.length + chunk.length) ∨
    ∃ next later,
      readChunk handler (.ofChunk chunk) reader = (.ok (), next) ∧
      ParsesAt handler chunks next later message ∧
      offset + next.partialMessageBuffer.length =
        later + reader.partialMessageBuffer.length + chunk.length := by
  obtain ⟨before, last, after, between, point, inside, split, earlier, reaches,
    here, counted⟩ := parses
  cases before with
  | nil =>
      cases split
      cases earlier
      exact .inl ⟨point, inside, reaches, here, by simpa using counted⟩
  | cons first before =>
      cases split
      rw [readChunks_cons] at earlier
      obtain ⟨_, next, ran, rest⟩ := Exec.bind_eq_ok.mp earlier
      have safe' := readChunk_safe safe ran
      have kept := readChunks_pending safe' rest
      have pending := pendingBytes_reaches
        (readChunk_ready (readChunks_safe safe' rest)
          (Cursor.ofChunk_valid last)) reaches
      simp only [List.flatten_cons, List.length_append] at counted
      simp only [pendingBytes, Cursor.length_ofChunk, Int.toNat_natCast]
        at pending counted
      refine .inr ⟨next, offset + next.partialMessageBuffer.length -
        (reader.partialMessageBuffer.length + chunk.length), ran,
        ⟨before, last, after, between, point, inside, rfl, rest, reaches, here,
          ?_⟩, ?_⟩
      · simp only [pendingBytes]
        omega
      · omega

end ParsesAt

/-! ## The message in front -/

/-- A message in front of the buffer and the chunks is parsed: it arrives, and
more than its header does, unless that is cut in two. -/
def Completes (buffer : Bytes) (chunks : List Bytes) : Prop :=
  HasMessage (buffer ++ chunks.flatten) ∧ chunks.flatten ≠ [] ∧
    (buffer ≠ [] ∨ 3 < chunks.flatten.length ∨ chunks.flatten ∉ chunks)

def Moves (buffer chunk : Bytes) : Prop :=
  chunk = [] ∨ ¬ HasMessage (buffer ++ chunk) ∨ buffer = [] ∧ chunk.length ≤ 3

section Completes

variable {buffer chunk : Bytes} {chunks : List Bytes}

theorem of_not_moves (found : ¬ Moves buffer chunk) :
    chunk ≠ [] ∧ HasMessage (buffer ++ chunk) ∧
      (buffer ≠ [] ∨ 3 < chunk.length) := by
  obtain ⟨more, found⟩ := not_or.mp found
  obtain ⟨complete, long⟩ := not_or.mp found
  refine ⟨more, Classical.not_not.mp complete, ?_⟩
  by_cases empty : buffer = []
  · exact .inr (Nat.lt_of_not_le fun few => long ⟨empty, few⟩)
  · exact .inl empty

theorem completes_now (found : ¬ Moves buffer chunk) :
    Completes buffer (chunk :: chunks) := by
  obtain ⟨more, complete, long⟩ := of_not_moves found
  refine ⟨?_, List.append_ne_nil_of_left_ne_nil more _,
    long.imp_right fun long => .inl ?_⟩
  · rw [List.flatten_cons, ← List.append_assoc]
    exact complete.append chunks.flatten
  · rw [List.flatten_cons, List.length_append]
    omega

theorem completes_later (moves : Moves buffer chunk) :
    Completes buffer (chunk :: chunks) ↔
      Completes (buffer ++ chunk) chunks := by
  unfold Completes
  rw [List.flatten_cons, List.append_assoc]
  by_cases empty : chunk = []
  · rw [empty, List.nil_append, List.append_nil]
    refine and_congr_right fun _ => and_congr_right fun more => ?_
    rw [List.mem_cons, not_or]
    exact or_congr_right (or_congr_right (and_iff_right more))
  · have short := moves.resolve_left empty
    have positive := List.length_pos_iff.mpr empty
    have held : buffer ++ chunk ≠ [] :=
      List.append_ne_nil_of_right_ne_nil _ empty
    constructor
    · rintro ⟨complete, _, long⟩
      refine ⟨complete, fun last => ?_, .inl held⟩
      rw [last, List.append_nil] at complete long
      obtain ⟨none, few⟩ := short.resolve_left (absurd complete)
      rcases long with nonempty | long | other
      · exact nonempty none
      · omega
      · exact other List.mem_cons_self
    · rintro ⟨complete, rest, _⟩
      refine ⟨complete, List.append_ne_nil_of_left_ne_nil empty _,
        .inr (.inr fun mem => ?_)⟩
      have positive' := List.length_pos_iff.mpr rest
      rcases List.mem_cons.mp mem with same | mem
      · have lengths := congrArg List.length same
        rw [List.length_append] at lengths
        omega
      · have within := (List.sublist_flatten_of_mem mem).length_le
        rw [List.length_append] at within
        omega

end Completes

section Follows

variable {buffer chunk : Bytes} {chunks : List Bytes} {delivery : Delivery σ}
  {reported : Bool}

/-- Nothing is parsed in a call that leaves all bytes pending. -/
theorem readChunk_silent {reached : Reader σ} (safe : reader.Safe)
    (ran : readChunk handler (.ofChunk chunk) reader = (.ok (), reached))
    (all : reached.partialMessageBuffer.length =
      reader.partialMessageBuffer.length + chunk.length)
    {point : Point × Cursor} {inside : Reader σ} {message : Bytes}
    (reaches : Exec.Reaches (step handler) (.readChunk, .ofChunk chunk) reader
      point inside) :
    ¬ Parses point inside message := by
  intro parses
  have ready := readChunk_ready safe (Cursor.ofChunk_valid chunk)
  have kept := pendingBytes_reaches ready reaches
  have rest : Exec.runLoop .outOfFuel (step handler) work point inside =
      (.ok (), reached) :=
    (step_variant.runLoop_reaches ready reaches).symm.trans ran
  have consumed := parses.consumed (reaches.keeps step_variant ready) rest
  simp only [pendingBytes, Cursor.length_ofChunk, Int.toNat_natCast]
    at kept consumed
  omega

theorem readChunk_moves (follows : reader.Follows buffer delivery reported)
    (moves : Moves buffer chunk) :
    ∃ reached, readChunk handler (.ofChunk chunk) reader = (.ok (), reached) ∧
      reached.Follows (buffer ++ chunk) delivery reported ∧
      reached.partialMessageBuffer.length =
        reader.partialMessageBuffer.length + chunk.length := by
  obtain ⟨reached, read, follows'⟩ : ∃ reached,
      readLoop handler chunk reader = (.ok (), reached) ∧
        reached.Follows (buffer ++ chunk) delivery reported := by
    rcases moves with rfl | short
    · rw [List.append_nil]
      exact ⟨reader, readLoop_done follows, follows⟩
    · exact readLoop_waits follows rfl short
  refine ⟨reached, (follows.readChunk chunk).trans read, follows', ?_⟩
  rw [follows'.pending_eq, follows.pending_eq, List.length_append]

theorem Follows.parses_front
    (follows : reader.Follows buffer delivery reported)
    (completes : Completes buffer chunks) :
    ParsesAt handler chunks reader 0
      ((buffer ++ chunks.flatten).take
        (fullMessageLength (buffer ++ chunks.flatten))) := by
  induction chunks generalizing reader buffer with
  | nil => exact absurd rfl completes.2.1
  | cons chunk chunks ih =>
      rw [List.flatten_cons, ← List.append_assoc]
      by_cases moves : Moves buffer chunk
      · obtain ⟨reached, ran, follows', all⟩ :=
          @readChunk_moves _ handler _ _ _ _ _ follows moves
        have later := ih follows' ((completes_later moves).mp completes)
        exact .later ran later (by omega)
      · obtain ⟨more, complete, long⟩ := of_not_moves moves
        rw [complete.take_append]
        have inLog : reader.delivery.state.InLog := by
          rw [follows.delivery_eq]
          exact follows.inLog
        have stepped := @step_readChunk_inLog _ handler _ inLog (.ofChunk chunk)
        refine .here (.tail .refl stepped)
          ((parses_iff follows.ready).mpr ⟨chunk, rfl, more, follows.normal, ?_⟩)
          ?_
        · rw [follows.pending_eq]
          exact ⟨complete, long, rfl⟩
        · simp only [pendingBytes, Cursor.length_ofChunk, Int.toNat_natCast]
          omega

theorem Follows.parses_nothing
    (follows : reader.Follows buffer delivery reported)
    (stalls : ¬ Completes buffer chunks) (offset : Nat) (message : Bytes) :
    ¬ ParsesAt handler chunks reader offset message := by
  induction chunks generalizing reader buffer offset with
  | nil =>
      rintro ⟨before, chunk, after, _, _, _, split, _⟩
      exact absurd split.symm (by simp)
  | cons chunk chunks ih =>
      intro parses
      have moves : Moves buffer chunk :=
        Classical.not_not.mp fun found => stalls (completes_now found)
      obtain ⟨reached, ran, follows', all⟩ :=
        @readChunk_moves _ handler _ _ _ _ _ follows moves
      rcases parses.cases_head follows.safe with
        ⟨point, inside, reaches, here, _⟩ | ⟨next, later, ran', rest, _⟩
      · exact readChunk_silent follows.safe ran all reaches here
      · rw [ran] at ran'
        cases ran'
        exact ih follows' (mt (completes_later moves).mpr stalls) later rest

end Follows

end Reader

end UlogCpp
