import UlogCpp.Data.Trail
import UlogCpp.Reader.Front
import UlogCpp.Reader.Silence
import UlogCpp.Reader.Tidy

namespace UlogCpp

/-! What is parsed are pieces of the stream, and the messages that are handed
over are those that have been parsed. -/

/-- Messages with their offsets that are disjoint pieces of the stream, in its
order, from `start` up to `stop`. -/
inductive Slices (stream : Bytes) : Nat → List (Nat × Bytes) → Nat → Prop
  | none {start stop : Nat} (within : start ≤ stop) : Slices stream start [] stop
  | next {start offset stop : Nat} {message : Bytes} {rest : List (Nat × Bytes)}
      (later : start ≤ offset) (whole : IsMessage message)
      (piece : message <+: stream.drop offset)
      (others : Slices stream (offset + message.length) rest stop) :
      Slices stream start ((offset, message) :: rest) stop

namespace Slices

variable {stream : Bytes} {start middle stop : Nat}
  {slices more : List (Nat × Bytes)}

theorem weaken {earlier : Nat} (cut : Slices stream start slices stop)
    (before : earlier ≤ start) : Slices stream earlier slices stop := by
  cases cut with
  | none within => exact .none (Nat.le_trans before within)
  | next later whole piece others =>
      exact .next (Nat.le_trans before later) whole piece others

theorem append (cut : Slices stream start slices middle)
    (rest : Slices stream middle more stop) :
    Slices stream start (slices ++ more) stop := by
  induction cut with
  | none within => exact rest.weaken within
  | next later whole piece _ ih => exact .next later whole piece (ih rest)

theorem within (cut : Slices stream start slices stop) : start ≤ stop := by
  induction cut with
  | none within => exact within
  | next later _ _ _ ih =>
      exact Nat.le_trans later (Nat.le_trans (Nat.le_add_right _ _) ih)

theorem extend (cut : Slices stream start slices stop) (added : Bytes) :
    Slices (stream ++ added) start slices stop := by
  induction cut with
  | none within => exact .none within
  | next later whole piece _ ih =>
      refine .next later whole (piece.trans ?_) ih
      rw [List.drop_append]
      exact List.prefix_append _ _

theorem mem {offset : Nat} {message : Bytes}
    (cut : Slices stream start slices stop) (here : (offset, message) ∈ slices) :
    start ≤ offset ∧ offset + message.length ≤ stop ∧ IsMessage message ∧
      message <+: stream.drop offset := by
  induction cut with
  | none => cases here
  | next later whole piece others ih =>
      rcases List.mem_cons.mp here with same | among
      · cases same
        exact ⟨later, others.within, whole, piece⟩
      · obtain ⟨after, rest⟩ := ih among
        exact ⟨Nat.le_trans later (Nat.le_trans (Nat.le_add_right _ _) after), rest⟩

theorem pairwise (cut : Slices stream start slices stop) :
    slices.Pairwise fun first second =>
      first.1 + first.2.length ≤ second.1 := by
  induction cut with
  | none => exact .nil
  | next _ _ _ others ih =>
      exact .cons (fun entry among => (others.mem among).1) ih

end Slices

namespace Callback

def fromMessage (callback : Callback) : Bool :=
  callback.kind != .error && callback.kind != .fileHeader

def messageCalls (calls : List Callback) : List Callback :=
  calls.filter fromMessage

theorem messageCalls_append (calls more : List Callback) :
    messageCalls (calls ++ more) = messageCalls calls ++ messageCalls more :=
  List.filter_append ..

theorem messageCalls_early {callback : Callback} (early : callback.Early) :
    messageCalls [callback] = [] := by
  cases callback with
  | error | fileHeader => rfl
  | _ => cases early

theorem messageCalls_eq_self {calls : List Callback}
    (all : ∀ callback ∈ calls,
      callback.kind ≠ .error ∧ callback.kind ≠ .fileHeader) :
    messageCalls calls = calls := by
  refine List.filter_eq_self.mpr fun callback mem => ?_
  simp only [fromMessage, Bool.and_eq_true, bne_iff_ne]
  exact all callback mem

end Callback

namespace Reader

open Callback (messageCalls)

variable {σ : Type} {handler : DataHandlerInterface σ}

def pending (point : Point × Cursor) (reader : Reader σ) : Bytes :=
  reader.partialMessageBuffer ++ point.2.data

/-- The message that the next step parses, with the number of bytes that have
arrived from its first one on. -/
def parsedNext (point : Point × Cursor) (reader : Reader σ) :
    List (Nat × Bytes) :=
  ((nextParsed point reader).map fun message =>
    (pendingBytes point reader, message)).toList

def parsedIn (handler : DataHandlerInterface σ) (cursor : Cursor)
    (reader : Reader σ) : List (Nat × Bytes) :=
  Exec.seen (step handler) parsedNext work (.readChunk, cursor) reader

def fromStart (arrived : Nat) (entry : Nat × Bytes) : Nat × Bytes :=
  (arrived - entry.1, entry.2)

/-- The messages that are parsed while the chunks are read, with their offsets
in the stream; `arrived` bytes of it have been read before. -/
def parsedMessages (handler : DataHandlerInterface σ) :
    Nat → List Bytes → Reader σ → List (Nat × Bytes)
  | _, [], _ => []
  | arrived, chunk :: chunks, reader =>
      (parsedIn handler (.ofChunk chunk) reader).map
          (fromStart (arrived + chunk.length)) ++
        parsedMessages handler (arrived + chunk.length) chunks
          (readChunk handler (.ofChunk chunk) reader).2

/-! ## Pending bytes -/

section Pending

variable {point next : Point × Cursor} {cursor : Cursor}
  {reader reached : Reader σ} {message : Bytes}

theorem length_pending (ready : Ready point reader) :
    (pending point reader).length = pendingBytes point reader := by
  have valid : point.2.data.length = point.2.length.toNat := ready.valid
  rw [pending, List.length_append, valid, pendingBytes, Nat.add_comm]

theorem data_advance (cursor : Cursor) (count : Int) :
    (cursor.advance count).data <:+ cursor.data :=
  List.drop_suffix _ _

theorem skipMagic_data (cursor : Cursor) :
    Exec.Triple (fun _ => True) (skipMagic handler cursor)
      (fun rest _ => rest.data <:+ cursor.data) (fun _ _ => True) := by
  refine .bind (trivially _) fun reader => ?_
  refine .ite (fun _ => ?_) fun _ => .pure _ fun _ _ => List.suffix_refl _
  exact .bind (trivially _) fun count => .pure _ fun _ _ => data_advance _ count

theorem skipFlagBits_data (cursor : Cursor) :
    Exec.Triple (fun _ => True) (skipFlagBits handler cursor)
      (fun rest _ => rest.data <:+ cursor.data) (fun _ _ => True) := by
  refine .bind (trivially _) fun reader => ?_
  refine .ite (fun _ => ?_) fun _ => .pure _ fun _ _ => List.suffix_refl _
  exact .bind (trivially _) fun count => .pure _ fun _ _ => data_advance _ count

theorem tidy_variant : Exec.Variant (step handler) Tidy work where
  keeps tidy moved := by
    have stepped := @Tidy.step _ handler _ _ tidy
    rwa [moved] at stepped
  decreases tidy moved := step_variant.decreases tidy.ready moved

theorem step_readChunk_pending (tidy : Tidy (.readChunk, cursor) reader)
    (moved : step handler (.readChunk, cursor) reader =
      (.ok (some next), reached)) :
    pending next reached <:+ pending (.readChunk, cursor) reader := by
  by_cases invalid : reader.delivery.state = .invalidData
  · rw [step_readChunk_invalid invalid] at moved
    cases moved
  by_cases early : Early reader.delivery.state
  · rw [step_readChunk_live invalid] at moved
    obtain ⟨middle, between, first, moved⟩ := Exec.bind_eq_ok.mp moved
    obtain ⟨last, final, second, moved⟩ := Exec.bind_eq_ok.mp moved
    cases moved
    obtain ⟨same, valid, _⟩ :=
      (@skipMagic_shrinks _ handler reader cursor tidy.ready.valid).ok
        (.refl reader) first
    obtain ⟨same, _, _⟩ :=
      (@skipFlagBits_shrinks _ handler reader middle valid).ok same second
    have magic := (skipMagic_data cursor).ok trivial first
    have flagBits := (skipFlagBits_data middle).ok trivial second
    rw [pending, pending, same.buffer, (tidy.early early).1]
    exact flagBits.trans magic
  · rw [step_readChunk_inLog (inLog_of_live early invalid)] at moved
    cases moved
    exact List.suffix_refl _

/-- A message that is parsed is taken off the front of what is pending. -/
theorem step_parsed (ready : Ready point reader)
    (parsed : nextParsed point reader = some message)
    (moved : step handler point reader = (.ok (some next), reached)) :
    pending point reader = message ++ pending next reached := by
  obtain ⟨chunk, rfl, more, normal, complete, long, rfl⟩ :=
    (parses_iff ready).mp (nextParsed_eq_some.mp parsed)
  obtain ⟨left, rest, content, capacity, split, _, _, _, _, _, _, stepped⟩ :=
    @step_complete _ handler _ _ _ ready.safe normal rfl more complete long
  rcases outcome : parseMessage handler _ reader with ⟨stop | _, after⟩
  · rw [stepped _ _ outcome] at moved
    cases moved
  · rw [stepped _ _ outcome] at moved
    cases moved
    change _ ++ _ = _ ++ (left ++ rest)
    rw [split]
    exact (List.take_append_drop _ _).symm

theorem step_readLoop_pending (ready : Ready (.readLoop, cursor) reader)
    (nothing : nextParsed (.readLoop, cursor) reader = none)
    (moved : step handler (.readLoop, cursor) reader =
      (.ok (some next), reached)) :
    pending next reached = pending (.readLoop, cursor) reader := by
  cases turn ready.valid reader with
  | complete chunk here more normal complete long =>
      subst here
      have parses := (parses_iff ready).mpr
        ⟨chunk, rfl, more, normal, complete, long, rfl⟩
      rw [nextParsed_eq_some.mpr parses] at nothing
      cases nothing
  | waiting chunk here more normal short =>
      subst here
      obtain ⟨count, _, _, _, stepped⟩ :=
        @step_waiting _ handler _ _ _ ready.safe normal rfl more short
      rw [stepped] at moved
      cases moved
      exact List.take_append_drop _ _
  | leaves idle =>
      cases recovering : reader.needRecovery with
      | true =>
          rw [step_recovers recovering] at moved
          cases moved
          rfl
      | false =>
          rw [step_leaves recovering fun more => idle ⟨more, recovering⟩] at moved
          cases moved

theorem step_tryToRecover_pending (ready : Ready (.tryToRecover, cursor) reader)
    (moved : step handler (.tryToRecover, cursor) reader =
      (.ok (some next), reached)) :
    pending next reached <:+ pending (.tryToRecover, cursor) reader := by
  by_cases positive : cursor.length > 0
  · obtain ⟨chunk, rfl⟩ : ∃ chunk, cursor = .ofChunk chunk :=
      ⟨_, ready.valid.eq_ofChunk positive⟩
    have more : chunk ≠ [] := by
      rintro rfl
      exact absurd positive (by decide)
    obtain ⟨count, _, _, _, _, round⟩ :=
      recoverRound_ofChunk ready.safe (ready.recovers rfl) more
    -- what has been appended comes off the chunk, so the two together are the same
    have whole : (reader.partialMessageBuffer ++ chunk.take count) ++
        chunk.drop count = reader.partialMessageBuffer ++ chunk := by
      rw [List.append_assoc, List.take_append_drop]
    have shrinks : ∀ {content}, content <:+
        reader.partialMessageBuffer ++ chunk.take count →
        content ++ chunk.drop count <:+ reader.partialMessageBuffer ++ chunk :=
      fun ⟨skipped, split⟩ => ⟨skipped, by
        rw [← whole, ← split, List.append_assoc]⟩
    cases scanned : firstFrom resumable
        (reader.partialMessageBuffer ++ chunk.take count) with
    | none =>
        rw [scanned] at round
        rw [step_tryToRecover more round] at moved
        cases moved
        exact shrinks (List.drop_suffix _ _)
    | some found =>
        rw [scanned] at round
        rw [step_tryToRecover more round] at moved
        cases moved
        exact shrinks (firstFrom_suffix scanned)
  · cases (step_searched positive).symm.trans moved

/-- A step that parses nothing drops bytes in front of what is pending. -/
theorem step_pending (tidy : Tidy point reader)
    (nothing : nextParsed point reader = none)
    (moved : step handler point reader = (.ok (some next), reached)) :
    pending next reached <:+ pending point reader := by
  obtain ⟨_ | _ | _, cursor⟩ := point
  · exact step_readChunk_pending tidy moved
  · simp only [step_readLoop_pending tidy.ready nothing moved, List.suffix_refl]
  · exact step_tryToRecover_pending tidy.ready moved

end Pending

/-! ## Where the parsed messages lie -/

section Offsets

variable {reader reached : Reader σ} {stream : Bytes} {chunks : List Bytes}
  {stop : Nat}

def Resumes (reader : Reader σ) (stream : Bytes) (stop : Nat) : Prop :=
  stop ≤ stream.length ∧
    (reader.delivery.state = .invalidData ∨
      reader.partialMessageBuffer <:+ stream ∧
        stop + reader.partialMessageBuffer.length ≤ stream.length)

/-- The messages that are parsed from a configuration on are pieces of what is
pending there. -/
def Cuts (stream : Bytes) (point : Point × Cursor) (reader : Reader σ)
    (seen : List (Nat × Bytes)) (outcome : Except Stop Unit × Reader σ) : Prop :=
  pending point reader <:+ stream →
    ∃ stop, Slices stream (stream.length - (pending point reader).length)
        (seen.map (fromStart stream.length)) stop ∧
      stop ≤ stream.length ∧
      (outcome.1 = .ok () → outcome.2.Resumes stream stop)

theorem piece_of_parsed {point : Point × Cursor} {message : Bytes}
    (ready : Ready point reader)
    (parsed : nextParsed point reader = some message) :
    IsMessage message ∧ message <+: pending point reader := by
  obtain ⟨chunk, rfl, _, _, complete, _, rfl⟩ :=
    (parses_iff ready).mp (nextParsed_eq_some.mp parsed)
  exact ⟨complete.isMessage, List.take_prefix _ _⟩

theorem drop_of_suffix {rest : Bytes} (suffix : rest <:+ stream) :
    stream.drop (stream.length - rest.length) = rest :=
  (List.suffix_iff_eq_drop.mp suffix).symm

theorem cuts_last {point : Point × Cursor} {outcome : Except Stop Unit × Reader σ}
    (ready : Ready point reader)
    (resumes : outcome.1 = .ok () → nextParsed point reader = none ∧
      (pending point reader <:+ stream → outcome.2.Resumes stream
        (stream.length - (pending point reader).length))) :
    Cuts stream point reader (parsedNext point reader) outcome := by
  intro suffix
  cases parsed : nextParsed point reader with
  | none =>
      refine ⟨stream.length - (pending point reader).length, ?_,
        Nat.sub_le _ _, fun returned => (resumes returned).2 suffix⟩
      rw [parsedNext, parsed]
      exact .none (Nat.le_refl _)
  | some message =>
      obtain ⟨whole, piece⟩ := piece_of_parsed ready parsed
      have shorter := piece.length_le
      have longer := suffix.length_le
      refine ⟨stream.length, ?_, Nat.le_refl _, fun returned => ?_⟩
      · rw [parsedNext, parsed]
        simp only [Option.map_some, Option.toList_some, List.map_cons,
          List.map_nil, fromStart, ← length_pending ready]
        refine .next (Nat.le_refl _) whole ?_ (.none (by omega))
        rwa [drop_of_suffix suffix]
      · rw [parsed] at resumes
        cases (resumes returned).1

theorem cuts_back {point next : Point × Cursor} {seen : List (Nat × Bytes)}
    {outcome : Except Stop Unit × Reader σ} (tidy : Tidy point reader)
    (moved : step handler point reader = (.ok (some next), reached))
    (later : Cuts stream next reached seen outcome) :
    Cuts stream point reader (parsedNext point reader ++ seen) outcome := by
  intro suffix
  have longer := suffix.length_le
  cases parsed : nextParsed point reader with
  | none =>
      have fewer := step_pending tidy parsed moved
      have shorter := fewer.length_le
      obtain ⟨stop, cut, rest⟩ := later (fewer.trans suffix)
      refine ⟨stop, ?_, rest⟩
      rw [parsedNext, parsed]
      exact cut.weaken (by omega)
  | some message =>
      have split := step_parsed tidy.ready parsed moved
      have lengths := congrArg List.length split
      rw [List.length_append] at lengths
      obtain ⟨whole, piece⟩ := piece_of_parsed tidy.ready parsed
      obtain ⟨stop, cut, rest⟩ :=
        later ((List.suffix_append message _).trans (split ▸ suffix))
      refine ⟨stop, ?_, rest⟩
      rw [parsedNext, parsed]
      simp only [Option.map_some, Option.toList_some, List.cons_append,
        List.nil_append, List.map_cons, fromStart, ← length_pending tidy.ready]
      refine .next (Nat.le_refl _) whole ?_ (cut.weaken (by omega))
      rwa [drop_of_suffix suffix]

theorem step_readLoop_done {cursor : Cursor}
    (ready : Ready (.readLoop, cursor) reader)
    (returned : step handler (.readLoop, cursor) reader = (.ok none, reached)) :
    ¬ cursor.length > 0 := by
  intro positive
  cases turn ready.valid reader with
  | complete chunk here more normal complete long =>
      subst here
      obtain ⟨left, rest, content, capacity, _, _, _, _, _, _, _, stepped⟩ :=
        @step_complete _ handler _ _ _ ready.safe normal rfl more complete long
      rcases outcome : parseMessage handler _ reader with ⟨stop | _, after⟩
      · rw [stepped _ _ outcome] at returned
        cases returned
      · rw [stepped _ _ outcome] at returned
        cases returned
  | waiting chunk here more normal short =>
      subst here
      obtain ⟨count, _, _, _, stepped⟩ :=
        @step_waiting _ handler _ _ _ ready.safe normal rfl more short
      rw [stepped] at returned
      cases returned
  | leaves idle =>
      cases recovering : reader.needRecovery with
      | true =>
          rw [step_recovers recovering] at returned
          cases returned
      | false => exact idle ⟨positive, recovering⟩

theorem step_tryToRecover_done {cursor : Cursor}
    (ready : Ready (.tryToRecover, cursor) reader)
    (returned : step handler (.tryToRecover, cursor) reader =
      (.ok none, reached)) : ¬ cursor.length > 0 := by
  intro positive
  obtain ⟨chunk, rfl⟩ : ∃ chunk, cursor = .ofChunk chunk :=
    ⟨_, ready.valid.eq_ofChunk positive⟩
  have more : chunk ≠ [] := by
    rintro rfl
    exact absurd positive (by decide)
  rcases round : recoverRound (.ofChunk chunk) reader with ⟨stop | next, after⟩
  · obtain ⟨count, _, _, _, _, same⟩ :=
      recoverRound_ofChunk ready.safe (ready.recovers rfl) more
    rw [round] at same
    split at same <;> cases same
  · rw [step_tryToRecover more round] at returned
    cases returned

/-- A step that ends a call has read all of the chunk, unless the log has been
given up. -/
theorem step_done {point : Point × Cursor} (ready : Ready point reader)
    (returned : step handler point reader = (.ok none, reached)) :
    reached = reader ∧ nextParsed point reader = none ∧
      (reader.delivery.state = .invalidData ∨ point.2.data = []) := by
  have sound := @step_sound _ handler _ _ ready
  rw [returned] at sound
  have valid : point.2.data.length = point.2.length.toNat := ready.valid
  have spent : ¬ point.2.length > 0 → nextParsed point reader = none ∧
      (reader.delivery.state = .invalidData ∨ point.2.data = []) :=
    fun nothing => ⟨nextParsed_eq_none fun _ parses => nothing parses.2.1,
      .inr (List.length_eq_zero_iff.mp (by omega))⟩
  refine ⟨sound, ?_⟩
  obtain ⟨_ | _ | _, cursor⟩ := point
  · have other : Point.readChunk ≠ .readLoop := by decide
    refine ⟨nextParsed_eq_none fun _ parses => other parses.1, .inl ?_⟩
    by_cases invalid : reader.delivery.state = .invalidData
    · exact invalid
    · rw [step_readChunk_live invalid] at returned
      obtain ⟨_, _, _, returned⟩ := Exec.bind_eq_ok.mp returned
      obtain ⟨_, _, _, returned⟩ := Exec.bind_eq_ok.mp returned
      cases returned
  · exact spent (step_readLoop_done ready returned)
  · exact spent (step_tryToRecover_done ready returned)

/-- What is parsed in a call lies in what was pending before it. -/
theorem readChunk_cuts {cursor : Cursor}
    (tidy : Tidy (.readChunk, cursor) reader) :
    Cuts stream (.readChunk, cursor) reader (parsedIn handler cursor reader)
      (readChunk handler cursor reader) := by
  refine tidy_variant.seen_rule ?_ ?_ ?_ tidy
  · intro point state final tidy returned
    obtain ⟨rfl, nothing, ended⟩ := step_done tidy.ready returned
    refine cuts_last tidy.ready fun _ => ⟨nothing, fun suffix => ?_⟩
    have longer := suffix.length_le
    refine ⟨Nat.sub_le _ _, ended.imp_right fun spent => ?_⟩
    have same : pending point final = final.partialMessageBuffer := by
      rw [pending, spent, List.append_nil]
    rw [same] at suffix longer ⊢
    exact ⟨suffix, Nat.le_of_eq (Nat.sub_add_cancel longer)⟩
  · intro point state failure final tidy stopped
    exact cuts_last tidy.ready nofun
  · intro point next state reached rest outcome tidy moved later
    exact cuts_back tidy moved later

theorem parsedIn_invalid (invalid : reader.delivery.state = .invalidData)
    (cursor : Cursor) : parsedIn handler cursor reader = [] := by
  have other : Point.readChunk ≠ .readLoop := by decide
  have ends : ∀ next after, step handler (.readChunk, cursor) reader ≠
      (.ok (some next), after) := by
    intro next after moved
    rw [step_readChunk_invalid invalid] at moved
    cases moved
  rw [parsedIn, Exec.seen, Exec.trail_last ends, parsedNext,
    nextParsed_eq_none fun _ parses => other parses.1]
  rfl

theorem Resumes.readChunk {chunk : Bytes} {next : Reader σ}
    (resumes : reader.Resumes stream stop) (rest : reader.AtRest)
    (returned : readChunk handler (.ofChunk chunk) reader = (.ok (), next)) :
    ∃ later, Slices (stream ++ chunk) stop
        ((parsedIn handler (.ofChunk chunk) reader).map
          (fromStart (stream ++ chunk).length)) later ∧
      next.Resumes (stream ++ chunk) later := by
  obtain ⟨within, invalid | ⟨suffix, room⟩⟩ := resumes
  · have same := returned
    rw [readChunk_invalid invalid] at same
    cases same
    have longer : stop ≤ (stream ++ chunk).length := by
      rw [List.length_append]
      exact Nat.le_add_right_of_le within
    rw [parsedIn_invalid invalid]
    exact ⟨stop, .none (Nat.le_refl _), longer, .inl invalid⟩
  · have tidy := rest.tidy (Cursor.ofChunk_valid chunk)
    have arrived : pending (.readChunk, .ofChunk chunk) reader <:+
        stream ++ chunk := by
      obtain ⟨before, rfl⟩ := suffix
      exact ⟨before, by rw [pending, Cursor.data_ofChunk, List.append_assoc]⟩
    obtain ⟨later, cut, _, goesOn⟩ := @readChunk_cuts _ handler _ _ _ tidy arrived
    rw [returned] at goesOn
    refine ⟨later, cut.weaken ?_, goesOn rfl⟩
    rw [pending, Cursor.data_ofChunk, List.length_append, List.length_append]
    omega

theorem Resumes.readChunks (resumes : reader.Resumes stream stop)
    (rest : reader.AtRest)
    (returned : readChunks handler chunks reader = (.ok (), reached)) :
    ∃ later, Slices (stream ++ chunks.flatten) stop
      (parsedMessages handler stream.length chunks reader) later ∧
        later ≤ (stream ++ chunks.flatten).length := by
  induction chunks generalizing reader stream stop with
  | nil =>
      refine ⟨stop, .none (Nat.le_refl _), ?_⟩
      rw [List.flatten_nil, List.append_nil]
      exact resumes.1
  | cons chunk chunks ih =>
      rw [readChunks_cons] at returned
      obtain ⟨_, next, first, others⟩ := Exec.bind_eq_ok.mp returned
      obtain ⟨middle, cut, again⟩ := resumes.readChunk rest first
      have after := @AtRest.readChunk _ handler (.ofChunk chunk) _ rest
        (Cursor.ofChunk_valid chunk)
      rw [first] at after
      obtain ⟨later, more, within⟩ := ih again after others
      rw [List.flatten_cons, ← List.append_assoc]
      refine ⟨later, ?_, within⟩
      rw [parsedMessages, first, ← List.length_append]
      exact .append (cut.extend _) more

end Offsets

end Reader

end UlogCpp
