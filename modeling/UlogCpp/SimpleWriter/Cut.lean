import UlogCpp.SimpleWriter.Fidelity

namespace UlogCpp

/-! Logs that end in the middle of a message. -/

namespace Reader.Arrives

variable {σ : Type} {handler : DataHandlerInterface σ} {prologue : Prologue}
  {start middle final : σ} {output : Bytes} {messages : List Message}

theorem output_eq
    (arrives : Arrives handler prologue start output messages final) :
    output = prologue.toBytes ++ messages.flatMap Message.toBytes := by
  obtain ⟨wires, rfl, output, _, _⟩ := arrives
  rw [output, List.flatMap_map]
  rfl

theorem final_unique {other : Bytes}
    (arrives : Arrives handler prologue start output messages final)
    (again : Arrives handler prologue start other messages middle) :
    middle = final := by
  obtain ⟨_, _, _, _, ran⟩ := arrives
  obtain ⟨_, _, _, _, same⟩ := again
  rw [ran] at same
  cases same
  rfl

/-- Of a log that has been cut off the messages are read that are whole. -/
theorem reads_cut {first future : Bytes} {chunks : List Bytes}
    {bits : UlogMessageFlagBits}
    (arrives : Arrives handler prologue start output messages final)
    (flagged : prologue.flagBits = some bits)
    (layout : (first :: chunks).flatten ++ future = output)
    (sized : 59 ≤ first.length) :
    ∃ complete remaining pending reached,
      messages = complete ++ remaining ∧
      (first :: chunks).flatten =
        prologue.toBytes ++ complete.flatMap Message.toBytes ++ pending ∧
      ¬ HasMessage pending ∧
      Reader.readChunks handler (first :: chunks) (init start) =
        (.ok (), reached) ∧
      Arrives handler prologue start
        (prologue.toBytes ++ complete.flatMap Message.toBytes) complete
        reached.delivery.handler := by
  obtain ⟨wires, rfl, rfl, ordered, ran⟩ := arrives
  obtain ⟨opened, begins, rest⟩ := Exec.forM_append_eq_ok.mp ran
  have opens := @Prologue.deliver_calls _ handler _ (init start).delivery _
    begins
  obtain ⟨_, delivers, _⟩ :=
    @WireMessage.delivers_calls _ handler wires
      { state := .readHeader, handler := opened, calls := [] ++ prologue.calls }
      _ _ rfl ordered rest
  obtain ⟨reached, arrived, reads, cut, progressed⟩ :=
    @readChunks_log _ handler prologue (wires.map WireMessage.frame) first
      future chunks start _ _ sized
      (fun absent => by rw [absent] at flagged; cases flagged)
      (by rw [WireMessage.stream_frames]; exact layout) opens delivers
  obtain ⟨complete, remaining, pending, delivery, split, arrivedEq, after,
    unfinished, delivered, follows⟩ := progressed
  obtain ⟨whole, others, rfl, rfl, rfl⟩ := List.map_eq_append_iff.mp split
  rw [List.map_append] at ordered rest
  rw [Message.calls_append] at rest
  obtain ⟨reachedHandler, calls, _⟩ := Exec.forM_append_eq_ok.mp rest
  have ordered := (Message.ordered_append.mp ordered).1
  obtain ⟨_, same, handlerEq, _⟩ :=
    @WireMessage.delivers_calls _ handler whole
      { state := .readHeader, handler := opened, calls := [] ++ prologue.calls }
      _ _ rfl ordered calls
  cases same.symm.trans delivered
  have bytes : (whole.map WireMessage.message).flatMap Message.toBytes =
      whole.flatMap WireMessage.toBytes := by
    rw [List.flatMap_map]
    rfl
  refine ⟨whole.map WireMessage.message, others.map WireMessage.message,
    pending, reached, List.map_append, ?_, ?_, reads, whole, rfl, ?_, ordered, ?_⟩
  · rw [bytes, ← WireMessage.stream_frames, List.append_assoc, ← arrivedEq]
    exact cut
  · refine unfinished.not_hasMessage (after.trans (List.append_nil _).symm) ?_
    intro none
    rw [none] at after
    rw [(List.append_eq_nil_iff.mp after).1]
    exact Frame.not_hasMessage_nil
  · rw [bytes]
  · rw [follows.delivery_eq, handlerEq]
    exact Exec.forM_append_eq_ok.mpr ⟨opened, begins, calls⟩

end Reader.Arrives

namespace SimpleWriter

open DataContainer (Holds)

variable {timestampUs : UInt64} {trace : List (Call × Option UInt16)}
  {final : SimpleWriter} {messages : List Message}

def Mirrored (timestampUs : UInt64) (trace : List (Call × Option UInt16))
    (final : SimpleWriter) : Prop :=
  ∃ messages, Mirrors timestampUs (.ofTrace trace) messages final ∧
    ∀ complete remaining, messages = complete ++ remaining →
      ∃ earlier later middle, trace = earlier ++ later ∧
        Exec.Run perform Sound (constructed timestampUs) earlier middle ∧
        Mirrors timestampUs (.ofTrace earlier) complete middle

theorem mirrored
    (run : Exec.Run perform Sound (constructed timestampUs) trace final) :
    Mirrored timestampUs trace final := by
  have both : Exec.Run perform Sound (constructed timestampUs) trace final ∧
      Mirrored timestampUs trace final := by
    refine @Exec.Run.invariant _ _ _ _ _ _ _ (fun trace final =>
      Exec.Run perform Sound (constructed timestampUs) trace final ∧
        Mirrored timestampUs trace final) ⟨.start, ?_⟩ ?_ _ _ run
    · refine ⟨[], Mirrors.constructed timestampUs, ?_⟩
      intro complete remaining split
      obtain ⟨rfl, rfl⟩ := List.nil_eq_append_iff.mp split
      exact ⟨[], [], _, rfl, .start, Mirrors.constructed timestampUs⟩
    · rintro trace before after call result ⟨run, messages, mirrors, splits⟩ sound
        returned
      have next := mirrors.call sound (performed returned)
      rw [← Written.ofTrace_concat] at next
      refine ⟨.call run sound returned, _, next, fun complete remaining split => ?_⟩
      rcases List.append_eq_append_iff.mp split with
        ⟨more, rfl, added⟩ | ⟨more, rfl, _⟩
      · cases remaining with
        | nil =>
            rw [List.append_nil] at added
            rw [← added]
            exact ⟨_, [], after, (List.append_nil _).symm,
              .call run sound returned, next⟩
        | cons message remaining =>
            have nothing : more = [] := by
              cases more with
              | nil => rfl
              | cons first more =>
                  have lengths := congrArg List.length added
                  have few := Option.length_toList_le (o := call.message before)
                  simp at lengths
                  omega
            obtain ⟨earlier, later, middle, rfl, runs, same⟩ :=
              splits messages [] (List.append_nil _).symm
            rw [nothing, List.append_nil]
            exact ⟨earlier, later ++ [(call, result)], middle,
              List.append_assoc .., runs, same⟩
      · obtain ⟨earlier, later, middle, rfl, runs, same⟩ := splits complete more rfl
        exact ⟨earlier, later ++ [(call, result)], middle,
          List.append_assoc .., runs, same⟩
  exact both.2

/-- Wherever a log ends after its start, it reads as the log of the calls whose
messages are in it as a whole, in whatever chunks it is read. -/
theorem readChunks_cut {first : Bytes} {chunks : List Bytes}
    (run : Exec.Run perform Sound (constructed timestampUs) trace final)
    (cut : (first :: chunks).flatten <+: final.writer.output)
    (sized : 59 ≤ first.length) :
    ∃ earlier later middle pending reached, trace = earlier ++ later ∧
      Exec.Run perform Sound (constructed timestampUs) earlier middle ∧
      (first :: chunks).flatten = middle.writer.output ++ pending ∧
      ¬ HasMessage pending ∧
      Reader.readChunks DataContainer.handler (first :: chunks)
        (Reader.init { storageConfig := .fullLog }) = (.ok (), reached) ∧
      Holds (.ofTrace earlier) reached.delivery.handler := by
  obtain ⟨future, layout⟩ := cut
  obtain ⟨messages, mirrors, splits⟩ := mirrored run
  obtain ⟨container, arrives, _⟩ := mirrors.arrives
  obtain ⟨complete, remaining, pending, reached, split, bytes, waits, reads,
    arrived⟩ := arrives.reads_cut rfl layout sized
  obtain ⟨earlier, later, middle, rfl, runs, same⟩ := splits _ _ split
  obtain ⟨held, again, holds⟩ := same.arrives
  refine ⟨earlier, later, middle, pending, reached, rfl, runs, ?_, waits, reads, ?_⟩
  · rw [again.output_eq]
    exact bytes
  · rw [← arrived.final_unique again]
    exact holds

def cutTrace : List (Call × Option UInt16) :=
  [(.writeMessageFormat [109] [timestampField], none), (.headerComplete, none),
    (.writeAddLoggedMessage [109] 0, some 0),
    (.writeData 0 [1, 2, 3, 4, 5, 6, 7, 8], none),
    (.writeData 0 [2, 2, 3, 4, 5, 6, 7, 8], none)]

theorem readChunks_cut_second :
    ∃ earlier later middle pending reached, cutTrace = earlier ++ later ∧
      Exec.Run perform Sound (constructed 0) earlier middle ∧
      [(Exec.replay perform (constructed 0) cutTrace).writer.output.take
        110].flatten = middle.writer.output ++ pending ∧
      ¬ HasMessage pending ∧
      Reader.readChunks DataContainer.handler
        [(Exec.replay perform (constructed 0) cutTrace).writer.output.take 110]
        (Reader.init { storageConfig := .fullLog }) = (.ok (), reached) ∧
      Holds (.ofTrace earlier) reached.delivery.handler :=
  readChunks_cut (Exec.Run.start.replay (by decide +kernel))
    (by
      rw [List.flatten_singleton]
      exact List.take_prefix 110 _) (by decide +kernel)

end SimpleWriter

end UlogCpp
