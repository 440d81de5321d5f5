import Mathlib.Algebra.Order.BigOperators.Group.Finset
import Mathlib.Data.Fintype.Basic
import Mathlib.Logic.Relation
import Mathlib.Order.OrderIsoNat
import UlogCpp.Data.Iterate
import UlogCpp.Data.Run

namespace UlogCpp

/-! Threads that call the methods of an object which hold its lock. -/

namespace Exec

variable {ε σ α : Type} {step : α → Exec ε σ (Option α)} {point next : α}
  {state reached : σ} {ended : Except ε Unit × σ}

def ComesTo (step : α → Exec ε σ (Option α)) (point : α) (state : σ)
    (ended : Except ε Unit × σ) : Prop :=
  ∃ last reached, Reaches step point state last reached ∧
    EndsAt step last reached ended

namespace ComesTo

theorem next_iff (moved : step point state = (.ok (some next), reached)) :
    ComesTo step point state ended ↔ ComesTo step next reached ended := by
  constructor
  · rintro ⟨last, final, reaches, ends⟩
    rcases reaches.cases_head with ⟨rfl, rfl⟩ | ⟨other, between, also, rest⟩
    · cases ends with
      | done returned => cases moved.symm.trans returned
      | stop stopped => cases moved.symm.trans stopped
    · cases moved.symm.trans also
      exact ⟨last, final, rest, ends⟩
  · rintro ⟨last, final, reaches, ends⟩
    exact ⟨last, final, reaches.head moved, ends⟩

theorem done_iff (returned : step point state = (.ok none, reached)) :
    ComesTo step point state ended ↔ ended = (.ok (), reached) := by
  constructor
  · rintro ⟨last, final, reaches, ends⟩
    rcases reaches.cases_head with ⟨rfl, rfl⟩ | ⟨other, between, also, rest⟩
    · cases ends with
      | done same =>
          cases returned.symm.trans same
          rfl
      | stop stopped => cases returned.symm.trans stopped
    · cases returned.symm.trans also
  · rintro rfl
    exact ⟨point, state, .refl, .done returned⟩

theorem stop_iff {stop : ε} (stopped : step point state = (.error stop, reached)) :
    ComesTo step point state ended ↔ ended = (.error stop, reached) := by
  constructor
  · rintro ⟨last, final, reaches, ends⟩
    rcases reaches.cases_head with ⟨rfl, rfl⟩ | ⟨other, between, also, rest⟩
    · cases ends with
      | done returned => cases stopped.symm.trans returned
      | stop same =>
          cases stopped.symm.trans same
          rfl
    · cases stopped.symm.trans also
  · rintro rfl
    exact ⟨point, state, .refl, .stop stopped⟩

end ComesTo

end Exec

/-- The calls of an object. While it holds the lock, a call goes from program
point to program point; a stop that it `raises` releases the lock, and any other
one ends the process. -/
structure Monitor (κ ε σ α : Type) where
  entry : κ → α
  step : κ → α → Exec ε σ (Option α)
  raises : ε → Prop

/-- The calls that a thread has still to make are its `program`. The calls that
have been left are kept in a history variable, in the order in which they have
been left, with what they have come to. -/
structure Threads (ι κ ε σ α : Type) where
  object : σ
  owner : Option ι
  inside : ι → Option (κ × α)
  program : ι → List κ
  left : List ((ι × κ) × Except ε Unit)

namespace Monitor

variable {ι κ ε σ α : Type} (monitor : Monitor κ ε σ α)

/-- A call that no other one comes between. -/
def Completes (before : σ) (call : κ) (outcome : Except ε Unit) (after : σ) :
    Prop :=
  Exec.ComesTo (monitor.step call) (monitor.entry call) before (outcome, after)

abbrev History (start : σ) :
    List ((ι × κ) × Except ε Unit) → σ → Prop :=
  Exec.Path (fun before call outcome after =>
    monitor.Completes before call.2 outcome after) start

end Monitor

namespace Threads

variable {ι κ ε σ α : Type} [DecidableEq ι]

inductive Step (monitor : Monitor κ ε σ α) :
    Threads ι κ ε σ α → Threads ι κ ε σ α → Prop
  | lock {threads : Threads ι κ ε σ α} {thread : ι} {call : κ} {rest : List κ}
      (free : threads.owner = none)
      (outside : threads.inside thread = none)
      (next : threads.program thread = call :: rest) :
      Step monitor threads
        { threads with
          owner := some thread
          inside := Function.update threads.inside thread
            (some (call, monitor.entry call))
          program := Function.update threads.program thread rest }
  | move {threads : Threads ι κ ε σ α} {thread : ι} {call : κ} {point next : α}
      {reached : σ}
      (here : threads.inside thread = some (call, point))
      (moved : monitor.step call point threads.object =
        (.ok (some next), reached)) :
      Step monitor threads
        { threads with
          object := reached
          inside := Function.update threads.inside thread (some (call, next)) }
  | leave {threads : Threads ι κ ε σ α} {thread : ι} {call : κ} {point : α}
      {outcome : Except ε Unit} {reached : σ}
      (here : threads.inside thread = some (call, point))
      (ends : Exec.EndsAt (monitor.step call) point threads.object
        (outcome, reached))
      (raised : ∀ stop, outcome = .error stop → monitor.raises stop) :
      Step monitor threads
        { threads with
          object := reached
          owner := none
          inside := Function.update threads.inside thread none
          left := threads.left ++ [((thread, call), outcome)] }

def begin (start : σ) (programs : ι → List κ) : Threads ι κ ε σ α where
  object := start
  owner := none
  inside := fun _ => none
  program := programs
  left := []

abbrev Reachable (monitor : Monitor κ ε σ α) (start : σ)
    (programs : ι → List κ) : Threads ι κ ε σ α → Prop :=
  Relation.ReflTransGen (Step monitor) (begin start programs)

def leftBy (threads : Threads ι κ ε σ α) (thread : ι) : List κ :=
  (threads.left.filter fun entry => entry.1.1 = thread).map fun entry =>
    entry.1.2

def callsOf (threads : Threads ι κ ε σ α) (thread : ι) : List κ :=
  threads.leftBy thread ++
    ((threads.inside thread).map Prod.fst).toList ++ threads.program thread

inductive Serial (monitor : Monitor κ ε σ α) (start : σ)
    (threads : Threads ι κ ε σ α) : Prop
  | idle (free : threads.owner = none)
      (outside : ∀ thread, threads.inside thread = none)
      (history : monitor.History start threads.left threads.object)
  | busy {thread : ι} {call : κ} {point : α} {base : σ}
      (owned : threads.owner = some thread)
      (here : threads.inside thread = some (call, point))
      (outside : ∀ other, other ≠ thread → threads.inside other = none)
      (history : monitor.History start threads.left base)
      (reaches : Exec.Reaches (monitor.step call) (monitor.entry call) base point
        threads.object)

variable {monitor : Monitor κ ε σ α} {start : σ} {programs : ι → List κ}
  {threads later : Threads ι κ ε σ α}

theorem Serial.inside (serial : Serial monitor start threads) {thread : ι}
    {call : κ} {point : α} (here : threads.inside thread = some (call, point)) :
    threads.owner = some thread ∧
      (∀ other, other ≠ thread → threads.inside other = none) ∧
      ∃ base, monitor.History start threads.left base ∧
        Exec.Reaches (monitor.step call) (monitor.entry call) base point
          threads.object := by
  cases serial with
  | idle free outside history =>
      rw [outside] at here
      cases here
  | @busy holder _ _ base owned there outside history reaches =>
      by_cases same : thread = holder
      · subst same
        cases here.symm.trans there
        exact ⟨owned, outside, base, history, reaches⟩
      · rw [outside thread same] at here
        cases here

/-- At most one thread is inside a call. -/
theorem Serial.excludes (serial : Serial monitor start threads)
    {thread other : ι} (first : threads.inside thread ≠ none)
    (second : threads.inside other ≠ none) : other = thread := by
  obtain ⟨⟨call, point⟩, here⟩ := Option.ne_none_iff_exists'.mp first
  by_contra different
  exact second ((serial.inside here).2.1 other different)

theorem update_none {inside : ι → Option (κ × α)} {thread : ι}
    {value : Option (κ × α)}
    (outside : ∀ other, other ≠ thread → inside other = none) (other : ι)
    (different : other ≠ thread) :
    Function.update inside thread value other = none := by
  rw [Function.update_of_ne different]
  exact outside other different

theorem Serial.step (serial : Serial monitor start threads)
    (step : Step monitor threads later) : Serial monitor start later := by
  cases step with
  | @lock thread call rest free outside next =>
      cases serial with
      | idle _ outside history =>
          refine .busy rfl (Function.update_self ..) ?_ history .refl
          exact update_none fun other _ => outside other
      | busy owned =>
          rw [free] at owned
          cases owned
  | @move thread call point next reached here moved =>
      obtain ⟨owned, outside, base, history, reaches⟩ := serial.inside here
      refine .busy owned (Function.update_self ..) ?_ history
        (reaches.tail moved)
      exact update_none outside
  | @leave thread call point outcome reached here ends raised =>
      obtain ⟨owned, outside, base, history, reaches⟩ := serial.inside here
      refine .idle rfl ?_ (history.step ⟨_, _, reaches, ends⟩)
      intro other
      by_cases same : other = thread
      · rw [same]
        exact Function.update_self ..
      · exact update_none outside other same

theorem Step.callsOf (step : Step monitor threads later) (thread : ι) :
    later.callsOf thread = threads.callsOf thread := by
  cases step with
  | @lock holder call rest free outside next =>
      by_cases same : thread = holder
      · subst same
        simp [Threads.callsOf, leftBy, outside, next]
      · simp [Threads.callsOf, leftBy, Function.update_of_ne same]
  | @move holder call point next reached here moved =>
      by_cases same : thread = holder
      · subst same
        simp [Threads.callsOf, leftBy, here]
      · simp [Threads.callsOf, leftBy, Function.update_of_ne same]
  | @leave holder call point outcome reached here ends raised =>
      by_cases same : thread = holder
      · subst same
        simp [Threads.callsOf, leftBy, here]
      · simp [Threads.callsOf, leftBy, Function.update_of_ne same,
          Ne.symm same]

namespace Reachable

variable (reachable : Reachable monitor start programs threads)

include reachable

theorem serial : Serial monitor start threads := by
  induction reachable with
  | refl => exact .idle rfl (fun _ => rfl) .start
  | tail _ step ih => exact ih.step step

theorem callsOf (thread : ι) :
    threads.callsOf thread = programs thread := by
  induction reachable with
  | refl => rfl
  | tail _ step ih => exact (step.callsOf thread).trans ih

theorem mem_left {entry : (ι × κ) × Except ε Unit}
    (mem : entry ∈ threads.left) : entry.1.2 ∈ programs entry.1.1 := by
  rw [← Reachable.callsOf reachable, Threads.callsOf, leftBy]
  refine List.mem_append_left _ (List.mem_append_left _ ?_)
  exact List.mem_map_of_mem (List.mem_filter.mpr ⟨mem, decide_eq_true rfl⟩)

theorem mem_inside {thread : ι} {call : κ} {point : α}
    (here : threads.inside thread = some (call, point)) :
    call ∈ programs thread := by
  rw [← Reachable.callsOf reachable, Threads.callsOf, here]
  exact List.mem_append_left _ (List.mem_append_right _ List.mem_cons_self)

/-- While the lock is free, the object is what the calls make of it one after
the other. -/
theorem history (free : threads.owner = none) :
    monitor.History start threads.left threads.object := by
  cases reachable.serial with
  | idle _ _ history => exact history
  | busy owned =>
      rw [free] at owned
      cases owned

theorem outside (free : threads.owner = none) (thread : ι) :
    threads.inside thread = none := by
  cases reachable.serial with
  | idle _ outside => exact outside thread
  | busy owned =>
      rw [free] at owned
      cases owned

/-- While the lock is free, each thread has left the first of its calls. -/
theorem leftBy_append (free : threads.owner = none) (thread : ι) :
    threads.leftBy thread ++ threads.program thread = programs thread := by
  have calls := Reachable.callsOf reachable thread
  rw [Threads.callsOf, reachable.outside free thread] at calls
  simpa using calls

end Reachable

theorem Reachable.inside (reachable : Reachable monitor start programs threads)
    (free : threads.owner = none) {thread : ι} {call : κ} {rest : List κ}
    (next : threads.program thread = call :: rest) {point : α} {reached : σ}
    (reaches : Exec.Reaches (monitor.step call) (monitor.entry call)
      threads.object point reached) :
    Reachable monitor start programs
      { object := reached
        owner := some thread
        inside := Function.update threads.inside thread (some (call, point))
        program := Function.update threads.program thread rest
        left := threads.left } := by
  induction reaches with
  | refl => exact reachable.tail (.lock free (reachable.outside free thread) next)
  | @tail point further state reached before moved ih =>
      have entered := ih.tail (.move (Function.update_self ..) moved)
      rwa [Function.update_idem] at entered

/-- A thread can make its next call without being disturbed. -/
theorem Reachable.complete (reachable : Reachable monitor start programs threads)
    (free : threads.owner = none) {thread : ι} {call : κ} {rest : List κ}
    (next : threads.program thread = call :: rest) {outcome : Except ε Unit}
    {after : σ} (completes : monitor.Completes threads.object call outcome after)
    (raised : ∀ stop, outcome = .error stop → monitor.raises stop) :
    Reachable monitor start programs
      { threads with
        object := after
        owner := none
        program := Function.update threads.program thread rest
        left := threads.left ++ [((thread, call), outcome)] } := by
  obtain ⟨point, reached, reaches, ends⟩ := completes
  have final := (reachable.inside free next reaches).tail
    (.leave (Function.update_self ..) ends raised)
  rwa [Function.update_idem, ← reachable.outside free thread,
    Function.update_eq_self] at final

/-- A thread that holds the lock is at a stop which does not release it. -/
def Dead (monitor : Monitor κ ε σ α) (threads : Threads ι κ ε σ α) : Prop :=
  ∃ thread call point stop, threads.inside thread = some (call, point) ∧
    (monitor.step call point threads.object).1 = .error stop ∧
    ¬ monitor.raises stop

def Finished (threads : Threads ι κ ε σ α) : Prop :=
  ∀ thread, threads.inside thread = none ∧ threads.program thread = []

/-- The threads never wait for each other in vain. -/
theorem Reachable.progress
    (reachable : Reachable monitor start programs threads)
    (alive : ¬ Dead monitor threads) :
    (∃ later, Step monitor threads later) ∨ Finished threads := by
  cases reachable.serial with
  | idle free outside =>
      by_cases done : ∀ thread, threads.program thread = []
      · exact .inr fun thread => ⟨outside thread, done thread⟩
      · obtain ⟨thread, more⟩ := not_forall.mp done
        obtain ⟨call, rest, next⟩ := List.exists_cons_of_ne_nil more
        exact .inl ⟨_, .lock free (outside thread) next⟩
  | @busy thread call point _ _ here =>
      refine .inl ?_
      rcases ran : monitor.step call point threads.object with
        ⟨stop | _ | next, reached⟩
      · refine ⟨_, .leave here (.stop ran) fun other same => ?_⟩
        cases same
        by_contra fatal
        exact alive ⟨thread, call, point, stop, here, by rw [ran], fatal⟩
      · exact ⟨_, .leave here (.done ran) nofun⟩
      · exact ⟨_, .move here ran⟩

section Finite

variable [Fintype ι] (rank : α → Nat) (limit : Nat)

def remaining (threads : Threads ι κ ε σ α) (thread : ι) : Nat :=
  ((threads.inside thread).map fun here => rank here.2 + 1).getD 0 +
    (limit + 2) * (threads.program thread).length

variable (descends : ∀ {call point next state reached},
    monitor.step call point state = (.ok (some next), reached) →
      rank next < rank point)
  (bounded : ∀ call, rank (monitor.entry call) ≤ limit)

include descends bounded

omit [DecidableEq ι] descends bounded in
theorem sum_remaining_lt (thread : ι)
    (others : ∀ other, other ≠ thread → later.inside other =
      threads.inside other ∧ later.program other = threads.program other)
    (fewer : later.remaining rank limit thread <
      threads.remaining rank limit thread) :
    ∑ thread, later.remaining rank limit thread <
      ∑ thread, threads.remaining rank limit thread := by
  refine Finset.sum_lt_sum (fun other _ => ?_)
    ⟨thread, Finset.mem_univ _, fewer⟩
  by_cases same : other = thread
  · rw [same]
    exact Nat.le_of_lt fewer
  · obtain ⟨inside, program⟩ := others other same
    rw [remaining, remaining, inside, program]

theorem Step.remaining (step : Step monitor threads later) :
    ∑ thread, later.remaining rank limit thread <
      ∑ thread, threads.remaining rank limit thread := by
  cases step with
  | @lock holder call rest free outside next =>
      apply sum_remaining_lt rank limit holder
      · exact fun other different => ⟨Function.update_of_ne different ..,
          Function.update_of_ne different ..⟩
      · have few := bounded call
        simp [Threads.remaining, outside, next, Nat.mul_add]
        omega
  | @move holder call point next reached here moved =>
      apply sum_remaining_lt rank limit holder
      · exact fun other different => ⟨Function.update_of_ne different .., rfl⟩
      · simp [Threads.remaining, here, descends moved]
  | @leave holder call point outcome reached here ends raised =>
      apply sum_remaining_lt rank limit holder
      · exact fun other different => ⟨Function.update_of_ne different .., rfl⟩
      · simp [Threads.remaining, here]

/-- Every schedule comes to an end. -/
theorem finite_schedule (run : Nat → Threads ι κ ε σ α) :
    ∃ time, ¬ Step monitor (run time) (run (time + 1)) := by
  by_contra forever
  rw [not_exists] at forever
  apply not_strictAnti_of_wellFoundedLT fun time =>
    ∑ thread, (run time).remaining rank limit thread
  apply strictAnti_nat_of_succ_lt
  intro time
  exact (not_not.mp (forever time)).remaining rank limit descends bounded

end Finite

end Threads

end UlogCpp
