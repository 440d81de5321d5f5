import Mathlib.Algebra.GroupWithZero.Nat
import UlogCpp.Data.Exec

namespace UlogCpp

namespace Exec

variable {ε σ α κ : Type} {perform : κ → Exec ε σ α} {allowed : σ → κ → Prop}
  {start : σ}

inductive Run (perform : κ → Exec ε σ α) (allowed : σ → κ → Prop) (start : σ) :
    List (κ × α) → σ → Prop
  | start : Run perform allowed start [] start
  | call {trace : List (κ × α)} {before after : σ} {call : κ} {result : α}
      (run : Run perform allowed start trace before)
      (permitted : allowed before call)
      (returned : perform call before = (.ok result, after)) :
      Run perform allowed start (trace ++ [(call, result)]) after

/-- What holds at the start, and is preserved by each call, holds at the end of
every run. -/
theorem Run.invariant {holds : List (κ × α) → σ → Prop}
    (initial : holds [] start)
    (preserved : ∀ {trace before after call result}, holds trace before →
      allowed before call → perform call before = (.ok result, after) →
      holds (trace ++ [(call, result)]) after)
    {trace : List (κ × α)} {final : σ}
    (run : Run perform allowed start trace final) : holds trace final := by
  induction run with
  | start => exact initial
  | call _ permitted returned ih => exact preserved ih permitted returned

/-! ## Calls that need not return -/

inductive Path (step : σ → κ → α → σ → Prop) (start : σ) :
    List (κ × α) → σ → Prop
  | start : Path step start [] start
  | step {trace : List (κ × α)} {before after : σ} {call : κ} {outcome : α}
      (path : Path step start trace before)
      (next : step before call outcome after) :
      Path step start (trace ++ [(call, outcome)]) after

theorem Path.invariant {step : σ → κ → α → σ → Prop}
    {holds : List (κ × α) → σ → Prop} (initial : holds [] start)
    (preserved : ∀ {trace before after call outcome}, holds trace before →
      step before call outcome after → holds (trace ++ [(call, outcome)]) after)
    {trace : List (κ × α)} {final : σ} (path : Path step start trace final) :
    holds trace final := by
  induction path with
  | start => exact initial
  | step _ next ih => exact preserved ih next

def final (perform : κ → Exec ε σ α) (calls : List κ) (state : σ) : σ :=
  calls.foldl (fun state call => (perform call state).2) state

def outcomes (perform : κ → Exec ε σ α) : List κ → σ → List (κ × Except ε α)
  | [], _ => []
  | call :: calls, state =>
      (call, (perform call state).1) ::
        outcomes perform calls (perform call state).2

theorem outcomes_append (perform : κ → Exec ε σ α) (calls more : List κ)
    (state : σ) :
    outcomes perform (calls ++ more) state =
      outcomes perform calls state ++
        outcomes perform more (final perform calls state) := by
  induction calls generalizing state with
  | nil => rfl
  | cons call calls ih => exact congrArg (_ :: ·) (ih _)

theorem Path.calls {step : σ → κ → Except ε α → σ → Prop}
    (performs : ∀ state call,
      step state call (perform call state).1 (perform call state).2)
    {trace : List (κ × Except ε α)} {state : σ}
    (path : Path step start trace state) (calls : List κ) :
    Path step start (trace ++ outcomes perform calls state)
      (final perform calls state) := by
  induction calls generalizing trace state with
  | nil =>
      rw [outcomes, List.append_nil]
      exact path
  | cons call calls ih =>
      have later := ih (path.step (performs state call))
      rw [List.append_assoc] at later
      exact later

theorem path_outcomes (perform : κ → Exec ε σ α) (calls : List κ) (state : σ) :
    Path (fun before call outcome after => perform call before = (outcome, after))
      state (outcomes perform calls state) (final perform calls state) :=
  Path.calls (fun _ _ => rfl) .start calls

/-- What each call preserves holds where a sequence of calls ends. -/
theorem final_invariant {holds : σ → Prop} {calls : List κ}
    (preserved : ∀ {state call}, call ∈ calls → holds state →
      holds (perform call state).2)
    {state : σ} (initial : holds state) :
    holds (final perform calls state) := by
  induction calls generalizing state with
  | nil => exact initial
  | cons call calls ih =>
      apply ih
      · exact fun mem => preserved (List.mem_cons_of_mem _ mem)
      · exact preserved List.mem_cons_self initial

theorem final_append (perform : κ → Exec ε σ α) (calls more : List κ)
    (state : σ) :
    final perform (calls ++ more) state =
      final perform more (final perform calls state) :=
  List.foldl_append

/-- Every call is made in a state in which it `holds`, wherever the earlier
calls have ended. -/
def Throughout (perform : κ → Exec ε σ α) (holds : σ → κ → Prop) :
    List κ → σ → Prop
  | [], _ => True
  | call :: calls, state =>
      holds state call ∧ Throughout perform holds calls (perform call state).2

theorem Throughout.imp {invariant : σ → Prop} {holds guard : σ → κ → Prop}
    {calls : List κ}
    (implied : ∀ {state call}, call ∈ calls → invariant state →
      holds state call → guard state call)
    (kept : ∀ {state call}, call ∈ calls → invariant state →
      holds state call → invariant (perform call state).2)
    {state : σ} (initial : invariant state)
    (throughout : Throughout perform holds calls state) :
    Throughout perform guard calls state := by
  induction calls generalizing state with
  | nil => trivial
  | cons call calls ih =>
      obtain ⟨held, rest⟩ := throughout
      have here : call ∈ call :: calls := List.mem_cons_self
      refine ⟨implied here initial held, ?_⟩
      apply ih
      · exact fun mem => implied (List.mem_cons_of_mem _ mem)
      · exact fun mem => kept (List.mem_cons_of_mem _ mem)
      · exact kept here initial held
      · exact rest

/-- Two properties hold throughout the same sequences of calls, if they agree
under an invariant that is kept where they hold. -/
theorem throughout_iff {invariant : σ → Prop} {holds guard : σ → κ → Prop}
    {calls : List κ}
    (agree : ∀ {state call}, call ∈ calls → invariant state →
      (holds state call ↔ guard state call))
    (kept : ∀ {state call}, call ∈ calls → invariant state →
      holds state call → invariant (perform call state).2)
    {state : σ} (initial : invariant state) :
    Throughout perform holds calls state ↔
      Throughout perform guard calls state := by
  constructor
  · intro throughout
    exact throughout.imp (fun mem valid => (agree mem valid).mp) kept initial
  · intro throughout
    have keeps : ∀ {state call}, call ∈ calls → invariant state →
        guard state call → invariant (perform call state).2 :=
      fun mem valid guarded => kept mem valid ((agree mem valid).mpr guarded)
    exact throughout.imp (fun mem valid => (agree mem valid).mpr) keeps initial

theorem throughout_append {holds : σ → κ → Prop} {calls more : List κ}
    {state : σ} :
    Throughout perform holds (calls ++ more) state ↔
      Throughout perform holds calls state ∧
        Throughout perform holds more (final perform calls state) := by
  induction calls generalizing state with
  | nil => exact (and_iff_right trivial).symm
  | cons call calls ih => exact (and_congr_right' ih).trans and_assoc.symm

theorem Throughout.of_invariant {invariant : σ → Prop} {holds : σ → κ → Prop}
    {calls : List κ}
    (implied : ∀ {state call}, invariant state → holds state call)
    (kept : ∀ {state call}, call ∈ calls → invariant state →
      invariant (perform call state).2)
    {state : σ} (initial : invariant state) :
    Throughout perform holds calls state := by
  induction calls generalizing state with
  | nil => trivial
  | cons call calls ih =>
      refine ⟨implied initial, ?_⟩
      apply ih
      · exact fun mem => kept (List.mem_cons_of_mem _ mem)
      · exact kept List.mem_cons_self initial

theorem Throughout.final {invariant : σ → Prop} {holds : σ → κ → Prop}
    {calls : List κ}
    (kept : ∀ {state call}, call ∈ calls → invariant state →
      holds state call → invariant (perform call state).2)
    {state : σ} (initial : invariant state)
    (throughout : Throughout perform holds calls state) :
    invariant (final perform calls state) := by
  induction calls generalizing state with
  | nil => exact initial
  | cons call calls ih =>
      obtain ⟨held, rest⟩ := throughout
      apply ih
      · exact fun mem => kept (List.mem_cons_of_mem _ mem)
      · exact kept List.mem_cons_self initial held
      · exact rest

/-! ## Properties of each entry of a trace -/

/-- What holds of each entry of a trace, given those before it. -/
def Everywhere {β : Type} (holds : List β → β → Prop) (trace : List β) : Prop :=
  ∀ {earlier entry later}, trace = earlier ++ entry :: later →
    holds earlier entry

theorem everywhere_concat {β : Type} {holds : List β → β → Prop} {trace : List β}
    {last : β} :
    Everywhere holds (trace ++ [last]) ↔
      Everywhere holds trace ∧ holds trace last := by
  constructor
  · intro everywhere
    refine ⟨fun {earlier entry later} same => ?_, everywhere rfl⟩
    apply @everywhere earlier entry (later ++ [last])
    rw [same, List.append_assoc]
    rfl
  · rintro ⟨before, here⟩ earlier entry later same
    rcases List.eq_nil_or_concat later with rfl | ⟨middle, final, rfl⟩
    · obtain ⟨rfl, only⟩ := List.append_inj' same rfl
      cases only
      exact here
    · rw [List.concat_eq_append, ← List.cons_append, ← List.append_assoc] at same
      exact before (List.append_inj' same rfl).1

/-! ## Runs that are computed -/

def replay (perform : κ → Exec ε σ α) (state : σ) (trace : List (κ × α)) : σ :=
  trace.foldl (fun state entry => (perform entry.1 state).2) state

def Replays (perform : κ → Exec ε σ α) (allowed : σ → κ → Prop) :
    List (κ × α) → σ → Prop
  | [], _ => True
  | (call, result) :: trace, state =>
      allowed state call ∧ (perform call state).1 = .ok result ∧
        Replays perform allowed trace (perform call state).2

instance decidableReplays [DecidableEq (Except ε α)]
    [∀ state call, Decidable (allowed state call)] :
    (trace : List (κ × α)) → (state : σ) →
      Decidable (Replays perform allowed trace state)
  | [], _ => .isTrue trivial
  | (call, _) :: trace, state =>
      have := decidableReplays trace (perform call state).2
      inferInstanceAs (Decidable (_ ∧ _ ∧ _))

theorem Run.replay {trace more : List (κ × α)} {state : σ}
    (run : Run perform allowed start trace state)
    (replays : Replays perform allowed more state) :
    Run perform allowed start (trace ++ more)
      (Exec.replay perform state more) := by
  induction more generalizing trace state with
  | nil =>
      rw [List.append_nil]
      exact run
  | cons entry more ih =>
      obtain ⟨permitted, returned, replays⟩ := replays
      have later := ih (run.call permitted (Prod.ext returned rfl)) replays
      rw [List.append_assoc] at later
      exact later

end Exec

end UlogCpp
