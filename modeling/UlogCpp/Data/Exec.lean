namespace UlogCpp

/-- A program over a state that may stop early. The state reached is kept
whether the program returns a value or stops. -/
def Exec (ε σ α : Type) : Type := σ → Except ε α × σ

namespace Exec

variable {ε σ τ α β : Type}

instance : Monad (Exec ε σ) where
  pure value := fun state => (.ok value, state)
  bind program next := fun state =>
    match program state with
    | (.ok value, reached) => next value reached
    | (.error stop, reached) => (.error stop, reached)

def get : Exec ε σ σ := fun state => (.ok state, state)

def modify (change : σ → σ) : Exec ε σ Unit :=
  fun state => (.ok (), change state)

def throw (stop : ε) : Exec ε σ α := fun state => (.error stop, state)

def lift (result : Except ε α) : Exec ε σ α := fun state => (result, state)

/-- `attempt program handler` runs `handler` from the state in which `program`
stopped, on the stops for which `handler` has an answer. -/
def attempt (program : Exec ε σ α) (handler : ε → Option (Exec ε σ α)) :
    Exec ε σ α := fun state =>
  match program state with
  | (.ok value, reached) => (.ok value, reached)
  | (.error stop, reached) =>
      match handler stop with
      | some recovery => recovery reached
      | none => (.error stop, reached)

def focus (view : τ → σ) (update : σ → τ → τ) (program : Exec ε σ α) :
    Exec ε τ α := fun state =>
  ((program (view state)).1, update (program (view state)).2 state)

@[simp] theorem pure_apply (value : α) (state : σ) :
    (pure value : Exec ε σ α) state = (.ok value, state) := rfl

@[simp] theorem get_apply (state : σ) :
    (get : Exec ε σ σ) state = (.ok state, state) := rfl

@[simp] theorem modify_apply (change : σ → σ) (state : σ) :
    (modify change : Exec ε σ Unit) state = (.ok (), change state) := rfl

@[simp] theorem throw_apply (stop : ε) (state : σ) :
    (throw stop : Exec ε σ α) state = (.error stop, state) := rfl

@[simp] theorem lift_apply (result : Except ε α) (state : σ) :
    (lift result : Exec ε σ α) state = (result, state) := rfl

theorem bind_apply (program : Exec ε σ α) (next : α → Exec ε σ β) (state : σ) :
    (program >>= next) state =
      match program state with
      | (.ok value, reached) => next value reached
      | (.error stop, reached) => (.error stop, reached) := rfl

theorem bind_ok {program : Exec ε σ α} {state reached : σ} {value : α}
    (returned : program state = (.ok value, reached))
    (next : α → Exec ε σ β) :
    (program >>= next) state = next value reached := by
  rw [bind_apply, returned]

theorem apply_of_fst {program : Exec ε σ α} {state : σ} {value : α}
    (outcome : (program state).1 = .ok value) :
    program state = (.ok value, (program state).2) :=
  Prod.ext outcome rfl

theorem bind_error {program : Exec ε σ α} {state reached : σ} {stop : ε}
    (stopped : program state = (.error stop, reached))
    (next : α → Exec ε σ β) :
    (program >>= next) state = (.error stop, reached) := by
  rw [bind_apply, stopped]

@[simp] theorem pure_bind_apply (value : α) (next : α → Exec ε σ β)
    (state : σ) :
    ((pure value : Exec ε σ α) >>= next) state = next value state := rfl

@[simp] theorem get_bind_apply (next : σ → Exec ε σ β) (state : σ) :
    (get >>= next) state = next state state := rfl

@[simp] theorem modify_bind_apply (change : σ → σ) (next : Unit → Exec ε σ β)
    (state : σ) :
    (modify change >>= next) state = next () (change state) := rfl

@[simp] theorem lift_ok_bind_apply (value : α) (next : α → Exec ε σ β)
    (state : σ) :
    ((lift (.ok value) : Exec ε σ α) >>= next) state = next value state := rfl

theorem lift_ok_bind (value : α) (next : α → Exec ε σ β) :
    ((lift (.ok value) : Exec ε σ α) >>= next) = next value := rfl

theorem bind_eq_ok {program : Exec ε σ α} {next : α → Exec ε σ β}
    {state final : σ} {result : β} :
    (program >>= next) state = (.ok result, final) ↔
      ∃ value reached, program state = (.ok value, reached) ∧
        next value reached = (.ok result, final) := by
  rw [bind_apply]
  rcases ran : program state with ⟨_ | value, reached⟩
  · simp
  · constructor
    · intro returned
      exact ⟨value, reached, rfl, returned⟩
    · rintro ⟨_, _, same, returned⟩
      cases same
      exact returned

/-- A sequence stops where its first program stops, or where the second one
does after the first has returned. -/
theorem bind_eq_error {program : Exec ε σ α} {next : α → Exec ε σ β}
    {state final : σ} {stop : ε} :
    (program >>= next) state = (.error stop, final) ↔
      program state = (.error stop, final) ∨
        ∃ value reached, program state = (.ok value, reached) ∧
          next value reached = (.error stop, final) := by
  rw [bind_apply]
  rcases ran : program state with ⟨_ | value, reached⟩
  · simp
  · constructor
    · intro stopped
      exact .inr ⟨value, reached, rfl, stopped⟩
    · rintro (same | ⟨_, _, same, stopped⟩)
      · cases same
      · cases same
        exact stopped

instance : LawfulMonad (Exec ε σ) := LawfulMonad.mk' _
  (by
    intro α program
    funext state
    change (program >>= fun value => pure value) state = program state
    rw [bind_apply]
    rcases program state with ⟨_ | _, _⟩ <;> rfl)
  (fun _ _ => rfl)
  (by
    intro α β γ program next last
    funext state
    simp only [bind_apply]
    rcases program state with ⟨_ | _, _⟩ <;> rfl)

theorem forM_append_eq_ok {program : α → Exec ε σ Unit} {list more : List α}
    {state final : σ} :
    (list ++ more).forM program state = (.ok (), final) ↔
      ∃ reached, list.forM program state = (.ok (), reached) ∧
        more.forM program reached = (.ok (), final) := by
  have split : (list ++ more).forM program =
      (list.forM program >>= fun _ => more.forM program) := List.forM_append
  rw [split]
  constructor
  · intro returned
    obtain ⟨_, reached, first, rest⟩ := bind_eq_ok.mp returned
    exact ⟨reached, first, rest⟩
  · rintro ⟨reached, first, rest⟩
    exact bind_eq_ok.mpr ⟨(), reached, first, rest⟩

theorem forM_cons_eq_ok {program : α → Exec ε σ Unit} {head : α} {tail : List α}
    {state final : σ} :
    (head :: tail).forM program state = (.ok (), final) ↔
      ∃ reached, program head state = (.ok (), reached) ∧
        tail.forM program reached = (.ok (), final) := by
  constructor
  · intro returned
    obtain ⟨_, reached, first, rest⟩ := bind_eq_ok.mp returned
    exact ⟨reached, first, rest⟩
  · rintro ⟨reached, first, rest⟩
    exact bind_eq_ok.mpr ⟨(), reached, first, rest⟩

theorem attempt_ok {program : Exec ε σ α}
    {handler : ε → Option (Exec ε σ α)} {state reached : σ} {value : α}
    (returned : program state = (.ok value, reached)) :
    attempt program handler state = (.ok value, reached) := by
  simp only [attempt, returned]

theorem attempt_caught {program recovery : Exec ε σ α}
    {handler : ε → Option (Exec ε σ α)} {state reached : σ} {stop : ε}
    (stopped : program state = (.error stop, reached))
    (answer : handler stop = some recovery) :
    attempt program handler state = recovery reached := by
  simp only [attempt, stopped, answer]

theorem attempt_uncaught {program : Exec ε σ α}
    {handler : ε → Option (Exec ε σ α)} {state reached : σ} {stop : ε}
    (stopped : program state = (.error stop, reached))
    (answer : handler stop = none) :
    attempt program handler state = (.error stop, reached) := by
  simp only [attempt, stopped, answer]

/-! ## Triples

`Triple before program after stopped` is the partial correctness triple with
one postcondition for each way in which a program can end. -/

def Triple (before : σ → Prop) (program : Exec ε σ α)
    (after : α → σ → Prop) (stopped : ε → σ → Prop) : Prop :=
  ∀ state, before state →
    match program state with
    | (.ok value, reached) => after value reached
    | (.error stop, reached) => stopped stop reached

namespace Triple

variable {before middle : σ → Prop} {after : α → σ → Prop}
  {stopped : ε → σ → Prop}

theorem ok {program : Exec ε σ α} {state reached : σ} {value : α}
    (triple : Triple before program after stopped) (holds : before state)
    (returned : program state = (.ok value, reached)) :
    after value reached := by
  have outcome := triple state holds
  rw [returned] at outcome
  exact outcome

theorem error {program : Exec ε σ α} {state reached : σ} {stop : ε}
    (triple : Triple before program after stopped) (holds : before state)
    (ended : program state = (.error stop, reached)) :
    stopped stop reached := by
  have outcome := triple state holds
  rw [ended] at outcome
  exact outcome

theorem intro {program : Exec ε σ α}
    (returns : ∀ state value reached, before state →
      program state = (.ok value, reached) → after value reached)
    (stops : ∀ state stop reached, before state →
      program state = (.error stop, reached) → stopped stop reached) :
    Triple before program after stopped := by
  intro state holds
  rcases ran : program state with ⟨stop | value, reached⟩
  · exact stops state stop reached holds ran
  · exact returns state value reached holds ran

theorem consequence {program : Exec ε σ α} {stronger : σ → Prop}
    {weaker : α → σ → Prop} {weakerStop : ε → σ → Prop}
    (triple : Triple before program after stopped)
    (strengthen : ∀ state, stronger state → before state)
    (weaken : ∀ value state, after value state → weaker value state)
    (weakenStop : ∀ stop state, stopped stop state → weakerStop stop state) :
    Triple stronger program weaker weakerStop :=
  .intro
    (fun _ _ _ holds returned =>
      weaken _ _ (triple.ok (strengthen _ holds) returned))
    (fun _ _ _ holds ended =>
      weakenStop _ _ (triple.error (strengthen _ holds) ended))

theorem pure (value : α) (holds : ∀ state, before state → after value state) :
    Triple before (pure value : Exec ε σ α) after stopped :=
  fun state ready => holds state ready

theorem get {after : σ → σ → Prop}
    (holds : ∀ state, before state → after state state) :
    Triple before (Exec.get : Exec ε σ σ) after stopped :=
  fun state ready => holds state ready

theorem modify {change : σ → σ} {after : Unit → σ → Prop}
    (holds : ∀ state, before state → after () (change state)) :
    Triple before (Exec.modify change : Exec ε σ Unit) after stopped :=
  fun state ready => holds state ready

theorem throw {stop : ε} (holds : ∀ state, before state → stopped stop state) :
    Triple before (Exec.throw stop : Exec ε σ α) after stopped :=
  fun state ready => holds state ready

theorem bind {program : Exec ε σ α} {next : α → Exec ε σ β}
    {middle : α → σ → Prop} {after : β → σ → Prop}
    (first : Triple before program middle stopped)
    (second : ∀ value, Triple (middle value) (next value) after stopped) :
    Triple before (program >>= next) after stopped := by
  intro state holds
  rw [bind_apply]
  have outcome := first state holds
  rcases ran : program state with ⟨stop | value, reached⟩
  · rwa [ran] at outcome
  · rw [ran] at outcome
    exact second value reached outcome

theorem lift {result : Except ε α}
    (returns : ∀ value, result = .ok value → ∀ state, before state →
      after value state)
    (stops : ∀ stop, result = .error stop → ∀ state, before state →
      stopped stop state) :
    Triple before (lift result : Exec ε σ α) after stopped := by
  intro state holds
  cases result with
  | ok value => exact returns value rfl state holds
  | error stop => exact stops stop rfl state holds

theorem ite {condition : Prop} [Decidable condition]
    {whenTrue whenFalse : Exec ε σ α}
    (positive : condition → Triple before whenTrue after stopped)
    (negative : ¬ condition → Triple before whenFalse after stopped) :
    Triple before (if condition then whenTrue else whenFalse)
      after stopped := by
  by_cases decided : condition
  · rw [if_pos decided]
    exact positive decided
  · rw [if_neg decided]
    exact negative decided

theorem attempt {program : Exec ε σ α} {handler : ε → Option (Exec ε σ α)}
    {raised : ε → σ → Prop}
    (body : Triple before program after raised)
    (caught : ∀ stop recovery, handler stop = some recovery →
      Triple (raised stop) recovery after stopped)
    (uncaught : ∀ stop state, handler stop = none → raised stop state →
      stopped stop state) :
    Triple before (attempt program handler) after stopped := by
  intro state holds
  rcases ran : program state with ⟨stop | value, reached⟩
  · have raisedStop := body.error holds ran
    cases answer : handler stop with
    | none =>
        rw [attempt_uncaught ran answer]
        exact uncaught stop reached answer raisedStop
    | some recovery =>
        rw [attempt_caught ran answer]
        exact caught stop recovery answer reached raisedStop
  · rw [attempt_ok ran]
    exact body.ok holds ran

end Triple

/-! ## What a program keeps, however it ends -/

def Keeps (invariant : σ → Prop) (stops : ε → Prop) (program : Exec ε σ α) :
    Prop :=
  Triple invariant program (fun _ => invariant)
    (fun stop state => stops stop ∧ invariant state)

namespace Keeps

variable {invariant : σ → Prop} {stops : ε → Prop} {program : Exec ε σ α}

theorem intro
    (kept : ∀ state, invariant state →
      (∀ stop, (program state).1 = .error stop → stops stop) ∧
        invariant (program state).2) :
    Keeps invariant stops program := by
  apply Triple.intro
  · intro state value reached holds returned
    have held := (kept state holds).2
    rwa [returned] at held
  · intro state stop reached holds stopped
    obtain ⟨only, held⟩ := kept state holds
    rw [stopped] at only held
    exact ⟨only stop rfl, held⟩

theorem outcome (keeps : Keeps invariant stops program) {state : σ}
    (holds : invariant state) :
    (∀ stop, (program state).1 = .error stop → stops stop) ∧
      invariant (program state).2 := by
  have kept := keeps state holds
  rcases ran : program state with ⟨stop | value, reached⟩
  · rw [ran] at kept
    refine ⟨fun other same => ?_, kept.2⟩
    cases same
    exact kept.1
  · rw [ran] at kept
    exact ⟨nofun, kept⟩

theorem bind {next : α → Exec ε σ β} (first : Keeps invariant stops program)
    (second : ∀ value, Keeps invariant stops (next value)) :
    Keeps invariant stops (program >>= next) :=
  Triple.bind first second

theorem get_bind {next : σ → Exec ε σ α}
    (second : ∀ state, Keeps invariant stops (next state)) :
    Keeps invariant stops (Exec.get >>= next) :=
  fun state => second state state

theorem pure (value : α) :
    Keeps invariant stops (Pure.pure value : Exec ε σ α) :=
  Triple.pure value fun _ => id

theorem modify {change : σ → σ}
    (kept : ∀ state, invariant state → invariant (change state)) :
    Keeps invariant stops (Exec.modify change) :=
  Triple.modify kept

theorem throw {stop : ε} (only : stops stop) :
    Keeps invariant stops (Exec.throw stop : Exec ε σ α) :=
  Triple.throw fun _ holds => ⟨only, holds⟩

theorem lift {result : Except ε α}
    (only : ∀ stop, result = .error stop → stops stop) :
    Keeps invariant stops (lift result : Exec ε σ α) :=
  Triple.lift (fun _ _ _ => id) fun stop same _ holds =>
    ⟨only stop same, holds⟩

theorem ite {condition : Prop} [Decidable condition]
    {whenTrue whenFalse : Exec ε σ α}
    (positive : Keeps invariant stops whenTrue)
    (negative : Keeps invariant stops whenFalse) :
    Keeps invariant stops (if condition then whenTrue else whenFalse) :=
  Triple.ite (fun _ => positive) fun _ => negative

theorem forM {list : List α} {program : α → Exec ε σ Unit}
    (each : ∀ value, Keeps invariant stops (program value)) :
    Keeps invariant stops (list.forM program) := by
  induction list with
  | nil => exact pure ()
  | cons value list ih => exact bind (each value) fun _ => ih

end Keeps

/-! ## Programs on changed states -/

def Commutes (change : σ → σ) (program : Exec ε σ α) : Prop :=
  ∀ state, program (change state) =
    ((program state).1, change (program state).2)

namespace Commutes

variable {change : σ → σ} {program : Exec ε σ α}

theorem ok (commutes : Commutes change program) {state reached : σ} {value : α}
    (returned : program state = (.ok value, reached)) :
    program (change state) = (.ok value, change reached) := by
  rw [commutes, returned]

theorem pure (value : α) :
    Commutes change (Pure.pure value : Exec ε σ α) := fun _ => rfl

theorem throw (stop : ε) : Commutes change (Exec.throw stop : Exec ε σ α) :=
  fun _ => rfl

theorem bind {next : α → Exec ε σ β} (first : Commutes change program)
    (second : ∀ value, Commutes change (next value)) :
    Commutes change (program >>= next) := by
  intro state
  rw [bind_apply, bind_apply, first]
  rcases program state with ⟨stop | value, reached⟩
  · rfl
  · exact second value reached

theorem get_bind {next : σ → Exec ε σ α}
    (blind : ∀ state, next (change state) = next state)
    (second : ∀ state, Commutes change (next state)) :
    Commutes change (Exec.get >>= next) := by
  intro state
  rw [get_bind_apply, get_bind_apply, blind]
  exact second state state

theorem modify {update : σ → σ}
    (swaps : ∀ state, update (change state) = change (update state)) :
    Commutes change (Exec.modify update : Exec ε σ Unit) :=
  fun state => congrArg (Prod.mk _) (swaps state)

theorem ite {condition : Prop} [Decidable condition]
    {whenTrue whenFalse : Exec ε σ α} (positive : Commutes change whenTrue)
    (negative : Commutes change whenFalse) :
    Commutes change (if condition then whenTrue else whenFalse) := by
  split
  · exact positive
  · exact negative

theorem forM {list : List α} {program : α → Exec ε σ Unit}
    (each : ∀ value, Commutes change (program value)) :
    Commutes change (list.forM program) := by
  induction list with
  | nil => exact pure ()
  | cons value list ih => exact bind (each value) fun _ => ih

theorem focus {get : σ → τ} {set : τ → σ → σ} {inner : τ → τ}
    {program : Exec ε τ α} (commutes : Commutes inner program)
    (gets : ∀ state, get (change state) = inner (get state))
    (sets : ∀ value state,
      set (inner value) (change state) = change (set value state)) :
    Commutes change (Exec.focus get set program) := by
  intro state
  unfold Exec.focus
  rw [gets, commutes, sets]

end Commutes

end Exec

end UlogCpp
