import UlogCpp.ZzDataLog.Handles

namespace UlogCpp

/-! `CreateInstance` and `GetInstance`, which share one `zz_data_log` in the
static `instance_`. -/

namespace ZzDataLog

abbrev StaticMethod := Exec Failure (Option ZzDataLog)

inductive StaticCall where
  | createInstance (filename : Bytes) (zzDataLogOn : Bool)
  /-- `GetInstance()`, and a request to what it returns -/
  | getInstance (request : Request)
  deriving DecidableEq

namespace StaticMethod

/-- Where `instance_` is null, it becomes `std::make_shared<zz_data_log>(filename)`.
`ZzDataLogOn_` is not initialised; it is set before it is read. -/
def makeShared (env : Env) (filename : Bytes) : StaticMethod Unit
  | some log => (.ok (), some log)
  | none =>
      match Method.construct env (.file filename) { zzDataLogOn := false } with
      | (.ok (), made) => (.ok (), some made)
      | (.error failure, _) => (.error failure, none)

def createInstance (env : Env) (filename : Bytes) (zzDataLogOn : Bool) :
    StaticMethod Unit :=
  if filename = [] then
    Exec.throw (.raised (.usage (ascii "Filename must not be empty.")))
  else do
    makeShared env filename
    Exec.modify fun static => static.map fun log => { log with zzDataLogOn }

def getInstance : StaticMethod ZzDataLog := do
  let static ← Exec.get
  match static with
  | none =>
      Exec.throw (.raised (.usage (ascii
        "Logger not initialized, please CreateInstance() first.")))
  | some log => return log

def throughInstance (request : Env × Request) :
    StaticMethod (Option UInt16) := do
  let log ← getInstance
  fun _ => ((perform request log).1, some (perform request log).2)

end StaticMethod

def performStatic : Env × StaticCall → StaticMethod (Option UInt16)
  | (env, .createInstance filename zzDataLogOn) => do
      StaticMethod.createInstance env filename zzDataLogOn
      return none
  | (env, .getInstance request) => StaticMethod.throughInstance (env, request)

/-! ## One object -/

def StaticCall.request : StaticCall → Request
  | createInstance filename zzDataLogOn => .createInstance filename zzDataLogOn
  | getInstance request => request

/-- The first call of this kind makes the object. -/
def Creates (call : Env × StaticCall) : Prop :=
  match call.2 with
  | .createInstance filename _ =>
      isValidFilename filename = true ∧ call.1.opens = true
  | .getInstance _ => False

/-- The object that a call makes. -/
def created (call : Env × StaticCall) : Option ZzDataLog :=
  match call.2 with
  | .createInstance filename zzDataLogOn =>
      some ((Constructor.file filename).made call.1 zzDataLogOn)
  | .getInstance _ => none

section Static

variable {call : Env × StaticCall}

theorem performStatic_some (call : Env × StaticCall) (log : ZzDataLog) :
    performStatic call (some log) =
      ((perform (call.1, call.2.request) log).1,
        some (perform (call.1, call.2.request) log).2) := by
  obtain ⟨env, call⟩ := call
  cases call with
  | getInstance request => rfl
  | createInstance filename zzDataLogOn =>
      cases filename <;> rfl

theorem construct_file {env : Env} {filename : Bytes} {zzDataLogOn : Bool}
    (valid : isValidFilename filename = true) (opens : env.opens = true) :
    Method.construct env (.file filename) { zzDataLogOn } =
      (.ok (), (Constructor.file filename).made env zzDataLogOn) := by
  have returned : (Method.construct env (.file filename) { zzDataLogOn }).1 =
      .ok () := by
    simp only [Method.construct, throwUsageIf, valid, Method.openFile, opens,
      Bool.true_eq_false, if_true, if_false, Exec.bind_apply, Exec.pure_apply,
      Exec.modify_apply, Method.newWriter_apply]
  have whole : Method.construct env (.file filename) { zzDataLogOn } =
      (.ok (), (Method.construct env (.file filename) { zzDataLogOn }).2) :=
    Prod.ext returned rfl
  rw [construct_ok whole] at whole
  exact whole

theorem construct_file_error {env : Env} {filename : Bytes} {zzDataLogOn : Bool}
    (invalid : ¬ (isValidFilename filename = true ∧ env.opens = true)) :
    ∃ exception reached, Method.construct env (.file filename) { zzDataLogOn } =
      (.error (.raised exception), reached) := by
  by_cases valid : isValidFilename filename = true
  · have shut : env.opens = false :=
      Bool.eq_false_iff.mpr fun opens => invalid ⟨valid, opens⟩
    refine ⟨.parsing (ascii "Failed to open file"), _, Prod.ext ?_ rfl⟩
    simp only [Method.construct, throwUsageIf, valid, Method.openFile, shut,
      Bool.true_eq_false, Bool.false_eq_true, if_false, Exec.bind_apply,
      Exec.pure_apply, Exec.modify_apply, Exec.throw_apply]
  · have not : isValidFilename filename = false := Bool.eq_false_iff.mpr valid
    rw [Method.construct, throwUsageIf, if_pos not]
    exact ⟨_, _, rfl⟩

theorem performStatic_creates (creates : Creates call) :
    performStatic call none = (.ok none, created call) := by
  obtain ⟨env, call⟩ := call
  cases call with
  | getInstance request => cases creates
  | createInstance filename zzDataLogOn =>
      obtain ⟨valid, opens⟩ := creates
      have nonempty : filename ≠ [] := by
        rintro rfl
        cases valid
      have makes : StaticMethod.makeShared env filename none =
          (.ok (), some ((Constructor.file filename).made env false)) := by
        rw [StaticMethod.makeShared, construct_file valid opens]
      have made : StaticMethod.createInstance env filename zzDataLogOn none =
          (.ok (), some ((Constructor.file filename).made env zzDataLogOn)) := by
        rw [StaticMethod.createInstance, if_neg nonempty, Exec.bind_ok makes]
        rfl
      exact Exec.bind_ok made _

theorem performStatic_none (creates : ¬ Creates call) :
    ∃ exception, performStatic call none =
      (.error (.raised exception), none) := by
  obtain ⟨env, call⟩ := call
  cases call with
  | getInstance request => exact ⟨_, rfl⟩
  | createInstance filename zzDataLogOn =>
      by_cases empty : filename = []
      · subst empty
        exact ⟨_, rfl⟩
      · obtain ⟨exception, reached, failed⟩ :=
          @construct_file_error env filename false creates
        have fails : StaticMethod.makeShared env filename none =
            (.error (.raised exception), none) := by
          rw [StaticMethod.makeShared, failed]
        refine ⟨exception, Exec.bind_error ?_ _⟩
        rw [StaticMethod.createInstance, if_neg empty, Exec.bind_error fails]

theorem static_none {calls : List (Env × StaticCall)}
    (none : ∀ call ∈ calls, ¬ Creates call) :
    Exec.final performStatic calls .none = .none ∧
      ∀ entry ∈ Exec.outcomes performStatic calls .none,
        ∃ exception, entry.2 = .error (.raised exception) := by
  induction calls with
  | nil => exact ⟨rfl, List.forall_mem_nil _⟩
  | cons call calls ih =>
      obtain ⟨here, later⟩ := List.forall_mem_cons.mp none
      obtain ⟨exception, failed⟩ := performStatic_none here
      obtain ⟨final, outcomes⟩ := ih later
      constructor
      · rw [Exec.final, List.foldl_cons, failed]
        exact final
      · rw [Exec.outcomes, failed]
        exact List.forall_mem_cons.mpr ⟨⟨exception, rfl⟩, outcomes⟩

def requests (calls : List (Env × StaticCall)) : List (Env × Request) :=
  calls.map fun call => (call.1, call.2.request)

theorem static_some (calls : List (Env × StaticCall)) (log : ZzDataLog) :
    Exec.final performStatic calls (some log) =
        some (Exec.final perform (requests calls) log) ∧
      (Exec.outcomes performStatic calls (some log)).map Prod.snd =
        (Exec.outcomes perform (requests calls) log).map Prod.snd := by
  induction calls generalizing log with
  | nil => exact ⟨rfl, rfl⟩
  | cons call calls ih =>
      obtain ⟨final, outcomes⟩ :=
        ih (perform (call.1, call.2.request) log).2
      constructor
      · rw [Exec.final, List.foldl_cons, performStatic_some]
        exact final
      · rw [Exec.outcomes, performStatic_some]
        exact congrArg (_ :: ·) outcomes

end Static

/-- `instance_` stays null, and every call throws, up to the first call of
`CreateInstance` with a valid name of a file that can be opened. From then on
there is the one object that it has made, on which all later calls act. -/
theorem static_runs (calls : List (Env × StaticCall)) :
    ((∀ call ∈ calls, ¬ Creates call) →
      Exec.final performStatic calls none = none ∧
      ∀ entry ∈ Exec.outcomes performStatic calls none,
        ∃ exception, entry.2 = .error (.raised exception)) ∧
    ∀ earlier call later, calls = earlier ++ call :: later →
      (∀ other ∈ earlier, ¬ Creates other) → Creates call →
      ∃ made, created call = some made ∧
        Exec.final performStatic calls none =
          some (Exec.final perform (requests later) made) ∧
        (Exec.outcomes performStatic calls none).map Prod.snd =
          (Exec.outcomes performStatic earlier none).map Prod.snd ++
            .ok none ::
              (Exec.outcomes perform (requests later) made).map Prod.snd := by
  refine ⟨static_none, ?_⟩
  rintro earlier call later rfl none creates
  obtain ⟨unset, _⟩ := static_none none
  have here := performStatic_creates creates
  obtain ⟨env, call⟩ := call
  cases call with
  | getInstance request => cases creates
  | createInstance filename zzDataLogOn =>
      obtain ⟨final, outcomes⟩ := static_some later
        ((Constructor.file filename).made env zzDataLogOn)
      refine ⟨_, rfl, ?_, ?_⟩
      · rw [Exec.final_append, unset, Exec.final, List.foldl_cons, here]
        exact final
      · rw [Exec.outcomes_append, unset, Exec.outcomes, here, List.map_append]
        exact congrArg (fun more => _ ++ _ :: more) outcomes

theorem static_runs_numberedFile :
    Exec.final performStatic
        [(fair, .getInstance .fsync),
          (fair, .createInstance (ascii "a.1.ulg") false),
          (fair, .createInstance [98] true)] none =
      some (numberedFile.made fair true) := by
  obtain ⟨made, same, final, _⟩ := (static_runs _).2
    [(fair, .getInstance .fsync)]
    (fair, .createInstance (ascii "a.1.ulg") false)
    [(fair, .createInstance [98] true)] rfl
    (List.forall_mem_singleton.mpr id) ⟨by decide +kernel, rfl⟩
  cases same
  exact final

end ZzDataLog

end UlogCpp
