import UlogCpp.ZzDataLog.Threads

namespace UlogCpp

/-! How often `Write` calls `fsync`. -/

namespace ZzDataLog

section Count

variable {τ : Type} [DecidableEq τ] {call : WriteCall τ}
  {before after : Shared τ} {outcome : Except Failure Unit}

def Flushable (log : ZzDataLog) : Prop :=
  log.writer = none ∨ log.file ≠ .closed

namespace Flushable

variable {self : ZzDataLog} {env : Env}

theorem rules : Rules Flushable fun _ => True where
  stopped _ := trivial
  modify {change} same := Exec.Keeps.modify fun log flushable => by
    have views := same log
    simp only [view, Prod.mk.injEq] at views
    rw [Flushable, views.1, views.2.1]
    exact flushable
  shared {α call method report} _ _ := by
    apply Exec.Keeps.intro
    intro log flushable
    refine ⟨fun _ _ => trivial, ?_⟩
    cases has : log.writer with
    | none =>
        rw [shared_null has]
        exact flushable
    | some writer =>
        rw [shared_apply has]
        rcases flushable with none | opened
        · rw [has] at none
          cases none
        · exact .inr opened

theorem emitData (flushable : Flushable self) (id : UInt16) (data : Bytes) :
    Flushable (Method.emitData id data self).2 := by
  cases has : self.writer with
  | none =>
      have same : (Method.emitData id data self).2 = self := by
        simp only [Method.emitData, has]
      rwa [same]
  | some writer =>
      rw [emitData_apply has]
      rcases flushable with none | opened
      · rw [has] at none
        cases none
      · exact .inr opened

theorem rotate (env : Env) (self : ZzDataLog) :
    Flushable (Method.rotate env self).2 := by
  cases file : self.file with
  | null | closed =>
      obtain ⟨failure, _, same⟩ := @Method.rotate_unopened self env (by
        rw [file]
        exact fun _ => nofun)
      rw [same]
      exact .inl rfl
  | opened name =>
      by_cases can : CanRotate env self
      · obtain ⟨_, ⟨newFilename, generated⟩, opens⟩ := can
        rw [Method.rotate_opened file generated opens]
        have reopened : Flushable (self.reopened env name newFilename
            ((self.writer.map Writer.output).getD [])) := .inr nofun
        exact (Exec.Keeps.outcome (rules.composes.initWith _) reopened).2
      · obtain ⟨failure, reached, failed, null, _⟩ := Method.rotate_cannot can
        rw [failed]
        exact .inl null

theorem writeData (flushable : Flushable self) (id : UInt16) (data : Bytes) :
    Flushable (Method.writeData env id data self).2 := by
  rcases Method.writeData_cases env id data self with ⟨reason, refused⟩ |
    ⟨subscription, accepts, same⟩
  · rwa [refused]
  · have roomy : Flushable (Method.makeRoom env data self).2 := by
      unfold Method.makeRoom
      split
      · exact rotate env _
      · exact flushable
    rw [same]
    rcases made : Method.makeRoom env data self with ⟨failure | value, reached⟩
    · rw [made] at roomy
      rwa [Exec.bind_error made]
    · rw [made] at roomy
      rw [Exec.bind_ok made]
      exact roomy.emitData id _

theorem fsync : Exec.Keeps Flushable (fun _ => True) Method.fsync :=
  Exec.Keeps.intro fun log flushable =>
    ⟨fun _ _ => trivial, by rwa [fsync_same]⟩

theorem perform (flushable : Flushable self) (request : Env × Request) :
    Flushable (ZzDataLog.perform request self).2 := by
  obtain ⟨env, request⟩ := request
  cases sample : request.sample self with
  | some pair =>
      rw [perform_sample sample]
      exact flushable.writeData pair.1 pair.2
  | none => exact (rules.perform sample fsync flushable).2

end Flushable

theorem fsync_of_written {env : Env} {log reached : ZzDataLog} {id : UInt16}
    {data : Bytes} (flushable : Flushable log)
    (returned : Method.writeData env id data log = (.ok (), reached)) :
    Method.fsync reached = (.ok (), reached) := by
  have kept := @Flushable.writeData _ env flushable id data
  rw [returned] at kept
  obtain ⟨_, _, _, final, _, _, _, has, _⟩ := writeData_ok returned
  have opened : reached.file ≠ .closed := by
    rcases kept with none | opened
    · rw [has] at none
      cases none
    · exact opened
  rw [Method.fsync, Exec.get_bind_apply]
  cases file : reached.file with
  | closed => exact absurd file opened
  | null | opened name => rfl

/-- At most so many writes have followed on the last `fsync` for the type. -/
def Unsynced (type : τ) (events : List (FileEvent τ)) (limit : Nat) : Prop :=
  ∀ earlier later, events = earlier ++ later → .synced type ∉ later →
    later.count (.wrote type) ≤ limit

theorem Unsynced.concat {type : τ} {events : List (FileEvent τ)}
    {event : FileEvent τ} {limit more : Nat}
    (unsynced : Unsynced type events limit)
    (enough : limit + [event].count (.wrote type) ≤ more) :
    Unsynced type (events ++ [event]) more := by
  intro earlier later same none
  rcases List.eq_nil_or_concat later with rfl | ⟨middle, last, rfl⟩
  · exact Nat.zero_le _
  · rw [List.concat_eq_append] at same none ⊢
    rw [← List.append_assoc] at same
    obtain ⟨before, only⟩ := List.append_inj' same rfl
    cases only
    have few := unsynced earlier middle before fun mem =>
      none (List.mem_append_left _ mem)
    rw [List.count_append]
    exact (Nat.add_le_add_right few _).trans enough

theorem Unsynced.synced {type : τ} (events : List (FileEvent τ)) :
    Unsynced type (events ++ [.synced type]) 0 := by
  intro earlier later same none
  rcases List.eq_nil_or_concat later with rfl | ⟨middle, last, rfl⟩
  · exact Nat.le_refl 0
  · rw [List.concat_eq_append] at same none
    rw [← List.append_assoc] at same
    cases (List.append_inj' same rfl).2
    exact absurd (List.mem_append_right _ List.mem_cons_self) none

structure Counted (type : τ) (initial : Nat) (shared : Shared τ) : Prop where
  count : shared.counts type =
    (initial + shared.events.count (.wrote type)) % 10
  syncs : shared.events.count (.synced type) =
    (initial + shared.events.count (.wrote type)) / 10
  recent : Unsynced type shared.events (shared.counts type)

namespace Counted

variable {type : τ} {initial : Nat} {reached : ZzDataLog}
  (counted : Counted type initial before)

include counted

theorem wrote (same : call.type = type)
    (early : before.counts type + 1 ≠ 10) :
    Counted type initial (before.wrote call reached) := by
  obtain ⟨count, syncs, recent⟩ := counted
  subst same
  have counts : (before.wrote call reached).counts call.type =
      before.counts call.type + 1 := Function.update_self ..
  have wrote : (before.wrote call reached).events.count (.wrote call.type) =
      before.events.count (.wrote call.type) + 1 := by
    simp [Shared.wrote]
  have synced : (before.wrote call reached).events.count (.synced call.type) =
      before.events.count (.synced call.type) := by
    simp [Shared.wrote]
  refine ⟨by omega, by omega, ?_⟩
  rw [counts]
  exact recent.concat (by rw [List.count_singleton_self])

theorem synced (same : call.type = type) (tenth : before.counts type + 1 = 10) :
    Counted type initial
      (((before.wrote call reached).cleared call).synced call) := by
  obtain ⟨count, syncs, recent⟩ := counted
  subst same
  have counts : (((before.wrote call reached).cleared call).synced call).counts
      call.type = 0 := Function.update_self ..
  have wrote : (((before.wrote call reached).cleared call).synced
      call).events.count (.wrote call.type) =
      before.events.count (.wrote call.type) + 1 := by
    simp [Shared.wrote, Shared.cleared, Shared.synced]
  have synced : (((before.wrote call reached).cleared call).synced
      call).events.count (.synced call.type) =
      before.events.count (.synced call.type) + 1 := by
    simp [Shared.wrote, Shared.cleared, Shared.synced]
  refine ⟨by omega, by omega, ?_⟩
  rw [counts]
  exact .synced _

theorem other (different : call.type ≠ type) :
    Counted type initial (before.wrote call reached) ∧
      Counted type initial
        (((before.wrote call reached).cleared call).synced call) := by
  obtain ⟨count, syncs, recent⟩ := counted
  have wrote : Unsynced type (before.wrote call reached).events
      (before.counts type) := recent.concat (by simp [different])
  constructor
  · refine ⟨?_, ?_, ?_⟩ <;>
      simp only [Shared.wrote, Function.update_of_ne different.symm]
    · simp [count, different]
    · simp [syncs, different]
    · exact wrote
  · refine ⟨?_, ?_, ?_⟩ <;>
      simp only [Shared.wrote, Shared.cleared, Shared.synced,
        Function.update_of_ne different.symm]
    · simp [count, different]
    · simp [syncs, different]
    · exact wrote.concat (by simp)

theorem ends {outcome : Except Failure Unit} (flushable : Flushable before.log)
    (ends : call.Ends before outcome after) : Counted type initial after := by
  cases ends with
  | unknown | off | failed => exact ⟨counted.count, counted.syncs, counted.recent⟩
  | written known on returned early =>
      by_cases same : call.type = type
      · exact counted.wrote same (by rwa [← same])
      · exact (counted.other same).1
  | synced known on returned tenth =>
      by_cases same : call.type = type
      · exact counted.synced same (by rwa [← same])
      · exact (counted.other same).2
  | unsynced known on returned tenth dangling =>
      rw [fsync_of_written flushable returned] at dangling
      cases dangling

end Counted

theorem counted_history {ι : Type} {start reached : Shared τ}
    {left : List ((ι × WriteCall τ) × Except Failure Unit)} {type : τ}
    (flushable : Flushable start.log) (few : start.counts type < 10)
    (fresh : start.events = [])
    (history : WriteCall.monitor.History start left reached) :
    Counted type (start.counts type) reached := by
  have initial : Counted type (start.counts type) start := by
    refine ⟨?_, ?_, ?_⟩
    · simp [fresh, Nat.mod_eq_of_lt few]
    · simp [fresh, Nat.div_eq_of_lt few]
    · intro earlier later same _
      rw [fresh] at same
      rw [(List.append_eq_nil_iff.mp same.symm).2]
      exact Nat.zero_le _
  refine (@Exec.Path.invariant _ _ _ _ _ (fun _ shared =>
    Flushable shared.log ∧ Counted type (start.counts type) shared)
      ⟨flushable, initial⟩ ?_ _ _ history).2
  intro left before after call outcome kept completes
  have ends := WriteCall.ends_of_completes completes
  refine ⟨?_, kept.2.ends kept.1 ends⟩
  rw [ends.log]
  exact kept.1.perform _

end Count

end ZzDataLog

end UlogCpp
