import UlogCpp.SimpleWriter.Numbering
import UlogCpp.ZzDataLog.PayloadSize

namespace UlogCpp

/-! The ids of subscriptions in a file of a `zz_data_log`. -/

namespace ZzDataLog

open SimpleWriter (Call Numbered Room)

def WritesWith (log : ZzDataLog) (id : UInt16) (size : UInt32) : Prop :=
  ∀ env data, Method.writeData env id data log = (do
    throwUsageIf (log.headerComplete = false) (ascii "Header not yet complete")
    throwUsageIf (UInt32.ofNat data.length < size)
      (ascii "sizeof(data) is too small")
    Method.makeRoom env data
    Method.emitData id (data.take size.toNat)) log

theorem writesWith_of_subscribed {log : ZzDataLog} {id : UInt16} {size : UInt32}
    (subscribed : log.subscriptions[id.toNat]? = some ⟨size⟩) :
    WritesWith log id size := by
  intro env data
  rw [Method.writeData, Method.writeDataImpl, Exec.get_bind_apply]
  simp only [throwUsageIf, subscribed]
  by_cases header : log.headerComplete = false
  · simp only [if_pos header]
    rfl
  · simp only [if_neg header, Exec.pure_bind_apply]
    by_cases short : UInt32.ofNat data.length < size
    · simp only [if_pos short]
      rfl
    · simp only [if_neg short, Exec.pure_bind_apply, Exec.modify_bind_apply,
        Exec.get_bind_apply]
      rw [Exec.bind_apply, Method.makeRoom]
      by_cases rotates : Rotates log data
      · rw [if_pos rotates]
        exact congrFun (if_pos rotates) _
      · rw [if_neg rotates]
        exact congrFun (if_neg rotates) _

/-- Every id that has been returned is the index of its own subscription, so
that ids are different and lead to the size of their format, exactly if no
subscription has been added to 65536 others. -/
theorem numbered_iff (timestampUs : UInt64) (calls : List Call) :
    (let made := SimpleWriter.constructed timestampUs
      let trace := Exec.outcomes SimpleWriter.perform calls made
      let simple := Exec.final SimpleWriter.perform calls made
      Numbered simple.WritesWith trace simple ↔ Exec.Everywhere Room trace) ∧
    ∀ {constructor : Constructor} {env : Env} {zzDataLogOn : Bool}
      {made : ZzDataLog} {requests : List (Env × Request)} {writer : Writer},
      let log := Exec.final perform requests made
      Method.construct env constructor { zzDataLogOn } = (.ok (), made) →
      log.writer = some writer →
      (Numbered log.WritesWith log.journal (log.core writer) ↔
        Exec.Everywhere Room log.journal) := by
  constructor
  · intro made trace simple
    have recorded := @SimpleWriter.Recorded.calls (fun _ => True)
      (fun _ _ _ => True) (fun _ => trivial) timestampUs calls
    exact recorded.numbers_iff SimpleWriter.writesWith_of_subscribed
  · intro constructor env zzDataLogOn made requests writer log constructs has
    have journaled := @Journaled.final (fun _ _ _ => True) made env constructor
      zzDataLogOn (fun _ _ _ => trivial) constructs requests
    exact (journaled.current writer has).numbers_iff writesWith_of_subscribed

def twofold : List Call :=
  subscribing timeStruct.fields ++ [.writeAddLoggedMessage [109] 1]

def twofoldLog : ZzDataLog :=
  (perform (fair, .common (.writeAddLoggedMessage [109] 1))
    (begun unversioned [timeStruct])).2

theorem numbered_iff_twofold :
    (Numbered (Exec.final SimpleWriter.perform twofold
          (SimpleWriter.constructed 0)).WritesWith
        (Exec.outcomes SimpleWriter.perform twofold
          (SimpleWriter.constructed 0))
        (Exec.final SimpleWriter.perform twofold
          (SimpleWriter.constructed 0)) ↔
      Exec.Everywhere Room (Exec.outcomes SimpleWriter.perform twofold
        (SimpleWriter.constructed 0))) ∧
    ∃ writer, twofoldLog.writer = some writer ∧
      (Numbered twofoldLog.WritesWith twofoldLog.journal
          (twofoldLog.core writer) ↔
        Exec.Everywhere Room twofoldLog.journal) := by
  obtain ⟨writer, has⟩ : ∃ writer, twofoldLog.writer = some writer :=
    Option.isSome_iff_exists.mp (by decide +kernel)
  have numbered := numbered_iff 0 twofold
  refine ⟨numbered.1, writer, has, ?_⟩
  exact @numbered.2 unversioned fair true _
    [(fair, .init [107] [118] [timeStruct]),
      (fair, .common (.writeAddLoggedMessage [109] 1))] writer
    (Prod.ext (by decide +kernel) rfl) has

/-- The id of the subscription after 65536 others is that of the first. -/
theorem not_numbered :
    ¬ Numbered
      (Exec.final SimpleWriter.perform
        (SimpleWriter.subscriptionCalls 65536 ++
          [.writeAddLoggedMessage [109] 0])
        (SimpleWriter.constructed 0)).WritesWith
      (Exec.outcomes SimpleWriter.perform
        (SimpleWriter.subscriptionCalls 65536 ++
          [.writeAddLoggedMessage [109] 0])
        (SimpleWriter.constructed 0))
      (Exec.final SimpleWriter.perform
        (SimpleWriter.subscriptionCalls 65536 ++
          [.writeAddLoggedMessage [109] 0])
        (SimpleWriter.constructed 0)) := by
  have recorded := @SimpleWriter.Recorded.calls (fun _ => True)
    (fun _ _ _ => True) (fun _ => trivial) 0
    (SimpleWriter.subscriptionCalls 65536 ++ [.writeAddLoggedMessage [109] 0])
  rw [recorded.numbers_iff SimpleWriter.writesWith_of_subscribed]
  exact SimpleWriter.not_room_subscriptionCalls (Nat.le_refl _)

end ZzDataLog

end UlogCpp
