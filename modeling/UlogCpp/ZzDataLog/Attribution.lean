import UlogCpp.ZzDataLog.Series

namespace UlogCpp

/-! Which subscription ids denote the same series in the next file. -/

namespace ZzDataLog

open SimpleWriter (Call)

structure Denotes (log : ZzDataLog) (id : UInt16) (name : Bytes)
    (multiId : UInt8) : Prop where
  first : (issued log.journal).lookup id = some (name, multiId)
  emitted : ∃ writer, log.writer = some writer ∧
    (Message.addLoggedMessage
      { multiId, msgId := id, messageName := name }).emitted <:+: writer.output

/-- Data that has been accepted starts a new file, in which it is not yet. -/
structure RotatesTo (log : ZzDataLog) (request : Env × Request) (id : UInt16)
    (data : Bytes) (reached : ZzDataLog) : Prop where
  sample : request.2.sample log = some (id, data)
  accepts : ∃ subscription, Accepts log id data subscription
  rotates : Rotates log data
  rotated : Method.rotate request.1 (log.counted data) = (.ok (), reached)

/-- The ids of the file denote the same in the next file. -/
def Survives (self : ZzDataLog) (request : Env × Request) : Prop :=
  ∀ id data reached, RotatesTo self request id data reached →
    ∀ other name multiId, (other, name, multiId) ∈ issued self.journal →
      Denotes reached other name multiId

def Initial (structs : List StructInfo) (log : ZzDataLog) : Prop :=
  ∀ id name multiId, (id, name, multiId) ∈ issued log.journal →
    ∃ struct, structs[id.toNat]? = some struct ∧
      name = struct.messageName ∧ multiId = 0

def RotatesInitial (structs : List StructInfo) (self : ZzDataLog)
    (request : Env × Request) : Prop :=
  ∀ id data subscription, request.2.sample self = some (id, data) →
    Accepts self id data subscription → Rotates self data →
    CanRotate request.1 self → Initial structs self

section Attribution

variable {key keyValue : Bytes} {structs : List StructInfo}
  {self reached : ZzDataLog} {request : Env × Request} {id : UInt16}
  {data : Bytes} {admits : SimpleWriter → UInt16 → Bytes → Prop}

theorem mem_messagesOf {journal : List Entry} {name : Bytes} {multiId : UInt8}
    (mem : (id, name, multiId) ∈ issued journal) :
    .addLoggedMessage { multiId, msgId := id, messageName := name } ∈
      messagesOf journal := by
  obtain ⟨⟨call, outcome⟩, member, is⟩ := List.mem_filterMap.mp mem
  refine List.mem_filterMap.mpr ⟨_, member, ?_⟩
  cases call with
  | writeAddLoggedMessage messageName other =>
      rcases outcome with exception | result
      · cases is
      · cases result with
        | none => cases is
        | some number =>
            cases is
            rfl
  | _ => rcases outcome with exception | result <;> cases is

theorem Recorded.emitted {journal : List Entry} {simple : SimpleWriter}
    {message : Message} (recorded : Recorded admits journal simple)
    (mem : message ∈ messagesOf journal) :
    message.emitted <:+: simple.writer.output := by
  obtain ⟨timestampUs, written⟩ := recorded.output
  obtain ⟨before, after, split⟩ := List.append_of_mem mem
  rw [written, split, List.flatMap_append, List.flatMap_cons]
  refine List.IsInfix.trans ?_ (List.suffix_append _ _).isInfix
  refine List.IsInfix.trans ?_ (List.suffix_append _ _).isInfix
  exact (List.prefix_append _ _).isInfix

theorem mem_of_lookup {list : List (UInt16 × α)} {value : α}
    (found : list.lookup id = some value) : (id, value) ∈ list := by
  obtain ⟨before, after, split, _⟩ := List.lookup_eq_some_iff.mp found
  rw [split]
  exact List.mem_append_right _ List.mem_cons_self

theorem Live.denotes (live : Live key keyValue structs self)
    (some : self.writer ≠ none) (journaled : Journaled admits self)
    {struct : StructInfo} (known : structs[id.toNat]? = .some struct) :
    Denotes self id struct.messageName 0 := by
  obtain ⟨writer, has⟩ := Option.ne_none_iff_exists'.mp some
  refine ⟨live.lookup known, writer, has, ?_⟩
  apply (journaled.current writer has).emitted
  exact mem_messagesOf (mem_of_lookup (live.lookup known))

namespace RotatesTo

variable (session : Session (Live key keyValue structs) self)
  (replays : Replays key keyValue structs)
  (rotatesTo : RotatesTo self request id data reached)

include session replays rotatesTo

theorem renewed :
    CanRotate request.1 self ∧ Live key keyValue structs self ∧
      Renewed request.1 key keyValue structs (self.counted data) reached := by
  have can : CanRotate request.1 (self.counted data) := by
    by_contra cannot
    obtain ⟨failure, other, failed, _⟩ := Method.rotate_cannot cannot
    cases failed.symm.trans rotatesTo.rotated
  obtain ⟨name, file⟩ := can.file
  have some := session.opened name file
  have live := session.live some
  obtain ⟨other, rotated, renewed⟩ :=
    (live.counted data).rotate_ok replays some can
  cases rotated.symm.trans rotatesTo.rotated
  exact ⟨{ can with }, live, renewed⟩

theorem live :
    reached.writer ≠ none ∧ reached.headerComplete = true ∧
      reached.journal = initEntries key keyValue structs ∧
      Live key keyValue structs reached := by
  obtain ⟨_, live, renewed⟩ := rotatesTo.renewed session replays
  exact renewed.live (live.counted data)

end RotatesTo

/-- The ids denote the same in the next file exactly if there are none but for
those of `Init`. -/
theorem call_survives_iff (session : Session (Live key keyValue structs) self)
    (replays : Replays key keyValue structs)
    (journaled : Journaled admits self) :
    Survives self request ↔ RotatesInitial structs self request := by
  constructor
  · intro survives id data subscription sample accepts rotates can
    obtain ⟨name, file⟩ := can.file
    have some := session.opened name file
    obtain ⟨reached, rotated, _⟩ :=
      ((session.live some).counted data).rotate_ok replays some { can with }
    have rotatesTo : RotatesTo self request id data reached :=
      ⟨sample, ⟨subscription, accepts⟩, rotates, rotated⟩
    obtain ⟨_, _, journal, _⟩ := rotatesTo.live session replays
    intro other name multiId mem
    have first := (survives id data reached rotatesTo other name multiId mem).first
    rw [journal, issued_initEntries, lookup_issued _ (Nat.zero_le _),
      Nat.sub_zero] at first
    obtain ⟨struct, known, same⟩ := Option.map_eq_some_iff.mp first
    cases same
    exact ⟨struct, known, rfl, rfl⟩
  · intro initial id data reached rotatesTo other name multiId mem
    obtain ⟨subscription, accepts⟩ := rotatesTo.accepts
    obtain ⟨can, _, _⟩ := rotatesTo.renewed session replays
    obtain ⟨some, _, _, live⟩ := rotatesTo.live session replays
    have recorded : Journaled admits reached := by
      have rotated := @Journaled.rotate _ _ request.1 (journaled.counted data)
      rwa [rotatesTo.rotated] at rotated
    obtain ⟨struct, known, rfl, rfl⟩ := initial id data subscription
      rotatesTo.sample accepts rotatesTo.rotates can other name multiId mem
    exact live.denotes some recorded known

/-! ## What a reader finds -/

/-- The subscription that the data has been checked against is there, with the
same size, in the next file. -/
theorem RotatesTo.fits (session : Session (Live key keyValue structs) self)
    (replays : Replays key keyValue structs)
    (plain : Plain (initEntries key keyValue structs))
    (journaled : Journaled admits self) (initial : Initial structs self)
    (rotatesTo : RotatesTo self request id data reached)
    {subscription : SimpleWriter.Subscription}
    (accepts : Accepts self id data subscription) {writer : Writer}
    (has : reached.writer = some writer) :
    Fits (reached.core writer) id
      (data.take subscription.messageSize.toNat) := by
  obtain ⟨can, live, _⟩ := rotatesTo.renewed session replays
  obtain ⟨_, header, journal, renewed⟩ := rotatesTo.live session replays
  obtain ⟨name, file⟩ := can.file
  obtain ⟨before, had⟩ :=
    Option.ne_none_iff_exists'.mp (session.opened name file)
  have recorded := journaled.current before had
  have tidy := recorded.tidy (live.plain plain)
  have below : id.toNat < (issued self.journal).length := by
    rw [← tidy.counted]
    exact (List.getElem?_eq_some_iff.mp accepts.subscribed).1
  obtain ⟨⟨other, messageName, multiId⟩, named⟩ : ∃ series,
      (issued self.journal)[id.toNat]? = some series :=
    ⟨_, List.getElem?_eq_getElem below⟩
  have same : other = UInt16.ofNat id.toNat := tidy.numbered _ _ named
  rw [UInt16.ofNat_toNat] at same
  obtain ⟨struct, known, rfl, rfl⟩ :=
    initial id messageName multiId (same ▸ List.mem_of_getElem? named)
  have mem := List.mem_of_getElem? known
  have size := live.messageSize plain recorded mem named accepts.subscribed
  have renewedRecorded : Recorded admits reached.journal (reached.core writer) := by
    have rotated := @Journaled.rotate _ _ request.1 (journaled.counted data)
    rw [rotatesTo.rotated] at rotated
    exact rotated.current writer has
  have renewedTidy := renewedRecorded.tidy (renewed.plain plain)
  have renewedNamed : (issued reached.journal)[id.toNat]? =
      some (UInt16.ofNat (0 + id.toNat), struct.messageName, 0) := by
    rw [journal, issued_initEntries, getElem?_issued, known]
    rfl
  have there : id.toNat < reached.subscriptions.length := by
    refine (List.getElem?_eq_some_iff.mp renewedNamed).1.trans_eq ?_
    exact renewedTidy.counted.symm
  have subscribed : reached.subscriptions[id.toNat]? =
      some reached.subscriptions[id.toNat] := List.getElem?_eq_getElem there
  refine ⟨header, _, subscribed, ?_⟩
  rw [List.length_take_of_le accepts.le_length, size]
  exact (renewed.messageSize plain renewedRecorded mem renewedNamed
    subscribed).symm

theorem admissible_fits (session : Session (Live key keyValue structs) self)
    (replays : Replays key keyValue structs)
    (plain : Plain (initEntries key keyValue structs))
    (journaled : Journaled admits self)
    (initial : RotatesInitial structs self request) :
    Journaled.Admissible Fits self request := by
  intro id data sample subscription reached writer accepts made has
  unfold Method.makeRoom at made
  split at made
  next rotates =>
    have rotatesTo : RotatesTo self request id data reached :=
      ⟨sample, ⟨subscription, accepts⟩, rotates, made⟩
    obtain ⟨can, _, _⟩ := rotatesTo.renewed session replays
    have only := initial id data subscription sample accepts rotates can
    exact rotatesTo.fits session replays plain journaled only accepts has
  next =>
    cases made
    exact ⟨accepts.header, subscription, accepts.subscribed,
      List.length_take_of_le accepts.le_length⟩

/-- The data for which the file has been started is written to it. -/
theorem RotatesTo.journal
    (rotatesTo : RotatesTo self request id data reached)
    (returned : (perform request self).1 = .ok none) :
    ∃ subscription, Accepts self id data subscription ∧
      (perform request self).2.journal = reached.journal ++
        [(.writeData id (data.take subscription.messageSize.toNat),
          .ok none)] := by
  obtain ⟨env, request⟩ := request
  have written := writeData_returns rotatesTo.sample returned
  rw [perform_sample rotatesTo.sample]
  rcases Method.writeData_cases env id data self with ⟨reason, refused⟩ |
    ⟨subscription, accepts, same⟩
  · rw [refused] at written
    cases written
  · have made : Method.makeRoom env data self = (.ok (), reached) :=
      (if_pos rotatesTo.rotates).trans rotatesTo.rotated
    rw [same, Exec.bind_ok made] at written ⊢
    refine ⟨subscription, accepts, ?_⟩
    cases has : reached.writer with
    | none =>
        simp only [Method.emitData, has] at written
        cases written
    | some writer =>
        rw [emitData_apply has] at written ⊢
        cases emitted : (Writer.Handle.data
          ⟨id, data.take subscription.messageSize.toNat⟩ writer).1 with
        | error exception =>
            rw [emitted] at written
            cases written
        | ok value => rfl

end Attribution

/-- What a reader makes of the file that is being written: no error, and the
series with its data under the id. -/
def Attributes (log : ZzDataLog) (id : UInt16) (name : Bytes)
    (multiId : UInt8) : Prop :=
  ∀ writer first chunks, log.writer = some writer →
    (first :: chunks).flatten = writer.output → 59 ≤ first.length →
    ∃ reached,
      Reader.readChunks DataContainer.handler (first :: chunks)
        (Reader.init { storageConfig := .fullLog }) = (.ok (), reached) ∧
      reached.delivery.handler.parsingErrors = [] ∧
      reached.delivery.handler.subscriptions.lookup id = some
        { addLoggedMessage := { multiId, msgId := id, messageName := name }
          data := samplesOf log.journal id }

section Attribution

variable {key keyValue : Bytes} {structs : List StructInfo}
  {self reached : ZzDataLog} {requests : List (Env × Request)}

/-- Sessions in which each rotation finds the subscriptions of `Init` only. -/
theorem session_final (replays : Replays key keyValue structs)
    (plain : Plain (initEntries key keyValue structs))
    (later : ∀ request ∈ requests, request.2.isLater = true)
    (session : Session (Live key keyValue structs) self)
    (journaled : Journaled Fits self)
    (initial : Exec.Throughout perform (RotatesInitial structs) requests self) :
    Session (Live key keyValue structs) (Exec.final perform requests self) ∧
      Journaled Fits (Exec.final perform requests self) := by
  refine @Exec.Throughout.final _ _ _ _ _ (fun log =>
    Session (Live key keyValue structs) log ∧ Journaled Fits log) _ _ ?_ _
    ⟨session, journaled⟩ initial
  rintro log request mem ⟨session, journaled⟩ here
  have admissible := admissible_fits session replays plain journaled here
  exact ⟨session.perform (carried_live replays) (later request mem),
    journaled.perform admissible⟩

theorem Live.attributes (live : Live key keyValue structs self)
    (journaled : Journaled Fits self) (readable : Readable self.journal)
    {id : UInt16} {struct : StructInfo}
    (known : structs[id.toNat]? = some struct) :
    Attributes self id struct.messageName 0 := by
  intro writer first chunks has layout sized
  obtain ⟨timestampUs, reads⟩ := (journaled.current writer has).reads readable
  obtain ⟨container, read, errors, all⟩ := reads.container
  obtain ⟨reached, ran, rfl⟩ := read layout sized
  refine ⟨reached, ran, errors, (all id).trans ?_⟩
  rw [series, live.lookup known]
  rfl

theorem Keyless.not_rotatesTo {request : Env × Request} {id : UInt16}
    {data : Bytes} (session : Session Keyless self) :
    ¬ RotatesTo self request id data reached := by
  intro rotatesTo
  by_cases can : CanRotate request.1 (self.counted data)
  · obtain ⟨name, file⟩ := can.file
    have some := session.opened name file
    have keyless : Keyless (self.counted data) := session.live some
    obtain ⟨failure, _, _, _, failed⟩ := keyless.rotate some can
    cases failed.symm.trans rotatesTo.rotated
  · obtain ⟨failure, other, failed, _⟩ := Method.rotate_cannot can
    cases failed.symm.trans rotatesTo.rotated

theorem keyless_of_initWith {constructor : Constructor} {env : Env}
    {zzDataLogOn : Bool} {initParams : InitParams}
    (returned : Method.initWith initParams (constructor.made env zzDataLogOn) =
      (.ok (), reached)) : Session Keyless reached := by
  have new := isNew_made constructor env zzDataLogOn
  obtain ⟨core, rfl, _⟩ := initWith_ok new.subscriptions returned
  refine .of_live nofun ?_
  cases constructor <;> rfl

theorem allStructs_made (constructor : Constructor) (env : Env)
    (zzDataLogOn : Bool) :
    (constructor.made env zzDataLogOn).initParams.allStructs = [] := by
  cases constructor <;> rfl

theorem begun_of_init {constructor : Constructor} {env : Env}
    {zzDataLogOn : Bool}
    (returned : Method.init key keyValue structs
      (constructor.made env zzDataLogOn) = (.ok (), reached)) :
    reached.writer ≠ none ∧ Live key keyValue structs reached ∧
      Replays key keyValue structs ∧
      ∀ {admits : SimpleWriter → UInt16 → Bytes → Prop},
        Journaled admits reached := by
  obtain ⟨some, live, replays⟩ := live_of_init
    (isNew_made constructor env zzDataLogOn)
    (allStructs_made constructor env zzDataLogOn) returned
  refine ⟨some, live, replays, fun {admits} => ?_⟩
  have kept := Journaled.Preserved.elim
    ((@Journaled.Preserved.rules admits).composes.init key keyValue structs)
    (Journaled.made constructor env zzDataLogOn)
  rwa [returned] at kept

theorem Session.final (replays : Replays key keyValue structs)
    (later : ∀ request ∈ requests, request.2.isLater = true)
    (session : Session (Live key keyValue structs) self) :
    Session (Live key keyValue structs)
      (Exec.final ZzDataLog.perform requests self) := by
  apply Exec.final_invariant
  · exact fun mem session =>
      session.perform (carried_live replays) (later _ mem)
  · exact session

/-- The ids of a file are attributed in all later files. -/
theorem attributes_final (replays : Replays key keyValue structs)
    (later : ∀ request ∈ requests, request.2.isLater = true)
    (session : Session (Live key keyValue structs) self)
    (journaled : Journaled Fits self)
    (initial : Exec.Throughout perform (RotatesInitial structs) requests self)
    {earlier rest : List (Env × Request)} {request : Env × Request}
    {id : UInt16} {data : Bytes}
    (split : requests = earlier ++ request :: rest)
    (rotatesTo : RotatesTo (Exec.final perform earlier self) request id data
      reached)
    (readable : Readable (Exec.final perform requests self).journal)
    {other : UInt16} {name : Bytes} {multiId : UInt8}
    (mem : (other, name, multiId) ∈
      issued (Exec.final perform earlier self).journal) :
    Attributes (Exec.final perform requests self) other name multiId := by
  intro writer first chunks has
  have ended := (session.final replays later).live (by rw [has]; nofun)
  obtain ⟨more, same, _⟩ := ended.journal
  have plain : Plain (initEntries key keyValue structs) := by
    rw [same] at readable
    exact readable.earlier.plain
  obtain ⟨_, written⟩ :=
    session_final replays plain later session journaled initial
  rw [split] at initial
  obtain ⟨_, here, _⟩ := Exec.throughout_append.mp initial
  have before := session.final replays fun request among =>
    later request (split ▸ List.mem_append_left _ among)
  obtain ⟨subscription, accepts⟩ := rotatesTo.accepts
  obtain ⟨can, _, _⟩ := rotatesTo.renewed before replays
  obtain ⟨struct, known, rfl, rfl⟩ := here id data subscription
    rotatesTo.sample accepts rotatesTo.rotates can other name multiId mem
  exact ended.attributes written readable known writer first chunks has

end Attribution

/-- After `Init`, each rotation keeps the ids of the file, whatever calls are
made, exactly if there are no subscriptions but those of `Init` where one
succeeds. A reader of a later file then finds the series under its id, and the
data for which the file has been started is in it. -/
theorem throughout_survives_iff {constructor : Constructor} {env : Env}
    {zzDataLogOn : Bool} {made : ZzDataLog} {requests : List (Env × Request)}
    (constructs : Method.construct env constructor { zzDataLogOn } =
      (.ok (), made))
    (later : ∀ request ∈ requests, request.2.isLater = true) :
    (∀ {initEnv : Env} {initParams : InitParams} {begun : ZzDataLog},
      perform (initEnv, .initWith initParams) made = (.ok none, begun) →
      Exec.Throughout perform (fun log request =>
        ∀ id data reached, ¬ RotatesTo log request id data reached)
        requests begun) ∧
    ∀ {initEnv : Env} {key keyValue : Bytes} {structs : List StructInfo}
      {begun : ZzDataLog},
      perform (initEnv, .init key keyValue structs) made = (.ok none, begun) →
      (Exec.Throughout perform Survives requests begun ↔
        Exec.Throughout perform (RotatesInitial structs) requests begun) ∧
      (Exec.Throughout perform (RotatesInitial structs) requests begun →
        ∀ {earlier rest : List (Env × Request)} {request : Env × Request}
          {id : UInt16} {data : Bytes} {reached : ZzDataLog},
          requests = earlier ++ request :: rest →
          let log := Exec.final perform earlier begun
          let last := Exec.final perform requests begun
          RotatesTo log request id data reached →
          ((perform request log).1 = .ok none → ∃ subscription,
            Accepts log id data subscription ∧
            (perform request log).2.journal = reached.journal ++
              [(.writeData id (data.take subscription.messageSize.toNat),
                .ok none)]) ∧
          (Readable last.journal → ∀ other name multiId,
            (other, name, multiId) ∈ issued log.journal →
            Attributes last other name multiId)) := by
  cases construct_ok constructs
  constructor
  · intro initEnv initParams begun begins
    obtain ⟨_, middle, returned, rest⟩ := Exec.bind_eq_ok.mp begins
    cases rest
    refine @Exec.Throughout.of_invariant _ _ _ _ _ (Session Keyless) _ _ ?_ ?_ _
      (keyless_of_initWith returned)
    · exact fun session id data reached => Keyless.not_rotatesTo session
    · intro log request mem session
      exact session.perform carried_keyless (later request mem)
  · intro initEnv key keyValue structs begun begins
    obtain ⟨_, _, returned, rest⟩ := Exec.bind_eq_ok.mp begins
    cases rest
    obtain ⟨some, live, replays, journaled⟩ := begun_of_init returned
    have session : Session (Live key keyValue structs) begun :=
      .of_live some live
    constructor
    · refine @Exec.throughout_iff _ _ _ _ _ (fun log =>
        Session (Live key keyValue structs) log ∧
          Journaled (fun _ _ _ => True) log) _ _ _ ?_ ?_ _
        ⟨session, journaled⟩
      · rintro log request _ ⟨session, journaled⟩
        exact call_survives_iff session replays journaled
      · rintro log request mem ⟨session, journaled⟩ _
        refine ⟨session.perform (carried_live replays) (later request mem), ?_⟩
        exact journaled.perform fun _ _ _ _ _ _ _ _ _ => trivial
    · intro initial earlier rest request id data reached split log last rotatesTo
      refine ⟨rotatesTo.journal, fun readable other name multiId mem => ?_⟩
      exact attributes_final replays later session journaled initial split
        rotatesTo readable mem

theorem throughout_survives_iff_numberedFile :
    Exec.Throughout perform Survives [(fair, .write [109] oversized)]
        (begun numberedFile [timeStruct]) ↔
      Exec.Throughout perform (RotatesInitial [timeStruct])
        [(fair, .write [109] oversized)] (begun numberedFile [timeStruct]) :=
  ((@throughout_survives_iff numberedFile fair true _
      [(fair, .write [109] oversized)] (Prod.ext (by decide +kernel) rfl)
      (List.forall_mem_singleton.mpr rfl)).2
    (Prod.ext (by decide +kernel) rfl)).1

def extended : ZzDataLog :=
  (perform (fair, .common (.writeAddLoggedMessage [109] 1))
    (begun numberedFile [timeStruct])).2

theorem not_survives :
    ¬ ∀ (constructor : Constructor) (env : Env) (zzDataLogOn : Bool)
      (made : ZzDataLog) (initEnv : Env) (key keyValue : Bytes)
      (structs : List StructInfo) (begun : ZzDataLog)
      (requests : List (Env × Request)),
      Method.construct env constructor { zzDataLogOn } = (.ok (), made) →
      perform (initEnv, .init key keyValue structs) made = (.ok none, begun) →
      (∀ request ∈ requests, request.2.isLater = true) →
      Exec.Throughout perform Survives requests begun := by
  intro always
  have begins : Method.init [107] [118] [timeStruct]
      (numberedFile.made fair true) = (.ok (), begun numberedFile [timeStruct]) :=
    Prod.ext (by decide +kernel) rfl
  obtain ⟨_, survives, _⟩ := always numberedFile fair true
    (numberedFile.made fair true) fair [107] [118] [timeStruct]
    (begun numberedFile [timeStruct])
    [(fair, .common (.writeAddLoggedMessage [109] 1)),
      (fair, .write [109] oversized)]
    (Prod.ext (by decide +kernel) rfl) (Prod.ext (by decide +kernel) rfl)
    (List.forall_mem_cons.mpr ⟨rfl, List.forall_mem_singleton.mpr rfl⟩)
  obtain ⟨writes, live, replays⟩ := live_of_init
    (isNew_made numberedFile fair true) rfl begins
  have session : Session (Live [107] [118] [timeStruct]) extended :=
    Session.perform (carried_live replays) (.of_live writes live) rfl
  have journaled : Journaled (fun _ _ _ => True) extended :=
    @Journaled.final _ (numberedFile.made fair true) fair numberedFile true
      (fun _ _ _ => trivial) (Prod.ext (by decide +kernel) rfl)
      [(fair, .init [107] [118] [timeStruct]),
        (fair, .common (.writeAddLoggedMessage [109] 1))]
  have initial := (call_survives_iff session replays journaled).mp survives
  have ready : extended.headerComplete = true ∧
      extended.subscriptions[0]? = some ⟨8⟩ ∧
      extended.currentFileSize = 0 ∧
      extended.zzDataLogOn = true ∧
      extended.idMap.lookup [109] = some 0 ∧
      extended.file = .opened (ascii "a.1.ulg") ∧
      generateNewPathOrFilename extended.initParams.fileName =
        .ok (ascii "a.2.ulg") ∧
      (1, [109], 1) ∈ issued extended.journal := by
    decide +kernel
  obtain ⟨header, subscribed, empty, on, known, file, generated, mem⟩ := ready
  obtain ⟨struct, absent, _⟩ := initial 0 oversized ⟨8⟩
    (sample_oversized on known) (accepts_oversized header subscribed)
    (rotates_oversized empty) ⟨⟨_, file⟩, ⟨_, generated⟩, rfl⟩ 1 [109] 1 mem
  cases absent

end ZzDataLog

end UlogCpp
