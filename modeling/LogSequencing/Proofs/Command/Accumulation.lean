import LogSequencing.Command.Run
import LogSequencing.Proofs.Command.Commitments
import LogSequencing.Proofs.Command.Committing

/-!
# Commands on a data directory

Appends and recoveries that are run one after the other in a fresh data directory. Each of them finds
checkpoints and logs that account for what was committed so far, and leaves such ones behind
(`Visit.step`). So all of them answer with the totals of what was committed, unless an event does not
fit into an entry (`Visit.answerAll_accounts`). This presupposes that no event that they draft
(`Visit.Drafts`) is of 4 GiB or more, so that the 32-bit length of its entry wraps; it would take more
than 70,000,000 records (`Visit.Drafts.isCounted`).
-/

set_option autoImplicit false
set_option relaxedAutoImplicit false

namespace LogSequencing

/-! ### Commands -/

namespace Command

variable {β : Type} [Backend β] {settings : Settings} {store : β} {log : FileLog}
  {partition : PartitionId} {history : PartitionId → List Event} {load : Load}

theorem withReady_of_start {deployment : Deployment β}
    {action : Deployment β → Except Breakdown Counters × β × FileLog}
    (hstart : Deployment.start settings store log partition = .ok (true, deployment)) :
    withReady settings store log partition action = action deployment := by
  simp only [withReady, hstart]

variable [LawfulBackend β]

theorem recoverCounters_eq (h : Standing (LawfulBackend.rows store) log history)
    (hconfig : settings.config.validate = .ok ()) (hpatience : 0 < settings.recoveryTimeout)
    (partition : PartitionId) :
    ∃ after log', recoverCounters settings store log partition =
        (.ok (observed (history partition)), after, log') ∧
      Standing (LawfulBackend.rows after) log' history := by
  obtain ⟨deployment, s, read, hstart, hruns, hpartition, hready, hrows⟩ :=
    Deployment.start_eq h hconfig hpatience partition
  have hrests : deployment.Rests read partition history [] := by
    refine ⟨s, log, hruns, hpartition, hready.toCarries, hready.status ▸ nofun,
      Or.inl hready.settled, ?_⟩
    rw [List.append_nil, Function.update_eq_self]
    exact h.log partition
  obtain ⟨after, log', hstop, hstanding⟩ := hrests.stop (hrows ▸ h.stores) (by
    rw [List.append_nil, Function.update_eq_self]
    exact h.unrepeating)
  rw [List.append_nil, Function.update_eq_self] at hstanding
  have hok : ∀ violation, (Except.ok () : Except Breakdown Unit) ≠ .error (.violation violation) :=
    nofun
  refine ⟨after, log', ?_, hstanding⟩
  rw [recoverCounters, withReady_of_start hstart, Deployment.conclude_eq hstop hok, hruns.counters,
    hready.counters, List.append_nil]
  rfl

theorem commitLoad_eq (h : Standing (LawfulBackend.rows store) log history)
    (hconfig : settings.config.validate = .ok ()) (hpatience : 0 < settings.recoveryTimeout)
    (htime : log.now.IsValid)
    (hcounted : ∀ event, load.Drafts log.now load.events (history partition) event →
      event.IsCounted)
    (hroom : ∀ workspace kind, (observed (history partition)).lastOf workspace kind +
      load.events * load.share workspace kind < 2 ^ 64) :
    ∃ n grown result after log', commitLoad settings store log partition load =
        (result.map fun _ ↦ observed grown, after, log') ∧
      load.Grows (history partition) n grown ∧ load.Ends load.events grown n result ∧
      Standing (LawfulBackend.rows after) log' (Function.update history partition grown) := by
  obtain ⟨deployment, s, read, hstart, hruns, hpartition, hready, hrows⟩ :=
    Deployment.start_eq h hconfig hpatience partition
  rw [← hrows] at h
  obtain ⟨n, new, result, after, log', happend, hgrows, hends, hstanding⟩ :=
    hruns.append hpartition hready h htime hcounted hroom
  refine ⟨n, _, result, after, log', ?_, hgrows, hends, hstanding⟩
  rw [commitLoad, withReady_of_start hstart, happend]

/-- What a command asks to be committed. -/
def asked : Command → Commitments
  | append partition load => [(partition, load)]
  | recover _ | showPoint _ | syncPoint _ => []

/-- An append or a recovery. -/
inductive IsAccountable : Command → Prop
  | append (partition : PartitionId) (load : Load) : IsAccountable (.append partition load)
  | recover (partition : PartitionId) : IsAccountable (.recover partition)

end Command

/-! ### Visits -/

theorem Config.validate_ofText {octets : Octets} {config : Config}
    (h : Config.ofText octets = .ok config) : config.validate = .ok () := by
  unfold Config.ofText at h
  split at h
  · nomatch h
  · rename_i read _
    cases hvalid : read.validate with
    | error error =>
      rw [hvalid] at h
      nomatch h
    | ok =>
      rw [hvalid] at h
      exact Except.ok.inj h ▸ hvalid

/-- A configuration that has been read is valid. -/
theorem Invocation.validate_config {invocation : Invocation}
    {fileContents : String → Except String Octets} {config : Config}
    (h : invocation.config fileContents = .ok config) : config.validate = .ok () := by
  unfold Invocation.config at h
  split at h
  · exact Except.ok.inj h ▸ rfl
  · rename_i path _
    cases hcontents : fileContents path with
    | error reason =>
      rw [hcontents] at h
      nomatch h
    | ok octets =>
      rw [hcontents] at h
      cases htext : octets.toText?.isNone with
      | true =>
        simp [readConfig, Except.mapError, htext, bind, Except.bind, throw, throwThe,
          MonadExceptOf.throw] at h
      | false =>
        cases hread : Config.ofText octets with
        | error error =>
          simp [readConfig, Except.mapError, htext, hread, bind, Except.bind] at h
        | ok read =>
          simp [readConfig, Except.mapError, htext, hread, bind, Except.bind] at h
          exact h ▸ Config.validate_ofText hread

theorem Invocation.run_of_open {invocation : Invocation}
    {fileContents : String → Except String Octets} {directory : DataDirectory} {views after : Database}
    {config : Config} {result : Except Breakdown Json.Value} {log : FileLog}
    (hfree : directory.obstacle? = none) (hviews : directory.views? = some views)
    (hconfig : invocation.config fileContents = .ok config)
    (hrun : invocation.command.run ⟨config, invocation.recoveryTimeout⟩ views directory.log =
      (result, after, log)) :
    invocation.run fileContents directory =
      (result, { directory with views? := some after, log }) := by
  simp only [Invocation.run, DataDirectory.openViews, hfree, hviews, hconfig, hrun]

/-- A data directory whose checkpoints and logs account for what was committed. -/
structure DataDirectory.Reflects (directory : DataDirectory) (committed : Commitments)
    (history : PartitionId → List Event) : Prop where
  free : directory.obstacle? = none
  standing : ∃ views, directory.views? = some views ∧
    Standing (LawfulBackend.rows views) directory.log history
  accounts : Accounts committed history

theorem DataDirectory.reflects_empty (path : String) (now : Instant) :
    (DataDirectory.empty path now).Reflects [] fun _ ↦ [] :=
  ⟨rfl, ⟨.empty, rfl, standing_empty _ now⟩, accounts_nil⟩

/-- Arguments that ask for an append or a recovery, with a valid configuration and some time to recover,
and the moment at which they are given. -/
structure Visit where
  arguments : List String
  fileContents : String → Except String Octets
  now : Instant
  invocation : Invocation
  config : Config
  reads : Invocation.read arguments = .ok invocation
  configures : invocation.config fileContents = .ok config
  isAccountable : invocation.command.IsAccountable
  patience : 0 < invocation.recoveryTimeout
  time : now.IsValid

namespace Visit

/-- How the commands of a visit are carried out. -/
def settings (visit : Visit) : Settings := ⟨visit.config, visit.invocation.recoveryTimeout⟩

/-- What is answered to the arguments, and the data directory afterwards. -/
def answer (visit : Visit) (directory : DataDirectory) : Answer × DataDirectory :=
  respond visit.arguments visit.fileContents
    { directory with log := { directory.log with now := visit.now } }

/-- How a visit ends: with the totals of what is committed by then, or with an event that does not fit
into an entry, while those before it are committed. Where events fit, they have less than 1,700,000
records, and where one does not, more than 1,000,000. -/
inductive Ends (visit : Visit) (committed : Commitments) : Answer → Commitments → Prop
  | recovered {partition : PartitionId} {counters : Counters}
    (hcommand : visit.invocation.command = .recover partition)
    (htotals : Totals (committed.on partition) counters) :
    visit.Ends committed (.ofReport (counters.report partition)) committed
  | appended {partition : PartitionId} {load : Load} {counters : Counters}
    (hcommand : visit.invocation.command = .append partition load)
    (hsmall : 0 < load.events → load.size < 1700000)
    (htotals : Totals (committed.on partition ++ [load]) counters) :
    visit.Ends committed (.ofReport (counters.report partition)) (committed ++ [(partition, load)])
  | stopped {partition : PartitionId} {load : Load} {n : Nat} {event : Event} {error : LogError}
    (hcommand : visit.invocation.command = .append partition load)
    (hcount : n < load.events)
    (hoffset : event.offset.val.toNat = ((committed.on partition).map Load.events).sum + n + 1)
    (hencode : Entry.encode event = .error error) (hlarge : 1000000 < load.size) :
    visit.Ends committed (.ofBreakdown (.failure (.notCommitted event.offset error)))
      (committed ++ [(partition, { load with events := n })])

variable (visit : Visit) {directory : DataDirectory} {committed : Commitments}
  {history : PartitionId → List Event}

theorem settings_valid :
    visit.settings.config.validate = .ok () ∧ 0 < visit.settings.recoveryTimeout :=
  ⟨Invocation.validate_config visit.configures, visit.patience⟩

theorem answer_eq {views after : Database} (hfree : directory.obstacle? = none)
    (hviews : directory.views? = some views) {result : Except Breakdown Json.Value} {log : FileLog}
    (hrun : visit.invocation.command.run visit.settings views
      { directory.log with now := visit.now } = (result, after, log)) :
    visit.answer directory =
      (.ofResult result, { directory with views? := some after, log }) := by
  have hvisit : visit.invocation.run visit.fileContents
      { directory with log := { directory.log with now := visit.now } } =
        (result, { directory with views? := some after, log }) :=
    Invocation.run_of_open hfree hviews visit.configures hrun
  simp only [answer, respond, visit.reads, hvisit]

/-- A visit accounts for what it commits, and commits no more than it was asked to. -/
def AddsUp (directory : DataDirectory) (committed : Commitments) : Prop :=
  ∃ answer after committed' history', visit.answer directory = (answer, after) ∧
    visit.Ends committed answer committed' ∧ after.Reflects committed' history' ∧
    ∀ partition workspace kind, committed'.taken partition workspace kind ≤
      (committed ++ visit.invocation.command.asked).taken partition workspace kind

theorem addsUp_of_recover (h : directory.Reflects committed history) {partition : PartitionId}
    (hcommand : visit.invocation.command = .recover partition) :
    visit.AddsUp directory committed := by
  obtain ⟨views, hviews, hstanding⟩ := h.standing
  have hstanding := hstanding.passTime visit.now
  obtain ⟨hconfig, hpatience⟩ := visit.settings_valid
  obtain ⟨after, log, hrecover, hstanding'⟩ :=
    Command.recoverCounters_eq hstanding hconfig hpatience partition
  have hrun : visit.invocation.command.run visit.settings views
      { directory.log with now := visit.now } =
        (.ok ((observed (history partition)).report partition), after, log) := by
    simp only [hcommand, Command.run, hrecover]
    rfl
  refine ⟨_, _, committed, history, visit.answer_eq h.free hviews hrun, .recovered hcommand ?_,
    ⟨h.free, ⟨after, rfl, hstanding'⟩, h.accounts⟩, fun partition workspace kind ↦ ?_⟩
  · exact h.accounts.totals (hstanding.unrepeating partition).proper
  · rw [Commitments.taken_append]
    exact Nat.le_add_right _ _

theorem addsUp_of_append (h : directory.Reflects committed history) {partition : PartitionId}
    {load : Load} (hcommand : visit.invocation.command = .append partition load)
    (hcounted : ∀ event, load.Drafts visit.now load.events (history partition) event →
      event.IsCounted)
    (hroom : ∀ workspace kind,
      (committed ++ [(partition, load)]).taken partition workspace kind < 2 ^ 64) :
    visit.AddsUp directory committed := by
  obtain ⟨views, hviews, hstanding⟩ := h.standing
  have hstanding := hstanding.passTime visit.now
  obtain ⟨hconfig, hpatience⟩ := visit.settings_valid
  have hroom' (workspace : WorkspaceId) (kind : SequenceKind) :
      (observed (history partition)).lastOf workspace kind +
        load.events * load.share workspace kind < 2 ^ 64 := by
    have hroom := hroom workspace kind
    rwa [Commitments.taken_append, Commitments.taken_singleton, ← h.accounts.lastOf] at hroom
  obtain ⟨n, grown, result, after, log, hcommit, hgrows, hends, hstanding'⟩ :=
    Command.commitLoad_eq hstanding hconfig hpatience visit.time hcounted hroom'
  have hrun : visit.invocation.command.run visit.settings views
      { directory.log with now := visit.now } =
        (result.map fun _ ↦ (observed grown).report partition, after, log) := by
    simp only [hcommand, Command.run, hcommit]
    cases result <;> rfl
  have haccounts := h.accounts.commit hgrows
  have hreflects : DataDirectory.Reflects { directory with views? := some after, log }
      (committed ++ [(partition, { load with events := n })])
      (Function.update history partition grown) :=
    ⟨h.free, ⟨after, rfl, hstanding'⟩, haccounts⟩
  refine ⟨_, _, _, _, visit.answer_eq h.free hviews hrun, ?_, hreflects,
    fun other workspace kind ↦ ?_⟩
  · have htotals := haccounts.totals (hstanding'.unrepeating partition).proper
    rw [Function.update_self, Commitments.on_append_singleton] at htotals
    cases hends with
    | all hsmall => exact .appended hcommand hsmall htotals
    | stopped hcount hnext hencode hlarge =>
      refine .stopped hcommand hcount ?_ hencode hlarge
      rw [hnext.offset_eq, htotals.offset, List.map_append, List.sum_append]
      rfl
  · have hle : n ≤ load.events := by
      cases hends with
      | all => exact Nat.le_refl _
      | stopped hcount => exact Nat.le_of_lt hcount
    rw [hcommand]
    exact Commitments.taken_le_of_le _ _ _ _ hle other

/-- An event that one of the visits drafts: one of its load, behind what the log of the partition holds
by then. -/
inductive Drafts : List Visit → DataDirectory → Event → Prop
  | now {visit : Visit} {visits : List Visit} {directory : DataDirectory} {partition : PartitionId}
    {load : Load} {history : PartitionId → List Event} {event : Event}
    (hcommand : visit.invocation.command = .append partition load)
    (hlog : directory.log.Holds partition none history)
    (hevent : load.Drafts visit.now load.events (history partition) event) :
    Drafts (visit :: visits) directory event
  | later {visit : Visit} {visits : List Visit} {directory : DataDirectory} {event : Event}
    (hevent : Drafts visits (visit.answer directory).2 event) :
    Drafts (visit :: visits) directory event

/-- Up to 70 million records, the length of the entry can be told. -/
theorem Drafts.isCounted {visits : List Visit} {directory : DataDirectory} {event : Event}
    (h : Drafts visits directory event)
    (hsize : ∀ visit ∈ visits, ∀ partition load,
      visit.invocation.command = .append partition load → load.size ≤ 70000000) :
    event.IsCounted := by
  induction h with
  | now hcommand _ hevent =>
    exact hevent.isCounted_of_le (hsize _ List.mem_cons_self _ _ hcommand)
  | later _ ih => exact ih fun visit hvisit ↦ hsize visit (List.mem_cons_of_mem _ hvisit)

theorem step {visits : List Visit} (h : directory.Reflects committed history)
    (hcounted : ∀ event, Drafts (visit :: visits) directory event → event.IsCounted)
    (hroom : ∀ partition workspace kind,
      (committed ++ visit.invocation.command.asked).taken partition workspace kind < 2 ^ 64) :
    visit.AddsUp directory committed := by
  have haccountable := visit.isAccountable
  cases hcommand : visit.invocation.command with
  | recover partition => exact visit.addsUp_of_recover h hcommand
  | append partition load =>
    rw [hcommand] at hroom
    obtain ⟨views, -, hstanding⟩ := h.standing
    refine visit.addsUp_of_append h hcommand (fun event hevent ↦ ?_) (hroom partition)
    exact hcounted event (.now hcommand (hstanding.log partition) hevent)
  | showPoint partition => exact absurd (hcommand ▸ haccountable) nofun
  | syncPoint partition => exact absurd (hcommand ▸ haccountable) nofun

/-! ### One visit after the other -/

/-- What is answered to visits, one after the other, and the data directory after them. -/
def answerAll : List Visit → DataDirectory → List Answer × DataDirectory
  | [], directory => ([], directory)
  | visit :: visits, directory =>
    let (answer, directory) := visit.answer directory
    let (answers, directory) := answerAll visits directory
    (answer :: answers, directory)

/-- What all visits ask to be committed. -/
def asked (visits : List Visit) : Commitments := visits.flatMap (·.invocation.command.asked)

/-- Visits that end one after the other, each with what the ones before it committed. -/
inductive Course : List Visit → Commitments → List Answer → Commitments → Prop
  | done (committed : Commitments) : Course [] committed [] committed
  | next {visit : Visit} {visits : List Visit} {committed between last : Commitments}
    {answer : Answer} {answers : List Answer} (hvisit : visit.Ends committed answer between)
    (hvisits : Course visits between answers last) :
    Course (visit :: visits) committed (answer :: answers) last

theorem run (visits : List Visit) (h : directory.Reflects committed history)
    (hcounted : ∀ event, Drafts visits directory event → event.IsCounted)
    (hroom : ∀ partition workspace kind,
      (committed ++ asked visits).taken partition workspace kind < 2 ^ 64) :
    ∃ last history', Course visits committed (answerAll visits directory).1 last ∧
      (answerAll visits directory).2.Reflects last history' := by
  induction visits generalizing directory committed history with
  | nil => exact ⟨committed, history, .done committed, h⟩
  | cons visit visits ih =>
    have hasked : committed ++ asked (visit :: visits) =
        committed ++ visit.invocation.command.asked ++ asked visits := by
      rw [asked, List.flatMap_cons, List.append_assoc]
      rfl
    rw [hasked] at hroom
    simp only [Commitments.taken_append _ (asked visits)] at hroom
    obtain ⟨answer, after, between, history', hanswer, hends, hafter, hle⟩ := visit.step h hcounted
      fun partition workspace kind ↦
        Nat.lt_of_le_of_lt (Nat.le_add_right _ _) (hroom partition workspace kind)
    have hlater : ∀ event, Drafts visits after event → event.IsCounted := fun event hevent ↦ by
      have hsame : (visit.answer directory).2 = after := congrArg Prod.snd hanswer
      exact hcounted event (.later (hsame ▸ hevent))
    obtain ⟨last, history'', hcourse, hlast⟩ := ih hafter hlater fun partition workspace kind ↦ by
      rw [Commitments.taken_append]
      exact Nat.lt_of_le_of_lt (Nat.add_le_add_right (hle partition workspace kind) _)
        (hroom partition workspace kind)
    simp only [answerAll, hanswer]
    exact ⟨last, history'', .next hends hcourse, hlast⟩

/-- Appends and recoveries in a fresh data directory answer with the totals of what was committed, and
the logs hold the events that were committed, while the numbers they are asked for do not run out and
the length of the entry of each event can be told. -/
theorem answerAll_accounts (path : String) (now : Instant) (visits : List Visit)
    (hcounted : ∀ event, Drafts visits (.empty path now) event → event.IsCounted)
    (hroom : ∀ partition workspace kind,
      (asked visits).taken partition workspace kind < 2 ^ 64) :
    ∃ committed, Course visits [] (answerAll visits (.empty path now)).1 committed ∧
      ∀ partition, ∃ events,
        (answerAll visits (.empty path now)).2.log.Records partition (committed.on partition)
          events := by
  obtain ⟨committed, history, hcourse, hreflects⟩ :=
    run visits (DataDirectory.reflects_empty path now) hcounted hroom
  obtain ⟨views, -, hstanding⟩ := hreflects.standing
  exact ⟨committed, hcourse, fun partition ↦
    ⟨_, hreflects.accounts.records (hstanding.log partition) (hstanding.unrepeating partition)⟩⟩

/-- Arguments that append to the first partition and have all else as it is by default. -/
def appending (arguments : List String) (load : Load)
    (hreads : Invocation.read ("append" :: "--partition" :: "1" :: arguments) =
      .ok ⟨"./seqengine-data", none, 30, .append ⟨1⟩ load⟩) : Visit where
  arguments := "append" :: "--partition" :: "1" :: arguments
  fileContents _ := .error "missing"
  now := .ofMilliseconds 0
  invocation := ⟨"./seqengine-data", none, 30, .append ⟨1⟩ load⟩
  config := .default
  reads := hreads
  configures := rfl
  isAccountable := .append _ _
  patience := show (0 : UInt64) < 30 by decide
  time := by decide

/-- An append to the first partition and then its recovery. -/
def appendThenRecover : List Visit := [
  appending ["--workspace", "0", "--events", "2", "--records", "3", "--compacting", "1"]
    ⟨.null, 2, 3, 1⟩ rfl,
  { arguments := ["recover", "--partition", "1"]
    fileContents := fun _ ↦ .error "missing"
    now := .ofMilliseconds 1
    invocation := ⟨"./seqengine-data", none, 30, .recover ⟨1⟩⟩
    config := .default
    reads := rfl
    configures := rfl
    isAccountable := .recover _
    patience := by decide
    time := by decide }]

theorem appendThenRecover_accounts :
    (∀ event, Drafts appendThenRecover (.empty "data" (.ofMilliseconds 0)) event →
      event.IsCounted) ∧
    (∀ partition workspace kind, (asked appendThenRecover).taken partition workspace kind < 2 ^ 64) ∧
    ∃ committed,
      Course appendThenRecover []
        (answerAll appendThenRecover (.empty "data" (.ofMilliseconds 0))).1 committed ∧
      ∀ partition, ∃ events,
        (answerAll appendThenRecover (.empty "data" (.ofMilliseconds 0))).2.log.Records partition
          (committed.on partition) events := by
  have hcounted : ∀ event, Drafts appendThenRecover (.empty "data" (.ofMilliseconds 0)) event →
      event.IsCounted := by
    refine fun event hevent ↦ hevent.isCounted fun visit hvisit partition load hcommand ↦ ?_
    rcases List.mem_pair.mp hvisit with rfl | rfl
    · obtain ⟨-, rfl⟩ := Command.append.inj hcommand
      decide
    · nomatch hcommand
  have hroom : ∀ partition workspace kind,
      (asked appendThenRecover).taken partition workspace kind < 2 ^ 64 := by
    intro partition workspace kind
    have hasked : asked appendThenRecover = [(⟨1⟩, ⟨.null, 2, 3, 1⟩)] := rfl
    rw [hasked]
    exact Nat.lt_of_le_of_lt (Commitments.taken_singleton_le ..) (by decide)
  exact ⟨hcounted, hroom,
    answerAll_accounts "data" (.ofMilliseconds 0) appendThenRecover hcounted hroom⟩

/-- An append of one event with 1,700,000 records, which do not fit into an entry. -/
def oversized : Visit :=
  appending ["--workspace", "1", "--records", "1700000"] ⟨⟨1⟩, 1, 1700000, 0⟩ rfl

/-- An append in a fresh data directory need not print any counters. -/
theorem oversized_answer_ne : ¬ ∃ report : Json.Value,
    (oversized.answer (.empty "data" (.ofMilliseconds 0))).1 = .ofReport report := by
  rintro ⟨report, hequal⟩
  have hcommand : oversized.invocation.command = .append ⟨1⟩ ⟨⟨1⟩, 1, 1700000, 0⟩ := rfl
  have hcounted : ∀ event, Drafts [oversized] (.empty "data" (.ofMilliseconds 0)) event →
      event.IsCounted := by
    refine fun event hevent ↦ hevent.isCounted fun visit hvisit partition load happend ↦ ?_
    obtain rfl := List.mem_singleton.mp hvisit
    obtain ⟨-, rfl⟩ := Command.append.inj (hcommand.symm.trans happend)
    decide
  have hroom : ∀ partition workspace kind, Commitments.taken
      ([] ++ oversized.invocation.command.asked) partition workspace kind < 2 ^ 64 := by
    intro partition workspace kind
    exact Nat.lt_of_le_of_lt (Commitments.taken_singleton_le ..) (by decide)
  obtain ⟨answer, after, committed, history, hanswer, hends, -⟩ :=
    oversized.step (DataDirectory.reflects_empty "data" (.ofMilliseconds 0)) hcounted hroom
  rw [hanswer] at hequal
  cases hends with
  | recovered hrecover => exact absurd (hcommand.symm.trans hrecover) nofun
  | appended happend hsmall =>
    obtain ⟨-, rfl⟩ := Command.append.inj (hcommand.symm.trans happend)
    exact absurd (hsmall (by decide)) (by decide)
  | stopped =>
    have hcodes : (1 : UInt32) ≠ 0 := by decide
    exact hcodes (congrArg Answer.code hequal)

end Visit

end LogSequencing
