import BuildOTron.Driver.Placement
import BuildOTron.Driver.Reaper

/-! What a client can reach with its messages: the row of its own run and that
run's metrics. Everything else is as it would be had the client sent nothing, which
is a statement about two runs of the driver. They stay in step because no other task
reads the four columns a report writes; only the reaper's list may hold the run in
one of them, and the scan takes it out again. -/
namespace BuildOTron.Driver
open Transition

variable {id : Nat}

/-! ### Two databases that differ in one run -/

/-- The row once the reaper is through with the runs in its list. -/
def settledRow (stale : List Nat) (id : Nat) (row : RunRow) : RunRow :=
  if id ∈ stale then reapedRow row else row

/-- What other tasks and requests read of a row, besides whether it is queued. -/
def readPart (row : RunRow) : RunRow :=
  { row with state := .pending, completeTime := none, buildResult := none, finalStatus := none }

/-- Rows of one run in two databases, when reapers with these lists are at work. -/
structure Alike (own : Nat) (stale stale' : List Nat) (id : Nat) (row row' : RunRow) : Prop where
  reads : readPart row = readPart row'
  queued : row.state = .pending ↔ row'.state = .pending
  same : id ≠ own → (id ∈ stale ↔ id ∈ stale') → row = row'
  settled : id ≠ own → settledRow stale id row = settledRow stale' id row'

/-- The second row is the first with other values in the four columns of a report. -/
theorem Alike.columns (alike : Alike own stale stale' id row row') :
    row' = { row with state := row'.state, completeTime := row'.completeTime,
                      buildResult := row'.buildResult, finalStatus := row'.finalStatus } := by
  have reads := alike.reads
  cases row
  cases row'
  simp only [readPart, RunRow.mk.injEq] at reads ⊢
  simp [reads]

/-- The metrics of all other runs, without the ids of their rows. -/
def metricsElsewhere (db : Db) (own : Nat) : List MetricRow :=
  (db.metrics.select fun row => row.runId ≠ own).map Prod.snd

/-- The databases differ in one run's row and metrics, and in what is left to reap. -/
structure Elsewhere (own : Nat) (stale stale' : List Nat) (db db' : Db) : Prop where
  runs : Table.Pairs (Alike own stale stale') db.runs db'.runs
  metrics : metricsElsewhere db own = metricsElsewhere db' own
  rest : db' = { db with runs := db'.runs, metrics := db'.metrics }

theorem Alike.refl (own : Nat) (stale : List Nat) (id : Nat) (row : RunRow) :
    Alike own stale stale id row row := ⟨rfl, .rfl, fun _ _ => rfl, fun _ => rfl⟩

theorem Elsewhere.refl (own : Nat) (stale : List Nat) (db : Db) : Elsewhere own stale stale db db :=
  ⟨.refl (Alike.refl own stale) _, rfl, rfl⟩

section Reads
variable {own : Nat} {stale stale' : List Nat} {db db' : Db}

theorem Elsewhere.jobs (elsewhere : Elsewhere own stale stale' db db') : db'.jobs = db.jobs := by
  rw [elsewhere.rest]

theorem Elsewhere.jobById (elsewhere : Elsewhere own stale stale' db db') (id : Nat) :
    db'.jobById id = db.jobById id := by
  rw [elsewhere.rest]
  rfl

theorem Elsewhere.remoteById (elsewhere : Elsewhere own stale stale' db db') (id : Nat) :
    db'.remoteById id = db.remoteById id := by
  rw [elsewhere.rest]
  rfl

theorem Elsewhere.repoById (elsewhere : Elsewhere own stale stale' db db') (id : Nat) :
    db'.repoById id = db.repoById id := by
  rw [elsewhere.rest]
  rfl

theorem Elsewhere.repoIdByRemote (elsewhere : Elsewhere own stale stale' db db') (id : Nat) :
    db'.repoIdByRemote id = db.repoIdByRemote id := by
  rw [elsewhere.rest]
  rfl

theorem Elsewhere.commitSha (elsewhere : Elsewhere own stale stale' db db') (id : Nat) :
    db'.commitSha id = db.commitSha id := by
  rw [elsewhere.rest]
  rfl

theorem Elsewhere.getPendingRuns (elsewhere : Elsewhere own stale stale' db db')
    (hostId : Option Nat) : db'.getPendingRuns hostId = db.getPendingRuns hostId := by
  have queue : ∀ db : Db, db.getPendingRuns hostId =
      ((db.runs.select fun row => row.state = .pending ∧
        (row.hostPreference = hostId ∨ row.hostPreference = none)).map fun row =>
          (⟨row.1, row.2.jobId, row.2.createdTime⟩ : PendingRun)).insertionSort
            fun a b => b.createTime ≤ a.createTime :=
    fun db => List.map_insertionSort _ _ _ _ fun _ _ _ _ => .rfl
  rw [queue, queue, elsewhere.runs.map_select]
  · intro _ a b alike
    rw [decide_eq_decide, alike.queued, alike.columns]
  · intro _ a b alike _
    rw [alike.columns]

theorem Elsewhere.jobsNeeding (elsewhere : Elsewhere own stale stale' db db') (hostId now : Nat) :
    db'.jobsNeedingTaskRunsForHost hostId now = db.jobsNeedingTaskRunsForHost hostId now := by
  have unrun : ∀ jobId, (db'.runs.select fun run => run.jobId = jobId ∧ run.hostId = some hostId).isEmpty =
      (db.runs.select fun run => run.jobId = jobId ∧ run.hostId = some hostId).isEmpty := by
    intro jobId
    have same := elsewhere.runs.map_select (p := fun run => run.jobId = jobId ∧ run.hostId = some hostId)
      (f := Prod.fst) (fun _ a b alike => by rw [alike.columns]) (fun _ _ _ _ _ => rfl)
    simpa using congrArg List.isEmpty same.symm
  simp only [Db.jobsNeedingTaskRunsForHost, elsewhere.jobs, unrun]

theorem Elsewhere.runForToken (elsewhere : Elsewhere own stale stale' db db') (token : String)
    (now : Nat) : db'.runForToken token now = db.runForToken token now := by
  have same := elsewhere.runs.map_select (p := fun row => row.buildToken = some token)
    (f := fun row => (row.1, row.2.artifactsPath, row.2.startedTime, row.2.runTimeout))
    (fun _ a b alike => by rw [alike.columns]) (fun _ a b alike _ => by rw [alike.columns])
  have first := congrArg List.head? same
  simp only [List.head?_map] at first
  unfold Db.runForToken
  cases here : (db.runs.select fun row => row.buildToken = some token).head? <;>
    cases there : (db'.runs.select fun row => row.buildToken = some token).head? <;>
    simp only [here, there, Option.map_some, Option.map_none, reduceCtorEq, Option.some.injEq,
      Prod.mk.injEq] at first ⊢
  obtain ⟨run, path, started, timeout⟩ := first
  simp only [run, path, started, timeout, and_self]

end Reads

section Writes
variable {own : Nat} {stale stale' later later' : List Nat} {db db' : Db}

/-- A statement on the other tables. -/
theorem Elsewhere.frame (elsewhere : Elsewhere own stale stale' db db') (statement : Db → Db)
    (other : ∀ db runs metrics, statement { db with runs := runs, metrics := metrics } =
      { statement db with runs := runs, metrics := metrics }) :
    Elsewhere own stale stale' (statement db) (statement db') := by
  have kept : ∀ db, statement db = { statement db with runs := db.runs, metrics := db.metrics } :=
    fun db => other db db.runs db.metrics
  have runs : ∀ db, (statement db).runs = db.runs := fun db => by rw [kept]
  have metrics : ∀ db, (statement db).metrics = db.metrics := fun db => by rw [kept]
  refine ⟨?_, ?_, ?_⟩
  · rw [runs, runs]
    exact elsewhere.runs
  · simp only [metricsElsewhere, metrics]
    exact elsewhere.metrics
  · rw [runs, metrics]
    exact (congrArg statement elsewhere.rest).trans (other db db'.runs db'.metrics)

/-- The lists may change in runs that are not this one. -/
theorem Alike.relist (alike : Alike own stale stale' id row row') (left : id ∈ later ↔ id ∈ stale)
    (left' : id ∈ later' ↔ id ∈ stale') : Alike own later later' id row row' := by
  refine ⟨alike.reads, alike.queued, ?_, ?_⟩
  · rw [left, left']
    exact alike.same
  · simp only [settledRow, left, left']
    exact alike.settled

/-- One row is written in both databases, each in its own way. -/
theorem Elsewhere.updates (elsewhere : Elsewhere own stale stale' db db') {f g : RunRow → RunRow}
    (here : ∀ row row', db.runs.get? id = some row → Alike own stale stale' id row row' →
      Alike own later later' id (f row) (g row'))
    (away : ∀ other, other ≠ id → ((other ∈ later ↔ other ∈ stale) ∧ (other ∈ later' ↔ other ∈ stale'))) :
    Elsewhere own later later' { db with runs := db.runs.update id f }
      { db' with runs := db'.runs.update id g } := by
  refine ⟨?_, elsewhere.metrics, ?_⟩
  · refine elsewhere.runs.found.update (fun row row' both => here row row' both.1 both.2) ?_
    exact fun other _ _ distinct both =>
      both.2.relist (away other distinct).1 (away other distinct).2
  · rw [elsewhere.rest]

/-- The same write to a row that no reaper is about to write. -/
theorem Elsewhere.update (elsewhere : Elsewhere own stale stale' db db') {f : RunRow → RunRow}
    (free : id ∉ stale) (free' : id ∉ stale')
    (reads : ∀ row row', readPart row = readPart row' → readPart (f row) = readPart (f row'))
    (queued : ∀ row, (f row).state ≠ .pending) :
    Elsewhere own stale stale' { db with runs := db.runs.update id f }
      { db' with runs := db'.runs.update id f } := by
  refine elsewhere.updates ?_ fun _ _ => ⟨.rfl, .rfl⟩
  intro row row' _ alike
  have same : id ≠ own → f row = f row' := fun other =>
    congrArg f (alike.same other (by simp [free, free']))
  refine ⟨reads row row' alike.reads, by simp [queued], fun other _ => same other, ?_⟩
  intro other
  rw [settledRow, if_neg free, settledRow, if_neg free', same other]

theorem Elsewhere.newRun (elsewhere : Elsewhere own stale stale' db db')
    (old : ∀ id ∈ stale, id ≤ db.runs.seq) (old' : ∀ id ∈ stale', id ≤ db'.runs.seq)
    (jobId : Nat) (pref : Option Nat) (now : Nat) :
    Elsewhere own stale stale' (db.newRun jobId pref now).1 (db'.newRun jobId pref now).1 ∧
      (db'.newRun jobId pref now).2 = (db.newRun jobId pref now).2 := by
  have seq := elsewhere.runs.seq
  have fresh : db.runs.seq + 1 ∉ stale := fun member => absurd (old _ member) (by omega)
  have fresh' : db.runs.seq + 1 ∉ stale' := fun member => absurd (old' _ member) (by omega)
  refine ⟨⟨elsewhere.runs.insert ?_, elsewhere.metrics, ?_⟩, ?_⟩
  · refine ⟨rfl, .rfl, fun _ _ => rfl, fun _ => ?_⟩
    rw [settledRow, if_neg fresh, settledRow, if_neg fresh']
  · rw [elsewhere.rest]
    rfl
  · simp only [Db.newRun, seq]

theorem Elsewhere.activate (elsewhere : Elsewhere own stale stale' db db') (client : RunnerClient)
    (offer : Offer) (free : offer.run.id ∉ stale) (free' : offer.run.id ∉ stale') :
    Elsewhere own stale stale' (activate db client offer) (activate db' client offer) := by
  refine elsewhere.update free free' ?_ (by simp)
  intro row row' same
  simp only [readPart, RunRow.mk.injEq] at same ⊢
  simp [same]

theorem Elsewhere.recordStatus (elsewhere : Elsewhere own stale stale' db db') (now : Nat)
    (info : TaskInfo) (free : id ∉ stale) (free' : id ∉ stale') :
    Elsewhere own stale stale' (recordStatus db id now info) (recordStatus db' id now info) := by
  refine elsewhere.update free free' ?_ fun _ => taskResult_ne_pending info
  intro row row' same
  simp only [readPart, RunRow.mk.injEq] at same ⊢
  simp [same]

/-- The client's own report, in one of the two databases. -/
theorem Elsewhere.reported (elsewhere : Elsewhere own stale stale' db db')
    (settled : Settled db own) (now : Nat) (info : TaskInfo) :
    Elsewhere own stale stale' (Driver.recordStatus db own now info) db' := by
  have written : Elsewhere own stale stale'
      { db with runs := db.runs.update own fun row => recordedRow row now info }
      { db' with runs := db'.runs.update own fun row => row } := by
    refine elsewhere.updates ?_ fun _ _ => ⟨.rfl, .rfl⟩
    intro row row' found alike
    obtain ⟨_, found', done⟩ := settled
    cases Option.some.inj (found.symm.trans found')
    have done' : row'.state ≠ .pending := fun queued => done (alike.queued.mpr queued)
    refine ⟨alike.reads, ?_, fun other => absurd rfl other, fun other => absurd rfl other⟩
    simp [recordedRow, taskResult_ne_pending, done']
  rw [Table.update_id] at written
  exact written

/-- The metrics of other runs after one metric is written. -/
theorem metricsElsewhere_insert (db : Db) (runId own : Nat) (name value : String) :
    metricsElsewhere (db.insertMetric runId name value) own =
      if runId = own then metricsElsewhere db own
      else Table.upsertFirst (fun row : MetricRow => decide (row.runId = runId ∧ row.name = name))
        (fun row => { row with value := value }) ⟨runId, name, value⟩ (metricsElsewhere db own) := by
  simp only [metricsElsewhere, Db.insertMetric_eq]
  split
  · rename_i mine
    subst mine
    rw [Table.select_upsert_apart] <;> simp +contextual
  · rename_i other
    refine Table.map_select_upsert _ ?_ (by simpa using other)
    simp +contextual [other]

theorem Elsewhere.insertMetric (elsewhere : Elsewhere own stale stale' db db') (runId : Nat)
    (name value : String) : Elsewhere own stale stale' (db.insertMetric runId name value)
      (db'.insertMetric runId name value) := by
  refine ⟨?_, ?_, ?_⟩
  · simp only [Db.insertMetric_runs]
    exact elsewhere.runs
  · rw [metricsElsewhere_insert, metricsElsewhere_insert, elsewhere.metrics]
  · rw [Db.insertMetric_eq, Db.insertMetric_eq, elsewhere.rest]

/-- The client's own metric, in one of the two databases. -/
theorem Elsewhere.ownMetric (elsewhere : Elsewhere own stale stale' db db') (name value : String) :
    Elsewhere own stale stale' (db.insertMetric own name value) db' := by
  refine ⟨?_, ?_, ?_⟩
  · rw [Db.insertMetric_runs]
    exact elsewhere.runs
  · rw [metricsElsewhere_insert, if_pos rfl, elsewhere.metrics]
  · rw [Db.insertMetric_eq, elsewhere.rest]

end Writes

/-! ### The steps of the driver on both -/

/-- A task that moves in one database moves alike in the other. -/
theorem Elsewhere.taskStep (elsewhere : Elsewhere own stale stale' db db')
    (free : ∀ run, phase.acked? = some run → run ∉ stale ∧ run ∉ stale')
    (old : ∀ id ∈ stale, id ≤ db.runs.seq) (old' : ∀ id ∈ stale', id ≤ db'.runs.seq)
    (moved : taskStep client db phase action = some (next, phase')) :
    ∃ next', taskStep client db' phase action = some (next', phase') ∧
      Elsewhere own stale stale' next next' := by
  cases phase <;> cases action
  case alternateRun.call job now =>
    obtain ⟨queued, same⟩ := elsewhere.newRun old old' job.id (some client.hostId) now
    cases moved
    exact ⟨_, by rw [Driver.taskStep, same], queued⟩
  case started.call offer now =>
    cases moved
    obtain ⟨out, out'⟩ := free offer.run.id rfl
    exact ⟨_, rfl, elsewhere.activate client offer out out'⟩
  case recordResult.call job info now =>
    cases moved
    obtain ⟨out, out'⟩ := free job.task.id rfl
    exact ⟨_, rfl, elsewhere.recordStatus now info out out'⟩
  case metric.upsert job name value keyed =>
    cases keyed <;> cases moved
    · exact ⟨db', rfl, elsewhere⟩
    · exact ⟨_, rfl, elsewhere.insertMetric _ _ _⟩
  case pendingRuns.call runs now =>
    cases runs <;> cases moved
    · exact ⟨db', by rw [Driver.taskStep, elsewhere.jobsNeeding], elsewhere⟩
    · exact ⟨db', by rw [Driver.taskStep, elsewhere.jobById], elsewhere⟩
  case pendingRuns.wrapped runs now =>
    cases runs with
    | cons run rest => contradiction
    | nil =>
      simp only [Driver.taskStep, Option.ite_none_right_eq_some, Option.some.injEq, Prod.mk.injEq] at moved
      obtain ⟨early, rfl, rfl⟩ := moved
      exact ⟨db', if_pos early, elsewhere⟩
  all_goals simp only [Driver.taskStep, reduceCtorEq, Option.some.injEq, Prod.mk.injEq] at moved
  all_goals obtain ⟨rfl, rfl⟩ := moved
  all_goals refine ⟨db', ?_, elsewhere⟩
  all_goals simp only [Driver.taskStep, elsewhere.getPendingRuns, elsewhere.jobById,
    elsewhere.remoteById, elsewhere.repoById, elsewhere.repoIdByRemote, elsewhere.commitSha]

/-- So it is behind the lock, when that is as sound in the one process as in the other. -/
theorem Elsewhere.attempt {s u : State} {task : Task} (elsewhere : Elsewhere own stale stale' s.db u.db)
    (lock : u.poisoned = s.poisoned)
    (free : ∀ run, task.phase.acked? = some run → run ∉ stale ∧ run ∉ stale')
    (old : ∀ id ∈ stale, id ≤ s.db.runs.seq) (old' : ∀ id ∈ stale', id ≤ u.db.runs.seq)
    (moved : s.attempt task action = some (next, phase')) :
    ∃ next', u.attempt task action = some (next', phase') ∧ Elsewhere own stale stale' next next' := by
  simp only [State.attempt, Option.map_eq_some_iff] at moved ⊢
  obtain ⟨⟨db, phase⟩, stepped, same⟩ := moved
  obtain ⟨db', stepped', elsewhere'⟩ := elsewhere.taskStep free old old' stepped
  rw [lock]
  split at same
  · rename_i panics
    cases same
    exact ⟨u.db, ⟨_, stepped', if_pos panics⟩, elsewhere⟩
  · rename_i goes
    cases same
    exact ⟨db', ⟨_, stepped', if_neg goes⟩, elsewhere'⟩

/-- Once in its `ClientJob`, a task is in it to its end. -/
theorem moves_in_job (mine : phase.job? = some own ∨ phase.isOver = true)
    (moves : Moves client db phase action db' next) : next.job? = some own ∨ next.isOver = true := by
  cases moves with
  | ends ended => exact .inr ended
  | reads within => exact .inl (within.trans (mine.resolve_right (by simp [Phase.isOver])))
  | replies | insertMetric | jobById | repoIdByRemote | notifies | records => exact mine
  | _ => simp [Phase.job?, Phase.isOver] at mine

/-- The client's own task, in one of the two databases. -/
theorem Elsewhere.ownMoves (elsewhere : Elsewhere own stale stale' db db') (settled : Settled db own)
    (mine : phase.job? = some own ∨ phase.isOver = true)
    (moves : Moves client db phase action next phase') : Elsewhere own stale stale' next db' := by
  cases moves with
  | insertMetric =>
    obtain same | ended := mine
    · cases same
      exact elsewhere.ownMetric _ _
    · cases ended
  | records =>
    obtain same | ended := mine
    · cases same
      exact elsewhere.reported settled _ _
    · cases ended
  | newRun | activates => simp [Phase.job?, Phase.isOver] at mine
  | _ => exact elsewhere

theorem Elsewhere.handleArtifact (elsewhere : Elsewhere own stale stale' db db')
    (post : ArtifactPost) (now : Nat) (fileCreated : Bool) :
    Elsewhere own stale stale' (handleArtifact db post now fileCreated).1
      (handleArtifact db' post now fileCreated).1 := by
  have checked : checkPost db' post now = checkPost db post now := by
    simp only [checkPost, acceptToken, elsewhere.runForToken]
  simp only [Driver.handleArtifact, checked]
  split
  · exact elsewhere.frame (fun db => (db.insertArtifact _ _ _ now).1) fun _ _ _ => rfl
  · exact elsewhere
  · exact elsewhere

theorem Elsewhere.answerPost (elsewhere : Elsewhere own stale stale' db db') (poisoned : Bool)
    (post : ArtifactPost) (now : Nat) (fileCreated : Bool) :
    Elsewhere own stale stale' (answerPost poisoned db post now fileCreated).1
      (answerPost poisoned db' post now fileCreated).1 := by
  cases poisoned with
  | false => exact elsewhere.handleArtifact post now fileCreated
  | true => exact elsewhere

theorem Elsewhere.outside (elsewhere : Elsewhere own stale stale' db db') (write : Outside)
    (old : ∀ id ∈ stale, id ≤ db.runs.seq) (old' : ∀ id ∈ stale', id ≤ db'.runs.seq) :
    Elsewhere own stale stale' (write.apply db) (write.apply db') := by
  cases write with
  | newRun jobId now => exact (elsewhere.newRun old old' jobId none now).1
  | newJob remoteId sha pusher runPreferences now =>
    refine elsewhere.frame (fun db => Outside.apply db _) fun db runs metrics => ?_
    simp only [Outside.apply, Db.newJob, Db.newCommit]
    by_cases fresh : (db.commits.select fun known => known = sha).isEmpty = true
    · simp only [fresh, if_true]
      exact rfl
    · simp only [fresh, Bool.false_eq_true, if_false]
      exact rfl
  | commitName | newRepo | newRemote =>
    exact elsewhere.frame (fun db => Outside.apply db _) fun _ _ _ => rfl

/-- The rows still to be reaped. -/
def Reaper.stale : Reaper → List Nat
  | .reaping runs => runs.map Run.id
  | _ => []

/-- Reapers whose lists differ in the one run until the scan, and in order after it. -/
inductive Paced (own : Nat) : Reaper → Reaper → Prop where
  | start : Paced own .start .start
  | activeRuns
      (others : (runs.filter fun run => run.id ≠ own) = runs'.filter fun run => run.id ≠ own) :
      Paced own (.activeRuns runs) (.activeRuns runs')
  | unclaimed (same : runs.Perm runs') (distinct : (runs.map Run.id).Nodup) :
      Paced own (.unclaimed runs) (.unclaimed runs')
  | reaping (length : runs.length = runs'.length) (distinct : (runs.map Run.id).Nodup)
      (distinct' : (runs'.map Run.id).Nodup) : Paced own (.reaping runs) (.reaping runs')
  | done : Paced own .done .done

theorem Paced.locks (paced : Paced own reaper reaper') : reaper'.locks = reaper.locks := by
  cases paced with
  | @reaping runs runs' length =>
    cases runs <;> cases runs' <;> first | rfl | contradiction
  | _ => rfl

theorem Elsewhere.getActiveRuns (elsewhere : Elsewhere own [] [] db db') :
    (db.getActiveRuns.filter fun run => run.id ≠ own) =
      db'.getActiveRuns.filter fun run => run.id ≠ own := by
  have others : ∀ db : Db, (db.getActiveRuns.filter fun run => run.id ≠ own) =
      (db.runs.rows.filter fun row => decide (row.1 ≠ own) &&
        decide (row.2.state = .started ∨ row.2.state = .pending)).map fun row =>
          row.2.withId row.1 := by
    intro db
    simp only [Db.getActiveRuns, Table.select, List.filter_map, List.filter_filter]
    rfl
  rw [others, others]
  refine elsewhere.runs.map_filter ?_ ?_
  · intro id row row' alike
    by_cases mine : id = own
    · simp [mine]
    · rw [alike.same mine (by simp)]
  · intro id row row' alike kept
    simp only [Bool.and_eq_true, decide_eq_true_eq] at kept
    rw [alike.same kept.1 (by simp)]

/-- Without the claimed run, the scan leaves the same runs. -/
theorem dropActive_paced {runs runs' : List Run}
    (others : (runs.filter fun run => run.id ≠ own) = runs'.filter fun run => run.id ≠ own)
    (claimed : own ∈ activeTasks.map Prod.fst) (distinct : (runs.map Run.id).Nodup)
    (distinct' : (runs'.map Run.id).Nodup) :
    Paced own (.unclaimed (dropActive activeTasks runs)) (.unclaimed (dropActive activeTasks runs')) := by
  have kept := dropActive_perm distinct activeTasks
  have kept' := dropActive_perm distinct' activeTasks
  have without : ∀ runs : List Run, (runs.filter fun run => run.id ∉ activeTasks.map Prod.fst) =
      (runs.filter fun run => run.id ≠ own).filter fun run => run.id ∉ activeTasks.map Prod.fst := by
    intro runs
    rw [List.filter_filter]
    refine List.filter_congr fun run _ => ?_
    by_cases mine : run.id = own <;> simp [mine, claimed]
  refine .unclaimed ?_ ?_
  · rw [without, others, ← without] at kept
    exact kept.trans kept'.symm
  · exact (kept.map Run.id).nodup_iff.mpr (distinct.sublist (List.filter_sublist.map _))

theorem Alike.symm (alike : Alike own stale stale' id row row') : Alike own stale' stale id row' row :=
  ⟨alike.reads.symm, alike.queued.symm, fun other same => (alike.same other same.symm).symm,
    fun other => (alike.settled other).symm⟩

theorem Elsewhere.symm (elsewhere : Elsewhere own stale stale' db db') :
    Elsewhere own stale' stale db' db := by
  refine ⟨elsewhere.runs.symm fun _ _ _ alike => alike.symm, elsewhere.metrics.symm, ?_⟩
  rw [elsewhere.rest]

/-- The reapers begin on lists of the same runs. -/
theorem Elsewhere.listed (elsewhere : Elsewhere own [] [] db db')
    (same : ∀ id, id ∈ stale ↔ id ∈ stale') : Elsewhere own stale stale' db db' := by
  refine ⟨elsewhere.runs.mono fun id row row' alike => ?_, elsewhere.metrics, elsewhere.rest⟩
  have equal : id ≠ own → row = row' := fun other => alike.same other .rfl
  refine ⟨alike.reads, alike.queued, fun other _ => equal other, fun other => ?_⟩
  simp only [settledRow, same id, equal other]

/-- One of the reapers comes to a run that may or may not be ahead of the other. -/
theorem Elsewhere.reaped (elsewhere : Elsewhere own (id :: later) stale' db db')
    (settled : Settled db id) (distinct : id ∉ later) :
    Elsewhere own later stale' (db.reapTask id) db' := by
  have written : Elsewhere own later stale' { db with runs := db.runs.update id reapedRow }
      { db' with runs := db'.runs.update id fun row => row } := by
    refine elsewhere.updates ?_ fun other away => ⟨by simp [away], .rfl⟩
    intro row row' found alike
    obtain ⟨_, found', done⟩ := settled
    cases Option.some.inj (found.symm.trans found')
    have done' : row'.state ≠ .pending := fun queued => done (alike.queued.mpr queued)
    have after : id ≠ own → reapedRow row = settledRow stale' id row' := fun other => by
      have same := alike.settled other
      rwa [settledRow, if_pos List.mem_cons_self] at same
    refine ⟨alike.reads, by simp [reapedRow, done'], ?_, ?_⟩
    · intro other same
      rw [after other, settledRow, if_neg fun listed => distinct (same.mpr listed)]
    · intro other
      rw [settledRow, if_neg distinct, after other]
  rw [Table.update_id] at written
  exact written

/-- A run on the reaper's list has been handed out by another process. -/
theorem Watched.stale {s : State} (watched : Watched s) (listed : id ∈ s.reaper.stale) :
    Settled s.db id ∧ ¬ Claimed s id := by
  have settled := watched.settled
  have scanned := watched.scanned
  have reaping := watched.reaping
  generalize s.reaper = reaper at listed settled scanned reaping
  cases reaper with
  | reaping runs =>
    obtain ⟨run, member, rfl⟩ := List.mem_map.mp listed
    have started := reaping runs rfl run member
    exact ⟨settled run member started, scanned run member started⟩
  | start | activeRuns | unclaimed | done => contradiction

theorem Watched.stale_old {s : State} (watched : Watched s) :
    ∀ id ∈ s.reaper.stale, id ≤ s.db.runs.seq := by
  intro id listed
  obtain ⟨row, found, _⟩ := (watched.stale listed).1
  exact Table.le_seq found

/-! ### The driver with and without the client -/

/-- The driver with the client's messages in `s` and without them in `u`. -/
structure Apart (c own : Nat) (s u : State) : Prop where
  known : Known s
  watched : Watched s
  watched' : Watched u
  lock : u.poisoned = s.poisoned
  session : ∃ task, s.tasks c = some task ∧
    (task.phase.job? = some own ∨ task.phase.isOver = true)
  tasks : ∀ other, other ≠ c → u.tasks other = s.tasks other
  clients : u.clients = s.clients
  active : u.activeTasks = s.activeTasks
  claimed : Claimed s own
  settled : Settled s.db own
  paced : Paced own s.reaper u.reaper
  elsewhere : Elsewhere own s.reaper.stale u.reaper.stale s.db u.db

section Apart
variable {c own : Nat} {s t u : State} {tokenForJob : Nat → String}

theorem creates_none (mine : next.job? = some own ∨ next.isOver = true) :
    State.creates phase next = none := by
  cases created : State.creates phase next with
  | none => rfl
  | some run =>
    obtain ⟨offer, rfl, _⟩ := creates_eq_some created
    simp [Phase.job?, Phase.isOver] at mine

/-- A task in its `ClientJob` poisons the lock with a metric at most. -/
theorem own_action_sound {task : Task} (keyed : action ≠ .upsert false)
    (mine : task.phase.job? = some own ∨ task.phase.isOver = true)
    (moved : s.attempt task action = some moved) : action.poisons = false := by
  obtain ⟨⟨db, next⟩, stepped, _⟩ := Option.map_eq_some_iff.mp moved
  cases action with
  | wrapped now =>
    rw [(taskStep_wrapped stepped).1] at mine
    simp [Phase.job?, Phase.isOver] at mine
  | upsert keyed' =>
    cases keyed' with
    | true => rfl
    | false => exact absurd rfl keyed
  | _ => rfl

/-- A step of the client's own task is not seen on the other side, where metrics have their key. -/
theorem Apart.silent (apart : Apart c own s u) (keyed : action ≠ .upsert false)
    (stepped : (machine tokenForJob).step s (.task c action) = some t) : Apart c own t u := by
  have known := step_known apart.known stepped
  have watched := step_watched apart.watched stepped
  have claimed := step_claims stepped (by simp) apart.claimed
  have settled := apart.settled.step (step_runsWrite stepped)
  obtain ⟨task, db, next, found, moved, rfl⟩ := step_attempt stepped
  obtain ⟨_, held, mine⟩ := apart.session
  cases Option.some.inj (held.symm.trans found)
  have moves := attempt_moves moved
  have sound := own_action_sound keyed mine moved
  have elsewhere := apart.elsewhere.ownMoves apart.settled mine moves
  have mine' := moves_in_job mine moves
  refine ⟨known, watched, apart.watched', ?_, ?_, ?_, ?_, ?_, claimed, settled, ?_, ?_⟩
  · rw [moveTask_poisoned, sound, Bool.or_false, apart.lock]
  · exact ⟨{ task with phase := next }, by rw [moveTask_tasks, Function.update_self], mine'⟩
  · intro other distinct
    rw [moveTask_tasks, Function.update_of_ne distinct]
    exact apart.tasks other distinct
  · rw [moveTask_clients]
    exact apart.clients
  · rw [apart.active, State.moveTask, creates_none mine']
  · rw [moveTask_reaper]
    exact apart.paced
  · rw [moveTask_reaper, moveTask_db]
    exact elsewhere

theorem moveTask_activeTasks (same : u.activeTasks = s.activeTasks) (c : Nat) (task : Task)
    (action : Action) (db db' : Db) (next : Phase) :
    (u.moveTask c task action db' next).activeTasks = (s.moveTask c task action db next).activeTasks := by
  unfold State.moveTask
  cases State.creates task.phase next with
  | none => exact same
  | some run => exact congrArg (State.register · run c) same

/-- A step of anyone else, taken on both sides. -/
theorem Apart.matched (apart : Apart c own s u) (stepped : (machine tokenForJob).step s l = some t)
    (stepped' : (machine tokenForJob).step u l = some v) (same : l ≠ .restart)
    (lock : v.poisoned = t.poisoned)
    (session : t.tasks c = s.tasks c) (tasks : ∀ other, other ≠ c → v.tasks other = t.tasks other)
    (clients : v.clients = t.clients) (active : v.activeTasks = t.activeTasks)
    (paced : Paced own t.reaper v.reaper)
    (elsewhere : Elsewhere own t.reaper.stale v.reaper.stale t.db v.db) : Apart c own t v where
  known := step_known apart.known stepped
  watched := step_watched apart.watched stepped
  watched' := step_watched apart.watched' stepped'
  lock := lock
  session := by rw [session]; exact apart.session
  tasks := tasks
  clients := clients
  active := active
  claimed := step_claims stepped same apart.claimed
  settled := apart.settled.step (step_runsWrite stepped)
  paced := paced
  elsewhere := elsewhere

theorem Apart.stale_free (apart : Apart c own s u) (claimed : Claimed s run) :
    run ∉ s.reaper.stale ∧ run ∉ u.reaper.stale := by
  refine ⟨fun listed => (apart.watched.stale listed).2 claimed, fun listed => ?_⟩
  apply (apart.watched'.stale listed).2
  rw [Claimed, apart.active]
  exact claimed

theorem Apart.task (apart : Apart c own s u) (distinct : other ≠ c)
    (stepped : (machine tokenForJob).step s (.task other action) = some t) :
    ∃ v, (machine tokenForJob).step u (.task other action) = some v ∧ Apart c own t v := by
  have copy := stepped
  obtain ⟨task, db, next, found, moved, rfl⟩ := step_attempt stepped
  obtain ⟨db', moved', elsewhere⟩ := apart.elsewhere.attempt apart.lock
    (fun run acked => apart.stale_free (apart.watched.acked other task run found acked))
    apart.watched.stale_old apart.watched'.stale_old moved
  have stepped' : (machine tokenForJob).step u (.task other action) =
      some (u.moveTask other task action db' next) := by
    simp [machine, apart.tasks other distinct, found, moved']
  refine ⟨_, stepped', apart.matched copy stepped' (by simp) ?_ ?_ ?_ ?_ ?_ ?_ ?_⟩
  · rw [moveTask_poisoned, moveTask_poisoned, apart.lock]
  · rw [moveTask_tasks, Function.update_of_ne distinct.symm]
  · intro third away
    rw [moveTask_tasks, moveTask_tasks]
    by_cases here : third = other
    · rw [here, Function.update_self, Function.update_self]
    · rw [Function.update_of_ne here, Function.update_of_ne here, apart.tasks third away]
  · rw [moveTask_clients, moveTask_clients, apart.clients]
  · exact moveTask_activeTasks apart.active _ _ _ _ _ _
  · rw [moveTask_reaper, moveTask_reaper]
    exact apart.paced
  · rw [moveTask_reaper, moveTask_reaper, moveTask_db, moveTask_db]
    exact elsewhere

theorem Apart.connect (apart : Apart c own s u)
    (stepped : (machine tokenForJob).step s (.connect hostInfo accepted) = some t) :
    ∃ v, (machine tokenForJob).step u (.connect hostInfo accepted) = some v ∧ Apart c own t v := by
  have older : c < s.clients := by
    obtain ⟨task, held, _⟩ := apart.session
    exact apart.known.clients c task held
  obtain rfl : t = s.connect tokenForJob hostInfo accepted := (Option.some.inj stepped).symm
  have session : (s.connect tokenForJob hostInfo accepted).tasks c = s.tasks c :=
    connect_tasks_of_lt older
  have hosts : u.db.hosts = s.db.hosts := by rw [apart.elsewhere.rest]
  have answers := @idForHost_agrees hostInfo _ _ hosts apart.lock
  have written := apart.elsewhere.frame
    (fun db => { db with hosts := (s.idForHost hostInfo).2.db.hosts }) fun _ _ _ => rfl
  have elsewhere : Elsewhere own s.reaper.stale u.reaper.stale (s.idForHost hostInfo).2.db
      { u.db with hosts := (s.idForHost hostInfo).2.db.hosts } := by
    have frame := congrArg State.db (idForHost_writes s hostInfo)
    rw [frame]
    exact written
  by_cases known : ∃ hostId, (s.idForHost hostInfo).1 = .ok hostId
  · obtain ⟨hostId, known⟩ := known
    have known' : (u.idForHost hostInfo).1 = .ok hostId := (congrArg Prod.fst answers).trans known
    refine ⟨_, rfl, apart.matched stepped rfl (by simp) ?_ session ?_ ?_ ?_ ?_ ?_⟩ <;>
      rw [connect_answered known, connect_answered known', answers]
    · intro other away
      simp only [apart.clients]
      by_cases here : other = s.clients
      · rw [here, Function.update_self, Function.update_self]
      · rw [Function.update_of_ne here, Function.update_of_ne here, apart.tasks other away]
    · exact congrArg (· + 1) apart.clients
    · exact apart.active
    · exact apart.paced
    · exact elsewhere
  · have unknown := not_exists.mp known
    have unknown' : ∀ hostId, (u.idForHost hostInfo).1 ≠ .ok hostId := by
      rw [answers]
      exact unknown
    refine ⟨_, rfl, apart.matched stepped rfl (by simp) ?_ session ?_ ?_ ?_ ?_ ?_⟩ <;>
      rw [connect_refused unknown, connect_refused unknown', answers]
    · exact apart.tasks
    · exact apart.clients
    · exact apart.active
    · exact apart.paced
    · exact elsewhere

theorem Apart.reaperStep (apart : Apart c own s u)
    (stepped : Driver.reaperStep s.db s.activeTasks now s.reaper = some (db, next)) :
    ∃ db' next', Driver.reaperStep u.db u.activeTasks now u.reaper = some (db', next') ∧
      Paced own next next' ∧ Elsewhere own next.stale next'.stale db db' := by
  have elsewhere := apart.elsewhere
  have paced := apart.paced
  have claimed : own ∈ u.activeTasks.map Prod.fst := by
    rw [apart.active]
    exact apart.claimed
  have watched := apart.watched
  have watched' := apart.watched'
  rw [← apart.active] at stepped
  generalize same : s.reaper = phase at stepped elsewhere paced
  generalize same' : u.reaper = phase' at elsewhere paced ⊢
  cases paced with
  | start =>
    cases stepped
    exact ⟨_, _, rfl, .activeRuns elsewhere.getActiveRuns, elsewhere⟩
  | activeRuns others =>
    cases stepped
    exact ⟨_, _, rfl, dropActive_paced others claimed (watched.distinct _ same)
      (watched'.distinct _ same'), elsewhere⟩
  | @unclaimed runs runs' listed distinct =>
    simp only [Driver.reaperStep, Option.some.injEq, Prod.mk.injEq] at stepped ⊢
    obtain ⟨rfl, rfl⟩ := stepped
    refine ⟨_, _, ⟨rfl, rfl⟩, ?_⟩
    split
    · rename_i threshold _
      have kept := listed.filter (isStale threshold)
      have unique : ((runs.filter (isStale threshold)).map Run.id).Nodup :=
        distinct.sublist (List.filter_sublist.map Run.id)
      refine ⟨.reaping kept.length_eq unique ((kept.map Run.id).nodup_iff.mp unique), ?_⟩
      exact elsewhere.listed fun id => (kept.map Run.id).mem_iff
    · exact ⟨.done, elsewhere⟩
  | @reaping runs runs' length distinct distinct' =>
    cases runs with
    | nil =>
      obtain rfl := List.length_eq_zero_iff.mp length.symm
      cases stepped
      exact ⟨_, _, rfl, .done, elsewhere⟩
    | cons task rest =>
      cases runs' with
      | nil => contradiction
      | cons task' rest' =>
        cases stepped
        simp only [List.map_cons, List.nodup_cons] at distinct distinct'
        refine ⟨_, _, rfl, .reaping (Nat.succ.inj length) distinct.2 distinct'.2, ?_⟩
        have next : Settled s.db task.id := (watched.stale (by rw [same]; exact List.mem_cons_self)).1
        have next' : Settled u.db task'.id :=
          (watched'.stale (by rw [same']; exact List.mem_cons_self)).1
        exact ((elsewhere.reaped next distinct.1).symm.reaped next' distinct'.1).symm
  | done => contradiction

/-- The step is the client's own task's. -/
def Label.isOf (c : Nat) : Label → Bool
  | .task other _ => other = c
  | _ => false

theorem isOf_task {l : Label} (mine : l.isOf c = true) : ∃ action, l = .task c action := by
  cases l with
  | task other action => exact ⟨action, by rw [of_decide_eq_true mine]⟩
  | connect | reaper | post | outside | restart => contradiction

theorem Apart.others (apart : Apart c own s u) (other : l.isOf c = false) (same : l ≠ .restart)
    (stepped : (machine tokenForJob).step s l = some t) :
    ∃ v, (machine tokenForJob).step u l = some v ∧ Apart c own t v := by
  have copy := stepped
  cases l with
  | connect hostInfo accepted => exact apart.connect stepped
  | task c' action => exact apart.task (of_decide_eq_false other) stepped
  | reaper now =>
    obtain ⟨db, next, moved, rfl⟩ := step_reaper stepped
    obtain ⟨db', next', moved', paced, elsewhere⟩ := apart.reaperStep moved
    have free := step_reaper_free copy
    rw [← apart.lock, ← apart.paced.locks] at free
    have stepped' : (machine tokenForJob).step u (.reaper now) = _ := reaper_steps free moved'
    exact ⟨_, stepped', apart.matched copy stepped' same apart.lock rfl apart.tasks apart.clients
      apart.active paced elsewhere⟩
  | post post now fileCreated =>
    cases stepped
    have elsewhere := apart.elsewhere.answerPost s.poisoned post now fileCreated
    refine ⟨_, rfl, apart.matched copy rfl same apart.lock rfl apart.tasks apart.clients apart.active
      apart.paced ?_⟩
    rwa [apart.lock]
  | outside write =>
    cases stepped
    exact ⟨_, rfl, apart.matched copy rfl same apart.lock rfl apart.tasks apart.clients apart.active
      apart.paced (apart.elsewhere.outside write apart.watched.stale_old apart.watched'.stale_old)⟩
  | restart => exact absurd rfl same

/-- The reaper holds a run once. -/
def Reaper.Distinct (reaper : Reaper) : Prop := (reaper.candidates.map Run.id).Nodup

theorem Reaper.Distinct.step {reaper : Reaper} (distinct : reaper.Distinct)
    (stepped : Driver.reaperStep db activeTasks now reaper = some (db', next)) : next.Distinct := by
  unfold Reaper.Distinct at distinct ⊢
  cases reaper with
  | start =>
    cases stepped
    exact getActiveRuns_distinct db
  | activeRuns runs =>
    cases stepped
    have kept := dropActive_perm distinct activeTasks
    exact (kept.map Run.id).nodup_iff.mpr (distinct.sublist (List.filter_sublist.map _))
  | unclaimed runs =>
    simp only [Driver.reaperStep, Option.some.injEq, Prod.mk.injEq] at stepped
    obtain ⟨rfl, rfl⟩ := stepped
    split
    · exact distinct.sublist (List.filter_sublist.map _)
    · exact List.nodup_nil
  | reaping runs =>
    cases runs with
    | nil =>
      cases stepped
      exact List.nodup_nil
    | cons run rest =>
      cases stepped
      exact (List.nodup_cons.mp distinct).2
  | done => contradiction

theorem step_distinct (distinct : s.reaper.Distinct)
    (stepped : (machine tokenForJob).step s l = some t) : t.reaper.Distinct := by
  cases l with
  | connect hostInfo accepted =>
    cases stepped
    rwa [connect_reaper]
  | task c action =>
    obtain ⟨task, db, next, _, _, rfl⟩ := step_task stepped
    rwa [moveTask_reaper]
  | reaper now =>
    obtain ⟨db, next, moved, rfl⟩ := step_reaper stepped
    exact distinct.step moved
  | post | outside =>
    cases stepped
    exact distinct
  | restart =>
    cases stepped
    exact List.nodup_nil

theorem Paced.refl {reaper : Reaper} (distinct : reaper.Distinct) : Paced own reaper reaper := by
  cases reaper with
  | start => exact .start
  | activeRuns runs => exact .activeRuns rfl
  | unclaimed runs => exact .unclaimed (.refl runs) distinct
  | reaping runs => exact .reaping rfl distinct distinct
  | done => exact .done

/-- What holds of a driver that has run for a while. -/
structure Tracked (s : State) : Prop where
  known : Known s
  watched : Watched s
  jobs : JobsSettled s
  distinct : s.reaper.Distinct

theorem step_tracked (tracked : Tracked s) (stepped : (machine tokenForJob).step s l = some t) :
    Tracked t :=
  ⟨step_known tracked.known stepped, step_watched tracked.watched stepped,
    step_jobsSettled tracked.known tracked.jobs stepped, step_distinct tracked.distinct stepped⟩

theorem start_tracked (db : Db) (clients : Nat) : Tracked (.start db clients) :=
  ⟨start_known db clients, start_watched db clients [], by simp [JobsSettled], List.nodup_nil⟩

theorem Apart.refl {task : Task} (tracked : Tracked s) (held : s.tasks c = some task)
    (assigned : task.phase.job? = some own) : Apart c own s s where
  known := tracked.known
  watched := tracked.watched
  watched' := tracked.watched
  lock := rfl
  session := ⟨task, held, .inl assigned⟩
  tasks _ _ := rfl
  clients := rfl
  active := rfl
  claimed := by
    refine tracked.watched.acked c task own held ?_
    cases phase : task.phase <;> simp_all [Phase.acked?, Phase.job?]
  settled := tracked.jobs c task own held assigned
  paced := .refl tracked.distinct
  elsewhere := .refl own _ _

/-- One step that changes one run's row and metrics and nothing else. -/
structure Confined (own : Nat) (db db' : Db) : Prop where
  runs : ∀ id, id ≠ own → db'.runs.get? id = db.runs.get? id
  metrics : (db'.metrics.select fun row => row.runId ≠ own) =
    db.metrics.select fun row => row.runId ≠ own
  rest : db' = { db with runs := db'.runs, metrics := db'.metrics }

theorem Confined.refl (own : Nat) (db : Db) : Confined own db db := ⟨fun _ _ => rfl, rfl, rfl⟩

theorem moves_confined (mine : phase.job? = some own ∨ phase.isOver = true)
    (moves : Moves client db phase action db' next) : Confined own db db' := by
  cases moves with
  | insertMetric =>
    obtain same | ended := mine
    · cases same
      refine ⟨fun _ _ => by rw [Db.insertMetric_runs], ?_, by rw [Db.insertMetric_eq]⟩
      rw [Db.insertMetric_eq, Table.select_upsert_apart] <;> simp +contextual
    · cases ended
  | records =>
    obtain same | ended := mine
    · cases same
      exact ⟨fun id other => Table.get?_update_of_ne _ _ other, rfl, rfl⟩
    · cases ended
  | newRun | activates => simp [Phase.job?, Phase.isOver] at mine
  | _ => exact .refl own db

/-- The steps of the client's task are confined to its run. -/
def ConfinesTask (tokenForJob : Nat → String) (c own : Nat) (s : State) (l : Label) : Prop :=
  l.isOf c = true → ∀ t, (machine tokenForJob).step s l = some t → Confined own s.db t.db

/-- The client's task is in its `ClientJob` for the run, or over, or gone with its process. -/
def InJob (c own : Nat) (s : State) : Prop :=
  c < s.clients ∧ ∀ task, s.tasks c = some task → task.phase.job? = some own ∨ task.phase.isOver = true

theorem InJob.step (inJob : InJob c own s) (stepped : (machine tokenForJob).step s l = some t) :
    InJob c own t :=
  ⟨Nat.lt_of_lt_of_le inJob.1 (step_clients stepped),
    step_phase (fun _ _ _ _ _ _ => moves_in_job) stepped inJob.1 inJob.2⟩

theorem InJob.confines (inJob : InJob c own s) : ConfinesTask tokenForJob c own s l := by
  intro mine t stepped
  obtain ⟨action, rfl⟩ := isOf_task mine
  obtain ⟨task, db, next, found, moves, rfl⟩ := step_task stepped
  rw [moveTask_db]
  exact moves_confined (inJob.2 task found) moves

/-- Nothing but one run's row and metrics tells two drivers apart. A run on one
reaper's list only has been reaped by the other, and is about to be by this one. -/
structure SameElsewhere (own : Nat) (s t : State) : Prop where
  runs : ∀ id, id ≠ own → (id ∈ s.reaper.stale ↔ id ∈ t.reaper.stale) →
    s.db.runs.get? id = t.db.runs.get? id
  settled : ∀ id, id ≠ own → (s.db.runs.get? id).map (settledRow s.reaper.stale id) =
    (t.db.runs.get? id).map (settledRow t.reaper.stale id)
  metrics : metricsElsewhere s.db own = metricsElsewhere t.db own
  rest : t.db = { s.db with runs := t.db.runs, metrics := t.db.metrics }

theorem Apart.same (apart : Apart c own s u) : SameElsewhere own s u where
  runs id other listed := by
    have rows : (s.db.runs.get? id).map (fun row => row) = (u.db.runs.get? id).map fun row => row :=
      apart.elsewhere.runs.map_get? fun _ _ alike => alike.same other listed
    simpa using rows
  settled id other := apart.elsewhere.runs.map_get? fun _ _ alike => alike.settled other
  metrics := apart.elsewhere.metrics
  rest := apart.elsewhere.rest

end Apart

theorem step_reaper_kept (stepped : (machine tokenForJob).step s l = some t)
    (other : ∀ now, l ≠ .reaper now) (same : l ≠ .restart) : t.reaper = s.reaper := by
  cases l with
  | connect hostInfo accepted =>
    cases stepped
    rw [connect_reaper]
  | task c action =>
    obtain ⟨task, db, next, _, _, rfl⟩ := step_task stepped
    rw [moveTask_reaper]
  | reaper now => exact absurd rfl (other now)
  | post | outside =>
    cases stepped
    rfl
  | restart => exact absurd rfl same

theorem run_reaper_kept (other : ∀ now, .reaper now ∉ labels) (same : .restart ∉ labels)
    (path : (machine tokenForJob).run s labels = some t) : t.reaper = s.reaper := by
  induction labels generalizing s with
  | nil =>
    cases path
    rfl
  | cons l labels ih =>
    simp only [List.mem_cons, not_or] at other same
    obtain ⟨u, step, rest⟩ := Machine.run_cons.mp path
    have kept := step_reaper_kept step (fun now here => (other now).1 here.symm) (Ne.symm same.1)
    exact (ih (fun now => (other now).2) same.2 rest).trans kept

/-- A client in its `ClientJob` for a run, whatever it sends and however others
interleave, writes that run's row and metrics only; and where its metrics have their key,
all the rest is what it is when the client sends nothing. -/
theorem client_isolation (tokenForJob : Nat → String) (db : Db) (clients : Nat)
    (labels more : List Label) (s t : State) (c own : Nat) (task : Task)
    (path : (machine tokenForJob).run (.start db clients) labels = some s)
    (held : s.tasks c = some task) (assigned : task.phase.job? = some own)
    (oneProcess : .restart ∉ more) (session : (machine tokenForJob).run s more = some t) :
    (machine tokenForJob).Guarded (ConfinesTask tokenForJob c own) s more ∧
    (.task c (.upsert false) ∉ more →
      ∃ u, (machine tokenForJob).run s (more.filter fun l => !l.isOf c) = some u ∧
        SameElsewhere own t u ∧
        ((∀ now, .reaper now ∉ more) → ∀ id, id ≠ own → t.db.runs.get? id = u.db.runs.get? id)) := by
  have tracked := Machine.invariant (fun _ _ _ => step_tracked) (start_tracked db clients) path
  have apart := Apart.refl tracked held assigned
  have follows : ∀ s l t u, l ∈ more → l.isOf c = false → Apart c own s u →
      (machine tokenForJob).step s l = some t →
        ∃ v, (machine tokenForJob).step u l = some v ∧ Apart c own t v :=
    fun s l t u member other apart => apart.others other fun same => oneProcess (same ▸ member)
  have inJob : InJob c own s := by
    refine ⟨tracked.known.clients c task held, fun task' held' => ?_⟩
    cases Option.some.inj (held.symm.trans held')
    exact .inl assigned
  refine ⟨?_, fun keyed => ?_⟩
  · exact Machine.guarded_of_invariant (fun s l t _ inJob stepped => inJob.step stepped)
      (fun s l _ inJob => inJob.confines) inJob
  · have silent : ∀ s l t u, l ∈ more → l.isOf c = true → Apart c own s u →
        (machine tokenForJob).step s l = some t → Apart c own t u := by
      intro s l t u member mine apart stepped
      obtain ⟨action, rfl⟩ := isOf_task mine
      exact apart.silent (fun unkeyed => keyed (unkeyed ▸ member)) stepped
    obtain ⟨u, alone, apart'⟩ := Machine.run_purge silent follows apart session
    refine ⟨u, alone, apart'.same, ?_⟩
    intro noReaper id other
    have stands : ∀ {ls : List Label} {v : State}, (∀ l ∈ ls, l ∈ more) →
        (machine tokenForJob).run s ls = some v → v.reaper = s.reaper := by
      intro ls v within path
      exact run_reaper_kept (fun now member => noReaper now (within _ member))
        (fun member => oneProcess (within _ member)) path
    refine apart'.same.runs id other ?_
    rw [stands (fun _ member => member) session, stands (fun _ => List.mem_of_mem_filter) alone]

/-- The first client's run is under way. -/
def inSession : List Label := offersRun ++ [offers 0, acks 0, .task 0 (.call 0)]

/-- A metric, a report and a message out of turn, around a second client's arrival. -/
def sendsAnything : List Label :=
  [.task 0 (.recv (.message (.metric "size" "12"))), connects, .task 0 (.upsert true),
    .task 1 (.call 1)] ++ reports 0 2 (.finished "pass") ++
  [.task 0 (.recv (.message .pong)), .task 1 (.call 3)]

theorem sender_isolated : ∃ s t task,
    (machine someToken).run (.start .empty 0) inSession = some s ∧ s.tasks 0 = some task ∧
    (machine someToken).run s sendsAnything = some t ∧
    (machine someToken).Guarded (ConfinesTask someToken 0 1) s sendsAnything ∧
    ∃ u, (machine someToken).run s [connects, .task 1 (.call 1), .task 1 (.call 3)] = some u ∧
      SameElsewhere 1 t u := by
  have oneProcess : Label.restart ∉ sendsAnything := by
    simp [sendsAnything, connects, reports]
  have keyed : Label.task 0 (.upsert false) ∉ sendsAnything := by
    simp [sendsAnything, connects, reports]
  obtain ⟨confined, apart⟩ := client_isolation someToken .empty 0 inSession sendsAnything
    _ _ 0 1 _ rfl rfl rfl oneProcess rfl
  obtain ⟨u, alone, same, _⟩ := apart keyed
  exact ⟨_, _, _, rfl, rfl, rfl, confined, u, alone, same⟩

end BuildOTron.Driver
