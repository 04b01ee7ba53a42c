import BuildOTron.Core.Sql
import BuildOTron.Core.Protocol
import BuildOTron.Lib.Outcome
import Mathlib.Data.List.Sort

/-! The methods of `DbCtx`, each one locked use of the connection, as functions
on the database. A clock reading is an argument. A query that the source
`expect`s is an `Outcome`; an insert also answers `last_insert_rowid`. -/
namespace BuildOTron.Db

def tokenExpiryMs : Nat := 1000 * 60 * 30

def insertMetric (db : Db) (runId : Nat) (name value : String) : Db :=
  match (db.metrics.select fun row => row.runId = runId ∧ row.name = name).head? with
  | some (id, _) => { db with metrics := db.metrics.update id fun row => { row with value := value } }
  | none => { db with metrics := db.metrics.insert ⟨runId, name, value⟩ }

/-- `commits.sha` is UNIQUE and the insert is `expect`ed. -/
def newCommit (db : Db) (sha : String) : Outcome String (Db × Nat) :=
  if (db.commits.select fun known => known = sha).isEmpty then
    .ok ({ db with commits := db.commits.insert sha }, db.commits.seq + 1)
  else .panic

/-- The index `repo_names` is unique; the error is shown with `{:?}`. -/
def newRepo (db : Db) (name : String) : Outcome String (Db × Nat) :=
  if (db.repos.select fun row => row.repoName = name).isEmpty then
    .ok ({ db with repos := db.repos.insert ⟨name, none⟩ }, db.repos.seq + 1)
  else .err ("SqliteFailure(Error \x7b code: ConstraintViolation, extended_code: 2067 \x7d, " ++
    "Some(\"UNIQUE constraint failed: repos.repo_name\"))")

/-- An unsupported kind of remote is a panic. -/
def remoteRow (repoId : Nat) (remote remoteKind configPath : String) : Option RemoteRow :=
  if remoteKind = "github" then
    some ⟨repoId, remote, remoteKind, "https://www.github.com/" ++ remote,
      "https://www.github.com/" ++ remote ++ ".git", configPath⟩
  else if remoteKind = "github-email" then
    some ⟨repoId, remote, "email", "https://www.github.com/" ++ remote,
      "http://www.github.com/" ++ remote ++ ".git", configPath⟩
  else none

def newRemote (db : Db) (repoId : Nat) (remote remoteKind configPath : String) :
    Outcome String (Db × Nat) :=
  match remoteRow repoId remote remoteKind configPath with
  | some row => .ok ({ db with remotes := db.remotes.insert row }, db.remotes.seq + 1)
  | none => .panic

/-- The second statement of `new_job`, under a lock of its own. -/
def insertJob (db : Db) (remoteId commitId : Nat) (pusher runPreferences : Option String)
    (createdTime : Nat) : Db × Nat :=
  ({ db with jobs := db.jobs.insert ⟨pusher, createdTime, remoteId, commitId, runPreferences⟩ },
    db.jobs.seq + 1)

def newJob (db : Db) (remoteId : Nat) (sha : String) (pusher repoDefaultRunPref : Option String)
    (now : Nat) : Outcome String (Db × Nat × Nat) := do
  let (db, commitId) ← db.newCommit sha
  let (db, jobId) := db.insertJob remoteId commitId pusher repoDefaultRunPref now
  return (db, jobId, commitId)

def pendingRow (jobId : Nat) (hostPreference : Option Nat) (now : Nat) : RunRow where
  jobId := jobId
  artifactsPath := none
  state := .pending
  hostId := none
  buildToken := none
  createdTime := now
  startedTime := none
  completeTime := none
  runTimeout := none
  buildResult := none
  finalStatus := none
  hostPreference := hostPreference

def newRun (db : Db) (jobId : Nat) (hostPreference : Option Nat) (now : Nat) : Db × PendingRun :=
  ({ db with runs := db.runs.insert (pendingRow jobId hostPreference now) },
    ⟨db.runs.seq + 1, jobId, now⟩)

def reapTask (db : Db) (taskId : Nat) : Db :=
  { db with runs := db.runs.update taskId fun row =>
      { row with finalStatus := some "lost signal", state := .invalid } }

def updateCommitName (db : Db) (commitId : Nat) (name : String) : Db :=
  { db with commitNames := db.commitNames.insert ⟨commitId, name, .fresh⟩ }

def commitSha (db : Db) (commitId : Nat) : Outcome String String :=
  match db.commits.get? commitId with
  | some sha => .ok sha
  | none => .err "Query returned no rows"

def jobById (db : Db) (id : Nat) : Option Job := (db.jobs.get? id).map (·.withId id)

def remoteById (db : Db) (id : Nat) : Option Remote := (db.remotes.get? id).map (·.withId id)

def repoById (db : Db) (id : Nat) : Option Repo := (db.repos.get? id).map (·.withId id)

def repoIdByRemote (db : Db) (remoteId : Nat) : Option Nat :=
  (db.remotes.get? remoteId).map (·.repoId)

def remotesByRepo (db : Db) (repoId : Nat) : List Remote :=
  (db.remotes.select fun row => row.repoId = repoId).map fun row => row.2.withId row.1

def remoteByPathAndApi (db : Db) (api path : String) : Option Remote :=
  (db.remotes.select fun row => row.remoteApi = api ∧ row.remotePath = path).head?.map fun row =>
    row.2.withId row.1

def repoIdByName (db : Db) (repoName : String) : Option Nat :=
  (db.repos.select fun row => row.repoName = repoName).head?.map Prod.fst

/-- The id answered is that of the commit. -/
def jobForCommit (db : Db) (sha : String) : Option Nat :=
  (db.commits.select fun known => known = sha).head?.map Prod.fst

def getRepos (db : Db) : List Repo := db.repos.rows.map fun row => row.2.withId row.1

/-- `LAST_JOBS_FROM_REMOTE`, newest first. -/
def recentJobsFromRemote (db : Db) (id limit : Nat) : List Job :=
  (((db.jobs.select fun row => row.remoteId = id).insertionSort
    fun a b => b.2.createdTime ≤ a.2.createdTime).take limit).map fun row => row.2.withId row.1

def lastJobFromRemote (db : Db) (id : Nat) : Option Job := (db.recentJobsFromRemote id 1).getLast?

/-- NULL sorts below every number. -/
def nullLe : Option Nat → Option Nat → Bool
  | none, _ => true
  | some _, none => false
  | some a, some b => a ≤ b

/-- `LAST_RUN_FOR_JOB`, the one started last. -/
def lastRunForJob (db : Db) (jobId : Nat) : Option Run :=
  ((db.runs.select fun row => row.jobId = jobId).insertionSort
    fun a b => nullLe b.2.startedTime a.2.startedTime).head?.map fun row => row.2.withId row.1

/-- `RUNS_FOR_JOB`: which row stands for the runs on one host is for `pick` to say, as
the query groups by host and aggregates nothing. -/
def runsForJobOnePerHost (db : Db) (pick : List (Nat × RunRow) → Option (Nat × RunRow))
    (jobId : Nat) : List Run :=
  let runs := db.runs.select fun row => row.jobId = jobId
  let hosts := (runs.map fun run => run.2.hostId).dedup
  let groups := hosts.filterMap fun host => pick (runs.filter fun run => run.2.hostId = host)
  (groups.insertionSort fun a b => if a.2.startedTime = b.2.startedTime
    then a.2.state.code ≤ b.2.state.code
    else nullLe b.2.startedTime a.2.startedTime).map fun row => row.2.withId row.1

def metricsForRun (db : Db) (run : Nat) : List MetricRecord :=
  (db.metrics.select fun row => row.runId = run).map fun row =>
    ⟨row.1, row.2.runId, row.2.name, row.2.value⟩

/-- The first name that is not stale, or else the last one. -/
def niceNameForCommit (db : Db) (commitId : Nat) : Option CommitName :=
  (db.commitNames.select fun row => row.commitId = commitId).foldl
    (fun bestName row =>
      if bestName.all CommitName.stale then some ⟨row.2.name, row.2.nameState⟩ else bestName)
    none

/-- The row answered is the first with this token; `now > time + timeout` expires it. -/
def runForToken (db : Db) (token : String) (now : Nat) :
    Option (Nat × Option String × TokenValidity) :=
  match (db.runs.select fun row => row.buildToken = some token).head? with
  | none => none
  | some (id, row) =>
    let timeout := row.runTimeout.getD tokenExpiryMs
    let validity := match row.startedTime with
      | some time => if time + timeout < now then .expired else .valid
      | none => .invalid
    some (id, row.artifactsPath, validity)

/-- `ACTIVE_RUNS`. -/
def getActiveRuns (db : Db) : List Run :=
  (db.runs.select fun row => row.state = .started ∨ row.state = .pending).map fun row =>
    row.2.withId row.1

/-- `PENDING_RUNS`: `host_preference=?1 or host_preference is null`, newest first. -/
def getPendingRuns (db : Db) (hostId : Option Nat) : List PendingRun :=
  ((db.runs.select fun row =>
      row.state = .pending ∧ (row.hostPreference = hostId ∨ row.hostPreference = none)).insertionSort
    fun a b => b.2.createdTime ≤ a.2.createdTime).map fun row =>
      ⟨row.1, row.2.jobId, row.2.createdTime⟩

/-- `JOBS_NEEDING_HOST_RUN`, for jobs created within the last day. -/
def jobsNeedingTaskRunsForHost (db : Db) (hostId now : Nat) : Outcome String (List Job) := do
  let cutoff ← checkedSub now (24 * 3600 * 1000)
  let jobs := db.jobs.rows.filter fun row =>
    row.2.runPreferences = some "all" ∧ cutoff < row.2.createdTime ∧
      (db.runs.select fun run => run.jobId = row.1 ∧ run.hostId = some hostId).isEmpty
  return jobs.map fun row => row.2.withId row.1

def hostRow (hostInfo : HostInfo) : HostRow where
  hostname := hostInfo.hostname
  cpuVendorId := hostInfo.cpuInfo.vendorId
  cpuModelName := hostInfo.cpuInfo.modelName
  cpuFamily := hostInfo.cpuInfo.family
  cpuModel := hostInfo.cpuInfo.model
  cpuMicrocode := hostInfo.cpuInfo.microcode
  cpuMaxFreqKhz := hostInfo.cpuInfo.maxFreq.toNat
  cpuCores := hostInfo.cpuInfo.cores.toNat
  memTotal := hostInfo.memoryInfo.total
  arch := hostInfo.envInfo.arch
  family := hostInfo.envInfo.family
  os := hostInfo.envInfo.os

/-- The UNIQUE key of `hosts` is every column but the maximum frequency. -/
def hostKeyMatches (a b : HostRow) : Bool := a = { b with cpuMaxFreqKhz := a.cpuMaxFreqKhz }

/-- `insert or ignore`, then a select on all twelve columns. -/
def idForHost (db : Db) (hostInfo : HostInfo) : Db × Option Nat :=
  let row := hostRow hostInfo
  let hosts := if (db.hosts.select (hostKeyMatches row)).isEmpty then db.hosts.insert row else db.hosts
  ({ db with hosts := hosts }, ((hosts.select fun host => host = row).head?).map Prod.fst)

/-- The insert of `reserve_artifact`. -/
def insertArtifact (db : Db) (runId : Nat) (name desc : String) (now : Nat) : Db × Nat :=
  ({ db with artifacts := db.artifacts.insert ⟨runId, name, desc, now, none⟩ },
    db.artifacts.seq + 1)

def finalizeArtifact (db : Db) (artifactId now : Nat) : Db :=
  { db with artifacts := db.artifacts.update artifactId fun row =>
      { row with completedTime := some now } }

def lookupArtifact (db : Db) (runId artifactId : Nat) : Option ArtifactRecord :=
  match db.artifacts.get? artifactId with
  | some row => if row.runId = runId then some (row.withId artifactId) else none
  | none => none

/-! Two statements of the driver are written out where they are used. -/

/-- The update of `activate_run`. -/
def startRun (db : Db) (runId now hostId : Nat) (artifacts buildToken : String) : Db :=
  { db with runs := db.runs.update runId fun row =>
      { row with startedTime := some now, hostId := some hostId, state := .started,
                 artifactsPath := some artifacts, buildToken := some buildToken } }

/-- The update of `ClientJob::run` on a `TaskStatus`. -/
def completeRun (db : Db) (runId now : Nat) (state : RunState) (buildResult : JobResult)
    (resultDesc : String) : Db :=
  { db with runs := db.runs.update runId fun row =>
      { row with completeTime := some now, state := state, buildResult := some buildResult.code,
                 finalStatus := some resultDesc } }

/-! What the runs table knows of one run after each of its writers. -/
section Runs
variable {db : Db}

theorem newRun_runs (jobId : Nat) (pref : Option Nat) (now id : Nat) :
    (db.newRun jobId pref now).1.runs.get? id =
      if id = db.runs.seq + 1 then some (pendingRow jobId pref now) else db.runs.get? id :=
  Table.get?_insert _ _ _

theorem insertMetric_runs (runId : Nat) (name value : String) :
    (db.insertMetric runId name value).runs = db.runs := by
  unfold insertMetric
  split <;> rfl

/-- The metrics after `insert_metric`, which is an upsert and nothing else. -/
theorem insertMetric_eq (runId : Nat) (name value : String) :
    db.insertMetric runId name value = { db with
      metrics := db.metrics.upsert (fun row => decide (row.runId = runId ∧ row.name = name))
        (fun row => { row with value := value }) ⟨runId, name, value⟩ } := by
  unfold insertMetric Table.upsert
  split
  · rename_i first
    rw [first]
  · rename_i missing
    rw [missing]

theorem mem_getPendingRuns {run : PendingRun} {hostId : Option Nat} :
    run ∈ db.getPendingRuns hostId ↔ ∃ row, db.runs.get? run.id = some row ∧
      row.state = .pending ∧ (row.hostPreference = hostId ∨ row.hostPreference = none) ∧
      row.jobId = run.jobId ∧ row.createdTime = run.createTime := by
  simp only [getPendingRuns, List.mem_map, List.mem_insertionSort, Table.mem_select, decide_eq_true_eq]
  constructor
  · rintro ⟨⟨id, row⟩, ⟨found, pending, preferred⟩, rfl⟩
    exact ⟨row, found, pending, preferred, rfl, rfl⟩
  · rintro ⟨row, found, pending, preferred, job, created⟩
    refine ⟨(run.id, row), ⟨found, pending, preferred⟩, ?_⟩
    cases run
    simp_all

theorem mem_getActiveRuns {run : Run} :
    run ∈ db.getActiveRuns ↔ ∃ row, db.runs.get? run.id = some row ∧
      (row.state = .started ∨ row.state = .pending) ∧ run = row.withId run.id := by
  simp only [getActiveRuns, List.mem_map, Table.mem_select, decide_eq_true_eq]
  constructor
  · rintro ⟨⟨id, row⟩, ⟨found, active⟩, rfl⟩
    exact ⟨row, found, active, rfl⟩
  · rintro ⟨row, found, active, same⟩
    exact ⟨(run.id, row), ⟨found, active⟩, same.symm⟩

/-- The jobs that still need a run on this host: of the last day, with no run that has been
started there. -/
theorem mem_jobsNeedingTaskRunsForHost {hostId now : Nat} {jobs : List Job} {job : Job}
    (answer : db.jobsNeedingTaskRunsForHost hostId now = .ok jobs) :
    job ∈ jobs ↔ db.jobById job.id = some job ∧ job.runPreferences = some "all" ∧
      now - 24 * 3600 * 1000 < job.createdTime ∧ ∀ run row, db.runs.get? run = some row →
        row.jobId = job.id → row.hostId ≠ some hostId := by
  obtain ⟨cutoff, early, rows⟩ := Outcome.bind_eq_ok.mp answer
  cases rows
  rw [← (checkedSub_eq_ok.mp early).2]
  have unrun : ∀ id, (db.runs.select fun run => run.jobId = id ∧ run.hostId = some hostId).isEmpty ↔
      ∀ run row, db.runs.get? run = some row → row.jobId = id → row.hostId ≠ some hostId := by
    intro id
    rw [List.isEmpty_iff, List.eq_nil_iff_forall_not_mem, Prod.forall]
    simp only [Table.mem_select, decide_eq_true_eq, not_and, ne_eq]
  simp only [List.mem_map, List.mem_filter, decide_eq_true_eq, unrun]
  constructor
  · rintro ⟨⟨id, row⟩, ⟨present, everywhere, recent, none⟩, rfl⟩
    refine ⟨?_, everywhere, recent, none⟩
    rw [jobById, show (row.withId id).id = id from rfl, Table.get?_eq_some.mpr present, Option.map_some]
  · rintro ⟨found, everywhere, recent, none⟩
    obtain ⟨row, present, same⟩ := Option.map_eq_some_iff.mp found
    rw [← same] at everywhere recent
    exact ⟨(job.id, row), ⟨Table.get?_eq_some.mp present, everywhere, recent, none⟩, same⟩

end Runs
end BuildOTron.Db
