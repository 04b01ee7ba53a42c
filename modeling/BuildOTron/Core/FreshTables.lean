import BuildOTron.Core.DbCtx
import BuildOTron.Core.Statements
import BuildOTron.Lib.Effect
import BuildOTron.Lib.Machine

/-! Sequences of `DbCtx` calls on one connection, whose statements are prepared against
the tables there are. An error that a method unwraps is a panic with the connection
locked: the lock is poisoned, and every later call panics on it. -/
namespace BuildOTron.Fresh
open Transition

structure Conn where
  db : Db
  poisoned : Bool

/-- The ends of a call that are due to an SQL error. Other panics are the outcome's own. -/
inductive Stop where
  /-- the error is the method's `Err` -/
  | returned (error : Sql.Error)
  /-- the error was unwrapped -/
  | unwrapped (error : Sql.Error)
  | poisoned
  deriving DecidableEq, Repr

def Stop.poisons : Stop → Bool
  | .unwrapped _ => true
  | .returned _ | .poisoned => false

abbrev Method (α : Type) := Effect Conn Stop α

def lock : Method Unit := .read fun conn => if conn.poisoned then .err .poisoned else .ok ()

/-- One statement, with what it does to the tables once it is prepared. -/
def perform (schema : Sql.Schema) (stop : Sql.Error → Stop) (statement : Sql.Statement)
    (effect : Db → Except Sql.Error (Db × α)) : Method α := fun conn =>
  match schema.prepare statement with
  | .error error =>
    (.err (stop error), { conn with poisoned := conn.poisoned || (stop error).poisons })
  | .ok () =>
    match effect conn.db with
    | .error error =>
      (.err (stop error), { conn with poisoned := conn.poisoned || (stop error).poisons })
    | .ok (db, value) => (.ok value, { conn with db := db })

/-- An insert into a table that may have the row already. -/
def uniquely (columns : String) : Outcome String α → Except Sql.Error α
  | .ok value => .ok value
  | .err _ | .panic => .error (.constraint columns)

inductive Answer where
  | id (id : Nat)
  | job (jobId commitId : Nat)
  | run (run : PendingRun)
  | done
  | metrics (metrics : List MetricRecord)
  | pendingRuns (runs : List PendingRun)
  | runs (runs : List Run)
  | jobs (jobs : List Job)
  | lastRun (run : Option Run)
  deriving DecidableEq, Repr

inductive Call where
  | newRepo (name : String)
  | newRemote (repoId : Nat) (remote remoteKind configPath : String)
  | newJob (remoteId : Nat) (sha : String) (pusher runPreferences : Option String)
  | newRun (jobId : Nat) (hostPreference : Option Nat)
  | insertMetric (runId : Nat) (name value : String)
  | metricsForRun (run : Nat)
  | getPendingRuns (hostId : Option Nat)
  | getActiveRuns
  | jobsNeedingTaskRunsForHost (hostId : Nat)
  | lastRunForJob (jobId : Nat)
  | runsForJobOnePerHost (jobId : Nat)
  | idForHost (hostInfo : HostInfo)
  /-- the update of `activate_run` -/
  | activate (runId hostId : Nat) (artifacts buildToken : String)
  deriving DecidableEq

/-- A call, what the clock shows, and which row is to stand for a group. -/
structure Label where
  call : Call
  now : Nat
  pick : List (Nat × RunRow) → Option (Nat × RunRow)

/-- Each method under the source's name. -/
def execute (schema : Sql.Schema) (now : Nat) (pick : List (Nat × RunRow) → Option (Nat × RunRow)) :
    Call → Method Answer
  | .newRepo name => do
    lock
    let id ← perform schema .returned Statements.newRepo fun db =>
      uniquely "repos.repo_name" (db.newRepo name)
    return .id id
  | .newRemote repoId remote remoteKind configPath => do
    let row ← .lift (Outcome.expectSome (Db.remoteRow repoId remote remoteKind configPath))
    lock
    let id ← perform schema .unwrapped Statements.newRemote fun db =>
      .ok ({ db with remotes := db.remotes.insert row }, db.remotes.seq + 1)
    return .id id
  | .newJob remoteId sha pusher runPreferences => do
    lock
    let commitId ← perform schema .unwrapped Statements.newCommit fun db =>
      uniquely "commits.sha" (db.newCommit sha)
    lock
    let jobId ← perform schema .unwrapped Statements.newJob fun db =>
      .ok (db.insertJob remoteId commitId pusher runPreferences now)
    return .job jobId commitId
  | .newRun jobId hostPreference => do
    lock
    let run ← perform schema .unwrapped Statements.newRun fun db =>
      .ok (db.newRun jobId hostPreference now)
    return .run run
  | .insertMetric runId name value => do
    lock
    perform schema .unwrapped Statements.insertMetric fun db =>
      .ok (db.insertMetric runId name value, .done)
  | .metricsForRun run => do
    lock
    perform schema .unwrapped Statements.metricsForRun fun db =>
      .ok (db, .metrics (db.metricsForRun run))
  | .getPendingRuns hostId => do
    lock
    perform schema .unwrapped Statements.pendingRuns fun db =>
      .ok (db, .pendingRuns (db.getPendingRuns hostId))
  | .getActiveRuns => do
    lock
    perform schema .unwrapped Statements.activeRuns fun db => .ok (db, .runs db.getActiveRuns)
  | .jobsNeedingTaskRunsForHost hostId => do
    -- the cutoff is computed before the connection is locked
    let _ ← .lift (checkedSub now (24 * 3600 * 1000))
    lock
    perform schema .unwrapped Statements.jobsNeedingHostRun fun db => .ok (db, ())
    let jobs ← .read fun conn => (conn.db.jobsNeedingTaskRunsForHost hostId now).expect
    return .jobs jobs
  | .lastRunForJob jobId => do
    lock
    perform schema .returned Statements.lastRunForJob fun db =>
      .ok (db, .lastRun (db.lastRunForJob jobId))
  | .runsForJobOnePerHost jobId => do
    lock
    perform schema .unwrapped Statements.runsForJob fun db =>
      .ok (db, .runs (db.runsForJobOnePerHost pick jobId))
  | .idForHost hostInfo => do
    lock
    perform schema .unwrapped Statements.insertHost fun db => .ok ((db.idForHost hostInfo).1, ())
    perform schema .returned Statements.selectHost fun db =>
      match (db.hosts.select fun host => host = Db.hostRow hostInfo).head? with
      | some (id, _) => .ok (db, .id id)
      | none => .error .noRows
  | .activate runId hostId artifacts buildToken => do
    lock
    perform schema .unwrapped Statements.startRun fun db =>
      .ok (db.startRun runId now hostId artifacts buildToken, .done)

/-- The ids it is given name rows, and what it inserts is not there yet. A host that is
known under the declared key is the same host. -/
def respects (db : Db) : Call → Bool
  | .newRepo name => (db.repos.select fun row => row.repoName = name).isEmpty
  | .newRemote repoId _ _ _ => (db.repos.get? repoId).isSome
  | .newJob remoteId sha _ _ =>
    (db.remotes.get? remoteId).isSome && (db.commits.select fun known => known = sha).isEmpty
  | .newRun jobId _ | .lastRunForJob jobId | .runsForJobOnePerHost jobId => (db.jobs.get? jobId).isSome
  | .insertMetric run _ _ | .metricsForRun run | .activate run _ _ _ => (db.runs.get? run).isSome
  | .getPendingRuns _ | .getActiveRuns => true
  | .jobsNeedingTaskRunsForHost hostId => (db.hosts.get? hostId).isSome
  | .idForHost hostInfo =>
    (db.hosts.select (Db.hostKeyMatches (Db.hostRow hostInfo))).all fun host =>
      host.2 = Db.hostRow hostInfo

structure Session where
  conn : Conn
  /-- history: some call has ended in an SQL error -/
  failed : Bool
  /-- history: the runs that `new_run` has answered, with the preference it was given -/
  created : List (PendingRun × Option Nat)
  /-- history: the runs that have been activated -/
  activated : List Nat

/-- Empty tables, as `create_tables` leaves them. -/
def Session.fresh : Session := ⟨⟨.empty, false⟩, false, [], []⟩

def Call.created : Call → Outcome Stop Answer → List (PendingRun × Option Nat)
  | .newRun _ hostPreference, .ok (.run run) => [(run, hostPreference)]
  | _, _ => []

def Call.activated : Call → List Nat
  | .activate runId _ _ _ => [runId]
  | _ => []

def machine (schema : Sql.Schema) : Machine Session Label where
  step s label :=
    let (ended, conn) := execute schema label.now label.pick label.call s.conn
    some ⟨conn, s.failed || ended.isErr, label.call.created ended ++ s.created,
      label.call.activated ++ s.activated⟩

def Respects (s : Session) (label : Label) : Prop := respects s.conn.db label.call = true

instance (s : Session) (label : Label) : Decidable (Respects s label) :=
  inferInstanceAs (Decidable (_ = true))

/-- `get_pending_runs(Some(host))` returns this run. -/
def Returns (schema : Sql.Schema) (conn : Conn) (host : Nat) (run : PendingRun) : Prop :=
  ∃ runs, (execute schema 0 List.head? (.getPendingRuns (some host)) conn).1 = .ok (.pendingRuns runs) ∧
    run ∈ runs

/-- No call has failed, and each run created is in the queue of the hosts it is for,
until it is activated. -/
structure Works (schema : Sql.Schema) (s : Session) : Prop where
  clean : s.failed = false
  queued : ∀ run hostPreference, (run, hostPreference) ∈ s.created → ∀ host,
    Returns schema s.conn host run ↔
      (hostPreference = none ∨ hostPreference = some host) ∧ run.id ∉ s.activated

end BuildOTron.Fresh
