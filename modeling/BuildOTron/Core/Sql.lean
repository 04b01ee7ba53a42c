import BuildOTron.Lib.Table

/-! The tables of `sql.rs` with the columns that the statements of `dbctx.rs`
name, and the records those statements are read into. -/
namespace BuildOTron

inductive RunState where
  | pending
  | started
  | finished
  | error
  | invalid
  deriving DecidableEq, Repr

/-- One of the complete statuses. -/
def RunState.isComplete : RunState → Bool
  | .finished | .error | .invalid => true
  | .pending | .started => false

def RunState.code : RunState → Nat
  | .pending => 0
  | .started => 1
  | .finished => 2
  | .error => 3
  | .invalid => 4

inductive JobResult where
  | pass
  | fail
  deriving DecidableEq, Repr

def JobResult.code : JobResult → Nat
  | .pass => 0
  | .fail => 1

inductive TokenValidity where
  | expired
  | invalid
  | valid
  deriving DecidableEq, Repr

inductive NameState where
  | fresh
  | stale
  | shortSha
  deriving DecidableEq, Repr

structure CommitName where
  name : String
  state : NameState
  deriving DecidableEq, Repr

def CommitName.stale (name : CommitName) : Bool := name.state ≠ .fresh

def CommitName.stringy (name : CommitName) : String :=
  match name.state with
  | .fresh | .shortSha => name.name
  | .stale => name.name ++ " (stale)"

structure PendingRun where
  id : Nat
  jobId : Nat
  createTime : Nat
  deriving DecidableEq, Repr

structure MetricRecord where
  id : Nat
  runId : Nat
  name : String
  value : String
  deriving DecidableEq, Repr

structure Job where
  id : Nat
  remoteId : Nat
  commitId : Nat
  createdTime : Nat
  source : Option String
  runPreferences : Option String
  deriving DecidableEq, Repr

structure Run where
  id : Nat
  jobId : Nat
  artifactsPath : Option String
  state : RunState
  hostId : Option Nat
  createTime : Nat
  startTime : Option Nat
  completeTime : Option Nat
  buildToken : Option String
  runTimeout : Option Nat
  buildResult : Option Nat
  finalText : Option String
  deriving DecidableEq, Repr

structure Repo where
  id : Nat
  name : String
  defaultRunPreference : Option String
  deriving DecidableEq, Repr

structure Remote where
  id : Nat
  repoId : Nat
  remotePath : String
  remoteApi : String
  remoteUrl : String
  remoteGitUrl : String
  notifierConfigPath : String
  deriving DecidableEq, Repr

structure ArtifactRecord where
  id : Nat
  runId : Nat
  name : String
  desc : String
  createdTime : Nat
  completedTime : Option Nat
  deriving DecidableEq, Repr

/-! Rows, without their id column. -/

structure JobRow where
  source : Option String
  createdTime : Nat
  remoteId : Nat
  commitId : Nat
  runPreferences : Option String
  deriving DecidableEq, Repr

/-- The `runs` table carries the `host_preference` column that `new_run` writes
and `PENDING_RUNS` reads. -/
structure RunRow where
  jobId : Nat
  artifactsPath : Option String
  state : RunState
  hostId : Option Nat
  buildToken : Option String
  createdTime : Nat
  startedTime : Option Nat
  completeTime : Option Nat
  runTimeout : Option Nat
  buildResult : Option Nat
  finalStatus : Option String
  hostPreference : Option Nat
  deriving DecidableEq, Repr

/-- Metrics are keyed by run and name, as `insert_metric` writes them. -/
structure MetricRow where
  runId : Nat
  name : String
  value : String
  deriving DecidableEq, Repr

structure CommitNameRow where
  commitId : Nat
  name : String
  nameState : NameState
  deriving DecidableEq, Repr

structure RepoRow where
  repoName : String
  defaultRunPreference : Option String
  deriving DecidableEq, Repr

structure RemoteRow where
  repoId : Nat
  remotePath : String
  remoteApi : String
  remoteUrl : String
  remoteGitUrl : String
  notifierConfigPath : String
  deriving DecidableEq, Repr

structure ArtifactRow where
  runId : Nat
  name : String
  desc : String
  createdTime : Nat
  completedTime : Option Nat
  deriving DecidableEq, Repr

structure HostRow where
  hostname : String
  cpuVendorId : String
  cpuModelName : String
  cpuFamily : String
  cpuModel : String
  cpuMicrocode : String
  cpuMaxFreqKhz : Nat
  cpuCores : Nat
  memTotal : String
  arch : String
  family : String
  os : String
  deriving DecidableEq, Repr

/-- `commits` holds one column besides its id, the sha. -/
structure Db where
  jobs : Table JobRow
  metrics : Table MetricRow
  commits : Table String
  commitNames : Table CommitNameRow
  repos : Table RepoRow
  remotes : Table RemoteRow
  artifacts : Table ArtifactRow
  runs : Table RunRow
  hosts : Table HostRow

namespace Db

def empty : Db :=
  ⟨.empty, .empty, .empty, .empty, .empty, .empty, .empty, .empty, .empty⟩

end Db

def RunRow.withId (row : RunRow) (id : Nat) : Run where
  id := id
  jobId := row.jobId
  artifactsPath := row.artifactsPath
  state := row.state
  hostId := row.hostId
  createTime := row.createdTime
  startTime := row.startedTime
  completeTime := row.completeTime
  buildToken := row.buildToken
  runTimeout := row.runTimeout
  buildResult := row.buildResult
  finalText := row.finalStatus

def JobRow.withId (row : JobRow) (id : Nat) : Job where
  id := id
  remoteId := row.remoteId
  commitId := row.commitId
  createdTime := row.createdTime
  source := row.source
  runPreferences := row.runPreferences

def RemoteRow.withId (row : RemoteRow) (id : Nat) : Remote where
  id := id
  repoId := row.repoId
  remotePath := row.remotePath
  remoteApi := row.remoteApi
  remoteUrl := row.remoteUrl
  remoteGitUrl := row.remoteGitUrl
  notifierConfigPath := row.notifierConfigPath

def RepoRow.withId (row : RepoRow) (id : Nat) : Repo where
  id := id
  name := row.repoName
  defaultRunPreference := row.defaultRunPreference

def ArtifactRow.withId (row : ArtifactRow) (id : Nat) : ArtifactRecord where
  id := id
  runId := row.runId
  name := row.name
  desc := row.desc
  createdTime := row.createdTime
  completedTime := row.completedTime

end BuildOTron
