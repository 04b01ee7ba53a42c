import BuildOTron.Core.Integrity
import BuildOTron.Lib.Effect
import BuildOTron.Native.Notifier

/-! The commands of `ci-ctl` that write to the database. What a command has done
stays done when it then returns early or panics. -/
namespace BuildOTron.Ctl
open Native

inductive Command where
  | addRepo (name : String) (remote remoteKind config : Option String)
  | addRemote (repoName remote remoteKind config : String)
  | rerun (which : UInt32)
  | rerunCommit (commit : String)
  | create (repo commit pusherEmail : String)
  deriving DecidableEq, Repr

/-- What a command finds on the machine it runs on: the configuration directory, the
files in it, and the clock when it adds a job and when it adds a run. -/
structure Environment where
  configPath : String
  files : String → ConfigFile
  jobTime : Nat
  runTime : Nat

def newRepo (name : String) : Effect Db String Nat :=
  .call fun db => (db.newRepo name).mapErr fun _ => "[!] repo '" ++ name ++ "' already exists"

def newRemote (repoId : Nat) (remote remoteKind config : String) : Effect Db String Nat :=
  .call fun db => (db.newRemote repoId remote remoteKind config).expect

def newJob (remoteId : Nat) (sha : String) (pusher repoDefaultRunPref : Option String) (now : Nat) :
    Effect Db String (Nat × Nat) :=
  .call fun db => (db.newJob remoteId sha pusher repoDefaultRunPref now).expect

def newRun (jobId now : Nat) : Effect Db String PendingRun :=
  .call fun db => .ok (db.newRun jobId none now)

/-- The three arguments that describe a remote come together or not at all. -/
def remoteConfig : Option String → Option String → Option String →
    Outcome String (Option (String × String × String))
  | some remote, some remoteKind, some config =>
    if remoteKind ≠ "github" then .err ("unknown remote kind: " ++ remote)
    else .ok (some (remote, remoteKind, config))
  | none, none, none => .ok none
  | _, _, _ => .err ("when specifying a remote, `remote`, `remote_kind`, and `config_path` " ++
      "must either all be provided together or not at all")

def configLoader (remoteKind : String) : Option (String → ConfigFile → Except String NotifierConfig) :=
  if remoteKind = "github" then some githubFromFile
  else if remoteKind = "github-email" then some emailFromFile
  else none

/-- A kind without notifiers, or a config that does not load, is a panic. -/
def checkConfig (env : Environment) (remoteKind config : String) : Outcome String NotifierConfig := do
  let load ← Outcome.expectSome (configLoader remoteKind)
  let path := env.configPath ++ "/" ++ config
  Outcome.unwrap (load path (env.files path))

/-- The repo is added before its remote's config is looked at. -/
def addRepo (env : Environment) (name : String) (remote remoteKind config : Option String) :
    Effect Db String Unit := do
  let remoteConfig ← .lift (remoteConfig remote remoteKind config)
  let repoId ← newRepo name
  match remoteConfig with
  | none => pure ()
  | some (remote, remoteKind, config) => do
    let _ ← .lift (checkConfig env remoteKind config)
    let _ ← newRemote repoId remote remoteKind config
    pure ()

def addRemote (env : Environment) (repoName remote remoteKind config : String) :
    Effect Db String Unit := do
  let repoId ← .read fun db => match db.repoIdByName repoName with
    | some id => .ok id
    | none => .err ("[-] repo '" ++ repoName ++ "' does not exist")
  let _ ← .lift (checkConfig env remoteKind config)
  let _ ← newRemote repoId remote remoteKind config
  pure ()

/-- Nothing looks the job up. -/
def rerun (env : Environment) (which : UInt32) : Effect Db String Unit := do
  let _ ← newRun which.toNat env.runTime
  pure ()

def rerunCommit (env : Environment) (commit : String) : Effect Db String Unit := do
  let jobId ← .read fun db => .ok (db.jobForCommit commit)
  match jobId with
  | some jobId => do
    let _ ← newRun jobId env.runTime
    pure ()
  | none => pure ()

/-- `repo.split(":")`, of which the first two parts are taken. -/
def repoParts (repo : String) : Outcome String (String × String) :=
  match (repo.toList.splitOn ':').map String.ofList with
  | remoteKind :: repoPath :: _ => .ok (remoteKind, repoPath)
  | _ => .panic

def create (env : Environment) (repo commit pusherEmail : String) : Effect Db String Unit := do
  let (remoteKind, repoPath) ← .lift (repoParts repo)
  let remote ← .read fun db => match db.remoteByPathAndApi remoteKind repoPath with
    | some remote => .ok remote
    | none => .err ("[-] no remote registered as " ++ remoteKind ++ ":" ++ repoPath)
  let repo ← .read fun db => Outcome.expectSome (db.repoById remote.repoId)
  let (jobId, _) ← newJob remote.id commit (some pusherEmail) repo.defaultRunPreference env.jobTime
  let _ ← newRun jobId env.runTime
  pure ()

def execute (env : Environment) : Command → Effect Db String Unit
  | .addRepo name remote remoteKind config => addRepo env name remote remoteKind config
  | .addRemote repoName remote remoteKind config => addRemote env repoName remote remoteKind config
  | .rerun which => rerun env which
  | .rerunCommit commit => rerunCommit env commit
  | .create repo commit pusherEmail => create env repo commit pusherEmail

/-- The job that a rerun would add a run to, which nothing has looked up. -/
def Command.reruns (db : Db) : Command → Option Nat
  | .rerun which => some which.toNat
  | .rerunCommit commit => db.jobForCommit commit
  | _ => none

section Integrity
variable {db : Db} {env : Environment}

theorem remoteByPathAndApi_known {remote : Remote}
    (found : db.remoteByPathAndApi api path = some remote) : (db.remotes.get? remote.id).isSome := by
  obtain ⟨row, first, rfl⟩ := Option.map_eq_some_iff.mp found
  exact Option.isSome_iff_exists.mpr ⟨_, Table.get?_of_head?_select first⟩

theorem repoIdByName_known (found : db.repoIdByName name = some repoId) :
    (db.repos.get? repoId).isSome := by
  obtain ⟨row, first, rfl⟩ := Option.map_eq_some_iff.mp found
  exact Option.isSome_iff_exists.mpr ⟨_, Table.get?_of_head?_select first⟩

theorem newRun_upholds (known : (db.jobs.get? jobId).isSome) (now : Nat) :
    Db.Upholds db (newRun jobId now db).2 := by
  refine Effect.call_relates ?_
  intro db' run made
  cases made
  exact Db.newRun_upholds known none now

theorem newRemote_upholds (repo : (db.repos.get? repoId).isSome) (remote remoteKind config : String) :
    Db.Upholds db (newRemote repoId remote remoteKind config db).2 := by
  refine Effect.call_relates ?_
  intro db' remoteId made
  exact Db.newRemote_upholds repo (Outcome.expect_eq_ok.mp made)

theorem newRepo_upholds (name : String) (db : Db) : Db.Upholds db (newRepo name db).2 := by
  refine Effect.call_relates ?_
  intro db' repoId made
  exact (Db.newRepo_upholds (Outcome.mapErr_eq_ok.mp made)).1

theorem newRepo_known (made : (newRepo name db).1 = .ok repoId) :
    ((newRepo name db).2.repos.get? repoId).isSome :=
  (Db.newRepo_upholds (Outcome.mapErr_eq_ok.mp (Effect.call_eq_ok made))).2

theorem addRepo_upholds (env : Environment) (name : String) (remote remoteKind config : Option String)
    (db : Db) : Db.Upholds db (addRepo env name remote remoteKind config db).2 := by
  refine Effect.bind_relates (.refl db) fun described _ => ?_
  refine Effect.bind_relates (newRepo_upholds name db) fun repoId made => ?_
  have repo := newRepo_known made
  cases described with
  | none => exact .refl _
  | some described =>
    refine Effect.bind_relates (.refl _) fun _ _ => ?_
    exact Effect.bind_relates (newRemote_upholds repo _ _ _) fun _ _ => .refl _

theorem addRemote_upholds (env : Environment) (repoName remote remoteKind config : String) (db : Db) :
    Db.Upholds db (addRemote env repoName remote remoteKind config db).2 := by
  refine Effect.bind_relates (.refl db) fun repoId found => ?_
  have repo : (db.repos.get? repoId).isSome := by
    simp only [Effect.read_apply] at found
    split at found
    · cases found
      exact repoIdByName_known ‹_›
    · contradiction
  refine Effect.bind_relates (.refl _) fun _ _ => ?_
  exact Effect.bind_relates (newRemote_upholds repo _ _ _) fun _ _ => .refl _

theorem create_upholds (env : Environment) (repo commit pusherEmail : String) (db : Db) :
    Db.Upholds db (create env repo commit pusherEmail db).2 := by
  refine Effect.bind_relates (.refl db) fun parts _ => ?_
  refine Effect.bind_relates (.refl db) fun remote found => ?_
  have known : (db.remotes.get? remote.id).isSome := by
    simp only [Effect.read_apply] at found
    split at found
    · cases found
      exact remoteByPathAndApi_known ‹_›
    · contradiction
  refine Effect.bind_relates (.refl db) fun repo _ => ?_
  refine Effect.bind_relates (Effect.call_relates ?_) fun made job => ?_
  · intro db' ids made
    exact (Db.newJob_upholds known (Outcome.expect_eq_ok.mp made)).1
  · have inserted := Outcome.expect_eq_ok.mp (Effect.call_eq_ok job)
    exact Effect.bind_relates (newRun_upholds (Db.newJob_upholds known inserted).2 _) fun _ _ => .refl _

/-- A command keeps every reference, if the job it reruns is there. -/
theorem execute_upholds (command : Command) (env : Environment) (db : Db)
    (named : ∀ jobId, command.reruns db = some jobId → (db.jobs.get? jobId).isSome) :
    Db.Upholds db (execute env command db).2 := by
  cases command with
  | addRepo name remote remoteKind config => exact addRepo_upholds _ _ _ _ _ _
  | addRemote repoName remote remoteKind config => exact addRemote_upholds _ _ _ _ _ _
  | rerun which =>
    exact Effect.bind_relates (newRun_upholds (named _ rfl) _) fun _ _ => .refl _
  | rerunCommit commit =>
    refine Effect.bind_relates (.refl db) fun found same => ?_
    cases found with
    | none => exact .refl _
    | some jobId =>
      have answer : db.jobForCommit commit = some jobId := Outcome.ok.inj same
      exact Effect.bind_relates (newRun_upholds (named jobId answer) _) fun _ _ => .refl _
  | create repo commit pusherEmail => exact create_upholds _ _ _ _ _

/-- A command that reruns a job adds one run of it, whether the job is there or not. -/
theorem execute_reruns (command : Command) (env : Environment) (db : Db)
    (named : command.reruns db = some jobId) :
    (execute env command db).2 = (db.newRun jobId none env.runTime).1 := by
  cases command with
  | rerun which =>
    cases named
    rfl
  | rerunCommit commit =>
    simp only [Command.reruns] at named
    show (rerunCommit env commit db).2 = _
    rw [rerunCommit, Effect.bind_of_ok (congrArg Outcome.ok named)]
    rfl
  | addRepo | addRemote | create => contradiction

end Integrity
end BuildOTron.Ctl
