import BuildOTron.Driver.Steps
import BuildOTron.Native.Notifier

/-! `ClientJob::run` as one loop over what its client does. The result of a run is
recorded after the notifiers, and nothing else in the process completes a run, so
both how the notifiers fail and how the loop is left decide whether it is. -/
namespace BuildOTron.Driver
open Native Transition

/-- The `TaskStatus` arm: what each notifier was told, and the database if the arm
gets to its update. -/
def ClientJob.taskStatus (job : ClientJob) (world : World) (db : Db) (info : TaskInfo) (now : Nat) :
    List (String × JobStatus) × Outcome String Db :=
  match db.jobById job.task.jobId with
  | none => ([], .panic)
  | some found =>
    match db.repoIdByRemote found.remoteId with
    | none => ([], .panic)
    | some repoId =>
      match notifiersByRepo db world repoId with
      | .ok notifiers =>
        match tellAll (·.completeStatus job.sha (taskResult info).1) notifiers world.answers with
        | (told, .panic) => (told, .panic)
        | (told, _) => (told, .ok (recordStatus db job.task.id now info))
      | _ => ([], .panic)

/-- Every lookup finds its row, every config loads, and no mail panics. -/
def NotifiersHold (job : ClientJob) (world : World) (db : Db) : Prop :=
  ∃ found repoId, db.jobById job.task.jobId = some found ∧
    db.repoIdByRemote found.remoteId = some repoId ∧
    (∀ remote ∈ known (db.remotesByRepo repoId), Loads world remote) ∧
    ∀ (k : Nat) (remote : Remote), (known (db.remotesByRepo repoId))[k]? = some remote →
      Passes remote.remoteApi (world.answers k)

/-- What a `TaskStatus` is for: the row records it and every remote hears of it. -/
structure Reported (job : ClientJob) (world : World) (db : Db) (info : TaskInfo) (now : Nat) :
    Prop where
  recorded : ∃ db', (job.taskStatus world db info now).2 = .ok db' ∧
    ∀ row, db.runs.get? job.task.id = some row →
      db'.runs.get? job.task.id = some (recordedRow row now info)
  told : ∀ found repoId, db.jobById job.task.jobId = some found →
    db.repoIdByRemote found.remoteId = some repoId →
    (job.taskStatus world db info now).1.map Prod.fst =
      (known (db.remotesByRepo repoId)).map Remote.remotePath

theorem serves_paths (serves : List.Forall₂ Serves remotes notifiers) :
    notifiers.map RemoteNotifier.remotePath = remotes.map Remote.remotePath := by
  induction serves with
  | nil => rfl
  | cons first _ ih => rw [List.map_cons, List.map_cons, first.path, ih]

/-- The arm gets to its update and has told everyone, or it panics; which of the
two, the lookups and notifiers decide. -/
theorem taskStatus_cases (job : ClientJob) (world : World) (db : Db) (info : TaskInfo) (now : Nat) :
    (NotifiersHold job world db ∧ ∃ told,
      job.taskStatus world db info now = (told, .ok (recordStatus db job.task.id now info)) ∧
      ∀ found repoId, db.jobById job.task.jobId = some found →
        db.repoIdByRemote found.remoteId = some repoId →
        told.map Prod.fst = (known (db.remotesByRepo repoId)).map Remote.remotePath) ∨
    (¬ NotifiersHold job world db ∧ (job.taskStatus world db info now).2 = .panic) := by
  cases job_found : db.jobById job.task.jobId with
  | none =>
    exact .inr ⟨by simp [NotifiersHold, job_found], by simp [ClientJob.taskStatus, job_found]⟩
  | some found =>
  cases repo_found : db.repoIdByRemote found.remoteId with
  | none =>
    exact .inr ⟨by simp [NotifiersHold, job_found, repo_found],
      by simp [ClientJob.taskStatus, job_found, repo_found]⟩
  | some repoId =>
  have holds_iff : NotifiersHold job world db ↔
      (∀ remote ∈ known (db.remotesByRepo repoId), Loads world remote) ∧
      ∀ (k : Nat) (remote : Remote), (known (db.remotesByRepo repoId))[k]? = some remote →
        Passes remote.remoteApi (world.answers k) := by
    simp [NotifiersHold, job_found, repo_found]
  obtain ⟨notifiers, loaded, serves, loads⟩ | ⟨panics, missing⟩ :=
    loadNotifiers_cases world (db.remotesByRepo repoId)
  · by_cases through :
      (tellAll (·.completeStatus job.sha (taskResult info).1) notifiers world.answers).2 = .panic
    · refine .inr ⟨?_, ?_⟩
      · intro holds
        rw [tellAll_eq notifiers world.answers] at through
        · contradiction
        · intro k notifier at_k
          obtain ⟨remote, remote_at, mine⟩ := (forall₂_getElem? serves).2 notifier at_k
          exact (mine.panics _).mpr ((holds_iff.mp holds).2 k remote remote_at)
      · cases told : tellAll (·.completeStatus job.sha (taskResult info).1) notifiers world.answers
        rw [told] at through
        cases through
        simp only [ClientJob.taskStatus, job_found, repo_found, notifiersByRepo, loaded, told]
    · have passes := tellAll_passes notifiers world.answers through
      refine .inl ⟨holds_iff.mpr ⟨loads, ?_⟩,
        notifiers.map fun n => (n.remotePath, n.completeStatus job.sha (taskResult info).1), ?_, ?_⟩
      · intro k remote at_k
        obtain ⟨notifier, notifier_at, mine⟩ := (forall₂_getElem? serves).1 remote at_k
        exact (mine.panics _).mp (passes k notifier notifier_at)
      · simp only [ClientJob.taskStatus, job_found, repo_found, notifiersByRepo, loaded,
          tellAll_eq notifiers world.answers passes]
      · rintro _ _ ⟨⟩ same
        cases Option.some.inj (same.symm.trans repo_found)
        rw [List.map_map]
        exact serves_paths serves
  · refine .inr ⟨fun holds => missing (holds_iff.mp holds).1, ?_⟩
    simp [ClientJob.taskStatus, job_found, repo_found, notifiersByRepo, panics]

/-- Whatever the message and the notifiers, the result is recorded and every remote
is told exactly when the lookups and configs are in order and no mail panics. -/
theorem reported_iff (job : ClientJob) (world : World) (db : Db) (info : TaskInfo) (now : Nat) :
    Reported job world db info now ↔ NotifiersHold job world db := by
  obtain ⟨holds, told, completes, paths⟩ | ⟨fails, panics⟩ :=
    taskStatus_cases job world db info now
  · refine iff_of_true ⟨⟨_, by rw [completes], fun row => recordStatus_row db now info⟩, ?_⟩ holds
    rw [completes]
    exact paths
  · refine iff_of_false ?_ fails
    rintro ⟨⟨db', completes, _⟩, _⟩
    rw [panics] at completes
    contradiction

/-! The loop. -/

/-- One answer of `recv_typed`, with what the arm that handles it meets. -/
structure Turn where
  received : Received
  world : World
  /-- whether the reply to an `ArtifactCreate` can be sent -/
  replied : Bool
  /-- whether the metrics table has the key that `insert_metric` names -/
  keyed : Bool
  now : Nat

inductive Exit where
  | returned
  | panicked
  deriving DecidableEq, Repr

namespace ClientJob

/-- One pass of the loop; `none` goes round again. -/
def turn (job : ClientJob) (db : Db) (t : Turn) : Db × Option Exit :=
  match t.received with
  | .hangup => (db, some .returned)
  | .failed _ | .undecodable => (db, some .panicked)
  | .message (.newTaskPlease _ _) => (db, some .returned)
  | .message (.taskStatus info) =>
    match (job.taskStatus t.world db info t.now).2 with
    | .ok db' => (db', none)
    | _ => (db, some .panicked)
  | .message .artifactCreate => (db, if t.replied then none else some .panicked)
  | .message (.metric name value) =>
    if t.keyed then (db.insertMetric job.task.id name value, none) else (db, some .panicked)
  | .message _ => (db, none)

/-- The end of the list is the end of the client's messages. -/
def run (job : ClientJob) : Db → List Turn → Db × Exit
  | db, [] => (db, .returned)
  | db, t :: rest =>
    match job.turn db t with
    | (db, none) => job.run db rest
    | (db, some exit) => (db, exit)

end ClientJob

/-! The loop is the task of `taskStep`, with its turns cut into single steps. -/

def ClientJob.phaseAfter (job : ClientJob) : Option Exit → Phase
  | none => .running job
  | some .returned => .returned none
  | some .panicked => .panicked

theorem taskStatus_steps (client : RunnerClient) (job : ClientJob) (world : World) (db : Db)
    (info : TaskInfo) (now : Nat) : ∃ actions,
    (taskMachine client).run (db, .taskStatus job info) actions =
      some (match (job.taskStatus world db info now).2 with
        | .ok db' => (db', .running job)
        | _ => (db, .panicked)) := by
  cases found : db.jobById job.task.jobId with
  | none =>
    refine ⟨[.call now], ?_⟩
    simp [Machine.run, taskMachine, taskStep, ClientJob.taskStatus, found, orPanic]
  | some held =>
    cases remote : db.repoIdByRemote held.remoteId with
    | none =>
      refine ⟨[.call now, .call now], ?_⟩
      simp [Machine.run, taskMachine, taskStep, ClientJob.taskStatus, found, remote, orPanic]
    | some repoId =>
      obtain ⟨_, told, completes, _⟩ | ⟨_, panics⟩ :=
        taskStatus_cases job world db info now
      · refine ⟨[.call now, .call now, .notify true, .call now], ?_⟩
        simp [Machine.run, taskMachine, taskStep, completes, found, remote, orPanic]
      · refine ⟨[.call now, .call now, .notify false], ?_⟩
        simp [Machine.run, taskMachine, taskStep, panics, found, remote, orPanic]

theorem turn_steps (client : RunnerClient) (job : ClientJob) (db : Db) (t : Turn) : ∃ actions,
    (taskMachine client).run (db, .running job) actions =
      some ((job.turn db t).1, job.phaseAfter (job.turn db t).2) := by
  obtain ⟨received, world, replied, keyed, now⟩ := t
  cases received with
  | hangup => exact ⟨[.recv .hangup], rfl⟩
  | failed error => exact ⟨[.recv (.failed error)], rfl⟩
  | undecodable => exact ⟨[.recv .undecodable], rfl⟩
  | message msg =>
    cases msg with
    | taskStatus info =>
      obtain ⟨actions, steps⟩ := taskStatus_steps client job world db info now
      refine ⟨.recv (.message (.taskStatus info)) :: actions, ?_⟩
      simp only [Machine.run]
      refine steps.trans ?_
      simp only [ClientJob.turn]
      cases (job.taskStatus world db info now).2 <;> rfl
    | artifactCreate =>
      refine ⟨[.recv (.message .artifactCreate), .send replied], ?_⟩
      cases replied <;> rfl
    | metric name value =>
      refine ⟨[.recv (.message (.metric name value)), .upsert keyed], ?_⟩
      cases keyed <;> rfl
    | started => exact ⟨[.recv (.message .started)], rfl⟩
    | newTask task => exact ⟨[.recv (.message (.newTask task))], rfl⟩
    | newTaskPlease pushers info => exact ⟨[.recv (.message (.newTaskPlease pushers info))], rfl⟩
    | command info => exact ⟨[.recv (.message (.command info))], rfl⟩
    | ping => exact ⟨[.recv (.message .ping)], rfl⟩
    | pong => exact ⟨[.recv (.message .pong)], rfl⟩

theorem run_steps (client : RunnerClient) (job : ClientJob) (db : Db) (turns : List Turn) :
    ∃ actions, (taskMachine client).run (db, .running job) actions =
      some ((job.run db turns).1, job.phaseAfter (some (job.run db turns).2)) := by
  induction turns generalizing db with
  | nil => exact ⟨[.recv .hangup], rfl⟩
  | cons t rest ih =>
    obtain ⟨first, steps⟩ := turn_steps client job db t
    rw [ClientJob.run]
    cases did : job.turn db t with
    | mk db' exit =>
      rw [did] at steps
      cases exit with
      | none =>
        obtain ⟨later, others⟩ := ih db'
        refine ⟨first ++ later, ?_⟩
        rw [Machine.run_append, steps]
        exact others
      | some exit => exact ⟨first, steps⟩

/-- What the loop's decisions look at in the database: it never changes. -/
structure SameLookups (db db' : Db) : Prop where
  jobs : db'.jobs = db.jobs
  remotes : db'.remotes = db.remotes

theorem SameLookups.holds (same : SameLookups db db') (job : ClientJob) (world : World) :
    NotifiersHold job world db' ↔ NotifiersHold job world db := by
  simp only [NotifiersHold, Db.jobById, Db.repoIdByRemote, Db.remotesByRepo, same.jobs, same.remotes]

def inProgress : Db :=
  { Db.empty with
    repos := .insert .empty ⟨"repo", none⟩
    remotes := .insert (.insert .empty
      ⟨1, "owner/repo", "github", "https://www.github.com/owner/repo",
        "https://www.github.com/owner/repo.git", "repo.json"⟩)
      ⟨1, "repo@list", "email", "", "", "mail.json"⟩
    commits := .insert .empty "f00d"
    jobs := .insert .empty ⟨none, 0, 1, 1, none⟩
    runs := .insert .empty
      { Db.pendingRow 1 none 0 with
        startedTime := some 5, hostId := some 1, state := .started,
        artifactsPath := some (artifactsDir 1), buildToken := some "token" } }

def inProgressJob : ClientJob :=
  ⟨⟨1, 1, 0⟩, "https://www.github.com/owner/repo.git", "f00d"⟩

def mailSent : Mail := ⟨.ok (), .ok (), .ok (), .ok true, .ok (), .ok (), .ok (), .ok ()⟩

/-- Both configs load and GitHub answers 201; how the mail goes is left open. -/
def worldWith (mail : Mail) : World where
  configPath := "conf"
  files path :=
    if path = "conf/mail.json" then
      .config (.email "user" "password" "mail.server" "ci@server" "list@server")
    else .config (.gitHub "token" "secret")
  answers _ := ⟨.ok ⟨201, ""⟩, mail⟩

/-- The mail server cannot be reached. -/
theorem lost_result : ¬ ∀ (job : ClientJob) (world : World) (db : Db) (info : TaskInfo) (now : Nat),
    (∃ found repoId, db.jobById job.task.jobId = some found ∧
      db.repoIdByRemote found.remoteId = some repoId) →
    Reported job world db info now := by
  intro claim
  let world := worldWith { mailSent with connect := .error "connection refused" }
  have reported := claim inProgressJob world inProgress (.finished "pass") 9 ⟨_, _, rfl, rfl⟩
  obtain ⟨⟨found, repoId, job_found, repo_found, _, passes⟩, _⟩ | ⟨_, panics⟩ :=
    taskStatus_cases inProgressJob world inProgress (.finished "pass") 9
  · cases job_found
    cases repo_found
    have reached := (passes 1 _ rfl rfl).connect
    contradiction
  · obtain ⟨⟨db', completes, _⟩, _⟩ := reported
    rw [panics] at completes
    contradiction

end BuildOTron.Driver
