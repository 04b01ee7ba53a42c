import BuildOTron.System.References

/-! Where the commit, the remote and the job come from that a client's task or a push handler
holds. They were read one call at a time, with the writes of all programs in between, and
are still those that the run names: no row that a run leads to is ever changed. -/
namespace BuildOTron
open Transition

namespace Db
variable {db db' : Db}

/-- A run of this job. -/
def RunOf (db : Db) (run jobId : Nat) : Prop := ∃ row, db.runs.get? run = some row ∧ row.jobId = jobId

/-- A job for this commit, from this remote. -/
def JobOf (db : Db) (jobId : Nat) (sha : String) (remote : RemoteRow) : Prop :=
  ∃ job, db.jobs.get? jobId = some job ∧ db.commits.get? job.commitId = some sha ∧
    db.remotes.get? job.remoteId = some remote

/-- What was queued by `get_pending_runs` or `new_run`. -/
def Queued (db : Db) (run : PendingRun) : Prop := RunOf db run.id run.jobId

theorem RunOf.mono (known : RunOf db run jobId) (lasts : Lasting db db') : RunOf db' run jobId := by
  obtain ⟨row, found, same⟩ := known
  obtain ⟨row', found', kept⟩ := lasts.jobOf run row found
  exact ⟨row', found', kept.trans same⟩

theorem JobOf.mono (known : JobOf db jobId sha remote) (lasts : Lasting db db') :
    JobOf db' jobId sha remote := by
  obtain ⟨job, found, commit, origin⟩ := known
  exact ⟨job, lasts.jobs _ _ found, lasts.commits _ _ commit, lasts.remotes _ _ origin⟩

theorem jobById_mono {id : Nat} (found : db.jobById id = some job) (lasts : Lasting db db') :
    db'.jobById id = some job := by
  obtain ⟨row, held, same⟩ := Option.map_eq_some_iff.mp found
  rw [jobById, lasts.jobs id row held, Option.map_some, same]

theorem remoteById_mono {id : Nat} (found : db.remoteById id = some remote) (lasts : Lasting db db') :
    db'.remoteById id = some remote := by
  obtain ⟨row, held, same⟩ := Option.map_eq_some_iff.mp found
  rw [remoteById, lasts.remotes id row held, Option.map_some, same]

theorem newRun_queued (db : Db) (jobId : Nat) (pref : Option Nat) (now : Nat) :
    Queued (db.newRun jobId pref now).1 (db.newRun jobId pref now).2 :=
  ⟨pendingRow jobId pref now, Table.get?_insert_self _ _, rfl⟩

/-- The job, the remote and the commit of an activation, put together. -/
theorem jobOf_of_lookups (ofJob : db.jobById jobId = some job)
    (origin : db.remoteById job.remoteId = some remote)
    (commit : db.commits.get? job.commitId = some sha) :
    ∃ row, JobOf db jobId sha row ∧ row.remoteGitUrl = remote.remoteGitUrl := by
  obtain ⟨jobRow, found, rfl⟩ := Option.map_eq_some_iff.mp ofJob
  obtain ⟨row, held, rfl⟩ := Option.map_eq_some_iff.mp origin
  exact ⟨row, ⟨jobRow, found, commit, held⟩, rfl⟩

end Db

namespace Driver
open Db
variable {db db' : Db}

/-- What a task holds, each part from where it was read. -/
def Knows (db : Db) : Phase → Prop
  | .pendingRuns runs => ∀ run ∈ runs, Queued db run
  | .alternateRun job => db.jobById job.id = some job
  | .activateRun run job => Queued db run ∧ db.jobById run.jobId = some job
  | .haveRemote act remote | .haveRepo act remote =>
    Queued db act.run ∧ db.jobById act.run.jobId = some act.job ∧
      db.remoteById act.job.remoteId = some remote
  | .haveSha act remote sha =>
    Queued db act.run ∧ ∃ row, JobOf db act.run.jobId sha row ∧ row.remoteGitUrl = remote.remoteGitUrl
  | .submit offer | .awaitStarted offer | .started offer =>
    Queued db offer.run ∧ ∃ row, JobOf db offer.run.jobId offer.sha row ∧
      row.remoteGitUrl = offer.remoteGitUrl
  | .running job | .replying job | .metric job _ _ | .taskStatus job _ | .recordResult job _ =>
    Queued db job.task ∧ ∃ row, JobOf db job.task.jobId job.sha row
  | .haveJob job _ remoteId =>
    Queued db job.task ∧ ∃ row, JobOf db job.task.jobId job.sha row ∧ db.remotes.get? remoteId = some row
  | .notifying job _ repoId =>
    Queued db job.task ∧ ∃ row, JobOf db job.task.jobId job.sha row ∧ row.repoId = repoId
  | _ => True

theorem Knows.mono {phase : Phase} (knows : Knows db phase) (lasts : Lasting db db') : Knows db' phase := by
  cases phase with
  | pendingRuns runs => exact fun run member => (knows run member).mono lasts
  | alternateRun job => exact jobById_mono knows lasts
  | activateRun run job => exact ⟨knows.1.mono lasts, jobById_mono knows.2 lasts⟩
  | haveRemote act remote | haveRepo act remote =>
    obtain ⟨queued, ofJob, origin⟩ := knows
    exact ⟨queued.mono lasts, jobById_mono ofJob lasts, remoteById_mono origin lasts⟩
  | haveSha act remote sha =>
    obtain ⟨queued, row, ofJob, url⟩ := knows
    exact ⟨queued.mono lasts, row, ofJob.mono lasts, url⟩
  | submit offer | awaitStarted offer | started offer =>
    obtain ⟨queued, row, ofJob, url⟩ := knows
    exact ⟨queued.mono lasts, row, ofJob.mono lasts, url⟩
  | running job | replying job | metric job | taskStatus job | recordResult job =>
    obtain ⟨queued, row, ofJob⟩ := knows
    exact ⟨queued.mono lasts, row, ofJob.mono lasts⟩
  | haveJob job info remoteId =>
    obtain ⟨queued, row, ofJob, held⟩ := knows
    exact ⟨queued.mono lasts, row, ofJob.mono lasts, lasts.remotes _ _ held⟩
  | notifying job info repoId =>
    obtain ⟨queued, row, ofJob, owned⟩ := knows
    exact ⟨queued.mono lasts, row, ofJob.mono lasts, owned⟩
  | findWork | idle | awaitPong | deadline | returned | panicked => trivial

theorem knows_over {phase : Phase} (ended : phase.isOver = true) : Knows db phase := by
  cases phase <;> trivial

theorem step_commitSha
    (stepped : taskStep client db (.haveRepo act remote) (.call now) = some (db', .haveSha act remote sha)) :
    db.commits.get? act.job.commitId = some sha := by
  simp only [taskStep, Option.some.injEq, Prod.mk.injEq] at stepped
  obtain ⟨_, read⟩ := stepped
  unfold commitSha at read
  cases found : db.commits.get? act.job.commitId with
  | none => simp [found] at read
  | some commit =>
    simp only [found, Phase.haveSha.injEq, true_and] at read
    rw [read]

theorem step_jobRepo
    (stepped : taskStep client db (.haveJob job info remoteId) (.call now) =
      some (db', .notifying job info repoId)) :
    ∃ row, db.remotes.get? remoteId = some row ∧ row.repoId = repoId := by
  simp only [taskStep, Option.some.injEq, Prod.mk.injEq] at stepped
  obtain ⟨value, found, same⟩ := orPanic_eq stepped.2 (by simp)
  cases same
  exact Option.map_eq_some_iff.mp found

theorem handleMessage_knows (knows : Knows db (.running job)) (received : Received) :
    Knows db (handleMessage job received) := by
  cases received with
  | message msg => cases msg <;> first | exact knows | trivial
  | hangup | failed | undecodable => trivial

/-- What a task learns in a step it has just read, or had before. -/
theorem taskStep_knows (knows : Knows db phase) (lasts : Lasting db db')
    (stepped : taskStep client db phase action = some (db', next)) : Knows db' next := by
  cases taskStep_moves stepped with
  | ends ended => exact knows_over ended
  | getPendingRuns =>
    intro run queued
    obtain ⟨row, found, _, _, same, _⟩ := mem_getPendingRuns.mp queued
    exact ⟨row, found, same⟩
  | takes found => exact ⟨knows _ List.mem_cons_self, found⟩
  | declines => exact fun run member => knows run (List.mem_cons_of_mem _ member)
  | alternate needed found =>
    exact ((mem_jobsNeedingTaskRunsForHost needed).mp (List.mem_of_find?_eq_some found)).1
  | newRun => exact ⟨newRun_queued db _ _ _, jobById_mono knows lasts⟩
  | remoteById => exact ⟨knows.1, knows.2, step_remoteById stepped⟩
  | commitSha =>
    obtain ⟨queued, ofJob, origin⟩ := knows
    exact ⟨queued, jobOf_of_lookups ofJob origin (step_commitSha stepped)⟩
  | activates =>
    have later : Knows _ (.started _) := knows.mono lasts
    obtain ⟨queued, row, ofJob, _⟩ := later
    exact ⟨queued, row, ofJob⟩
  | reads =>
    cases stepped
    exact handleMessage_knows knows _
  | jobById =>
    obtain ⟨queued, row, ofJob⟩ := knows
    obtain ⟨job, found, rfl⟩ := step_jobRemote stepped
    refine ⟨queued, row, ofJob, ?_⟩
    obtain ⟨jobRow, held, _, origin⟩ := ofJob
    rw [Db.jobById, held] at found
    cases found
    exact origin
  | repoIdByRemote =>
    obtain ⟨queued, row, ofJob, held⟩ := knows
    obtain ⟨row', held', owned⟩ := step_jobRepo stepped
    cases Option.some.inj (held.symm.trans held')
    exact ⟨queued, row, ofJob, owned⟩
  | notifies =>
    obtain ⟨queued, row, ofJob, _⟩ := knows
    exact ⟨queued, row, ofJob⟩
  | insertMetric | records => exact knows.mono lasts
  | repoById | reserves | offers | acked | replies => exact knows
  | nothing | pings | pong | again => trivial

end Driver

namespace WebServer
open Db
variable {db db' : Db}

/-- The remote of the repository that was pushed to. -/
def PushedTo (db : Db) (event : PushEvent) (remoteId : Nat) : Prop :=
  ∃ remote, db.remotes.get? remoteId = some remote ∧ remote.remoteGitUrl = remoteUrl event.repoName

/-- A job for the tip of the push. -/
def PushedJob (db : Db) (event : PushEvent) (jobId : Nat) : Prop :=
  ∃ remote, JobOf db jobId event.tip remote ∧ remote.remoteGitUrl = remoteUrl event.repoName

/-- What a handler holds. -/
def Knows (db : Db) (event : PushEvent) : PushPhase → Prop
  | .commitLookup remoteId _ | .runPreference remoteId _ | .newCommit remoteId _ _ _ =>
    PushedTo db event remoteId
  | .newJob remoteId _ _ _ commitId =>
    PushedTo db event remoteId ∧ db.commits.get? commitId = some event.tip
  | .newRun _ jobId _ => PushedJob db event jobId
  | .remotesByRepo _ jobId _ | .notifying jobId _ => (∃ run, RunOf db run jobId) ∧ PushedJob db event jobId
  | _ => True

variable {event : PushEvent}

theorem PushedTo.mono (known : PushedTo db event remoteId) (lasts : Lasting db db') :
    PushedTo db' event remoteId := by
  obtain ⟨remote, found, url⟩ := known
  exact ⟨remote, lasts.remotes _ _ found, url⟩

theorem PushedJob.mono (known : PushedJob db event jobId) (lasts : Lasting db db') :
    PushedJob db' event jobId := by
  obtain ⟨remote, ofJob, url⟩ := known
  exact ⟨remote, ofJob.mono lasts, url⟩

theorem Knows.mono {phase : PushPhase} (knows : Knows db event phase) (lasts : Lasting db db') :
    Knows db' event phase := by
  cases phase with
  | commitLookup | runPreference | newCommit => exact PushedTo.mono knows lasts
  | newJob => exact ⟨knows.1.mono lasts, lasts.commits _ _ knows.2⟩
  | newRun => exact PushedJob.mono knows lasts
  | remotesByRepo | notifying =>
    obtain ⟨⟨run, ofJob⟩, pushed⟩ := knows
    exact ⟨⟨run, ofJob.mono lasts⟩, pushed.mono lasts⟩
  | remoteLookup | commitName | notFound | handled | panicked => trivial

theorem remoteByGitUrl_pushedTo
    (found : remoteByGitUrl db (remoteUrl event.repoName) = some (remoteId, repoId)) :
    PushedTo db event remoteId := by
  obtain ⟨⟨id, row⟩, first, same⟩ := Option.map_eq_some_iff.mp found
  cases same
  have member := Table.mem_select.mp (List.mem_of_head? first)
  exact ⟨row, Table.get?_of_head?_select first, of_decide_eq_true member.2⟩

/-- What a handler learns from a statement. -/
theorem statement_knows (knows : Knows db event phase)
    (called : statement event db now phase = some (.ok (db', next))) : Knows db' event next := by
  cases phase with
  | remoteLookup =>
    simp only [statement, Option.some.injEq, Outcome.ok.injEq, Prod.mk.injEq] at called
    obtain ⟨rfl, rfl⟩ := called
    split
    · exact remoteByGitUrl_pushedTo ‹_›
    · trivial
  | commitLookup remoteId repoId =>
    simp only [statement, Option.some.injEq, Outcome.ok.injEq, Prod.mk.injEq] at called
    obtain ⟨rfl, rfl⟩ := called
    split
    · trivial
    · exact knows
  | runPreference remoteId repoId =>
    simp only [statement, Option.some.injEq] at called
    split at called
    · contradiction
    · cases called
      split
      · exact knows
      · trivial
  | newCommit remoteId repoId runPref email =>
    obtain ⟨⟨between, commitId⟩, made, rest⟩ := Outcome.bind_eq_ok.mp (Option.some.inj called)
    cases rest
    unfold Db.newCommit at made
    split at made
    · cases made
      exact ⟨knows, Table.get?_insert_self _ _⟩
    · contradiction
  | newJob remoteId repoId runPref email commitId =>
    cases called
    obtain ⟨⟨remote, found, url⟩, commit⟩ := knows
    exact ⟨remote, ⟨_, Table.get?_insert_self _ _, commit, found⟩, url⟩
  | newRun repoId jobId commitId =>
    cases called
    exact ⟨⟨_, newRun_queued db jobId none now⟩, knows⟩
  | remotesByRepo repoId jobId commitId =>
    cases called
    exact knows
  | commitName =>
    cases called
    trivial
  | notifying | notFound | handled | panicked => contradiction

end WebServer
end BuildOTron
