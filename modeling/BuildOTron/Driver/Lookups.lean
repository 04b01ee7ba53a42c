import BuildOTron.Core.Integrity
import BuildOTron.Driver.Steps

/-! What a task has in its hands came out of the database: the jobs, remotes and
commits it goes on to look up are there, so none of its lookups is answered with
nothing. -/
namespace BuildOTron.Driver
open Transition

/-- The jobs that a phase looks up, or adds a run to, by id. -/
def Phase.jobIds : Phase → List Nat
  | .pendingRuns runs => runs.map PendingRun.jobId
  | .alternateRun job => [job.id]
  | .activateRun run _ => [run.jobId]
  | .haveRemote act _ | .haveRepo act _ | .haveSha act _ _ => [act.run.jobId]
  | .submit offer | .awaitStarted offer | .started offer => [offer.run.jobId]
  | .running job | .replying job | .metric job _ _ | .taskStatus job _ | .haveJob job _ _
  | .notifying job _ _ | .recordResult job _ => [job.task.jobId]
  | _ => []

/-- The job whose remote and commit are still to be looked up. -/
def Phase.jobAtHand? : Phase → Option Job
  | .alternateRun job | .activateRun _ job => some job
  | .haveRemote act _ | .haveRepo act _ => some act.job
  | _ => none

/-- The remote whose repo is still to be looked up. -/
def Phase.remoteAtHand? : Phase → Option Remote
  | .haveRemote _ remote => some remote
  | _ => none

def Phase.remoteId? : Phase → Option Nat
  | .haveJob _ _ remoteId => some remoteId
  | _ => none

/-- The next call is a lookup by id that is `expect`ed to find something. -/
def Phase.looksUp : Phase → Bool
  | .pendingRuns (_ :: _) | .activateRun _ _ | .haveRemote _ _ | .haveRepo _ _ | .taskStatus _ _
  | .haveJob _ _ _ => true
  | _ => false

structure Grounded (db : Db) (phase : Phase) : Prop where
  jobs : ∀ id ∈ phase.jobIds, (db.jobs.get? id).isSome
  job : ∀ job, phase.jobAtHand? = some job →
    (db.remotes.get? job.remoteId).isSome ∧ (db.commits.get? job.commitId).isSome
  repo : ∀ remote, phase.remoteAtHand? = some remote → (db.repos.get? remote.repoId).isSome
  remote : ∀ remoteId, phase.remoteId? = some remoteId → (db.remotes.get? remoteId).isSome

variable {db db' : Db} {phase next : Phase}

theorem Grounded.mono (grounded : Grounded db phase) (upholds : db.Upholds db') :
    Grounded db' phase where
  jobs id member := upholds.jobs id (grounded.jobs id member)
  job job held :=
    ⟨upholds.remotes _ (grounded.job job held).1, upholds.commits _ (grounded.job job held).2⟩
  repo remote held := upholds.repos _ (grounded.repo remote held)
  remote remoteId held := upholds.remotes _ (grounded.remote remoteId held)

/-- A phase that carries no more than another carries. -/
theorem Grounded.carry (grounded : Grounded db phase) (jobs : ∀ id ∈ next.jobIds, id ∈ phase.jobIds)
    (job : next.jobAtHand? = none ∨ next.jobAtHand? = phase.jobAtHand?)
    (repo : next.remoteAtHand? = none) (remote : next.remoteId? = none) : Grounded db next where
  jobs id member := grounded.jobs id (jobs id member)
  job held same := by
    rcases job with none | kept
    · rw [none] at same
      contradiction
    · exact grounded.job held (kept ▸ same)
  repo held same := by
    rw [repo] at same
    contradiction
  remote held same := by
    rw [remote] at same
    contradiction

theorem grounded_empty (jobs : next.jobIds = []) (job : next.jobAtHand? = none)
    (repo : next.remoteAtHand? = none) (remote : next.remoteId? = none) : Grounded db next where
  jobs id member := by
    rw [jobs] at member
    contradiction
  job held same := by
    rw [job] at same
    contradiction
  repo held same := by
    rw [repo] at same
    contradiction
  remote held same := by
    rw [remote] at same
    contradiction

theorem grounded_over (ended : next.isOver = true) : Grounded db next := by
  cases next <;> first | exact grounded_empty rfl rfl rfl rfl | contradiction

theorem orPanic_eq {found : Option α} {make : α → Phase} (same : orPanic found make = next)
    (alive : next ≠ .panicked) : ∃ value, found = some value ∧ make value = next := by
  cases found with
  | none => exact absurd same.symm alive
  | some value => exact ⟨value, rfl, same⟩

theorem step_remoteById
    (stepped : taskStep client db (.activateRun run job) (.call now) =
      some (db', .haveRemote act remote)) :
    db.remoteById job.remoteId = some remote := by
  simp only [taskStep, Option.some.injEq, Prod.mk.injEq] at stepped
  obtain ⟨value, found, same⟩ := orPanic_eq stepped.2 (by simp)
  cases same
  exact found

theorem step_jobRemote
    (stepped : taskStep client db (.taskStatus job info) (.call now) =
      some (db', .haveJob job info remoteId)) :
    ∃ found, db.jobById job.task.jobId = some found ∧ found.remoteId = remoteId := by
  simp only [taskStep, Option.some.injEq, Prod.mk.injEq] at stepped
  obtain ⟨value, found, same⟩ := orPanic_eq stepped.2 (by simp)
  cases same
  exact ⟨value, found, rfl⟩

theorem handleMessage_grounded (grounded : Grounded db (.running job)) (received : Received) :
    Grounded db (handleMessage job received) := by
  cases received with
  | message msg =>
    cases msg <;>
      first
      | exact grounded_over rfl
      | exact grounded.carry (fun _ member => member) (.inl rfl) rfl rfl
  | hangup | failed | undecodable => exact grounded_over rfl

/-- A task's move keeps every reference. -/
theorem taskStep_upholds (grounded : Grounded db phase)
    (stepped : taskStep client db phase action = some (db', next)) : db.Upholds db' := by
  cases taskStep_moves stepped with
  | newRun => exact Db.newRun_upholds (grounded.jobs _ List.mem_cons_self) _ _
  | activates => exact Db.updateRun_upholds _ _ fun _ => rfl
  | records => exact Db.updateRun_upholds _ _ fun _ => rfl
  | insertMetric =>
    rw [Db.insertMetric_eq]
    exact Db.upholds_aside _ _ _ _ _
  | _ => exact .refl _

/-- What a task holds after its move was there before it, or has just been read. -/
theorem taskStep_grounded (integral : db.Integral) (grounded : Grounded db phase)
    (stepped : taskStep client db phase action = some (db', next)) : Grounded db' next := by
  have upholds := taskStep_upholds grounded stepped
  suffices kept : Grounded db next from kept.mono upholds
  cases taskStep_moves stepped with
  | ends ended => exact grounded_over ended
  | getPendingRuns =>
    refine ⟨?_, nofun, nofun, nofun⟩
    intro id member
    obtain ⟨run, queued, rfl⟩ := List.mem_map.mp member
    exact integral.pending queued
  | takes found =>
    refine ⟨?_, ?_, nofun, nofun⟩
    · intro id member
      cases List.mem_singleton.mp member
      exact grounded.jobs _ List.mem_cons_self
    · rintro _ ⟨⟩
      exact integral.job found
  | declines => exact grounded.carry (fun _ => List.mem_cons_of_mem _) (.inl rfl) rfl rfl
  | alternate needed found =>
    have listed := ((Db.mem_jobsNeedingTaskRunsForHost needed).mp (List.mem_of_find?_eq_some found)).1
    refine ⟨?_, ?_, nofun, nofun⟩
    · intro id member
      cases List.mem_singleton.mp member
      rw [← Db.jobById_known, listed]
      rfl
    · rintro _ ⟨⟩
      exact integral.job listed
  | remoteById =>
    have found := step_remoteById stepped
    refine ⟨grounded.jobs, grounded.job, ?_, nofun⟩
    rintro _ ⟨⟩
    exact integral.remote found
  | jobById =>
    obtain ⟨job, found, rfl⟩ := step_jobRemote stepped
    refine ⟨grounded.jobs, nofun, nofun, ?_⟩
    rintro _ ⟨⟩
    exact (integral.job found).1
  | reads =>
    cases stepped
    exact handleMessage_grounded grounded _
  | nothing | pings | pong | again => exact grounded_empty rfl rfl rfl rfl
  | newRun | repoById =>
    exact grounded.carry (fun _ member => member) (.inr rfl) rfl rfl
  | _ => exact grounded.carry (fun _ member => member) (.inl rfl) rfl rfl

theorem orPanic_ne {found : Option α} {make : α → Phase} (known : found.isSome)
    (each : ∀ value, make value ≠ .panicked) : orPanic found make ≠ .panicked := by
  obtain ⟨value, rfl⟩ := Option.isSome_iff_exists.mp known
  exact each value

/-- No lookup of a task that holds only what is there comes back empty. -/
theorem Grounded.lookup (grounded : Grounded db phase) (looks : phase.looksUp = true)
    (stepped : taskStep client db phase (.call now) = some (db', next)) : next ≠ .panicked := by
  cases phase with
  | pendingRuns runs =>
    cases runs with
    | nil => contradiction
    | cons run rest =>
      cases stepped
      have known := grounded.jobs _ List.mem_cons_self
      rw [← Db.jobById_known] at known
      refine orPanic_ne known fun job => ?_
      split <;> simp
  | activateRun run job =>
    cases stepped
    refine orPanic_ne ?_ (by simp)
    rw [Db.remoteById, Option.isSome_map]
    exact (grounded.job job rfl).1
  | haveRemote act remote =>
    cases stepped
    refine orPanic_ne ?_ (by simp)
    rw [Db.repoById, Option.isSome_map]
    exact grounded.repo remote rfl
  | haveRepo act remote =>
    obtain ⟨sha, found⟩ := Option.isSome_iff_exists.mp (grounded.job act.job rfl).2
    have read : db.commitSha act.job.commitId = .ok sha := by rw [Db.commitSha, found]
    simp only [taskStep, read, Option.some.injEq, Prod.mk.injEq] at stepped
    obtain ⟨rfl, rfl⟩ := stepped
    simp
  | taskStatus job info =>
    cases stepped
    refine orPanic_ne ?_ (by simp)
    rw [Db.jobById_known]
    exact grounded.jobs _ List.mem_cons_self
  | haveJob job info remoteId =>
    cases stepped
    refine orPanic_ne ?_ (by simp)
    rw [Db.repoIdByRemote, Option.isSome_map]
    exact grounded.remote remoteId rfl
  | _ => contradiction

/-- A queued run of a job that is not there, with no host preference, is in every
client's queue, and panics the task of each client that comes to it. -/
theorem dangling_run_stops (found : db.runs.get? run = some row) (queued : row.state = .pending)
    (anyone : row.hostPreference = none) (missing : db.jobs.get? row.jobId = none)
    (client : RunnerClient) :
    ∃ pending ∈ db.getPendingRuns (some client.hostId), pending.id = run ∧
      ∀ rest now, taskStep client db (.pendingRuns (pending :: rest)) (.call now) =
        some (db, .panicked) := by
  refine ⟨⟨run, row.jobId, row.createdTime⟩, ?_, rfl, ?_⟩
  · exact Db.mem_getPendingRuns.mpr ⟨row, found, queued, .inr anyone, rfl, rfl⟩
  · intro rest now
    have unknown : db.jobById row.jobId = none := by rw [Db.jobById, missing, Option.map_none]
    simp only [taskStep, unknown, orPanic]

/-! The whole driver. -/

def TasksGrounded (s : State) : Prop :=
  ∀ c task, s.tasks c = some task → Grounded s.db task.phase

theorem connect_upholds (tokenForJob : Nat → String) (s : State) (hostInfo : HostInfo)
    (accepted : Option (List String)) :
    s.db.Upholds (s.connect tokenForJob hostInfo accepted).db := by
  rw [connect_db]
  exact Db.upholds_aside _ _ _ _ _

theorem reaper_upholds (stepped : reaperStep db activeTasks now reaper = some (db', reaper')) :
    db.Upholds db' := by
  cases reaper with
  | reaping stale =>
    cases stale with
    | nil => cases stepped; exact .refl _
    | cons run rest => cases stepped; exact Db.updateRun_upholds _ _ fun _ => rfl
  | start | activeRuns | unclaimed => cases stepped; exact .refl _
  | done => contradiction

theorem answerPost_upholds (poisoned : Bool) (db : Db) (post : ArtifactPost) (now : Nat)
    (fileCreated : Bool) : db.Upholds (answerPost poisoned db post now fileCreated).1 := by
  rw [answerPost_writes]
  exact Db.upholds_aside _ _ _ _ _

theorem attempt_grounded {s : State} {task : Task} (integral : s.db.Integral)
    (grounded : Grounded s.db task.phase) (moved : s.attempt task action = some (db, next)) :
    s.db.Upholds db ∧ Grounded db next := by
  obtain stepped | ⟨_, _, rfl, rfl⟩ := attempt_cases moved
  · exact ⟨taskStep_upholds grounded stepped, taskStep_grounded integral grounded stepped⟩
  · exact ⟨.refl _, grounded_over rfl⟩

/-- Every step of the driver's own keeps every reference, in the database and in its
tasks' hands. -/
theorem step_upholds (integral : s.db.Integral) (grounded : TasksGrounded s)
    (own : ∀ write, l ≠ .outside write) (stepped : (machine tokenForJob).step s l = some t) :
    s.db.Upholds t.db ∧ TasksGrounded t := by
  cases l with
  | connect hostInfo accepted =>
    cases stepped
    have upholds := connect_upholds tokenForJob s hostInfo accepted
    refine ⟨upholds, ?_⟩
    intro c task found
    obtain ⟨_, fresh, _⟩ | old := connect_cases found
    · rw [fresh]
      exact grounded_empty rfl rfl rfl rfl
    · exact (grounded c task old).mono upholds
  | task c action =>
    obtain ⟨task, db, next, found, moved, rfl⟩ := step_attempt stepped
    obtain ⟨upholds, held⟩ := attempt_grounded integral (grounded c task found) moved
    rw [TasksGrounded, moveTask_db]
    refine ⟨upholds, ?_⟩
    intro c' task' found'
    obtain ⟨_, rfl⟩ | ⟨_, old⟩ := moveTask_cases found'
    · exact held
    · exact (grounded c' task' old).mono upholds
  | reaper now =>
    obtain ⟨db, reaper, moved, rfl⟩ := step_reaper stepped
    have upholds := reaper_upholds moved
    exact ⟨upholds, fun c task found => (grounded c task found).mono upholds⟩
  | post post now fileCreated =>
    cases stepped
    have upholds := answerPost_upholds s.poisoned s.db post now fileCreated
    exact ⟨upholds, fun c task found => (grounded c task found).mono upholds⟩
  | outside write => exact absurd rfl (own write)
  | restart =>
    cases stepped
    exact ⟨.refl _, fun _ _ found => by contradiction⟩

end BuildOTron.Driver
