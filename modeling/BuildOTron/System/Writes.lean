import BuildOTron.System.Integrity

/-! What the programs write, for whoever wants to know what their writes keep. A policy says
which commits, runs and starts are let through; whatever allows the writes that are let
through is kept by every step that a policy admits. -/
namespace BuildOTron.System
open Transition

structure Policy where
  commit : String → Prop
  /-- a run of a job, with the time it is created at -/
  run : Db → Nat → Nat → Prop
  start : Nat → Prop

namespace Policy
variable (policy : Policy)

/-- `create` adds this job, and then a run of it to this database. -/
def Creates (env : Ctl.Environment) (repo commit pusherEmail : String) (db db' : Db) (jobId : Nat) : Prop :=
  ∃ parts remote runPref commitId, Ctl.repoParts repo = .ok parts ∧
    db.remoteByPathAndApi parts.1 parts.2 = some remote ∧
    db.newJob remote.id commit (some pusherEmail) runPref env.jobTime = .ok (db', jobId, commitId)

def AdmitsCommand (env : Ctl.Environment) (db : Db) : Ctl.Command → Prop
  | .create repo commit pusherEmail => policy.commit commit ∧ ∀ db' jobId,
      Creates env repo commit pusherEmail db db' jobId → policy.run db' jobId env.runTime
  | .rerun which => policy.run db which.toNat env.runTime
  | .rerunCommit commit => ∀ jobId, db.jobForCommit commit = some jobId →
      policy.run db jobId env.runTime
  | .addRepo .. | .addRemote .. => True

/-- The same for the statement that a push handler has come to. -/
def AdmitsPush (event : WebServer.PushEvent) (db : Db) (now : Nat) : WebServer.PushPhase → Prop
  | .newCommit .. => policy.commit event.tip
  | .newRun _ jobId _ => policy.run db jobId now
  | _ => True

/-- The same for a client's task. A run that is started gets the time its activation began. -/
def AdmitsTask (db : Db) (now : Nat) : Driver.Phase → Prop
  | .alternateRun job => policy.run db job.id now
  | .started offer => policy.start offer.now
  | _ => True

def Admits (s : State) : Label → Prop
  | .ctl command env => policy.AdmitsCommand env s.db command
  | .web (.call i now) => ∀ handler, s.handlers[i]? = some handler →
      policy.AdmitsPush handler.event s.db now handler.phase
  | .driver (.task c (.call now)) => ∀ task, s.driver.tasks c = some task →
      policy.AdmitsTask s.db now task.phase
  | _ => True

end Policy

/-- The writes that a policy lets through are along the relation. -/
structure Rules (policy : Policy) (R : Db → Db → Prop) : Prop where
  aside : ∀ {db db' : Db}, db'.commits = db.commits → db'.jobs = db.jobs → db'.runs = db.runs → R db db'
  commit : ∀ {db db' : Db} {sha commitId}, policy.commit sha →
    db.newCommit sha = .ok (db', commitId) → R db db'
  job : ∀ (db : Db) remoteId commitId pusher runPref now,
    R db (db.insertJob remoteId commitId pusher runPref now).1
  run : ∀ {db : Db} {jobId now}, policy.run db jobId now → ∀ pref, R db (db.newRun jobId pref now).1
  update : ∀ (db : Db) id {f : RunRow → RunRow},
    (∀ row, (f row).jobId = row.jobId ∧ (f row).createdTime = row.createdTime) →
    (∀ row time, (f row).startedTime = some time → row.startedTime = some time ∨ policy.start time) →
    R db { db with runs := db.runs.update id f }

namespace Rules
variable {policy : Policy} {R : Db → Db → Prop} {db db' : Db}

theorem newJob_along [IsTrans Db R] (rules : Rules policy R) (admitted : policy.commit sha)
    (made : db.newJob remoteId sha pusher runPref now = .ok (db', ids)) : R db db' := by
  obtain ⟨⟨between, commitId⟩, inserted, rest⟩ := Outcome.bind_eq_ok.mp made
  cases rest
  exact IsTrans.trans db between _ (rules.commit admitted inserted)
    (rules.job between remoteId commitId pusher runPref now)

variable [Std.Refl R]

section Ctl

theorem ctlRun_along (rules : Rules policy R) (admitted : policy.run db jobId now) :
    R db (Ctl.newRun jobId now db).2 := by
  refine Effect.call_relates fun db' run made => ?_
  cases made
  exact rules.run admitted none

theorem ctlRepo_along (rules : Rules policy R) (name : String) (db : Db) : R db (Ctl.newRepo name db).2 := by
  refine Effect.call_relates fun db' repoId made => ?_
  have inserted := Outcome.mapErr_eq_ok.mp made
  unfold Db.newRepo at inserted
  split at inserted
  · cases inserted
    exact rules.aside rfl rfl rfl
  · contradiction

theorem ctlRemote_along (rules : Rules policy R) (repoId : Nat) (remote remoteKind config : String) (db : Db) :
    R db (Ctl.newRemote repoId remote remoteKind config db).2 := by
  refine Effect.call_relates fun db' remoteId made => ?_
  have inserted := Outcome.expect_eq_ok.mp made
  unfold Db.newRemote at inserted
  split at inserted
  · cases inserted
    exact rules.aside rfl rfl rfl
  · contradiction

theorem execute_along [IsTrans Db R] (rules : Rules policy R) {command : Ctl.Command}
    (admitted : policy.AdmitsCommand env db command) : R db (Ctl.execute env command db).2 := by
  have idle : ∀ db : Db, R db db := Std.Refl.refl
  cases command with
  | addRepo name remote remoteKind config =>
    refine Effect.bind_relates (idle db) fun described _ => ?_
    refine Effect.bind_relates (rules.ctlRepo_along name db) fun repoId _ => ?_
    cases described with
    | none => exact idle _
    | some described =>
      refine Effect.bind_relates (idle _) fun _ _ => ?_
      exact Effect.bind_relates (rules.ctlRemote_along _ _ _ _ _) fun _ _ => idle _
  | addRemote repoName remote remoteKind config =>
    refine Effect.bind_relates (idle db) fun repoId _ => ?_
    refine Effect.bind_relates (idle _) fun _ _ => ?_
    exact Effect.bind_relates (rules.ctlRemote_along _ _ _ _ _) fun _ _ => idle _
  | rerun which => exact Effect.bind_relates (rules.ctlRun_along admitted) fun _ _ => idle _
  | rerunCommit commit =>
    refine Effect.bind_relates (idle db) fun jobId found => ?_
    cases jobId with
    | none => exact idle _
    | some jobId =>
      have found : db.jobForCommit commit = some jobId := Outcome.ok.inj found
      exact Effect.bind_relates (rules.ctlRun_along (admitted jobId found)) fun _ _ => idle _
  | create repo commit pusherEmail =>
    obtain ⟨sha, runs⟩ := admitted
    refine Effect.bind_relates (idle db) fun parts split => ?_
    refine Effect.bind_relates (idle db) fun remote found => ?_
    refine Effect.bind_relates (idle db) fun owner _ => ?_
    refine Effect.bind_relates (Effect.call_relates ?_) fun made job => ?_
    · exact fun db' ids made => rules.newJob_along sha (Outcome.expect_eq_ok.mp made)
    · have inserted := Outcome.expect_eq_ok.mp (Effect.call_eq_ok job)
      have named : db.remoteByPathAndApi parts.1 parts.2 = some remote := by
        simp only [Effect.read_apply] at found
        split at found
        · cases found
          assumption
        · contradiction
      refine Effect.bind_relates (rules.ctlRun_along (runs _ _ ?_)) fun _ _ => idle _
      exact ⟨parts, remote, _, _, split, named, inserted⟩

end Ctl

theorem statement_along (rules : Rules policy R) (admitted : policy.AdmitsPush event db now phase)
    (called : WebServer.statement event db now phase = some (.ok (db', next))) : R db db' := by
  cases phase with
  | remoteLookup | commitLookup | remotesByRepo =>
    cases called
    exact Std.Refl.refl db
  | runPreference remoteId repoId =>
    simp only [WebServer.statement, Option.some.injEq] at called
    split at called
    · contradiction
    · cases called
      exact Std.Refl.refl db
  | newCommit remoteId repoId runPref email =>
    obtain ⟨⟨between, commitId⟩, made, rest⟩ := Outcome.bind_eq_ok.mp (Option.some.inj called)
    cases rest
    exact rules.commit admitted made
  | newJob =>
    cases called
    exact rules.job _ _ _ _ _ _
  | newRun repoId jobId commitId =>
    cases called
    exact rules.run admitted none
  | commitName =>
    cases called
    exact rules.aside rfl rfl rfl
  | notifying | notFound | handled | panicked => contradiction

theorem task_along (rules : Rules policy R) (admitted : ∀ now, action = .call now → policy.AdmitsTask db now phase)
    (moves : Driver.Moves client db phase action db' next) : R db db' := by
  cases moves with
  | newRun => exact rules.run (admitted _ rfl) _
  | activates =>
    have started := admitted _ rfl
    refine rules.update db _ (fun _ => ⟨rfl, rfl⟩) fun row time began => .inr ?_
    cases began
    exact started
  | insertMetric =>
    rw [Db.insertMetric_eq]
    exact rules.aside rfl rfl rfl
  | records => exact rules.update db _ (fun _ => ⟨rfl, rfl⟩) fun _ _ began => .inl began
  | _ => exact Std.Refl.refl db

theorem reaper_along (rules : Rules policy R)
    (moved : Driver.reaperStep db activeTasks now reaper = some (db', reaper')) : R db db' := by
  cases reaper with
  | reaping stale =>
    cases stale with
    | nil =>
      cases moved
      exact Std.Refl.refl db
    | cons run rest =>
      cases moved
      exact rules.update db _ (fun _ => ⟨rfl, rfl⟩) fun _ _ began => .inl began
  | start | activeRuns | unclaimed =>
    cases moved
    exact Std.Refl.refl db
  | done => contradiction

theorem driver_along [IsTrans Db R] (rules : Rules policy R) {s : State}
    (admitted : policy.Admits s (.driver label))
    (moved : (Driver.machine tokenForJob).step s.driver label = some driver)
    (own : ∀ write, label ≠ .outside write) : R s.db driver.db := by
  cases label with
  | connect hostInfo accepted =>
    cases moved
    rw [Driver.connect_db]
    exact rules.aside rfl rfl rfl
  | task c action =>
    obtain ⟨task, db, next, found, moves, rfl⟩ := Driver.step_task moved
    rw [Driver.moveTask_db]
    refine rules.task_along ?_ moves
    rintro now rfl
    exact admitted task found
  | reaper now =>
    obtain ⟨db, reaper, reaped, rfl⟩ := Driver.step_reaper moved
    exact rules.reaper_along reaped
  | post post now fileCreated =>
    cases moved
    rw [Driver.answerPost_writes]
    exact rules.aside rfl rfl rfl
  | outside write => exact absurd rfl (own write)
  | restart =>
    cases moved
    exact Std.Refl.refl s.db

/-- A step that is admitted goes along the relation. -/
theorem step_along [IsTrans Db R] (rules : Rules policy R) {s t : State} (admitted : policy.Admits s l)
    (stepped : (machine tokenForJob).step s l = some t) : R s.db t.db := by
  cases l with
  | ctl command env =>
    cases stepped
    exact rules.execute_along admitted
  | push | restartWeb =>
    cases stepped
    exact Std.Refl.refl s.db
  | web label =>
    obtain ⟨server, moved, rfl⟩ := Option.map_eq_some_iff.mp stepped
    cases WebServer.push_moves moved with
    | answers found healthy called => exact rules.statement_along (admitted _ found) called
    | panics | notified => exact Std.Refl.refl s.db
  | driver label =>
    obtain ⟨driver, moved, own, rfl⟩ := step_driver stepped
    exact rules.driver_along admitted moved own

end Rules
end BuildOTron.System
