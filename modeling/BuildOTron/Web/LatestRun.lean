import BuildOTron.Lib.Greatest
import BuildOTron.Web.JobMetrics
import BuildOTron.Web.RepoSummary

/-! The run that the index shows for a repo. The newest job of each remote is asked for its
last run, and of these runs the one created last is shown. -/
namespace BuildOTron.Web

/-- Every run of every job of every remote of the repo. -/
def repoRuns (db : Db) (repoId : Nat) : List Run :=
  (db.remotesByRepo repoId).flatMap fun remote =>
    (remoteJobs db remote.id).flatMap fun job => jobRuns db job.id

/-- NULL is below every number. -/
def nullsBelow (time : Option Nat) : WithBot Nat := time

def startKey (run : Run) : WithBot Nat := nullsBelow run.startTime

/-- The rows that SQLite answers to the two queries, where several may come first. -/
structure LastRows (db : Db) where
  lastJob : Nat → Option Job
  lastRun : Nat → Option Run
  newest : ∀ remoteId, Greatest Job.createdTime (remoteJobs db remoteId) (lastJob remoteId)
  started : ∀ jobId, Greatest startKey (jobRuns db jobId) (lastRun jobId)

namespace LastRows
variable {db : Db}

def lastRunFromRemote (rows : LastRows db) (remote : Remote) : Option (Job × Run) := do
  let lastJob ← rows.lastJob remote.id
  let lastRun ← rows.lastRun lastJob.id
  return (lastJob, lastRun)

def mostRecentRun (rows : LastRows db) (repo : Repo) : Option (Job × Run) :=
  (db.remotesByRepo repo.id).foldl
    (fun mostRecent remote => keepNewer mostRecent (rows.lastRunFromRemote remote)) none

end LastRows

theorem nullLe_iff {a b : Option Nat} : Db.nullLe a b ↔ nullsBelow a ≤ nullsBelow b := by
  cases a with
  | none => exact iff_of_true rfl (bot_le : (⊥ : WithBot Nat) ≤ nullsBelow b)
  | some a =>
    cases b with
    | none => exact iff_of_false nofun (WithBot.not_coe_le_bot a)
    | some b => exact decide_eq_true_iff.trans (WithBot.coe_le_coe (α := Nat)).symm

theorem lastJobFromRemote_greatest (db : Db) (remoteId : Nat) :
    Greatest Job.createdTime (remoteJobs db remoteId) (db.lastJobFromRemote remoteId) :=
  .of_top (recentJobs_top (recentJobsFromRemote_recent remoteId 1))

theorem lastRunForJob_greatest (db : Db) (jobId : Nat) :
    Greatest startKey (jobRuns db jobId) (db.lastRunForJob jobId) := by
  let later (a b : Nat × RunRow) : Prop := Db.nullLe b.2.startedTime a.2.startedTime
  have total : Std.Total later := ⟨fun a b => by simp only [later, nullLe_iff, le_total]⟩
  have trans : IsTrans (Nat × RunRow) later :=
    ⟨fun a b c first second => nullLe_iff.mpr ((nullLe_iff.mp second).trans (nullLe_iff.mp first))⟩
  rw [Db.lastRunForJob, ← List.head?_map]
  refine .of_sorted ((List.perm_insertionSort _ _).symm.map _) ?_
  rw [List.pairwise_map]
  exact (List.pairwise_insertionSort later _).imp fun above => nullLe_iff.mp above

/-- The answers of a sort that keeps the order of ids among equals. -/
def LastRows.stable (db : Db) : LastRows db where
  lastJob := db.lastJobFromRemote
  lastRun := db.lastRunForJob
  newest := lastJobFromRemote_greatest db
  started := lastRunForJob_greatest db

theorem mostRecentRun_stable (db : Db) (repo : Repo) :
    (LastRows.stable db).mostRecentRun repo = mostRecentRun db repo := rfl

def LatestShown (db : Db) (repo : Repo) (shown : Option (Job × Run)) : Prop :=
  ∃ job run, shown = some (job, run) ∧
    ∀ other ∈ repoRuns db repo.id, other.createTime ≤ run.createTime

/-- A repo that has a run is shown with one that none of its runs was created after. -/
def IndexLatest (db : Db) (repo : Repo) : Prop :=
  repoRuns db repo.id ≠ [] → ∀ rows : LastRows db, LatestShown db repo (rows.mostRecentRun repo)

/-- Some remote has a job, each of its newest jobs has runs, and each of those that were
started last was created after all runs of the repo. -/
def NewestRunLast (db : Db) (repo : Repo) : Prop :=
  repoRuns db repo.id ≠ [] → ∃ remote ∈ db.remotesByRepo repo.id, remoteJobs db remote.id ≠ [] ∧
    ∀ job, Greatest Job.createdTime (remoteJobs db remote.id) (some job) →
      jobRuns db job.id ≠ [] ∧ ∀ run, Greatest startKey (jobRuns db job.id) (some run) →
        ∀ other ∈ repoRuns db repo.id, other.createTime ≤ run.createTime

section
variable {db : Db}

theorem mem_jobRuns {run : Run} : run ∈ jobRuns db jobId ↔
    ∃ row, db.runs.get? run.id = some row ∧ run = row.withId run.id ∧ row.jobId = jobId := by
  simp only [jobRuns, List.mem_map, Table.mem_select, decide_eq_true_eq]
  constructor
  · rintro ⟨⟨id, row⟩, ⟨found, same⟩, rfl⟩
    exact ⟨row, found, rfl, same⟩
  · rintro ⟨row, found, named, same⟩
    exact ⟨(run.id, row), ⟨found, same⟩, named.symm⟩

theorem mem_repoRuns {run : Run} : run ∈ repoRuns db repoId ↔ ∃ remote ∈ db.remotesByRepo repoId,
    ∃ job ∈ remoteJobs db remote.id, run ∈ jobRuns db job.id := by
  simp only [repoRuns, List.mem_flatMap]

theorem keepNewer_greatest {rows : List (Job × Run)} {best : Option (Job × Run)}
    (greatest : Greatest (fun shown : Job × Run => shown.2.createTime) rows best)
    (last : Option (Job × Run)) :
    Greatest (fun shown : Job × Run => shown.2.createTime) (rows ++ last.toList) (keepNewer best last) := by
  cases last with
  | none => simpa [keepNewer] using greatest
  | some last => exact greatest.keep last

/-- What is shown was created last of the remotes' runs. -/
theorem mostRecentRun_greatest (rows : LastRows db) (repo : Repo) :
    Greatest (fun shown : Job × Run => shown.2.createTime)
      ((db.remotesByRepo repo.id).filterMap rows.lastRunFromRemote) (rows.mostRecentRun repo) := by
  unfold LastRows.mostRecentRun
  induction db.remotesByRepo repo.id using List.reverseRecOn with
  | nil => rfl
  | append_singleton remotes remote ih =>
    rw [List.foldl_append, List.filterMap_append]
    have next := keepNewer_greatest ih (rows.lastRunFromRemote remote)
    cases last : rows.lastRunFromRemote remote with
    | none => simpa [last] using next
    | some found => simpa [last] using next

theorem lastRunFromRemote_eq_some {rows : LastRows db} {remote : Remote} :
    rows.lastRunFromRemote remote = some (job, run) ↔
      rows.lastJob remote.id = some job ∧ rows.lastRun job.id = some run := by
  simp only [LastRows.lastRunFromRemote, Option.bind_eq_bind, Option.bind_eq_some_iff, Option.pure_def,
    Option.some.injEq, Prod.mk.injEq]
  constructor
  · rintro ⟨_, newest, _, started, rfl, rfl⟩
    exact ⟨newest, started⟩
  · rintro ⟨newest, started⟩
    exact ⟨job, newest, run, started, rfl, rfl⟩

/-- So it is with the rows in the order of their ids. -/
theorem IndexLatest.shown {repo : Repo} (latest : IndexLatest db repo) (ran : repoRuns db repo.id ≠ []) :
    LatestShown db repo (mostRecentRun db repo) := by
  rw [← mostRecentRun_stable]
  exact latest ran (.stable db)

theorem NewestRunLast.latest {repo : Repo} (last : NewestRunLast db repo) : IndexLatest db repo := by
  intro ran rows
  obtain ⟨remote, listed, jobs, each⟩ := last ran
  have newest := rows.newest remote.id
  obtain ⟨job, first⟩ := newest.exists_of_ne_nil jobs
  rw [first] at newest
  obtain ⟨runs, above⟩ := each job newest
  have started := rows.started job.id
  obtain ⟨run, later⟩ := started.exists_of_ne_nil runs
  rw [later] at started
  have member : (job, run) ∈ (db.remotesByRepo repo.id).filterMap rows.lastRunFromRemote :=
    List.mem_filterMap.mpr ⟨remote, listed, lastRunFromRemote_eq_some.mpr ⟨first, later⟩⟩
  have greatest := mostRecentRun_greatest rows repo
  obtain ⟨⟨job', run'⟩, shown⟩ := greatest.exists_of_ne_nil (List.ne_nil_of_mem member)
  rw [shown] at greatest
  exact ⟨job', run', shown, fun other listed => Nat.le_trans (above run started other listed)
    (greatest.2 (job, run) member)⟩

/-- The run does not come up to all runs of the repo. -/
def Outdone (db : Db) (repo : Repo) (run : Run) : Prop :=
  ∃ other ∈ repoRuns db repo.id, run.createTime < other.createTime

/-- Where every remote has a newest job that is no good, SQLite may answer these jobs, and
for each its run that is no good. -/
theorem IndexLatest.newest {repo : Repo} (latest : IndexLatest db repo) : NewestRunLast db repo := by
  intro ran
  by_contra missing
  choose lastRun started adverse using fun jobId =>
    Greatest.exists_adverse startKey (jobRuns db jobId) (Outdone db repo)
  choose lastJob newest adverseJob using fun remoteId =>
    Greatest.exists_adverse Job.createdTime (remoteJobs db remoteId) fun job =>
      ∀ run, lastRun job.id = some run → Outdone db repo run
  let rows : LastRows db := ⟨lastJob, lastRun, newest, started⟩
  obtain ⟨job, run, shown, above⟩ := latest ran rows
  have greatest := mostRecentRun_greatest rows repo
  rw [shown] at greatest
  obtain ⟨remote, listed, answered⟩ := List.mem_filterMap.mp greatest.1
  obtain ⟨first, later⟩ := lastRunFromRemote_eq_some.mp answered
  have chosen := newest remote.id
  rw [show lastJob remote.id = some job from first] at chosen
  refine missing ⟨remote, listed, List.ne_nil_of_mem chosen.1, fun other best => ?_⟩
  -- a newest job that is no good would have been answered, and `job` is not one
  by_contra bad
  obtain ⟨answer, answered, outdone⟩ := adverseJob remote.id other best (by
    intro last found
    have runs := started other.id
    rw [found] at runs
    rw [not_and] at bad
    have bad := bad (List.ne_nil_of_mem runs.1)
    push Not at bad
    obtain ⟨worst, greatest, later, member, below⟩ := bad
    obtain ⟨_, same, outdone⟩ := adverse other.id worst greatest ⟨later, member, below⟩
    cases found.symm.trans same
    exact outdone)
  cases answered.symm.trans first
  obtain ⟨later, member, below⟩ := outdone run later
  exact Nat.not_lt.mpr (above later member) below

theorem indexLatest_iff (db : Db) (repo : Repo) : IndexLatest db repo ↔ NewestRunLast db repo :=
  ⟨IndexLatest.newest, NewestRunLast.latest⟩

end
end BuildOTron.Web
