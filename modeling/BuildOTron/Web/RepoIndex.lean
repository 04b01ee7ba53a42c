import BuildOTron.Core.Integrity

/-! `build_repo_index`: what the rows of its two tables are made from, up to the
text they are rendered to. -/
namespace BuildOTron.Web

structure BuildRow where
  job : Job
  run : Run
  jobCommit : String
  niceName : Option CommitName
  jobUrl : String
  commitUrl : String × Option String
  deriving DecidableEq, Repr

structure RepoIndex where
  /-- every repo with its most recent run -/
  repos : List (Repo × Option BuildRow)
  /-- the active tasks -/
  active : List (Repo × BuildRow)
  deriving DecidableEq, Repr

/-- "existing job references existing remote" -/
def jobRemote (db : Db) (job : Job) : Outcome String Remote :=
  Outcome.expectSome (db.remoteById job.remoteId)

def jobUrl (db : Db) (job : Job) (commitSha : String) : Outcome String String := do
  let remote ← jobRemote db job
  return remote.remotePath ++ "/" ++ commitSha

def commitUrl (db : Db) (job : Job) (commitSha : String) : Outcome String (String × Option String) := do
  let remote ← jobRemote db job
  return if remote.remoteApi = "github" then
    ("github", some (remote.remoteUrl ++ "/commit/" ++ commitSha))
  else (remote.remoteApi, none)

def lastRunFromRemote (db : Db) (remote : Remote) : Option (Job × Run) := do
  let lastJob ← db.lastJobFromRemote remote.id
  let lastRun ← db.lastRunForJob lastJob.id
  return (lastJob, lastRun)

/-- The first one stays when two were created at the same time. -/
def keepNewer (mostRecent : Option (Job × Run)) : Option (Job × Run) → Option (Job × Run)
  | none => mostRecent
  | some last =>
    if mostRecent.all fun run => run.2.createTime < last.2.createTime then some last else mostRecent

def mostRecentRun (db : Db) (repo : Repo) : Option (Job × Run) :=
  (db.remotesByRepo repo.id).foldl
    (fun mostRecent remote => keepNewer mostRecent (lastRunFromRemote db remote)) none

def buildRow (db : Db) (job : Job) (run : Run) : Outcome String BuildRow := do
  let jobCommit ← (db.commitSha job.commitId).expect
  let url ← jobUrl db job jobCommit
  let source ← commitUrl db job jobCommit
  return ⟨job, run, jobCommit, db.niceNameForCommit job.commitId, url, source⟩

def repoRow (db : Db) (repo : Repo) : Outcome String (Repo × Option BuildRow) :=
  match mostRecentRun db repo with
  | none => .ok (repo, none)
  | some (job, run) => do
    let row ← buildRow db job run
    return (repo, some row)

def activeRow (db : Db) (run : Run) : Outcome String (Repo × BuildRow) := do
  let job ← Outcome.expectSome (db.jobById run.jobId)
  let remote ← Outcome.expectSome (db.remoteById job.remoteId)
  let repo ← Outcome.expectSome (db.repoById remote.repoId)
  let row ← buildRow db job run
  return (repo, row)

def buildRepoIndex (db : Db) : Outcome String RepoIndex := do
  let repos ← db.getRepos.mapM (repoRow db)
  let active ← db.getActiveRuns.mapM (activeRow db)
  return ⟨repos, active⟩

section Lookups
variable {db : Db}

theorem recentJobsFromRemote_found {job : Job} (listed : job ∈ db.recentJobsFromRemote remoteId limit) :
    db.jobById job.id = some job := by
  obtain ⟨row, taken, rfl⟩ := List.mem_map.mp listed
  have member := List.mem_of_mem_take taken
  have found := (Table.mem_select.mp ((List.mem_insertionSort _).mp member)).1
  exact Option.map_eq_some_iff.mpr ⟨row.2, found, rfl⟩

/-- The job and the run that a remote is shown with were read from the tables. -/
theorem lastRunFromRemote_found {remote : Remote}
    (last : lastRunFromRemote db remote = some (job, run)) :
    db.jobById job.id = some job ∧ db.lastRunForJob job.id = some run := by
  simp only [lastRunFromRemote, Option.bind_eq_bind, Option.bind_eq_some_iff, Option.pure_def,
    Option.some.injEq, Prod.mk.injEq] at last
  obtain ⟨lastJob, found, lastRun, started, rfl, rfl⟩ := last
  exact ⟨recentJobsFromRemote_found (List.mem_of_getLast? found), started⟩

/-- The same for a repo. -/
theorem mostRecentRun_found {repo : Repo} (chosen : mostRecentRun db repo = some (job, run)) :
    db.jobById job.id = some job ∧ db.lastRunForJob job.id = some run := by
  have kept : ∀ job run, mostRecentRun db repo = some (job, run) →
      db.jobById job.id = some job ∧ db.lastRunForJob job.id = some run := by
    refine List.foldlRecOn
      (motive := fun best => ∀ job run, best = some (job, run) →
        db.jobById job.id = some job ∧ db.lastRunForJob job.id = some run) _ _ ?_ ?_
    · simp
    · intro best before remote _ job run same
      unfold keepNewer at same
      split at same
      · exact before job run same
      · split at same
        · cases same
          exact lastRunFromRemote_found ‹_›
        · exact before job run same
  exact kept job run chosen

end Lookups

section Integrity
variable {db : Db}

theorem remoteById_exists (known : (db.remotes.get? remoteId).isSome) :
    ∃ remote, db.remoteById remoteId = some remote := by
  obtain ⟨row, found⟩ := Option.isSome_iff_exists.mp known
  exact ⟨row.withId remoteId, by rw [Db.remoteById, found, Option.map_some]⟩

theorem commitSha_exists (known : (db.commits.get? commitId).isSome) :
    ∃ sha, db.commitSha commitId = .ok sha := by
  obtain ⟨sha, found⟩ := Option.isSome_iff_exists.mp known
  exact ⟨sha, by rw [Db.commitSha, found]⟩

/-- A row of either table is built from what the job names. -/
theorem buildRow_ok (integral : db.Integral) (found : db.jobById jobId = some job) (run : Run) :
    ∃ row, buildRow db job run = .ok row := by
  obtain ⟨remoteKnown, commitKnown⟩ := integral.job found
  obtain ⟨remote, named⟩ := remoteById_exists remoteKnown
  obtain ⟨sha, read⟩ := commitSha_exists commitKnown
  have looked : jobRemote db job = .ok remote := Outcome.expectSome_eq_ok.mpr named
  simp only [buildRow, read, Outcome.expect, jobUrl, commitUrl, looked, Outcome.ok_bind, Outcome.pure_eq]
  exact ⟨_, rfl⟩

theorem repoRow_ok (integral : db.Integral) (repo : Repo) : ∃ row, repoRow db repo = .ok row := by
  cases chosen : mostRecentRun db repo with
  | none => exact ⟨(repo, none), by simp only [repoRow, chosen]⟩
  | some newest =>
    obtain ⟨job, run⟩ := newest
    obtain ⟨row, built⟩ := buildRow_ok integral (mostRecentRun_found chosen).1 run
    exact ⟨(repo, some row), by simp only [repoRow, chosen, built, Outcome.ok_bind, Outcome.pure_eq]⟩

theorem activeRow_ok (integral : db.Integral) {run : Run} (active : run ∈ db.getActiveRuns) :
    ∃ row, activeRow db run = .ok row := by
  obtain ⟨job, found⟩ : ∃ job, db.jobById run.jobId = some job := by
    rw [← Option.isSome_iff_exists, Db.jobById_known]
    exact integral.active active
  obtain ⟨remote, named⟩ := remoteById_exists (integral.job found).1
  obtain ⟨repo, owner⟩ : ∃ repo, db.repoById remote.repoId = some repo := by
    rw [← Option.isSome_iff_exists, Db.repoById, Option.isSome_map]
    exact integral.remote named
  obtain ⟨row, built⟩ := buildRow_ok integral found run
  exact ⟨(repo, row), by simp only [activeRow, found, named, owner, built, Outcome.expectSome_some,
    Outcome.ok_bind, Outcome.pure_eq]⟩

/-- With every reference met, no lookup of the page comes back empty. -/
theorem buildRepoIndex_ok (integral : db.Integral) : ∃ index, buildRepoIndex db = .ok index := by
  obtain ⟨repos, read⟩ := Outcome.exists_mapM_eq_ok.mpr fun repo (_ : repo ∈ db.getRepos) =>
    repoRow_ok integral repo
  obtain ⟨active, listed⟩ := Outcome.exists_mapM_eq_ok.mpr fun run (member : run ∈ db.getActiveRuns) =>
    activeRow_ok integral member
  exact ⟨⟨repos, active⟩, by simp only [buildRepoIndex, read, listed, Outcome.ok_bind, Outcome.pure_eq]⟩

end Integrity
end BuildOTron.Web
