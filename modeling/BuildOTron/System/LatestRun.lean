import BuildOTron.System.Pages
import BuildOTron.Web.LatestRun

/-! The run that the index shows for a repo, over the runs of all programs together. It is
found by way of the newest jobs, so it is the latest as long as runs come in the order of
the jobs they are of. -/
namespace BuildOTron.System
open Transition Web

/-- A run that is there, and its job. -/
def Ran (db : Db) (run : RunRow) (job : JobRow) : Prop :=
  (∃ id, db.runs.get? id = some run) ∧ db.jobs.get? run.jobId = some job

/-- Every run has its job, and those of one remote were created in the order of their jobs. -/
structure InOrder (db : Db) : Prop where
  named : ∀ id run, db.runs.get? id = some run → ∃ job, db.jobs.get? run.jobId = some job
  order : ∀ run job run' job', Ran db run job → Ran db run' job' → job.remoteId = job'.remoteId →
    job.createdTime ≤ job'.createdTime → run.createdTime ≤ run'.createdTime

/-- The time stands to those of the remote's runs as the job's does to those of their jobs. -/
def FitsIn (db : Db) (jobId now : Nat) : Prop :=
  ∃ job, db.jobs.get? jobId = some job ∧ ∀ run other, Ran db run other →
    other.remoteId = job.remoteId →
      (other.createdTime ≤ job.createdTime → run.createdTime ≤ now) ∧
      (job.createdTime ≤ other.createdTime → now ≤ run.createdTime)

def orderPolicy : Policy := ⟨fun _ => True, FitsIn, fun _ => True⟩

/-- Every run that is added fits in. -/
def RunsFitIn : State → Label → Prop := orderPolicy.Admits

def KeepsOrder (db db' : Db) : Prop := InOrder db → InOrder db'

section Order
variable {db db' : Db}

instance : Std.Refl KeepsOrder := ⟨fun _ inOrder => inOrder⟩

instance : IsTrans Db KeepsOrder := ⟨fun _ _ _ first second inOrder => second (first inOrder)⟩

/-- No run is added, and none changes its job or the time of its creation. -/
theorem InOrder.mono (inOrder : InOrder db)
    (jobs : ∀ id job, db.jobs.get? id = some job → db'.jobs.get? id = some job)
    (runs : ∀ id run', db'.runs.get? id = some run' → ∃ run, db.runs.get? id = some run ∧
      run.jobId = run'.jobId ∧ run.createdTime = run'.createdTime) : InOrder db' := by
  have old : ∀ run' job, Ran db' run' job → ∃ run, Ran db run job ∧ run.createdTime = run'.createdTime := by
    rintro run' job ⟨⟨id, found⟩, ofJob⟩
    obtain ⟨run, held, same, created⟩ := runs id run' found
    obtain ⟨job', named⟩ := inOrder.named id run held
    have kept := jobs _ _ named
    rw [same, ofJob] at kept
    cases kept
    exact ⟨run, ⟨⟨id, held⟩, named⟩, created⟩
  constructor
  · intro id run' found
    obtain ⟨run, held, same, _⟩ := runs id run' found
    obtain ⟨job, named⟩ := inOrder.named id run held
    exact ⟨job, same ▸ jobs _ _ named⟩
  · intro run' job other' job' ran ran' remote before
    obtain ⟨run, first, created⟩ := old run' job ran
    obtain ⟨other, second, created'⟩ := old other' job' ran'
    rw [← created, ← created']
    exact inOrder.order run job other job' first second remote before

theorem newRun_order (fits : FitsIn db jobId now) (pref : Option Nat) :
    KeepsOrder db (db.newRun jobId pref now).1 := by
  intro inOrder
  obtain ⟨job, found, fits⟩ := fits
  have cases : ∀ run other, Ran (db.newRun jobId pref now).1 run other →
      Ran db run other ∨ run = Db.pendingRow jobId pref now ∧ other = job := by
    rintro run other ⟨⟨id, held⟩, named⟩
    rw [Db.newRun_runs] at held
    split at held
    · cases held
      exact .inr ⟨rfl, Option.some.inj (named.symm.trans found)⟩
    · exact .inl ⟨⟨id, held⟩, named⟩
  constructor
  · intro id run held
    rw [Db.newRun_runs] at held
    split at held
    · cases held
      exact ⟨job, found⟩
    · exact inOrder.named id run held
  · intro run other run' other' ran ran' remote before
    rcases cases run other ran with old | ⟨rfl, rfl⟩
    · rcases cases run' other' ran' with old' | ⟨rfl, rfl⟩
      · exact inOrder.order run other run' other' old old' remote before
      · exact (fits run other old remote).1 before
    · rcases cases run' other' ran' with old' | ⟨rfl, rfl⟩
      · exact (fits run' other' old' remote.symm).2 before
      · exact Nat.le_refl now

theorem order_rules : Rules orderPolicy KeepsOrder where
  aside _ jobs runs inOrder := inOrder.mono (fun _ _ found => jobs ▸ found)
    fun _ run found => ⟨run, runs ▸ found, rfl, rfl⟩
  commit _ made inOrder := by
    unfold Db.newCommit at made
    split at made
    · cases made
      exact ⟨inOrder.named, inOrder.order⟩
    · contradiction
  job db _ _ _ _ _ inOrder := inOrder.mono (fun _ _ found => Table.get?_insert_of_some found _)
    fun _ run found => ⟨run, found, rfl, rfl⟩
  run fits pref := newRun_order fits pref
  update db id f kept _ inOrder := by
    refine inOrder.mono (fun _ _ found => found) fun other run found => ?_
    rw [Table.get?_update] at found
    split at found
    · obtain ⟨old, held, rfl⟩ := Option.map_eq_some_iff.mp found
      exact ⟨old, held, (kept old).1.symm, (kept old).2.symm⟩
    · exact ⟨run, found, rfl, rfl⟩

theorem start_inOrder : InOrder State.start.db :=
  ⟨fun _ _ found => by contradiction, fun _ _ _ _ ran => by
    obtain ⟨⟨_, found⟩, _⟩ := ran
    contradiction⟩

/-- A run of a job, as it is read, is one of the two tables. -/
theorem ran_of_mem {job : Job} {run : Run} (listed : job ∈ remoteJobs db remoteId)
    (member : run ∈ jobRuns db job.id) : ∃ row jobRow, Ran db row jobRow ∧
      run = row.withId run.id ∧ job = jobRow.withId job.id ∧ jobRow.remoteId = remoteId := by
  obtain ⟨found, mine⟩ := mem_remoteJobs.mp listed
  obtain ⟨jobRow, held, same⟩ := Option.map_eq_some_iff.mp found
  obtain ⟨row, present, read, ofJob⟩ := mem_jobRuns.mp member
  refine ⟨row, jobRow, ⟨⟨run.id, present⟩, ofJob ▸ held⟩, read, same.symm, ?_⟩
  rw [← mine, ← same]
  rfl

theorem InOrder.newestRunLast (inOrder : InOrder db) (runs : EveryJobRuns db) (repo : Repo) :
    NewestRunLast db repo := by
  intro ran
  obtain ⟨answer, greatest⟩ := Greatest.exists_answer Run.createTime (repoRuns db repo.id)
  obtain ⟨latest, rfl⟩ := greatest.exists_of_ne_nil ran
  obtain ⟨remote, owned, job, listed, member⟩ := mem_repoRuns.mp greatest.1
  refine ⟨remote, owned, List.ne_nil_of_mem listed, fun newest best => ⟨?_, fun run last other ofRepo => ?_⟩⟩
  · obtain ⟨found, _⟩ := mem_remoteJobs.mp best.1
    obtain ⟨jobRow, held, _⟩ := Option.map_eq_some_iff.mp found
    obtain ⟨id, row, present, ofJob⟩ := runs newest.id jobRow held
    have first : row.withId id ∈ jobRuns db newest.id := mem_jobRuns.mpr ⟨row, present, rfl, ofJob⟩
    exact List.ne_nil_of_mem first
  · obtain ⟨row, jobRow, first, read, same, mine⟩ := ran_of_mem listed member
    obtain ⟨row', jobRow', second, read', same', mine'⟩ := ran_of_mem best.1 last.1
    have before : jobRow.createdTime ≤ jobRow'.createdTime := by
      have newer := best.2 job listed
      rwa [same, same'] at newer
    have above := inOrder.order row jobRow row' jobRow' first second (mine.trans mine'.symm) before
    calc other.createTime ≤ latest.createTime := greatest.2 other ofRepo
      _ = row.createdTime := by rw [read]; rfl
      _ ≤ row'.createdTime := above
      _ = run.createTime := by rw [read']; rfl

/-- The run that a rerun adds, as it is read. -/
def addedRun (db : Db) (jobId : Nat) (pref : Option Nat) (now : Nat) : Run :=
  (Db.pendingRow jobId pref now).withId (db.runs.seq + 1)

theorem mem_jobRuns_newRun {run : Run} : run ∈ jobRuns (db.newRun jobId pref now).1 j ↔
    run ∈ jobRuns db j ∨ jobId = j ∧ run = addedRun db jobId pref now := by
  simp only [jobRuns, Db.newRun, Table.select_insert, List.map_append, List.mem_append]
  refine or_congr_right ?_
  by_cases same : jobId = j
  · simp [Db.pendingRow, same, addedRun]
  · simp [Db.pendingRow, same]

theorem addedRun_mem_repoRuns {repo : Repo} (found : db.jobs.get? jobId = some job)
    (owned : db.repoIdByRemote job.remoteId = some repo.id) (pref : Option Nat) (now : Nat) :
    addedRun db jobId pref now ∈ repoRuns (db.newRun jobId pref now).1 repo.id := by
  obtain ⟨row, remote, owner⟩ := Option.map_eq_some_iff.mp owned
  refine mem_repoRuns.mpr ⟨row.withId job.remoteId, ?_, job.withId jobId, ?_, ?_⟩
  · exact mem_remotesByRepo.mpr ⟨congrArg (Option.map _) remote, owner⟩
  · exact mem_remoteJobs.mpr ⟨congrArg (Option.map _) found, rfl⟩
  · exact mem_jobRuns_newRun.mpr (.inr ⟨rfl, rfl⟩)

/-- A rerun that comes after all runs of the repo is not the one shown: it has not been
started, and the run before it may have been. -/
theorem later_rerun_hides {repo : Repo} (found : db.jobs.get? jobId = some job)
    (owned : db.repoIdByRemote job.remoteId = some repo.id) (ran : jobRuns db jobId ≠ [])
    (later : ∀ run ∈ repoRuns db repo.id, run.createTime < now) (pref : Option Nat) :
    ¬ IndexLatest (db.newRun jobId pref now).1 repo := by
  rw [indexLatest_iff]
  intro last
  have added := addedRun_mem_repoRuns found owned pref now
  obtain ⟨remote, listed, jobs, each⟩ := last (List.ne_nil_of_mem added)
  obtain ⟨answer, newest⟩ := Greatest.exists_answer Job.createdTime (remoteJobs db remote.id)
  obtain ⟨newestJob, rfl⟩ := newest.exists_of_ne_nil jobs
  obtain ⟨runs, above⟩ := each newestJob newest
  have filled : jobRuns db newestJob.id ≠ [] := by
    obtain ⟨run, member⟩ := List.exists_mem_of_ne_nil _ runs
    rcases mem_jobRuns_newRun.mp member with old | ⟨same, _⟩
    · exact List.ne_nil_of_mem old
    · exact same ▸ ran
  obtain ⟨answer, started⟩ := Greatest.exists_answer startKey (jobRuns db newestJob.id)
  obtain ⟨shown, rfl⟩ := started.exists_of_ne_nil filled
  have first : Greatest startKey (jobRuns (db.newRun jobId pref now).1 newestJob.id) (some shown) := by
    refine ⟨mem_jobRuns_newRun.mpr (.inl started.1), fun run member => ?_⟩
    rcases mem_jobRuns_newRun.mp member with old | ⟨_, rfl⟩
    · exact started.2 run old
    · exact (bot_le : (⊥ : WithBot Nat) ≤ startKey shown)
  have before := later shown (mem_repoRuns.mpr ⟨remote, listed, newestJob, newest.1, started.1⟩)
  exact Nat.not_lt.mpr (above shown first _ added) before

/-- The run of a job that is newer than the jobs of all runs, when no run is later. -/
theorem FitsIn.last (found : db.jobs.get? jobId = some job)
    (before : ∀ run other, Ran db run other →
      other.createdTime < job.createdTime ∧ run.createdTime ≤ now) : FitsIn db jobId now := by
  refine ⟨job, found, fun run other ran _ => ?_⟩
  obtain ⟨older, earlier⟩ := before run other ran
  exact ⟨fun _ => earlier, fun newer => absurd newer (Nat.not_le.mpr older)⟩

end Order

/-- The index of a database shows a repo's latest run exactly when a newest job's last start
was; and it does so after every run of the programs that adds runs in order, while no job is
without one. -/
theorem index_shows_latest_iff (tokenForJob : Nat → String) :
    (∀ (db : Db) (repo : Repo), IndexLatest db repo ↔ NewestRunLast db repo) ∧
    ∀ (labels : List Label) (s : State),
      (machine tokenForJob).Guarded RunsFitIn .start labels →
      (machine tokenForJob).run .start labels = some s →
      EveryJobRuns s.db → ∀ repo, IndexLatest s.db repo := by
  refine ⟨indexLatest_iff, ?_⟩
  intro labels s guarded path runs repo
  have inOrder : InOrder s.db :=
    Machine.guarded_invariant (P := fun s => InOrder s.db)
      (fun _ _ _ holds fits stepped => order_rules.step_along fits stepped holds)
      start_inOrder guarded path
  exact (indexLatest_iff s.db repo).mpr (inOrder.newestRunLast runs repo)

/-! A repo with two jobs, created one after the other. -/

def laterEnvironment : Ctl.Environment :=
  { someEnvironment with jobTime := 864000005, runTime := 864000006 }

def twoJobs : List Label :=
  created "f00dfacec0de" ++
    [.ctl (.create "github:owner/zoo" "beefc0ffee00" "keeper@zoo") laterEnvironment]

def twoJobsDb : Db :=
  { createdDb "f00dfacec0de" with
    commits := (createdDb "f00dfacec0de").commits.insert "beefc0ffee00"
    jobs := (createdDb "f00dfacec0de").jobs.insert ⟨some "keeper@zoo", 864000005, 1, 2, none⟩
    runs := (createdDb "f00dfacec0de").runs.insert (Db.pendingRow 2 none 864000006) }

theorem twoJobs_run (tokenForJob : Nat → String) :
    (machine tokenForJob).run .start twoJobs = some (State.start.withDb twoJobsDb) := rfl

theorem twoJobs_fit : (machine Driver.someToken).Guarded RunsFitIn .start twoJobs := by
  refine ⟨trivial, fun _ added => ?_⟩
  cases added
  refine ⟨⟨trivial, ?_⟩, fun _ added => ?_⟩
  · rintro db jobId ⟨_, _, _, _, split, named, made⟩
    cases split
    cases named
    cases made
    refine .last rfl fun _ _ ran => ?_
    obtain ⟨⟨_, found⟩, _⟩ := ran
    contradiction
  cases added
  refine ⟨⟨trivial, ?_⟩, fun _ _ => trivial⟩
  rintro db jobId ⟨_, _, _, _, split, named, made⟩
  cases split
  cases named
  cases made
  refine .last rfl ?_
  rintro run other ⟨⟨id, held⟩, named⟩
  have inserted : (Table.insert .empty (Db.pendingRow 1 none 864000000)).get? id = some run := held
  rw [Table.get?_insert] at inserted
  split at inserted
  · cases inserted
    cases named
    exact ⟨(by decide : 864000000 < 864000005), (by decide : 864000000 ≤ 864000006)⟩
  · contradiction

theorem twoJobsDb_jobs_run : EveryJobRuns twoJobsDb := by
  intro id job found
  have inserted : ((createdDb "f00dfacec0de").jobs.insert _).get? id = some job := found
  rw [Table.get?_insert] at inserted
  split at inserted
  · rename_i second
    exact ⟨2, _, rfl, second.symm⟩
  · obtain ⟨run, row, held, ofJob⟩ := createdDb_jobs_run _ id job inserted
    exact ⟨run, row, Table.get?_insert_of_some held _, ofJob⟩

theorem later_job_shown : ((machine Driver.someToken).Guarded RunsFitIn .start twoJobs ∧
      EveryJobRuns twoJobsDb) ∧ (∀ repo, IndexLatest twoJobsDb repo) ∧
        LatestShown twoJobsDb ⟨1, "zoo", none⟩ (mostRecentRun twoJobsDb ⟨1, "zoo", none⟩) := by
  have latest : ∀ repo, IndexLatest twoJobsDb repo :=
    (index_shows_latest_iff _).2 _ _ twoJobs_fit (twoJobs_run _) twoJobsDb_jobs_run
  exact ⟨⟨twoJobs_fit, twoJobsDb_jobs_run⟩, latest, (latest _).shown (by decide)⟩

/-- `ci-ctl job rerun 1`, once there is a second job. -/
theorem rerun_not_shown : ¬ ∀ (tokenForJob : Nat → String) (labels : List Label) (s : State),
    (machine tokenForJob).run .start labels = some s → ∀ repo ∈ s.db.getRepos, IndexLatest s.db repo := by
  intro claim
  have path : (machine Driver.someToken).run .start
      (twoJobs ++ [.ctl (.rerun 1) { someEnvironment with runTime := 864000009 }]) =
      some (State.start.withDb (twoJobsDb.newRun 1 none 864000009).1) := rfl
  have hides : ¬ IndexLatest (twoJobsDb.newRun 1 none 864000009).1 ⟨1, "zoo", none⟩ := by
    refine later_rerun_hides rfl rfl ?_ ?_ none
    · decide
    · decide
  exact hides (claim _ _ _ path ⟨1, "zoo", none⟩ (List.mem_singleton.mpr rfl))

end BuildOTron.System
