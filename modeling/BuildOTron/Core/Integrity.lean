import BuildOTron.Core.DbCtx
import Mathlib.Order.Defs.Unbundled

/-! The rows that other rows name. No table declares a foreign key, so that they are
there is up to each writer: a writer upholds integrity when it keeps every named row
and adds only rows whose own references are met. -/
namespace BuildOTron.Db

structure Integral (db : Db) : Prop where
  runs : db.runs.References RunRow.jobId db.jobs
  jobRemotes : db.jobs.References JobRow.remoteId db.remotes
  jobCommits : db.jobs.References JobRow.commitId db.commits
  remotes : db.remotes.References RemoteRow.repoId db.repos

structure Upholds (db db' : Db) : Prop where
  integral : db.Integral → db'.Integral
  jobs : db.jobs.Extends db'.jobs
  remotes : db.remotes.Extends db'.remotes
  commits : db.commits.Extends db'.commits
  repos : db.repos.Extends db'.repos

theorem empty_integral : Db.empty.Integral :=
  ⟨.empty _ _, .empty _ _, .empty _ _, .empty _ _⟩

namespace Upholds

theorem refl (db : Db) : Upholds db db :=
  ⟨fun integral => integral, .refl _, .refl _, .refl _, .refl _⟩

theorem trans (first : Upholds a b) (second : Upholds b c) : Upholds a c where
  integral := fun integral => second.integral (first.integral integral)
  jobs := first.jobs.trans second.jobs
  remotes := first.remotes.trans second.remotes
  commits := first.commits.trans second.commits
  repos := first.repos.trans second.repos

instance : Std.Refl Upholds := ⟨refl⟩

instance : IsTrans Db Upholds := ⟨fun _ _ _ => trans⟩

end Upholds

section Writers
variable {db : Db}

/-- A write to the tables that nothing refers from or to. -/
theorem upholds_aside (db : Db) (metrics : Table MetricRow) (commitNames : Table CommitNameRow)
    (artifacts : Table ArtifactRow) (hosts : Table HostRow) :
    Upholds db { db with
      metrics := metrics, commitNames := commitNames, artifacts := artifacts, hosts := hosts } where
  integral integral := ⟨integral.runs, integral.jobRemotes, integral.jobCommits, integral.remotes⟩
  jobs := .refl _
  remotes := .refl _
  commits := .refl _
  repos := .refl _

/-- An update of one run that leaves its job as it was. -/
theorem updateRun_upholds (db : Db) (id : Nat) {f : RunRow → RunRow}
    (same : ∀ row, (f row).jobId = row.jobId) :
    Upholds db { db with runs := db.runs.update id f } where
  integral integral :=
    ⟨integral.runs.update same, integral.jobRemotes, integral.jobCommits, integral.remotes⟩
  jobs := .refl _
  remotes := .refl _
  commits := .refl _
  repos := .refl _

theorem newRun_upholds (known : (db.jobs.get? jobId).isSome) (pref : Option Nat) (now : Nat) :
    Upholds db (db.newRun jobId pref now).1 where
  integral integral :=
    ⟨integral.runs.insert known, integral.jobRemotes, integral.jobCommits, integral.remotes⟩
  jobs := .refl _
  remotes := .refl _
  commits := .refl _
  repos := .refl _

/-- A run of a job that is not there is a dangling one. -/
theorem newRun_dangles (missing : db.jobs.get? jobId = none) (pref : Option Nat) (now : Nat) :
    ¬ (db.newRun jobId pref now).1.Integral := by
  intro integral
  have found : (db.newRun jobId pref now).1.runs.get? (db.runs.seq + 1) =
      some (pendingRow jobId pref now) := Table.get?_insert_self _ _
  have known : (db.jobs.get? jobId).isSome := integral.runs _ _ found
  rw [missing] at known
  contradiction

theorem newCommit_upholds (made : db.newCommit sha = .ok (db', commitId)) :
    Upholds db db' ∧ (db'.commits.get? commitId).isSome := by
  unfold newCommit at made
  split at made
  · cases made
    have more := Table.extends_insert db.commits sha
    refine ⟨⟨?_, .refl _, .refl _, more, .refl _⟩, ?_⟩
    · intro integral
      exact ⟨integral.runs, integral.jobRemotes, integral.jobCommits.mono more, integral.remotes⟩
    · rw [Table.get?_insert_self]
      rfl
  · contradiction

theorem insertJob_upholds (remote : (db.remotes.get? remoteId).isSome)
    (commit : (db.commits.get? commitId).isSome) (pusher runPreferences : Option String)
    (createdTime : Nat) :
    Upholds db (db.insertJob remoteId commitId pusher runPreferences createdTime).1 := by
  have more : db.jobs.Extends (db.insertJob remoteId commitId pusher runPreferences createdTime).1.jobs :=
    Table.extends_insert db.jobs _
  refine ⟨?_, more, .refl _, .refl _, .refl _⟩
  intro integral
  exact ⟨integral.runs.mono more, integral.jobRemotes.insert remote, integral.jobCommits.insert commit,
    integral.remotes⟩

theorem insertJob_known (db : Db) (remoteId commitId : Nat) (pusher runPreferences : Option String)
    (createdTime : Nat) :
    ((db.insertJob remoteId commitId pusher runPreferences createdTime).1.jobs.get?
      (db.insertJob remoteId commitId pusher runPreferences createdTime).2).isSome := by
  simp only [insertJob, Table.get?_insert_self, Option.isSome_some]

theorem newJob_upholds (remote : (db.remotes.get? remoteId).isSome)
    (made : db.newJob remoteId sha pusher runPreferences now = .ok (db', jobId, commitId)) :
    Upholds db db' ∧ (db'.jobs.get? jobId).isSome := by
  obtain ⟨⟨between, commit⟩, inserted, rest⟩ := Outcome.bind_eq_ok.mp made
  cases rest
  obtain ⟨upholds, known⟩ := newCommit_upholds inserted
  exact ⟨upholds.trans (insertJob_upholds (upholds.remotes _ remote) known _ _ _),
    insertJob_known _ _ _ _ _ _⟩

theorem newRepo_upholds (made : db.newRepo name = .ok (db', repoId)) :
    Upholds db db' ∧ (db'.repos.get? repoId).isSome := by
  unfold newRepo at made
  split at made
  · cases made
    have more := Table.extends_insert db.repos ⟨name, none⟩
    refine ⟨⟨?_, .refl _, .refl _, .refl _, more⟩, ?_⟩
    · intro integral
      exact ⟨integral.runs, integral.jobRemotes, integral.jobCommits, integral.remotes.mono more⟩
    · rw [Table.get?_insert_self]
      rfl
  · contradiction

theorem remoteRow_repoId (made : remoteRow repoId remote remoteKind configPath = some row) :
    row.repoId = repoId := by
  unfold remoteRow at made
  split at made
  · cases made
    rfl
  · split at made
    · cases made
      rfl
    · contradiction

theorem newRemote_upholds (repo : (db.repos.get? repoId).isSome)
    (made : db.newRemote repoId remote remoteKind configPath = .ok (db', remoteId)) :
    Upholds db db' := by
  unfold newRemote at made
  split at made
  · rename_i row built
    cases made
    have more := Table.extends_insert db.remotes row
    have same := remoteRow_repoId built
    refine ⟨?_, .refl _, more, .refl _, .refl _⟩
    intro integral
    exact ⟨integral.runs, integral.jobRemotes.mono more, integral.jobCommits,
      integral.remotes.insert (same ▸ repo)⟩
  · contradiction

end Writers

/-! What integrity gives to those who look a named row up. -/

section Lookups
variable {db : Db}

theorem jobById_known (db : Db) (jobId : Nat) :
    (db.jobById jobId).isSome = (db.jobs.get? jobId).isSome := by
  rw [jobById, Option.isSome_map]

theorem jobById_eq_some {job : Job} (found : db.jobById jobId = some job) :
    ∃ row, db.jobs.get? jobId = some row ∧ job = row.withId jobId := by
  obtain ⟨row, held, rfl⟩ := Option.map_eq_some_iff.mp found
  exact ⟨row, held, rfl⟩

/-- A job that was read from the table names a remote and a commit. -/
theorem Integral.job (integral : db.Integral) {job : Job} (found : db.jobById jobId = some job) :
    (db.remotes.get? job.remoteId).isSome ∧ (db.commits.get? job.commitId).isSome := by
  obtain ⟨row, held, rfl⟩ := jobById_eq_some found
  exact ⟨integral.jobRemotes _ row held, integral.jobCommits _ row held⟩

theorem Integral.remote (integral : db.Integral) {remote : Remote}
    (found : db.remoteById remoteId = some remote) : (db.repos.get? remote.repoId).isSome := by
  obtain ⟨row, held, rfl⟩ := Option.map_eq_some_iff.mp found
  exact integral.remotes _ row held

/-- Every run in the queue is one of a job that can be looked up. -/
theorem Integral.pending (integral : db.Integral) {run : PendingRun}
    (queued : run ∈ db.getPendingRuns hostId) : (db.jobs.get? run.jobId).isSome := by
  obtain ⟨row, found, _, _, job, _⟩ := mem_getPendingRuns.mp queued
  exact job ▸ integral.runs _ row found

theorem Integral.active (integral : db.Integral) {run : Run} (active : run ∈ db.getActiveRuns) :
    (db.jobs.get? run.jobId).isSome := by
  obtain ⟨row, found, _, same⟩ := mem_getActiveRuns.mp active
  rw [same]
  exact integral.runs _ row found

end Lookups
end BuildOTron.Db
