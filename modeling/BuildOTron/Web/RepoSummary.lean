import BuildOTron.Web.Pages
import BuildOTron.Lib.TopK

/-! The jobs that the summary of a repo lists. As many are fetched from each remote as the
page has rows; they are joined, sorted by a negated time and cut. -/
namespace BuildOTron.Web

def i64Max : Nat := 0x7fffffffffffffff

def remoteJobs (db : Db) (remoteId : Nat) : List Job :=
  (db.jobs.select fun row => row.remoteId = remoteId).map fun row => row.2.withId row.1

/-- What `recent_jobs_from_remote` may answer: jobs of one time come in any order. -/
def RecentJobs (db : Db) (remoteId limit : Nat) (jobs : List Job) : Prop :=
  ∃ sorted : List Job, (remoteJobs db remoteId).Perm sorted ∧
    sorted.Pairwise (fun a b => b.createdTime ≤ a.createdTime) ∧ jobs = sorted.take limit

/-- `-(job.created_time as i64)`. -/
def createdKey (job : Job) : Int := -(Int.bmod job.createdTime UInt64.size)

/-- `last_builds`, from the remotes' answers. -/
def lastBuildsFrom (db : Db) (repoId : Nat) (answer : Remote → List Job) : List Job :=
  ((db.remotesByRepo repoId).flatMap answer).insertionSort fun a b => createdKey a ≤ createdKey b

/-- Every job of every remote of the repo. -/
def repoJobs (db : Db) (repoId : Nat) : List Job :=
  (db.jobs.select fun row => db.repoIdByRemote row.remoteId = some repoId).map fun row =>
    row.2.withId row.1

/-- The page lists the newest jobs of the repo, as many as it has rows. -/
structure ListsNewest (db : Db) (repoId rows : Nat) (builds : List Job) : Prop where
  length : builds.length = min rows (repoJobs db repoId).length
  distinct : (builds.map Job.id).Nodup
  ofRepo : ∀ job ∈ builds, job ∈ repoJobs db repoId
  order : builds.Pairwise fun a b => b.createdTime ≤ a.createdTime
  newest : builds.map Job.createdTime =
    (((repoJobs db repoId).map Job.createdTime).insertionSort fun a b => b ≤ a).take rows

section
variable {db : Db}

theorem createdKey_eq {job : Job} (within : job.createdTime ≤ i64Max) :
    createdKey job = -job.createdTime := by
  unfold i64Max at within
  have size : UInt64.size = 0x10000000000000000 := rfl
  exact congrArg Neg.neg (Int.bmod_eq_of_le_mul_two (by omega) (by omega))

theorem createdKey_le_iff {a b : Job} (within : a.createdTime ≤ i64Max)
    (within' : b.createdTime ≤ i64Max) :
    createdKey a ≤ createdKey b ↔ b.createdTime ≤ a.createdTime := by
  rw [createdKey_eq within, createdKey_eq within']
  omega

theorem recentJobs_top {jobs : List Job} (answer : RecentJobs db remoteId limit jobs) :
    TopK Job.createdTime limit (remoteJobs db remoteId) jobs := by
  obtain ⟨sorted, same, order, rfl⟩ := answer
  exact .of_sorted same order

/-- The answer with jobs of one time in the order of their ids. -/
theorem recentJobsFromRemote_recent (remoteId limit : Nat) :
    RecentJobs db remoteId limit (db.recentJobsFromRemote remoteId limit) := by
  refine ⟨((db.jobs.select fun row => row.remoteId = remoteId).insertionSort
    fun a b => b.2.createdTime ≤ a.2.createdTime).map fun row => row.2.withId row.1, ?_, ?_,
    ?_⟩
  · exact (List.perm_insertionSort _ _).symm.map _
  · rw [List.pairwise_map]
    have total : Std.Total fun a b : Nat × JobRow => b.2.createdTime ≤ a.2.createdTime :=
      ⟨fun a b => Nat.le_total _ _⟩
    have trans : IsTrans (Nat × JobRow) fun a b => b.2.createdTime ≤ a.2.createdTime :=
      ⟨fun a b c first second => Nat.le_trans second first⟩
    exact List.pairwise_insertionSort _ _
  · exact List.map_take

/-- Jobs that are selected by what is in their rows. -/
theorem mem_selected {job : Job} {p : JobRow → Bool} {q : Job → Prop}
    (same : ∀ id row, p row = true ↔ q (row.withId id)) :
    (job ∈ (db.jobs.select p).map fun row => row.2.withId row.1) ↔
      db.jobById job.id = some job ∧ q job := by
  simp only [List.mem_map, Table.mem_select, Db.jobById, Option.map_eq_some_iff]
  constructor
  · rintro ⟨⟨id, row⟩, ⟨found, picked⟩, rfl⟩
    exact ⟨⟨row, found, rfl⟩, (same id row).mp picked⟩
  · rintro ⟨⟨row, found, named⟩, holds⟩
    rw [← named] at holds
    exact ⟨(job.id, row), ⟨found, (same job.id row).mpr holds⟩, named⟩

theorem mem_remoteJobs {job : Job} :
    job ∈ remoteJobs db remoteId ↔ db.jobById job.id = some job ∧ job.remoteId = remoteId :=
  mem_selected (q := fun job => job.remoteId = remoteId) fun _ _ => decide_eq_true_iff

theorem mem_repoJobs {job : Job} : job ∈ repoJobs db repoId ↔
    db.jobById job.id = some job ∧ db.repoIdByRemote job.remoteId = some repoId :=
  mem_selected (q := fun job => db.repoIdByRemote job.remoteId = some repoId) fun _ _ => decide_eq_true_iff

theorem mem_remotesByRepo {remote : Remote} : remote ∈ db.remotesByRepo repoId ↔
    db.remoteById remote.id = some remote ∧ remote.repoId = repoId := by
  simp only [Db.remotesByRepo, List.mem_map, Table.mem_select, Db.remoteById,
    Option.map_eq_some_iff, decide_eq_true_eq]
  constructor
  · rintro ⟨⟨id, row⟩, ⟨found, owned⟩, rfl⟩
    exact ⟨⟨row, found, rfl⟩, owned⟩
  · rintro ⟨⟨row, found, named⟩, owned⟩
    rw [← named] at owned
    exact ⟨(remote.id, row), ⟨found, owned⟩, named⟩

theorem nodup_selected_ids (p : JobRow → Bool) :
    (((db.jobs.select p).map fun row => row.2.withId row.1).map Job.id).Nodup := by
  rw [List.map_map]
  exact db.jobs.nodup_ids_select p

theorem nodup_remote_ids (repoId : Nat) : ((db.remotesByRepo repoId).map Remote.id).Nodup := by
  rw [Db.remotesByRepo, List.map_map]
  exact db.remotes.nodup_ids_select _

/-- Each job of the repo is a job of one of its remotes. -/
theorem repoJobs_perm (repoId : Nat) : (repoJobs db repoId).Perm
    ((db.remotesByRepo repoId).flatMap fun remote => remoteJobs db remote.id) := by
  refine (List.perm_ext_iff_of_nodup ?_ ?_).mpr fun job => ?_
  · exact (nodup_selected_ids _).of_map
  · refine List.nodup_flatMap.mpr ⟨fun remote _ => (nodup_selected_ids _).of_map, ?_⟩
    have apart : (db.remotesByRepo repoId).Pairwise fun a b => a.id ≠ b.id :=
      List.pairwise_map.mp (nodup_remote_ids repoId)
    refine apart.imp fun other job first second => ?_
    rw [mem_remoteJobs] at first second
    exact other (first.2.symm.trans second.2)
  · rw [mem_repoJobs, List.mem_flatMap]
    constructor
    · rintro ⟨found, owned⟩
      obtain ⟨row, known, owner⟩ := Option.map_eq_some_iff.mp owned
      refine ⟨row.withId job.remoteId, mem_remotesByRepo.mpr ⟨?_, owner⟩, ?_⟩
      · exact Option.map_eq_some_iff.mpr ⟨row, known, rfl⟩
      · exact mem_remoteJobs.mpr ⟨found, rfl⟩
    · rintro ⟨remote, listed, mine⟩
      obtain ⟨found, same⟩ := mem_remoteJobs.mp mine
      obtain ⟨known, owner⟩ := mem_remotesByRepo.mp listed
      obtain ⟨row, read, named⟩ := Option.map_eq_some_iff.mp known
      refine ⟨found, ?_⟩
      rw [same, Db.repoIdByRemote, read, Option.map_some, ← owner, ← named]
      rfl

theorem remotes_top {remotes : List Remote} (answer : Remote → List Job)
    (query : ∀ remote ∈ remotes, RecentJobs db remote.id rows (answer remote)) :
    List.Forall₂ (TopK Job.createdTime rows)
      (remotes.map fun remote => remoteJobs db remote.id) (remotes.map answer) := by
  rw [List.forall₂_map_left_iff, List.forall₂_map_right_iff, List.forall₂_same]
  exact fun remote listed => recentJobs_top (query remote listed)

theorem lastBuildsFrom_order (answer : Remote → List Job)
    (within : ∀ job ∈ (db.remotesByRepo repoId).flatMap answer, job.createdTime ≤ i64Max) :
    (lastBuildsFrom db repoId answer).Pairwise fun a b => b.createdTime ≤ a.createdTime := by
  have total : Std.Total fun a b : Job => createdKey a ≤ createdKey b :=
    ⟨fun a b => Int.le_total _ _⟩
  have trans : IsTrans Job fun a b => createdKey a ≤ createdKey b :=
    ⟨fun a b c first second => Int.le_trans first second⟩
  have sorted : (lastBuildsFrom db repoId answer).Pairwise
      fun a b => createdKey a ≤ createdKey b := List.pairwise_insertionSort _ _
  refine sorted.imp_of_mem fun listed listed' before => ?_
  have member := within _ ((List.mem_insertionSort _).mp listed)
  have member' := within _ ((List.mem_insertionSort _).mp listed')
  exact (createdKey_le_iff member member').mp before

theorem created_within {job : Job}
    (within : ∀ id row, db.jobs.get? id = some row → row.createdTime ≤ i64Max)
    (found : db.jobById job.id = some job) : job.createdTime ≤ i64Max := by
  obtain ⟨row, read, named⟩ := Option.map_eq_some_iff.mp found
  have bound := within job.id row read
  rw [← named]
  exact bound

section
variable {answer : Remote → List Job}

theorem answered_within
    (within : ∀ id row, db.jobs.get? id = some row → row.createdTime ≤ i64Max)
    (query : ∀ remote ∈ db.remotesByRepo repoId, RecentJobs db remote.id rows (answer remote)) :
    ∀ job ∈ (db.remotesByRepo repoId).flatMap answer, job.createdTime ≤ i64Max := by
  intro job listed
  obtain ⟨remote, owned, answered⟩ := List.mem_flatMap.mp listed
  have found := (mem_remoteJobs.mp ((recentJobs_top (query remote owned)).mem answered)).1
  exact created_within within found

theorem lastBuildsFrom_top
    (query : ∀ remote ∈ db.remotesByRepo repoId, RecentJobs db remote.id rows (answer remote))
    (order : (lastBuildsFrom db repoId answer).Pairwise fun a b => b.createdTime ≤ a.createdTime) :
    TopK Job.createdTime rows (repoJobs db repoId) ((lastBuildsFrom db repoId answer).take rows) := by
  have cuts := remotes_top answer query
  have joined : TopK Job.createdTime rows ((db.remotesByRepo repoId).flatMap answer)
      ((lastBuildsFrom db repoId answer).take rows) :=
    .of_sorted (List.perm_insertionSort _ _).symm order
  have whole : TopK Job.createdTime rows
      ((db.remotesByRepo repoId).flatMap fun remote => remoteJobs db remote.id)
      ((lastBuildsFrom db repoId answer).take rows) := by
    have wide := TopK.flatten cuts [] (by rwa [List.append_nil, ← List.flatMap_def])
    rwa [List.append_nil, ← List.flatMap_def] at wide
  exact whole.perm (repoJobs_perm repoId)

end

theorem listsNewest_of_top (top : TopK Job.createdTime rows (repoJobs db repoId) jobs)
    (order : jobs.Pairwise fun a b => b.createdTime ≤ a.createdTime) :
    ListsNewest db repoId rows jobs :=
  ⟨top.length_eq, top.nodup_map (nodup_selected_ids _), fun _ listed => top.mem listed, order,
    top.keys order⟩

/-- `handle_repo_summary` with the answers in the order of their ids. -/
theorem lastBuilds_eq (repoId rows : Nat)
    (within : ∀ id row, db.jobs.get? id = some row → row.createdTime ≤ i64Max) :
    lastBuilds db repoId rows =
      (lastBuildsFrom db repoId fun remote => db.recentJobsFromRemote remote.id rows).take rows := by
  have same := List.map_insertionSort (fun a b : Job => b.createdTime ≤ a.createdTime)
    (fun a b => createdKey a ≤ createdKey b) (fun job => job)
    ((db.remotesByRepo repoId).flatMap fun remote => db.recentJobsFromRemote remote.id rows) ?_
  · rw [List.map_id', List.map_id'] at same
    exact congrArg (List.take rows) same
  · have bound : ∀ job ∈ (db.remotesByRepo repoId).flatMap fun remote =>
        db.recentJobsFromRemote remote.id rows, job.createdTime ≤ i64Max := by
      intro job listed
      obtain ⟨remote, _, recent⟩ := List.mem_flatMap.mp listed
      exact created_within within (recentJobsFromRemote_found recent)
    exact fun a listed b listed' => (createdKey_le_iff (bound a listed) (bound b listed')).symm

/-- Whatever the remotes answer among jobs of one time. -/
theorem summary_lists_newest (repoId : Nat) (rows : Option Nat) (answer : Remote → List Job)
    (within : ∀ id row, db.jobs.get? id = some row → row.createdTime ≤ i64Max)
    (query : ∀ remote ∈ db.remotesByRepo repoId,
      RecentJobs db remote.id (summaryRows rows) (answer remote)) :
    ListsNewest db repoId (summaryRows rows)
      ((lastBuildsFrom db repoId answer).take (summaryRows rows)) := by
  have order := lastBuildsFrom_order answer (answered_within within query)
  have order' := order.sublist (List.take_sublist (summaryRows rows) _)
  exact listsNewest_of_top (lastBuildsFrom_top query order) order'

/-- A repo with two remotes, the second with the newer job. -/
def twoRemotes : Db :=
  { Db.empty with
    remotes := (Table.empty.insert ⟨1, "zoo/zoo", "github", "", "", ""⟩).insert
      ⟨1, "keeper/zoo", "github", "", "", ""⟩
    jobs := (Table.empty.insert ⟨none, 5, 1, 1, none⟩).insert ⟨none, 9, 2, 2, none⟩ }

theorem two_remotes_listed : ListsNewest twoRemotes 1 (summaryRows none)
    (lastBuilds twoRemotes 1 (summaryRows none)) := by
  have within : ∀ id row, twoRemotes.jobs.get? id = some row → row.createdTime ≤ i64Max := by
    intro id row found
    have member := Table.get?_eq_some.mp found
    simp only [twoRemotes, Table.insert, Table.empty, List.nil_append, List.cons_append,
      List.mem_cons, Prod.mk.injEq, List.not_mem_nil, or_false] at member
    rcases member with ⟨_, rfl⟩ | ⟨_, rfl⟩ <;> decide
  rw [lastBuilds_eq 1 _ within]
  exact summary_lists_newest 1 none _ within fun remote _ => recentJobsFromRemote_recent _ _

example : (lastBuilds twoRemotes 1 10).map Job.createdTime = [9, 5] := by decide

end
end BuildOTron.Web
