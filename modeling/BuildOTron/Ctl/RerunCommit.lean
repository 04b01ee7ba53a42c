import BuildOTron.Ctl.Command
import BuildOTron.Lib.Machine

/-! `ci-ctl job rerun-commit` after any history of `new_job`. The id that is looked up is
the commit's and the id that is used is a job's: the two agree for a commit whose job
was inserted as the job of that number. -/
namespace BuildOTron.Ctl
open Transition

/-- A `new_job` between its two statements. -/
structure JobCall where
  commitId : Nat
  remoteId : Nat
  pusher : Option String
  runPreferences : Option String
  deriving DecidableEq

/-- The webhook's and `ci-ctl`'s calls of `new_job`, whichever process they are in. -/
structure Creations where
  db : Db
  underWay : List JobCall

inductive CreateLabel where
  | commit (remoteId : Nat) (sha : String) (pusher runPreferences : Option String)
  | job (call : JobCall) (now : Nat)
  /-- the call ends between its statements -/
  | fail (call : JobCall)

def Creations.start (db : Db) : Creations := ⟨{ db with commits := .empty, jobs := .empty }, []⟩

def Creations.commit (s : Creations) (remoteId : Nat) (sha : String)
    (pusher runPreferences : Option String) : Creations :=
  match s.db.newCommit sha with
  | .ok (db, commitId) => ⟨db, ⟨commitId, remoteId, pusher, runPreferences⟩ :: s.underWay⟩
  | _ => s

def jobCreations : Machine Creations CreateLabel where
  step s
    | .commit remoteId sha pusher runPreferences => some (s.commit remoteId sha pusher runPreferences)
    | .job call now =>
      if call ∈ s.underWay then
        some ⟨(s.db.insertJob call.remoteId call.commitId call.pusher call.runPreferences now).1,
          s.underWay.erase call⟩
      else none
    | .fail call => if call ∈ s.underWay then some ⟨s.db, s.underWay.erase call⟩ else none

/-- `rerun-commit` adds a run exactly for the sha of some job's commit, and that run is
a run of such a job. -/
structure RerunsItsJob (env : Environment) (sha : String) (db : Db) : Prop where
  creates : (∃ row, (rerunCommit env sha db).2 = { db with runs := db.runs.insert row }) ↔
    ∃ id job, db.jobs.get? id = some job ∧ db.commits.get? job.commitId = some sha
  picks : ∀ row, (rerunCommit env sha db).2.runs = db.runs.insert row →
    ∃ job, db.jobs.get? row.jobId = some job ∧ db.commits.get? job.commitId = some sha

/-- The job with the id of this commit is this commit's. -/
def OwnJob (db : Db) (commitId : Nat) : Prop :=
  ∃ job, db.jobs.get? commitId = some job ∧ job.commitId = commitId

/-- Every commit can be rerun, but for those whose `new_job` is under way. -/
def Rerunnable (s : Creations) : Prop :=
  ∀ env sha, (∀ call ∈ s.underWay, s.db.commits.get? call.commitId ≠ some sha) →
    RerunsItsJob env sha s.db

/-- A call comes to its job, and is the next to do so in the order of the commits. -/
def InOrder (s : Creations) : CreateLabel → Prop
  | .commit .. => True
  | .job call _ => call ∈ s.underWay → s.db.jobs.seq + 1 = call.commitId
  | .fail call => call ∉ s.underWay

/-! ### The command -/

section Rerun
variable {db : Db} {sha : String}

theorem rerunCommit_found (env : Environment) (found : db.jobForCommit sha = some commitId) :
    (rerunCommit env sha db).2 =
      { db with runs := db.runs.insert (Db.pendingRow commitId none env.runTime) } := by
  have read : (Effect.read fun db => .ok (db.jobForCommit sha) : Effect Db String (Option Nat)) db =
      (.ok (some commitId), db) := by
    simp [Effect.read, found]
  rw [rerunCommit, Effect.bind_of_eq read]
  rfl

theorem rerunCommit_missing (env : Environment) (missing : db.jobForCommit sha = none) :
    (rerunCommit env sha db).2 = db := by
  have read : (Effect.read fun db => .ok (db.jobForCommit sha) : Effect Db String (Option Nat)) db =
      (.ok none, db) := by
    simp [Effect.read, missing]
  rw [rerunCommit, Effect.bind_of_eq read]
  rfl

end Rerun

/-! ### What the calls leave -/

/-- Commits have one sha each, a job belongs to a commit that no other job and no call
belongs to, and neither do two calls share one. -/
structure Created (s : Creations) : Prop where
  unique : ∀ a b sha, s.db.commits.get? a = some sha → s.db.commits.get? b = some sha → a = b
  known : ∀ id job, s.db.jobs.get? id = some job → (s.db.commits.get? job.commitId).isSome
  done : ∀ id job, s.db.jobs.get? id = some job → ∀ call ∈ s.underWay, call.commitId ≠ job.commitId
  distinct : ∀ a b job job', s.db.jobs.get? a = some job → s.db.jobs.get? b = some job' →
    job.commitId = job'.commitId → a = b
  calls : ∀ call ∈ s.underWay, (s.db.commits.get? call.commitId).isSome
  apart : (s.underWay.map JobCall.commitId).Nodup

variable {s t : Creations} {l : CreateLabel}

theorem Created.jobForCommit (created : Created s) :
    s.db.jobForCommit sha = some commitId ↔ s.db.commits.get? commitId = some sha := by
  constructor
  · intro found
    obtain ⟨row, first, rfl⟩ := Option.map_eq_some_iff.mp found
    obtain ⟨held, same⟩ := Table.mem_select.mp (List.mem_of_head? first)
    rw [held, of_decide_eq_true same]
  · intro held
    rw [Db.jobForCommit, Table.head?_select held (decide_eq_true rfl), Option.map_some]
    intro other value found same
    obtain rfl := of_decide_eq_true same
    exact created.unique other commitId _ found held

/-- One command, in any state that calls of `new_job` leave. -/
theorem Created.reruns_iff (created : Created s) (env : Environment) (sha : String) :
    RerunsItsJob env sha s.db ↔
      ∀ commitId, s.db.commits.get? commitId = some sha → OwnJob s.db commitId := by
  by_cases known : ∃ commitId, s.db.commits.get? commitId = some sha
  · obtain ⟨commitId, held⟩ := known
    have rerun := rerunCommit_found env (created.jobForCommit.mpr held)
    constructor
    · intro reruns other held'
      obtain rfl := created.unique other commitId sha held' held
      obtain ⟨job, found, same⟩ := reruns.picks _ (congrArg Db.runs rerun)
      exact ⟨job, found, created.unique _ _ sha same held⟩
    · intro own
      obtain ⟨job, found, same⟩ := own commitId held
      have its : s.db.commits.get? job.commitId = some sha := by rw [same, held]
      refine ⟨iff_of_true ⟨_, rerun⟩ ⟨commitId, job, found, its⟩, ?_⟩
      intro row added
      rw [rerun] at added
      obtain rfl := Table.insert_inj added
      exact ⟨job, found, its⟩
  · have missing : s.db.jobForCommit sha = none := by
      rw [← Option.not_isSome_iff_eq_none, Option.isSome_iff_exists]
      rintro ⟨commitId, found⟩
      exact known ⟨commitId, created.jobForCommit.mp found⟩
    have idle := rerunCommit_missing env missing
    refine iff_of_true ⟨iff_of_false ?_ ?_, ?_⟩ fun commitId held => absurd ⟨commitId, held⟩ known
    · rintro ⟨row, added⟩
      rw [idle] at added
      exact Table.insert_ne _ _ (congrArg Db.runs added).symm
    · rintro ⟨_, job, _, held⟩
      exact known ⟨job.commitId, held⟩
    · intro row added
      rw [idle] at added
      exact absurd added.symm (Table.insert_ne _ _)

theorem commit_cases (s : Creations) (remoteId : Nat) (sha : String)
    (pusher runPreferences : Option String) : s.commit remoteId sha pusher runPreferences = s ∨
      ((∀ id, s.db.commits.get? id ≠ some sha) ∧ s.commit remoteId sha pusher runPreferences =
        ⟨{ s.db with commits := s.db.commits.insert sha },
          ⟨s.db.commits.seq + 1, remoteId, pusher, runPreferences⟩ :: s.underWay⟩) := by
  by_cases fresh : (s.db.commits.select fun known => known = sha).isEmpty
  · refine .inr ⟨?_, ?_⟩
    · intro id held
      have listed : (id, sha) ∈ s.db.commits.select fun known => known = sha :=
        Table.mem_select.mpr ⟨held, decide_eq_true rfl⟩
      rw [List.isEmpty_iff.mp fresh] at listed
      contradiction
    · simp only [Creations.commit, Db.newCommit, fresh, if_true]
  · exact .inl (by simp only [Creations.commit, Db.newCommit, if_neg fresh])

theorem Created.commit (created : Created s) (fresh : ∀ id, s.db.commits.get? id ≠ some sha)
    (remoteId : Nat) (pusher runPreferences : Option String) :
    Created ⟨{ s.db with commits := s.db.commits.insert sha },
      ⟨s.db.commits.seq + 1, remoteId, pusher, runPreferences⟩ :: s.underWay⟩ := by
  have earlier : ∀ id, (s.db.commits.get? id).isSome → id ≠ s.db.commits.seq + 1 := by
    rintro _ known rfl
    obtain ⟨value, found⟩ := Option.isSome_iff_exists.mp known
    have := Table.le_seq found
    omega
  refine ⟨?_, ?_, ?_, created.distinct, ?_, ?_⟩
  · intro a b sha' first second
    simp only [Table.get?_insert] at first second
    split at first <;> split at second
    · omega
    · cases first
      exact absurd second (fresh b)
    · cases second
      exact absurd first (fresh a)
    · exact created.unique a b sha' first second
  · exact fun id job found => Table.isSome_insert (created.known id job found) sha
  · intro id job found
    refine List.forall_mem_cons.mpr ⟨?_, created.done id job found⟩
    exact (earlier _ (created.known id job found)).symm
  · refine List.forall_mem_cons.mpr ⟨?_, ?_⟩
    · rw [Table.get?_insert_self]
      rfl
    · exact fun call member => Table.isSome_insert (created.calls call member) sha
  · rw [List.map_cons, List.nodup_cons]
    refine ⟨fun member => ?_, created.apart⟩
    obtain ⟨call, among, same⟩ := List.mem_map.mp member
    exact earlier _ (created.calls call among) same

theorem Created.others (created : Created s) (member : call ∈ s.underWay) :
    ∀ other ∈ s.underWay.erase call, other.commitId ≠ call.commitId := by
  intro other left same
  have pair := List.inj_on_of_nodup_map created.apart (List.mem_of_mem_erase left) member same
  subst pair
  exact (created.apart.of_map _).not_mem_erase left

theorem Created.fewer (created : Created s) (call : JobCall) : Created ⟨s.db, s.underWay.erase call⟩ := by
  refine ⟨created.unique, created.known, ?_, created.distinct, ?_, ?_⟩
  · exact fun id job found other member => created.done id job found other (List.mem_of_mem_erase member)
  · exact fun other member => created.calls other (List.mem_of_mem_erase member)
  · exact created.apart.sublist (List.erase_sublist.map _)

theorem Created.job (created : Created s) (member : call ∈ s.underWay) (now : Nat) :
    Created ⟨(s.db.insertJob call.remoteId call.commitId call.pusher call.runPreferences now).1,
      s.underWay.erase call⟩ := by
  refine ⟨created.unique, ?_, ?_, ?_, (created.fewer call).calls, (created.fewer call).apart⟩
  · intro id job found
    simp only [Db.insertJob, Table.get?_insert] at found
    split at found
    · cases found
      exact created.calls call member
    · exact created.known id job found
  · intro id job found other left
    simp only [Db.insertJob, Table.get?_insert] at found
    split at found
    · cases found
      exact created.others member other left
    · exact created.done id job found other (List.mem_of_mem_erase left)
  · intro a b job job' first second same
    simp only [Db.insertJob, Table.get?_insert] at first second
    split at first <;> split at second
    · omega
    · cases first
      exact absurd same (created.done b job' second call member)
    · cases second
      exact absurd same.symm (created.done a job first call member)
    · exact created.distinct a b job job' first second same

theorem Created.step (created : Created s) (stepped : jobCreations.step s l = some t) : Created t := by
  cases l with
  | commit remoteId sha pusher runPreferences =>
    cases stepped
    obtain same | ⟨fresh, same⟩ := commit_cases s remoteId sha pusher runPreferences
    · rwa [same]
    · rw [same]
      exact created.commit fresh remoteId pusher runPreferences
  | job call now =>
    simp only [jobCreations, Option.ite_none_right_eq_some, Option.some.injEq] at stepped
    obtain ⟨member, rfl⟩ := stepped
    exact created.job member now
  | fail call =>
    simp only [jobCreations, Option.ite_none_right_eq_some, Option.some.injEq] at stepped
    obtain ⟨member, rfl⟩ := stepped
    exact created.fewer call

theorem start_created (db : Db) : Created (.start db) := by
  refine ⟨?_, ?_, ?_, ?_, ?_, ?_⟩ <;> simp [Creations.start]

/-! ### The order of the jobs -/

/-- Every commit has its job, under its own number, or its call. -/
def Numbered (s : Creations) : Prop :=
  ∀ commitId, (s.db.commits.get? commitId).isSome →
    (∃ call ∈ s.underWay, call.commitId = commitId) ∨ OwnJob s.db commitId

theorem Numbered.rerunnable (numbered : Numbered s) (created : Created s) : Rerunnable s := by
  intro env sha settled
  refine (created.reruns_iff env sha).mpr fun commitId held => ?_
  have known : (s.db.commits.get? commitId).isSome := by
    rw [held]
    rfl
  obtain ⟨call, member, rfl⟩ | own := numbered commitId known
  · exact absurd held (settled call member)
  · exact own

theorem Numbered.step (numbered : Numbered s) (inOrder : InOrder s l)
    (stepped : jobCreations.step s l = some t) : Numbered t := by
  cases l with
  | commit remoteId sha pusher runPreferences =>
    cases stepped
    obtain same | ⟨_, same⟩ := commit_cases s remoteId sha pusher runPreferences
    · rwa [same]
    · rw [same]
      intro commitId known
      by_cases new : commitId = s.db.commits.seq + 1
      · exact .inl ⟨_, List.mem_cons_self, new.symm⟩
      · rw [Table.get?_insert, if_neg new] at known
        obtain ⟨call, member, same⟩ | own := numbered commitId known
        · exact .inl ⟨call, List.mem_cons_of_mem _ member, same⟩
        · exact .inr own
  | job call now =>
    simp only [jobCreations, Option.ite_none_right_eq_some, Option.some.injEq] at stepped
    obtain ⟨member, rfl⟩ := stepped
    intro commitId known
    by_cases mine : commitId = call.commitId
    · refine .inr ⟨⟨call.pusher, now, call.remoteId, call.commitId, call.runPreferences⟩, ?_, mine.symm⟩
      rw [mine, ← inOrder member]
      exact Table.get?_insert_self _ _
    · obtain ⟨other, among, rfl⟩ | ⟨job, found, same⟩ := numbered commitId known
      · have different : other ≠ call := fun same => mine (same ▸ rfl)
        exact .inl ⟨other, (List.mem_erase_of_ne different).mpr among, rfl⟩
      · exact .inr ⟨job, Table.get?_insert_of_some found _, same⟩
  | fail call =>
    simp only [jobCreations, Option.ite_none_right_eq_some] at stepped
    exact absurd stepped.1 inOrder

/-- A call that ends out of turn leaves a commit that cannot be rerun. -/
theorem Created.disorder_shows (created : Created s) (disorder : ¬ InOrder s l) :
    ∃ t, jobCreations.step s l = some t ∧ ¬ Rerunnable t := by
  obtain ⟨call, member, t, stepped, commits, left, missing⟩ : ∃ call ∈ s.underWay, ∃ t,
      jobCreations.step s l = some t ∧ t.db.commits = s.db.commits ∧
      t.underWay = s.underWay.erase call ∧ ¬ OwnJob t.db call.commitId := by
    cases l with
    | commit => exact absurd trivial disorder
    | job call now =>
      simp only [InOrder, not_forall] at disorder
      obtain ⟨member, outOfTurn⟩ := disorder
      refine ⟨call, member, _, if_pos member, rfl, rfl, ?_⟩
      rintro ⟨job, found, same⟩
      simp only [Db.insertJob, Table.get?_insert, if_neg (Ne.symm outOfTurn)] at found
      exact created.done _ job found call member same.symm
    | fail call =>
      have member := not_not.mp disorder
      refine ⟨call, member, _, if_pos member, rfl, rfl, ?_⟩
      rintro ⟨job, found, same⟩
      exact created.done _ job found call member same.symm
  refine ⟨t, stepped, fun rerunnable => missing ?_⟩
  obtain ⟨sha, held⟩ := Option.isSome_iff_exists.mp (created.calls call member)
  have settled : ∀ other ∈ t.underWay, t.db.commits.get? other.commitId ≠ some sha := by
    intro other among held'
    rw [left] at among
    rw [commits] at held'
    exact created.others member other among (created.unique _ _ sha held' held)
  have env : Environment := ⟨"", fun _ => .unreadable "", 0, 0⟩
  refine ((created.step stepped).reruns_iff env sha).mp (rerunnable env sha settled) call.commitId ?_
  rw [commits, held]

/-- After every history of `new_job` on an empty database: a sha is rerun rightly exactly
when its commit, if there is one, has the job of its own number; and all shas are, but
for those whose call is under way, in every state of the history exactly when the calls
come to their jobs in the order of their commits. -/
theorem rerun_commit_iff (db : Db) (labels : List CreateLabel) (s : Creations)
    (path : jobCreations.run (.start db) labels = some s) :
    (∀ env sha, RerunsItsJob env sha s.db ↔
      ∀ commitId, s.db.commits.get? commitId = some sha → OwnJob s.db commitId) ∧
    (jobCreations.Guarded InOrder (.start db) labels ↔
      jobCreations.Throughout Rerunnable (.start db) labels) := by
  have created : Created s := Machine.invariant (fun _ _ _ => Created.step) (start_created db) path
  refine ⟨created.reruns_iff, ?_⟩
  have free : jobCreations.Guarded (fun _ _ => True) (.start db) labels :=
    Machine.guarded_of_forall fun _ _ _ => trivial
  have initial : Created (.start db) ∧ Numbered (.start db) :=
    ⟨start_created db, fun _ known => by simp [Creations.start] at known⟩
  have keeps : ∀ s l t, Created s ∧ Numbered s → True → InOrder s l → jobCreations.step s l = some t →
      Created t ∧ Numbered t :=
    fun _ _ _ holds _ inOrder stepped => ⟨holds.1.step stepped, holds.2.step inOrder stepped⟩
  exact Machine.guarded_iff_throughout keeps (fun _ holds => holds.2.rerunnable holds.1)
    (fun _ _ holds _ disorder => holds.1.disorder_shows disorder) initial free

/-- A `new_job` that nothing comes between. -/
theorem new_job_in_two_steps (s : Creations)
    (made : s.db.newJob remoteId sha pusher runPreferences now = .ok (db, jobId, commitId)) :
    jobCreations.run s [.commit remoteId sha pusher runPreferences,
      .job ⟨commitId, remoteId, pusher, runPreferences⟩ now] = some ⟨db, s.underWay⟩ := by
  obtain ⟨⟨inserted, _⟩, commit, rest⟩ := Outcome.bind_eq_ok.mp made
  cases rest
  simp only [Machine.run, jobCreations, Creations.commit, commit, Option.bind_some, List.mem_cons_self,
    if_true, List.erase_cons_head]
  rfl

/-- One job, created to its end. -/
def createsOne : List CreateLabel := [.commit 1 "f00d" none none, .job ⟨1, 1, none, none⟩ 0]

def someEnvironment : Environment := ⟨"config", fun _ => .unreadable "no such file", 0, 0⟩

theorem one_job_rerun : ∃ s, jobCreations.run (.start .empty) createsOne = some s ∧
    RerunsItsJob someEnvironment "f00d" s.db := by
  obtain ⟨s, path, row⟩ : ∃ s, jobCreations.run (.start .empty) createsOne = some s ∧
      s.db.jobs.get? 1 = some ⟨none, 0, 1, 1, none⟩ := ⟨_, rfl, rfl⟩
  refine ⟨s, path, ?_⟩
  have whole := rerun_commit_iff .empty createsOne s path
  have inOrder : jobCreations.Guarded InOrder (.start .empty) createsOne :=
    ⟨trivial, fun t committed => ⟨fun _ => by cases committed; rfl, fun _ _ => trivial⟩⟩
  have settled : s.underWay = [] := by
    cases path
    rfl
  exact (whole.2.mp inOrder).ends path someEnvironment "f00d" (by simp [settled])

/-- The webhook's job of a commit is inserted behind that of a later commit. -/
def createsAcross : List CreateLabel :=
  [.commit 1 "f00d" none none, .commit 1 "beef" none none,
   .job ⟨2, 1, none, none⟩ 0, .job ⟨1, 1, none, none⟩ 0]

theorem crossed_jobs_rerun_wrong : ¬ ∀ (db : Db) (labels : List CreateLabel) (s : Creations)
    (env : Environment) (sha : String), jobCreations.run (.start db) labels = some s →
    RerunsItsJob env sha s.db := by
  intro reruns
  obtain ⟨s, path, held, row⟩ : ∃ s, jobCreations.run (.start .empty) createsAcross = some s ∧
      s.db.commits.get? 1 = some "f00d" ∧ s.db.jobs.get? 1 = some ⟨none, 0, 1, 2, none⟩ :=
    ⟨_, rfl, rfl, rfl⟩
  have created : Created s := Machine.invariant (fun _ _ _ => Created.step) (start_created .empty) path
  have right := reruns .empty createsAcross s someEnvironment "f00d" path
  obtain ⟨job, found, own⟩ := (created.reruns_iff someEnvironment "f00d").mp right 1 held
  cases found.symm.trans row
  contradiction

end BuildOTron.Ctl
