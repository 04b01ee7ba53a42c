import BuildOTron.Driver.Steps

/-! One iteration of the loop of `find_client_task` while nothing else steps: what it
picks, against what it was to pick from. -/
namespace BuildOTron.Driver
open Transition

/-- Past both searches of the iteration. -/
def Phase.searched : Phase → Prop
  | .findWork | .pendingRuns _ | .alternateRun _ => False
  | _ => True

def SearchPass (client : RunnerClient) (db : Db) (now : Nat) (t : Db × Phase) : Prop :=
  (taskMachine client).Until (.call now) (fun s => s.2.searched) (db, .findWork) t

/-- A queued run that this client may have, of a job that it wants. -/
structure Candidate (client : RunnerClient) (db : Db) (run : Nat) (row : RunRow) : Prop where
  found : db.runs.get? run = some row
  pending : row.state = .pending
  eligible : row.hostPreference = none ∨ row.hostPreference = some client.hostId
  acceptable : ∃ job, db.jobById row.jobId = some job ∧ client.willAccept job = true

/-- A job of the last 24 hours that is to run on every host and has not run on this one. -/
structure Needed (client : RunnerClient) (db : Db) (now : Nat) (job : Job) : Prop where
  found : db.jobById job.id = some job
  everywhere : job.runPreferences = some "all"
  recent : now < job.createdTime + 24 * 3600 * 1000
  unrun : ∀ run row, db.runs.get? run = some row → row.jobId = job.id →
    row.hostId ≠ some client.hostId
  acceptable : client.willAccept job = true

/-- What an iteration is to leave behind. -/
inductive Selected (client : RunnerClient) (db : Db) (now : Nat) : Db × Phase → Prop where
  | queued (candidate : Candidate client db run row)
    (newest : ∀ run' row', Candidate client db run' row' → row'.createdTime ≤ row.createdTime)
    (found : db.jobById row.jobId = some job) :
    Selected client db now (db, .activateRun ⟨run, row.jobId, row.createdTime⟩ job)
  | alternate (noCandidate : ∀ run row, ¬ Candidate client db run row)
    (needed : Needed client db now job) :
    Selected client db now
      ({ db with runs := db.runs.insert (Db.pendingRow job.id (some client.hostId) now) },
        .activateRun ⟨db.runs.seq + 1, job.id, now⟩ job)
  | nothing (noCandidate : ∀ run row, ¬ Candidate client db run row)
    (notNeeded : ∀ job, ¬ Needed client db now job) : Selected client db now (db, .idle)

variable {client : RunnerClient} {db : Db} {now : Nat}

theorem Selected.sound (selected : Selected client db now t) : t.2 ≠ .panicked := by
  cases selected <;> nofun

/-! ### The queue -/

theorem getPendingRuns_newest (db : Db) (hostId : Option Nat) :
    (db.getPendingRuns hostId).Pairwise fun a b => b.createTime ≤ a.createTime := by
  rw [Db.getPendingRuns, List.pairwise_map]
  have total : Std.Total fun a b : Nat × RunRow => b.2.createdTime ≤ a.2.createdTime :=
    ⟨fun a b => Nat.le_total b.2.createdTime a.2.createdTime⟩
  have trans : IsTrans (Nat × RunRow) fun a b => b.2.createdTime ≤ a.2.createdTime :=
    ⟨fun _ _ _ first second => Nat.le_trans second first⟩
  exact List.pairwise_insertionSort _ _

/-- The queue, up to the first run that the client takes. -/
structure Takes (client : RunnerClient) (db : Db) (before : List PendingRun) (run : PendingRun)
    (job : Job) : Prop where
  declined : ∀ earlier ∈ before, ∃ job, db.jobById earlier.jobId = some job ∧ client.willAccept job = false
  found : db.jobById run.jobId = some job
  accepts : client.willAccept job = true

theorem takes_or_declines (client : RunnerClient) {runs : List PendingRun} (valid : ∀ run ∈ runs, (db.jobById run.jobId).isSome) :
    (∃ before run after job, runs = before ++ run :: after ∧ Takes client db before run job) ∨
      ∀ run ∈ runs, ∃ job, db.jobById run.jobId = some job ∧ client.willAccept job = false := by
  induction runs with
  | nil => exact .inr nofun
  | cons run rest ih =>
    obtain ⟨known, others⟩ := List.forall_mem_cons.mp valid
    obtain ⟨job, found⟩ := Option.isSome_iff_exists.mp known
    cases accepts : client.willAccept job with
    | true => exact .inl ⟨[], run, rest, job, rfl, nofun, found, accepts⟩
    | false =>
      obtain ⟨before, taken, after, job', rfl, takes⟩ | declined := ih others
      · refine .inl ⟨run :: before, taken, after, job', rfl, ?_, takes.found, takes.accepts⟩
        exact List.forall_mem_cons.mpr ⟨⟨job, found, accepts⟩, takes.declined⟩
      · exact .inr (List.forall_mem_cons.mpr ⟨⟨job, found, accepts⟩, declined⟩)

theorem declines_through {before after : List PendingRun}
    (declined : ∀ run ∈ before, ∃ job, db.jobById run.jobId = some job ∧ client.willAccept job = false)
    (rest : (taskMachine client).Until (.call now) (fun s => s.2.searched) (db, .pendingRuns after) t) :
    (taskMachine client).Until (.call now) (fun s => s.2.searched) (db, .pendingRuns (before ++ after)) t := by
  induction before with
  | nil => exact rest
  | cons run before ih =>
    obtain ⟨⟨job, found, declines⟩, others⟩ := List.forall_mem_cons.mp declined
    refine .step id ?_ (ih others)
    simp [taskMachine, taskStep, found, orPanic, declines]

theorem candidate_queued (candidate : Candidate client db run row) :
    (⟨run, row.jobId, row.createdTime⟩ : PendingRun) ∈ db.getPendingRuns (some client.hostId) :=
  Db.mem_getPendingRuns.mpr
    ⟨row, candidate.found, candidate.pending, candidate.eligible.symm, rfl, rfl⟩

theorem Candidate.not_declined (candidate : Candidate client db run row) :
    ¬ ∃ job, db.jobById row.jobId = some job ∧ client.willAccept job = false := by
  rintro ⟨job, found, declines⟩
  obtain ⟨job', found', accepts⟩ := candidate.acceptable
  cases found.symm.trans found'
  rw [declines] at accepts
  contradiction

/-- A run from the queue that the client takes is a candidate, and none is newer. -/
theorem takes_newest (split : db.getPendingRuns (some client.hostId) = before ++ run :: after)
    (takes : Takes client db before run job) :
    ∃ row, Candidate client db run.id row ∧ row.jobId = run.jobId ∧ row.createdTime = run.createTime ∧
      ∀ run' row', Candidate client db run' row' → row'.createdTime ≤ row.createdTime := by
  have listed : run ∈ db.getPendingRuns (some client.hostId) := by simp [split]
  obtain ⟨row, found, pending, eligible, sameJob, created⟩ := Db.mem_getPendingRuns.mp listed
  have acceptable : ∃ job, db.jobById row.jobId = some job ∧ client.willAccept job = true :=
    ⟨job, by rw [sameJob, takes.found], takes.accepts⟩
  refine ⟨row, ⟨found, pending, eligible.symm, acceptable⟩, sameJob, created, ?_⟩
  intro run' row' candidate
  have queued := candidate_queued candidate
  have newest := getPendingRuns_newest db (some client.hostId)
  rw [split] at queued newest
  obtain ⟨_, sorted, _⟩ := List.pairwise_append.mp newest
  rcases List.mem_append.mp queued with earlier | later
  · exact absurd (takes.declined _ earlier) candidate.not_declined
  · rw [created]
    rcases List.mem_cons.mp later with same | older
    · rw [← same]
    · exact (List.pairwise_cons.mp sorted).1 _ older

/-- It is picked. -/
theorem takes_selected (split : db.getPendingRuns (some client.hostId) = before ++ run :: after)
    (takes : Takes client db before run job) (now : Nat) :
    (∃ row, Candidate client db run.id row) ∧
      (taskMachine client).Until (.call now) (fun s => s.2.searched)
        (db, .pendingRuns (db.getPendingRuns (some client.hostId))) (db, .activateRun run job) ∧
      Selected client db now (db, .activateRun run job) := by
  obtain ⟨row, candidate, sameJob, created, newest⟩ := takes_newest split takes
  have picks : (taskMachine client).step (db, .pendingRuns (run :: after)) (.call now) =
      some (db, .activateRun run job) := by
    simp [taskMachine, taskStep, takes.found, orPanic, takes.accepts]
  have selected : Selected client db now (db, .activateRun ⟨run.id, row.jobId, row.createdTime⟩ job) :=
    .queued candidate newest (by rw [sameJob, takes.found])
  rw [sameJob, created] at selected
  refine ⟨⟨row, candidate⟩, ?_, selected⟩
  rw [split]
  exact declines_through takes.declined (.step id picks (.here trivial))

/-! ### The jobs -/

theorem needed_iff (answer : db.jobsNeedingTaskRunsForHost client.hostId now = .ok jobs)
    (late : 24 * 3600 * 1000 ≤ now) {job : Job} :
    Needed client db now job ↔ job ∈ jobs ∧ client.willAccept job = true := by
  have recent : now < job.createdTime + 24 * 3600 * 1000 ↔
      now - 24 * 3600 * 1000 < job.createdTime := by omega
  rw [Db.mem_jobsNeedingTaskRunsForHost answer, ← recent]
  constructor
  · intro needed
    exact ⟨⟨needed.found, needed.everywhere, needed.recent, needed.unrun⟩, needed.acceptable⟩
  · rintro ⟨⟨found, everywhere, recent, unrun⟩, acceptable⟩
    exact ⟨found, everywhere, recent, unrun, acceptable⟩

/-- Behind the queue: the second search, or the panic of its subtraction. -/
theorem behind_queue (now : Nat) (noCandidate : ∀ run row, ¬ Candidate client db run row) :
    ∃ t, (taskMachine client).Until (.call now) (fun s => s.2.searched) (db, .pendingRuns []) t ∧
      (Selected client db now t ↔ 24 * 3600 * 1000 ≤ now) := by
  by_cases late : 24 * 3600 * 1000 ≤ now
  · have cutoff : (checkedSub now (24 * 3600 * 1000) : Outcome String Nat) =
        .ok (now - 24 * 3600 * 1000) := checkedSub_eq_ok.mpr ⟨late, rfl⟩
    obtain ⟨jobs, answer⟩ : ∃ jobs, db.jobsNeedingTaskRunsForHost client.hostId now = .ok jobs :=
      ⟨_, by rw [Db.jobsNeedingTaskRunsForHost, cutoff]; rfl⟩
    cases found : jobs.find? client.willAccept with
    | some job =>
      have needed : Needed client db now job :=
        (needed_iff answer late).mpr ⟨List.mem_of_find?_eq_some found, List.find?_some found⟩
      have picks : (taskMachine client).step (db, .pendingRuns []) (.call now) = some (db, .alternateRun job) := by
        simp [taskMachine, taskStep, answer, found]
      exact ⟨_, .step id picks (.step id rfl (.here trivial)),
        iff_of_true (.alternate noCandidate needed) late⟩
    | none =>
      have idles : (taskMachine client).step (db, .pendingRuns []) (.call now) = some (db, .idle) := by
        simp [taskMachine, taskStep, answer, found]
      refine ⟨_, .step id idles (.here trivial), iff_of_true (.nothing noCandidate ?_) late⟩
      intro job needed
      obtain ⟨member, accepts⟩ := (needed_iff answer late).mp needed
      exact List.find?_eq_none.mp found job member accepts
  · have underflow : (checkedSub now (24 * 3600 * 1000) : Outcome String Nat) = .panic := if_neg late
    have answer : db.jobsNeedingTaskRunsForHost client.hostId now = .panic := by
      rw [Db.jobsNeedingTaskRunsForHost, underflow]
      rfl
    have panics : (taskMachine client).step (db, .pendingRuns []) (.call now) = some (db, .panicked) := by
      simp [taskMachine, taskStep, answer]
    exact ⟨_, .step id panics (.here trivial), iff_of_false (fun selected => selected.sound rfl) late⟩

/-- For every database, client and clock: the iteration comes to its end, and picks as it
is to pick exactly when a queued run is there for the client or the clock is a day past
the epoch. -/
theorem selects_work_iff (client : RunnerClient) (db : Db) (now : Nat)
    (valid : db.runs.References RunRow.jobId db.jobs) :
    ∃ t, SearchPass client db now t ∧ (Selected client db now t ↔
      (∃ run row, Candidate client db run row) ∨ 24 * 3600 * 1000 ≤ now) := by
  have known : ∀ run ∈ db.getPendingRuns (some client.hostId), (db.jobById run.jobId).isSome := by
    intro run listed
    obtain ⟨row, found, _, _, sameJob, _⟩ := Db.mem_getPendingRuns.mp listed
    have job := valid run.id row found
    rw [sameJob] at job
    rwa [Db.jobById, Option.isSome_map]
  have queries : (taskMachine client).step (db, .findWork) (.call now) =
      some (db, .pendingRuns (db.getPendingRuns (some client.hostId))) := rfl
  obtain ⟨before, run, after, job, split, takes⟩ | declined := takes_or_declines client known
  · obtain ⟨⟨row, candidate⟩, pass, selected⟩ := takes_selected split takes now
    exact ⟨_, .step id queries pass, iff_of_true selected (.inl ⟨run.id, row, candidate⟩)⟩
  · have noCandidate : ∀ run row, ¬ Candidate client db run row := fun run row candidate =>
      candidate.not_declined (declined _ (candidate_queued candidate))
    obtain ⟨t, pass, selects⟩ := behind_queue now noCandidate
    have through := declines_through declined pass
    rw [List.append_nil] at through
    refine ⟨t, .step id queries through, selects.trans ⟨.inr, ?_⟩⟩
    rintro (⟨run, row, candidate⟩ | late)
    · exact absurd candidate (noCandidate run row)
    · exact late

/-- A job that has run on another host, and a client whose host it has not run on. -/
def ranElsewhere : Db :=
  { Db.empty with
    jobs := Table.empty.insert ⟨none, 100000000, 1, 1, some "all"⟩
    runs := Table.empty.insert { Db.pendingRow 1 none 100000000 with state := .finished, hostId := some 1 } }

def secondHost : RunnerClient := ⟨2, "token", none⟩

theorem ranElsewhere_valid : ranElsewhere.runs.References RunRow.jobId ranElsewhere.jobs :=
  (Table.References.empty _ _).insert rfl

theorem second_host_served : ∃ t, SearchPass secondHost ranElsewhere 100000001 t ∧
    Selected secondHost ranElsewhere 100000001 t := by
  obtain ⟨t, pass, selects⟩ := selects_work_iff secondHost ranElsewhere 100000001 ranElsewhere_valid
  exact ⟨t, pass, selects.mpr (.inr (by decide))⟩

/-- On the first day after the epoch the search for jobs panics, whatever there is. -/
theorem first_day_panics : ¬ ∀ (client : RunnerClient) (db : Db) (now : Nat),
    db.runs.References RunRow.jobId db.jobs →
    ∃ t, SearchPass client db now t ∧ Selected client db now t := by
  intro selects
  obtain ⟨t, pass, selected⟩ := selects secondHost .empty 0 (Table.References.empty _ _)
  have panics : SearchPass secondHost .empty 0 (.empty, .panicked) :=
    .step id rfl (.step id rfl (.here trivial))
  cases pass.unique panics
  exact selected.sound rfl

end BuildOTron.Driver
