import BuildOTron.Driver.Steps

/-! What the columns of a run say together. Four writers in three programs touch
different columns of a row; which of them are set is decided by the state column
alone, in every reachable state. -/
namespace BuildOTron.Driver
open Transition

variable {id : Nat}

/-- The columns that `activate_run` fills in. Nothing clears them. -/
structure Assigned (row : RunRow) : Prop where
  started : row.startedTime.isSome
  host : row.hostId.isSome
  artifacts : row.artifactsPath.isSome
  token : row.buildToken.isSome

structure Coherent (row : RunRow) : Prop where
  pending : row.state = .pending → row.startedTime = none ∧ row.hostId = none ∧
    row.artifactsPath = none ∧ row.buildToken = none ∧ row.completeTime = none ∧
    row.buildResult = none
  assigned : row.state = .started ∨ row.state = .finished ∨ row.state = .error ∨
    row.state = .invalid → Assigned row
  finished : row.state = .finished →
    row.completeTime.isSome ∧ row.buildResult = some JobResult.pass.code
  error : row.state = .error →
    row.completeTime.isSome ∧ row.buildResult = some JobResult.fail.code

theorem pendingRow_coherent (jobId : Nat) (pref : Option Nat) (now : Nat) :
    Coherent (Db.pendingRow jobId pref now) :=
  ⟨fun _ => ⟨rfl, rfl, rfl, rfl, rfl, rfl⟩, by simp [Db.pendingRow], nofun, nofun⟩

theorem startedRow_assigned (row : RunRow) (client : RunnerClient) (offer : Offer) :
    Assigned (startedRow row client offer) := ⟨rfl, rfl, rfl, rfl⟩

theorem startedRow_coherent (row : RunRow) (client : RunnerClient) (offer : Offer) :
    Coherent (startedRow row client offer) :=
  ⟨nofun, fun _ => startedRow_assigned _ _ _, nofun, nofun⟩

theorem Assigned.recordedRow (assigned : Assigned row) (now : Nat) (info : TaskInfo) :
    Assigned (recordedRow row now info) :=
  ⟨assigned.started, assigned.host, assigned.artifacts, assigned.token⟩

theorem Assigned.recorded_coherent (assigned : Assigned row) (now : Nat) (info : TaskInfo) :
    Coherent (Driver.recordedRow row now info) := by
  have columns := assigned.recordedRow now info
  obtain ⟨state, result⟩ | ⟨state, result⟩ := taskResult_agrees info
  · refine ⟨?_, fun _ => columns, fun _ => ⟨rfl, ?_⟩, ?_⟩
    · simp [Driver.recordedRow, state]
    · simp [Driver.recordedRow, result]
    · simp [Driver.recordedRow, state]
  · refine ⟨?_, fun _ => columns, ?_, fun _ => ⟨rfl, ?_⟩⟩
    · simp [Driver.recordedRow, state]
    · simp [Driver.recordedRow, state]
    · simp [Driver.recordedRow, result]

theorem Assigned.reaped_coherent (assigned : Assigned row) (text : Option String) :
    Coherent { row with finalStatus := text, state := .invalid } :=
  ⟨nofun, fun _ => ⟨assigned.started, assigned.host, assigned.artifacts, assigned.token⟩,
    nofun, nofun⟩

def AssignedIn (db : Db) (id : Nat) : Prop := ∃ row, db.runs.get? id = some row ∧ Assigned row

/-- No step clears a column that an activation has filled in. -/
theorem AssignedIn.step {s : State} (assigned : AssignedIn s.db id)
    (write : RunsWrite s l db.runs) : AssignedIn db id := by
  obtain ⟨row, found, columns⟩ := assigned
  obtain ⟨row', found', wrote⟩ := write.forward id row found
  refine ⟨row', found', ?_⟩
  cases wrote with
  | kept => exact columns
  | activated => exact startedRow_assigned _ _ _
  | recorded => exact columns.recordedRow _ _
  | reaped => exact ⟨columns.started, columns.host, columns.artifacts, columns.token⟩

def Reaper.candidates : Reaper → List Run
  | .start | .done => []
  | .activeRuns runs | .unclaimed runs | .reaping runs => runs

/-- The reaper's snapshot was taken from assigned rows, and it will only reap
those that the snapshot shows as started. -/
structure ReaperReady (db : Db) (reaper : Reaper) : Prop where
  started : ∀ run ∈ reaper.candidates, run.state = .started → AssignedIn db run.id
  reaping : ∀ stale, reaper = .reaping stale → ∀ run ∈ stale, run.state = .started

theorem ReaperReady.idle (db : Db) (none : reaper.candidates = []) : ReaperReady db reaper := by
  refine ⟨?_, ?_⟩
  · intro run member
    rw [none] at member
    contradiction
  · rintro stale rfl run member
    rw [show stale = [] from none] at member
    contradiction

structure Records (s : State) : Prop where
  known : Known s
  rows : ∀ id row, s.db.runs.get? id = some row → Coherent row
  jobs : ∀ c task, s.tasks c = some task → ∀ id, task.phase.job? = some id → AssignedIn s.db id
  reaper : ReaperReady s.db s.reaper

theorem rows_coherent {s : State} {db : Db} {id : Nat} (records : Records s)
    (write : RunsWrite s l db.runs) (found : db.runs.get? id = some row') : Coherent row' := by
  cases before : s.db.runs.get? id with
  | none =>
    obtain ⟨_, jobId, pref, now, rfl⟩ := write.backward id row' found before
    exact pendingRow_coherent jobId pref now
  | some row =>
    obtain ⟨row'', found', wrote⟩ := write.forward id row before
    cases Option.some.inj (found'.symm.trans found)
    cases wrote with
    | kept => exact records.rows id _ before
    | activated => exact startedRow_coherent _ _ _
    | recorded mine reporting same now =>
      obtain ⟨held, found, columns⟩ := records.jobs _ _ mine id (by rw [reporting, ← same]; rfl)
      cases Option.some.inj (found.symm.trans before)
      exact columns.recorded_coherent _ _
    | @reaped run rest reaping same =>
      have started := records.reaper.reaping _ reaping run List.mem_cons_self
      obtain ⟨held, found, columns⟩ := records.reaper.started run
        (by rw [reaping]; exact List.mem_cons_self) started
      rw [same] at found
      cases Option.some.inj (found.symm.trans before)
      exact columns.reaped_coherent _

/-- A task works on a `ClientJob` only for the run it has activated itself. -/
theorem moves_job (moves : Moves client db phase action db' next) (job : next.job? = some id) :
    phase.job? = some id ∨
      ∃ offer, phase = .started offer ∧ offer.run.id = id ∧ db' = activate db client offer := by
  cases moves with
  | ends ended =>
    cases next <;> simp_all [Phase.isOver, Phase.job?]
  | activates => exact .inr ⟨_, rfl, Option.some.inj job, rfl⟩
  | reads within => exact .inl (within.symm.trans job)
  | replies | insertMetric | jobById | repoIdByRemote | notifies | records => exact .inl job
  | _ => simp [Phase.job?] at job

theorem mem_swapRemove (member : x ∈ swapRemove xs i) : x ∈ xs := by
  unfold swapRemove at member
  split at member
  · exact member
  · rename_i last ends
    rcases List.mem_or_eq_of_mem_set (List.dropLast_subset _ member) with old | rfl
    · exact old
    · exact List.mem_of_getLast? ends

theorem mem_dropActive (member : run ∈ dropActive activeTasks stale) : run ∈ stale := by
  induction activeTasks generalizing stale with
  | nil => exact member
  | cons entry rest ih =>
    have next := ih member
    dsimp only at next
    split at next
    · exact mem_swapRemove next
    · exact next

theorem isStale_started (stale : isStale threshold run = true) : run.state = .started := by
  unfold isStale at stale
  split at stale
  · assumption
  · assumption
  · contradiction

theorem ReaperReady.step {s : State} (records : Records s)
    (stepped : reaperStep s.db s.activeTasks now s.reaper = some (db, reaper)) :
    ReaperReady db reaper := by
  have ready := records.reaper
  have keeps : ∀ id, AssignedIn s.db id → AssignedIn db id := fun _ assigned =>
    assigned.step (reaper_runsWrite stepped)
  generalize same : s.reaper = phase at stepped ready
  cases phase with
  | start =>
    cases stepped
    refine ⟨?_, nofun⟩
    intro run member started
    obtain ⟨row, found, _, read⟩ := Db.mem_getActiveRuns.mp member
    have state : row.state = .started := by rw [read] at started; exact started
    exact ⟨row, found, (records.rows run.id row found).assigned (.inl state)⟩
  | activeRuns runs =>
    cases stepped
    exact ⟨fun run member => ready.started run (mem_dropActive member), nofun⟩
  | unclaimed runs =>
    simp only [reaperStep, Option.some.injEq, Prod.mk.injEq] at stepped
    obtain ⟨rfl, rfl⟩ := stepped
    split
    · refine ⟨?_, ?_⟩
      · intro run member
        exact ready.started run (List.mem_of_mem_filter member)
      · rintro _ ⟨⟩ run member
        exact isStale_started (List.mem_filter.mp member).2
    · exact .idle _ rfl
  | reaping stale =>
    cases stale with
    | nil => cases stepped; exact .idle _ rfl
    | cons run rest =>
      cases stepped
      refine ⟨?_, ?_⟩
      · intro other member started
        exact keeps _ (ready.started other (List.mem_cons_of_mem run member) started)
      · rintro _ ⟨⟩ other member
        exact ready.reaping _ rfl other (List.mem_cons_of_mem run member)
  | done => contradiction

theorem Records.activated {s : State} (records : Records s) (found : s.tasks c = some task)
    (acked : task.phase = .started offer) :
    AssignedIn (activate s.db task.client offer) offer.run.id := by
  have known := records.known.tasks c task found offer.run.id
    (by simp [acked, Phase.mentions, Phase.run?])
  obtain ⟨row, held⟩ := Option.isSome_iff_exists.mp known
  refine ⟨startedRow row task.client offer, ?_, startedRow_assigned _ _ _⟩
  exact activate_row _ _ held

theorem ReaperReady.frame {s : State} (ready : ReaperReady s.db reaper)
    (write : RunsWrite s l db.runs) : ReaperReady db reaper :=
  ⟨fun run member started => (ready.started run member started).step write, ready.reaping⟩

theorem Records.moveTask {s : State} (records : Records s) (found : s.tasks c = some task)
    (moves : Moves task.client s.db task.phase action db next) :
    Records (s.moveTask c task action db next) := by
  have write := moves_runsWrite found moves
  refine ⟨records.known.moveTask found moves, ?_, ?_, ?_⟩
  · intro id row
    rw [moveTask_db]
    exact rows_coherent records write
  · intro c' task' found' id job
    rw [moveTask_db]
    obtain ⟨_, rfl⟩ | ⟨_, old⟩ := moveTask_cases found'
    · obtain held | ⟨offer, acked, rfl, rfl⟩ := moves_job moves job
      · exact (records.jobs c task found id held).step write
      · exact records.activated found acked
    · exact (records.jobs c' task' old id job).step write
  · rw [moveTask_db, moveTask_reaper]
    exact records.reaper.frame write

theorem step_records (records : Records s) (stepped : (machine tokenForJob).step s l = some t) :
    Records t := by
  have write := step_runsWrite stepped
  have rows : ∀ id row, t.db.runs.get? id = some row → Coherent row :=
    fun _ _ => rows_coherent records write
  have known := step_known records.known stepped
  cases l with
  | connect hostInfo accepted =>
    cases stepped
    refine ⟨known, rows, ?_, ?_⟩
    · intro c task found id job
      obtain ⟨_, fresh, _⟩ | old := connect_cases found
      · simp [fresh, Phase.job?] at job
      · exact (records.jobs c task old id job).step write
    · rw [connect_reaper]
      exact records.reaper.frame write
  | task c action =>
    obtain ⟨task, db, next, found, moves, rfl⟩ := step_task stepped
    exact records.moveTask found moves
  | reaper now =>
    obtain ⟨db, reaper, moved, rfl⟩ := step_reaper stepped
    exact ⟨known, rows, fun c task found id job => (records.jobs c task found id job).step write,
      .step records moved⟩
  | post | outside =>
    cases stepped
    exact ⟨known, rows, fun c task found id job => (records.jobs c task found id job).step write,
      records.reaper.frame write⟩
  | restart =>
    cases stepped
    refine ⟨known, rows, ?_, .idle _ rfl⟩
    intro c task found
    simp [State.start] at found

theorem start_records (db : Db) (clients : Nat) :
    Records (.start { db with runs := .empty } clients) := by
  refine ⟨start_known _ _, ?_, ?_, .idle _ rfl⟩
  · intro id row found
    simp [State.start] at found
  · intro c task found
    simp [State.start] at found

/-- Whatever writes the runs table, in any order and across restarts, a row's
state says which of its columns are set and what result it holds. -/
theorem run_records_coherent (tokenForJob : Nat → String) (db : Db) (clients : Nat)
    (labels : List Label) (s : State)
    (path : (machine tokenForJob).run (.start { db with runs := .empty } clients) labels = some s) :
    ∀ id row, s.db.runs.get? id = some row → Coherent row :=
  (Machine.invariant (fun _ _ _ => step_records) (start_records db clients) path).rows

/-- One run from the push that queues it to the result that is recorded for it. -/
def reportedRun : List Label :=
  pushed ++ [connects] ++ prepares 0 7 ++ [offers 0, acks 0, .task 0 (.call 7)] ++
    reports 0 9 (.finished "pass")

theorem reported_run_coherent :
    ∃ s, (machine someToken).run (.start { Db.empty with runs := .empty } 0) reportedRun = some s ∧
      ∀ id row, s.db.runs.get? id = some row → Coherent row := by
  have runs : ((machine someToken).run (.start { Db.empty with runs := .empty } 0)
      reportedRun).isSome := rfl
  obtain ⟨s, path⟩ := Option.isSome_iff_exists.mp runs
  exact ⟨s, path, run_records_coherent someToken .empty 0 reportedRun s path⟩

end BuildOTron.Driver
