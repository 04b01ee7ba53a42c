import BuildOTron.Driver.Machine

/-! What one step of the driver does, stated once: to a row of the runs table, to
the tasks, and to the runs that tasks and history refer to. Invariants are derived
from these facts and do not unfold a step again. -/
namespace BuildOTron.Driver
open Transition

def InState (db : Db) (run : Nat) (state : RunState) : Prop :=
  ∃ row, db.runs.get? run = some row ∧ row.state = state

/-- The row after the update of `activate_run`. -/
def startedRow (row : RunRow) (client : RunnerClient) (offer : Offer) : RunRow :=
  { row with startedTime := some offer.now, hostId := some client.hostId, state := .started,
             artifactsPath := some (artifactsDir offer.run.id),
             buildToken := some client.buildToken }

/-- The row after the update of `ClientJob::run`. -/
def recordedRow (row : RunRow) (now : Nat) (info : TaskInfo) : RunRow :=
  { row with completeTime := some now, state := (taskResult info).2,
             buildResult := some (buildResult (taskResult info).1).code,
             finalStatus := some (resultDesc (taskResult info).1) }

/-- The row after `reap_task`. -/
def reapedRow (row : RunRow) : RunRow :=
  { row with finalStatus := some "lost signal", state := .invalid }

/-- The state a report ends in and the result it records agree. -/
theorem taskResult_agrees (info : TaskInfo) :
    ((taskResult info).2 = .finished ∧ buildResult (taskResult info).1 = .pass) ∨
      ((taskResult info).2 = .error ∧ buildResult (taskResult info).1 = .fail) := by
  cases info with
  | finished status =>
    by_cases passed : status = "pass"
    · exact .inl ⟨by simp [taskResult, passed], by simp [taskResult, passed, buildResult]⟩
    · exact .inr ⟨by simp [taskResult, passed], by simp [taskResult, passed, buildResult]⟩
  | interrupted status description => exact .inr ⟨rfl, rfl⟩

/-- What one step may do to a row of the runs table that is already there. -/
inductive RowWrite (s : State) (l : Label) (id : Nat) (row : RunRow) : RunRow → Prop where
  | kept : RowWrite s l id row row
  | activated (step : l = .task c action) (found : s.tasks c = some task)
      (acked : task.phase = .started offer) (same : offer.run.id = id) :
      RowWrite s l id row (startedRow row task.client offer)
  | recorded (found : s.tasks c = some task) (reporting : task.phase = .recordResult job info)
      (same : job.task.id = id) (now : Nat) : RowWrite s l id row (recordedRow row now info)
  | reaped (reaping : s.reaper = .reaping (run :: rest)) (same : run.id = id) :
      RowWrite s l id row { row with finalStatus := some "lost signal", state := .invalid }

/-- What one step may do to the runs table: rows are added at the end and
written one at a time, never removed. -/
structure RunsWrite (s : State) (l : Label) (runs : Table RunRow) : Prop where
  forward : ∀ id row, s.db.runs.get? id = some row →
    ∃ row', runs.get? id = some row' ∧ RowWrite s l id row row'
  backward : ∀ id row', runs.get? id = some row' → s.db.runs.get? id = none →
    id = s.db.runs.seq + 1 ∧ ∃ jobId pref now, row' = Db.pendingRow jobId pref now

theorem RunsWrite.unchanged (s : State) (l : Label) : RunsWrite s l s.db.runs where
  forward _ row found := ⟨row, found, .kept⟩
  backward _ _ found missing := by rw [found] at missing; contradiction

theorem RunsWrite.inserted (s : State) (l : Label) (jobId : Nat) (pref : Option Nat) (now : Nat) :
    RunsWrite s l (s.db.newRun jobId pref now).1.runs where
  forward _ row found := ⟨row, Table.get?_insert_of_some found _, .kept⟩
  backward id row' found missing := by
    rw [Db.newRun_runs] at found
    split at found
    · exact ⟨‹_›, jobId, pref, now, (Option.some.inj found).symm⟩
    · rw [missing] at found
      contradiction

theorem RunsWrite.updated {s : State} {l : Label} {target : Nat} {f : RunRow → RunRow}
    (writes : ∀ row, RowWrite s l target row (f row)) :
    RunsWrite s l (s.db.runs.update target f) where
  forward id row found := by
    by_cases same : id = target
    · subst same
      exact ⟨f row, by rw [Table.get?_update_self, found]; rfl, writes row⟩
    · exact ⟨row, by rw [Table.get?_update_of_ne _ _ same, found], .kept⟩
  backward id row' found missing := by
    rw [Table.get?_update, missing] at found
    simp at found

/-- No statement updates what a run was created with. -/
theorem RowWrite.fixed {s : State} (write : RowWrite s l run row row') :
    row'.jobId = row.jobId ∧ row'.hostPreference = row.hostPreference := by
  cases write <;> exact ⟨rfl, rfl⟩

theorem moves_runsWrite {s : State} (found : s.tasks c = some task)
    (moves : Moves task.client s.db task.phase action db next) :
    RunsWrite s (.task c action) db.runs := by
  generalize same : task.phase = phase at moves
  cases moves with
  | newRun => exact .inserted s _ _ _ _
  | activates => exact .updated fun _ => .activated rfl found same rfl
  | insertMetric => rw [Db.insertMetric_runs]; exact .unchanged s _
  | records => exact .updated fun _ => .recorded found same rfl _
  | _ => exact .unchanged s _

/-- A task's step is one of its moves; a poisoned lock only ends it. -/
theorem attempt_cases {s : State} {task : Task} (moved : s.attempt task action = some (db, next)) :
    taskStep task.client s.db task.phase action = some (db, next) ∨
      (s.poisoned = true ∧ action.locks = true ∧ db = s.db ∧ next = .panicked) := by
  simp only [State.attempt, Option.map_eq_some_iff] at moved
  obtain ⟨planned, stepped, same⟩ := moved
  split at same
  · rename_i both
    rw [Bool.and_eq_true] at both
    cases same
    exact .inr ⟨both.1, both.2, rfl, rfl⟩
  · exact .inl (same ▸ stepped)

theorem attempt_moves {s : State} {task : Task} (moved : s.attempt task action = some (db, next)) :
    Moves task.client s.db task.phase action db next := by
  obtain stepped | ⟨_, _, rfl, rfl⟩ := attempt_cases moved
  · exact taskStep_moves stepped
  · exact .ends rfl

theorem attempt_goes_on {s : State} {task : Task} (moved : s.attempt task action = some (db, next))
    (on : next ≠ .panicked) : taskStep task.client s.db task.phase action = some (db, next) := by
  obtain stepped | ⟨_, _, _, ended⟩ := attempt_cases moved
  · exact stepped
  · exact absurd ended on

theorem attempt_healthy {s : State} (healthy : s.poisoned = false) (task : Task) (action : Action) :
    s.attempt task action = taskStep task.client s.db task.phase action := by
  simp [State.attempt, healthy]

/-- A task that has read `Started` marks the row, unless it finds the lock poisoned. -/
theorem attempt_started {s : State} {task : Task} (moved : s.attempt task action = some (db, next))
    (started : task.phase = .started offer) : (∃ now, action = .call now) ∧
      (s.poisoned = false ∧ db = activate s.db task.client offer ∧ next = .running offer.clientJob ∨
        s.poisoned = true ∧ db = s.db ∧ next = .panicked) := by
  simp only [State.attempt, started, Option.map_eq_some_iff] at moved
  obtain ⟨planned, stepped, same⟩ := moved
  cases action with
  | call now =>
    cases stepped
    refine ⟨⟨now, rfl⟩, ?_⟩
    split at same
    · rename_i both
      cases same
      exact .inr ⟨(Bool.and_eq_true_iff.mp both).1, rfl, rfl⟩
    · rename_i free
      cases same
      exact .inl ⟨by simpa [Action.locks] using free, rfl, rfl⟩
  | _ => contradiction

/-- The same of the reaper. -/
theorem reaper_runsWrite {s : State}
    (stepped : reaperStep s.db s.activeTasks now s.reaper = some (db, reaper)) :
    RunsWrite s (.reaper now) db.runs := by
  generalize same : s.reaper = phase at stepped
  cases phase with
  | reaping stale =>
    cases stale with
    | nil => cases stepped; exact .unchanged s _
    | cons run rest => cases stepped; exact .updated fun _ => .reaped same rfl
  | start | activeRuns | unclaimed => cases stepped; exact .unchanged s _
  | done => contradiction

/-- A job from outside is added with its commit, or refused when the commit is known. -/
theorem outside_newJob (db : Db) (remoteId : Nat) (sha : String) (pusher runPreferences : Option String)
    (now : Nat) :
    (Outside.newJob remoteId sha pusher runPreferences now).apply db = db ∨
      (Outside.newJob remoteId sha pusher runPreferences now).apply db = { db with
        commits := db.commits.insert sha
        jobs := db.jobs.insert ⟨pusher, now, remoteId, db.commits.seq + 1, runPreferences⟩ } := by
  simp only [Outside.apply, Db.newJob, Db.newCommit]
  by_cases fresh : (db.commits.select fun known => known = sha).isEmpty = true
  · rw [if_pos fresh]
    exact .inr rfl
  · rw [if_neg fresh]
    exact .inl rfl

theorem outside_runsWrite (s : State) (write : Outside) :
    RunsWrite s (.outside write) (write.apply s.db).runs := by
  cases write with
  | newRun jobId now => exact .inserted s _ _ _ _
  | newJob remoteId sha pusher runPreferences now =>
    obtain same | same := outside_newJob s.db remoteId sha pusher runPreferences now <;>
      rw [same] <;> exact .unchanged s _
  | commitName | newRepo | newRemote => exact .unchanged s _

/-- A task writes to runs and metrics only. -/
theorem moves_writes (moves : Moves client db phase action db' next) :
    db' = { db with runs := db'.runs, metrics := db'.metrics } := by
  cases moves with
  | insertMetric =>
    simp only [Db.insertMetric]
    split <;> rfl
  | _ => rfl

theorem reaperStep_writes (stepped : reaperStep db activeTasks now reaper = some (db', reaper')) :
    db' = { db with runs := db'.runs } := by
  cases reaper with
  | reaping stale => cases stale <;> cases stepped <;> rfl
  | start | activeRuns | unclaimed => cases stepped; rfl
  | done => contradiction

theorem idForHost_refused {s : State}
    (refused : s.poisoned = true ∨ Hosts.bindable hostInfo.cpuInfo.maxFreq = false) :
    s.idForHost hostInfo = (.panic, { s with poisoned := true }) := by
  rw [State.idForHost, Hosts.idForHost_refused refused]

theorem idForHost_answers {s : State} (healthy : s.poisoned = false)
    (stored : Hosts.bindable hostInfo.cpuInfo.maxFreq = true) : s.idForHost hostInfo =
      (match (s.db.idForHost hostInfo).2 with
        | some hostId => .ok hostId
        | none => .err "Query returned no rows", { s with db := (s.db.idForHost hostInfo).1 }) := by
  have answers := Hosts.idForHost_answers (s := ⟨s.db, s.poisoned⟩) healthy stored
  exact congrArg (fun answer => (answer.1, { s with db := answer.2.db, poisoned := answer.2.poisoned }))
    answers

/-- An id is answered on a sound lock, for what can be stored. -/
theorem idForHost_ok {s t : State} : s.idForHost hostInfo = (.ok hostId, t) ↔
    s.poisoned = false ∧ Hosts.bindable hostInfo.cpuInfo.maxFreq = true ∧
      (s.db.idForHost hostInfo).2 = some hostId ∧ t = { s with db := (s.db.idForHost hostInfo).1 } := by
  by_cases refused : s.poisoned = true ∨ Hosts.bindable hostInfo.cpuInfo.maxFreq = false
  · rw [idForHost_refused refused]
    refine iff_of_false (by simp) ?_
    rintro ⟨healthy, stored, _⟩
    simp [healthy, stored] at refused
  · rw [not_or, Bool.not_eq_true, Bool.not_eq_false] at refused
    obtain ⟨healthy, stored⟩ := refused
    rw [idForHost_answers healthy stored, and_iff_right healthy, and_iff_right stored, Prod.mk.injEq]
    cases (s.db.idForHost hostInfo).2 <;> simp [eq_comm]

/-- It looks at the hosts and the lock alone, and changes nothing else. -/
theorem idForHost_agrees {s u : State} (hosts : u.db.hosts = s.db.hosts)
    (poisoned : u.poisoned = s.poisoned) : u.idForHost hostInfo = ((s.idForHost hostInfo).1, { u with
      db := { u.db with hosts := (s.idForHost hostInfo).2.db.hosts }
      poisoned := (s.idForHost hostInfo).2.poisoned }) := by
  by_cases refused : s.poisoned = true ∨ Hosts.bindable hostInfo.cpuInfo.maxFreq = false
  · rw [idForHost_refused refused, idForHost_refused (poisoned ▸ refused), ← hosts]
  · rw [not_or, Bool.not_eq_true, Bool.not_eq_false] at refused
    obtain ⟨healthy, stored⟩ := refused
    rw [idForHost_answers healthy stored, idForHost_answers (poisoned.trans healthy) stored]
    simp only [Db.idForHost, hosts]
    rw [poisoned]

theorem idForHost_writes (s : State) (hostInfo : HostInfo) : (s.idForHost hostInfo).2 = { s with
    db := { s.db with hosts := (s.idForHost hostInfo).2.db.hosts }
    poisoned := (s.idForHost hostInfo).2.poisoned } :=
  congrArg Prod.snd (idForHost_agrees (u := s) rfl rfl)

/-- What `id_for_host` may write, and whom it may leave behind. -/
theorem idForHost_cases (s : State) (hostInfo : HostInfo) :
    (s.idForHost hostInfo).2 = { s with poisoned := true } ∨
      (s.idForHost hostInfo).2 = { s with db := (s.db.idForHost hostInfo).1 } := by
  by_cases refused : s.poisoned = true ∨ Hosts.bindable hostInfo.cpuInfo.maxFreq = false
  · rw [idForHost_refused refused]
    exact .inl rfl
  · rw [not_or, Bool.not_eq_true, Bool.not_eq_false] at refused
    rw [idForHost_answers refused.1 refused.2]
    exact .inr rfl

/-- What a request comes to that reaches the task queue, or does not. -/
inductive Connected (tokenForJob : Nat → String) (s : State) (hostInfo : HostInfo)
    (accepted : Option (List String)) : State → Prop where
  | refused (refused : s.poisoned = true ∨ Hosts.bindable hostInfo.cpuInfo.maxFreq = false) :
      Connected tokenForJob s hostInfo accepted { s with poisoned := true }
  | unknown (healthy : s.poisoned = false) (stored : Hosts.bindable hostInfo.cpuInfo.maxFreq = true)
      (host : (s.db.idForHost hostInfo).2 = none) :
      Connected tokenForJob s hostInfo accepted { s with db := (s.db.idForHost hostInfo).1 }
  | queued (healthy : s.poisoned = false) (stored : Hosts.bindable hostInfo.cpuInfo.maxFreq = true)
      (host : (s.db.idForHost hostInfo).2 = some hostId) :
      Connected tokenForJob s hostInfo accepted
        { s with
          db := (s.db.idForHost hostInfo).1
          tasks := Function.update s.tasks s.clients
            (some ⟨⟨hostId, tokenForJob s.clients, accepted⟩, .findWork⟩)
          clients := s.clients + 1 }

theorem connect_connected (tokenForJob : Nat → String) (s : State) (hostInfo : HostInfo)
    (accepted : Option (List String)) :
    Connected tokenForJob s hostInfo accepted (s.connect tokenForJob hostInfo accepted) := by
  rw [State.connect]
  by_cases refused : s.poisoned = true ∨ Hosts.bindable hostInfo.cpuInfo.maxFreq = false
  · rw [idForHost_refused refused]
    exact .refused refused
  · rw [not_or, Bool.not_eq_true, Bool.not_eq_false] at refused
    obtain ⟨healthy, stored⟩ := refused
    rw [idForHost_answers healthy stored]
    cases host : (s.db.idForHost hostInfo).2 with
    | none => exact .unknown healthy stored host
    | some hostId => exact .queued healthy stored host

/-- A client that `id_for_host` answers an id for. -/
theorem connect_some {s : State} (healthy : s.poisoned = false)
    (stored : Hosts.bindable hostInfo.cpuInfo.maxFreq = true)
    (host : (s.db.idForHost hostInfo).2 = some hostId) :
    s.connect tokenForJob hostInfo accepted =
      { s with
        db := (s.db.idForHost hostInfo).1
        tasks := Function.update s.tasks s.clients
          (some ⟨⟨hostId, tokenForJob s.clients, accepted⟩, .findWork⟩)
        clients := s.clients + 1 } := by
  rw [State.connect, idForHost_answers healthy stored, host]

theorem connect_answered {s : State} (answered : (s.idForHost hostInfo).1 = .ok hostId) :
    s.connect tokenForJob hostInfo accepted =
      { (s.idForHost hostInfo).2 with
        tasks := Function.update s.tasks s.clients
          (some ⟨⟨hostId, tokenForJob s.clients, accepted⟩, .findWork⟩)
        clients := s.clients + 1 } := by
  have host : s.idForHost hostInfo = (.ok hostId, (s.idForHost hostInfo).2) := Prod.ext answered rfl
  rw [idForHost_writes] at host ⊢
  rw [State.connect, host]

/-- A client that it answers no id for is not queued. -/
theorem connect_refused {s : State} (refused : ∀ hostId, (s.idForHost hostInfo).1 ≠ .ok hostId) :
    s.connect tokenForJob hostInfo accepted = (s.idForHost hostInfo).2 := by
  rw [State.connect]
  split
  · rename_i hostId t host
    exact absurd (congrArg Prod.fst host) (refused hostId)
  · rename_i t _ host
    rw [host]

/-- A connection writes what `id_for_host` writes, the hosts. -/
theorem connect_db_cases (tokenForJob : Nat → String) (s : State) (hostInfo : HostInfo)
    (accepted : Option (List String)) : (s.connect tokenForJob hostInfo accepted).db = s.db ∨
      (s.connect tokenForJob hostInfo accepted).db = (s.db.idForHost hostInfo).1 := by
  have outcome := connect_connected tokenForJob s hostInfo accepted
  generalize s.connect tokenForJob hostInfo accepted = t at outcome
  cases outcome with
  | refused => exact .inl rfl
  | unknown | queued => exact .inr rfl

theorem connect_db (tokenForJob : Nat → String) (s : State) (hostInfo : HostInfo)
    (accepted : Option (List String)) : (s.connect tokenForJob hostInfo accepted).db =
      { s.db with hosts := (s.connect tokenForJob hostInfo accepted).db.hosts } := by
  obtain same | same := connect_db_cases tokenForJob s hostInfo accepted
  · rw [same]
  · rw [same]
    rfl

theorem connect_runs (tokenForJob : Nat → String) (s : State) (hostInfo : HostInfo)
    (accepted : Option (List String)) :
    (s.connect tokenForJob hostInfo accepted).db.runs = s.db.runs := by
  rw [connect_db]

theorem moveTask_db (s : State) (c : Nat) (task : Task) (action : Action) (db : Db) (next : Phase) :
    (s.moveTask c task action db next).db = db := by
  unfold State.moveTask
  split <;> rfl

theorem step_attempt (stepped : (machine tokenForJob).step s (.task c action) = some t) :
    ∃ task db next, s.tasks c = some task ∧ s.attempt task action = some (db, next) ∧
      t = s.moveTask c task action db next := by
  simp only [machine, Option.bind_eq_bind, Option.bind_eq_some_iff, Option.pure_def,
    Option.some.injEq] at stepped
  obtain ⟨task, found, ⟨db, next⟩, moved, rfl⟩ := stepped
  exact ⟨task, db, next, found, moved, rfl⟩

theorem step_task (stepped : (machine tokenForJob).step s (.task c action) = some t) :
    ∃ task db next, s.tasks c = some task ∧ Moves task.client s.db task.phase action db next ∧
      t = s.moveTask c task action db next := by
  obtain ⟨task, db, next, found, moved, same⟩ := step_attempt stepped
  exact ⟨task, db, next, found, attempt_moves moved, same⟩

theorem step_reaper (stepped : (machine tokenForJob).step s (.reaper now) = some t) :
    ∃ db reaper, reaperStep s.db s.activeTasks now s.reaper = some (db, reaper) ∧
      t = { s with db := db, reaper := reaper } := by
  simp only [machine, State.reaperMove, Option.bind_eq_bind, Option.bind_eq_some_iff,
    Option.ite_none_left_eq_some, Option.pure_def, Option.some.injEq] at stepped
  obtain ⟨⟨db, reaper⟩, ⟨_, moved⟩, rfl⟩ := stepped
  exact ⟨db, reaper, moved, rfl⟩

theorem step_reaper_free (stepped : (machine tokenForJob).step s (.reaper now) = some t) :
    (s.poisoned && s.reaper.locks) = false := by
  simp only [machine, State.reaperMove, Option.bind_eq_bind, Option.bind_eq_some_iff,
    Option.ite_none_left_eq_some] at stepped
  obtain ⟨_, ⟨free, _⟩, _⟩ := stepped
  exact Bool.eq_false_of_not_eq_true free

theorem reaper_steps {s : State} (free : (s.poisoned && s.reaper.locks) = false)
    (stepped : reaperStep s.db s.activeTasks now s.reaper = some (db, reaper)) :
    (machine tokenForJob).step s (.reaper now) = some { s with db := db, reaper := reaper } := by
  simp only [machine, State.reaperMove, free, stepped, Bool.false_eq_true, if_false,
    Option.bind_eq_bind, Option.bind_some, Option.pure_def]

/-- Every step of the machine writes the runs table in one of the listed ways. -/
theorem step_runsWrite (stepped : (machine tokenForJob).step s l = some t) :
    RunsWrite s l t.db.runs := by
  cases l with
  | connect hostInfo accepted =>
    cases stepped
    rw [connect_runs]
    exact .unchanged s _
  | task c action =>
    obtain ⟨task, db, next, found, moves, rfl⟩ := step_task stepped
    rw [moveTask_db]
    exact moves_runsWrite found moves
  | reaper now =>
    obtain ⟨db, reaper, moved, rfl⟩ := step_reaper stepped
    exact reaper_runsWrite moved
  | post post now fileCreated =>
    cases stepped
    rw [answerPost_runs]
    exact .unchanged s _
  | outside write =>
    cases stepped
    exact outside_runsWrite s write
  | restart =>
    cases stepped
    exact .unchanged s _

theorem moveTask_tasks (s : State) (c : Nat) (task : Task) (action : Action) (db : Db) (next : Phase) :
    (s.moveTask c task action db next).tasks =
      Function.update s.tasks c (some { task with phase := next }) := by
  unfold State.moveTask
  split <;> rfl

theorem moveTask_reaper (s : State) (c : Nat) (task : Task) (action : Action) (db : Db) (next : Phase) :
    (s.moveTask c task action db next).reaper = s.reaper := by
  unfold State.moveTask
  split <;> rfl

theorem moveTask_clients (s : State) (c : Nat) (task : Task) (action : Action) (db : Db) (next : Phase) :
    (s.moveTask c task action db next).clients = s.clients := by
  unfold State.moveTask
  split <;> rfl

/-- The tasks after a step: one of them moved, one was added, or all are gone. -/
theorem moveTask_cases {s : State} {next : Phase}
    (found : (s.moveTask c task action db next).tasks c' = some task') :
    (c' = c ∧ task' = { task with phase := next }) ∨ (c' ≠ c ∧ s.tasks c' = some task') := by
  rw [moveTask_tasks] at found
  by_cases mine : c' = c
  · subst mine
    rw [Function.update_self] at found
    exact .inl ⟨rfl, (Option.some.inj found).symm⟩
  · rw [Function.update_of_ne mine] at found
    exact .inr ⟨mine, found⟩

theorem connect_cases {s : State}
    (found : (s.connect tokenForJob hostInfo accepted).tasks c = some task) :
    (c = s.clients ∧ task.phase = .findWork ∧ task.client.buildToken = tokenForJob s.clients ∧
      (s.connect tokenForJob hostInfo accepted).clients = s.clients + 1) ∨
      s.tasks c = some task := by
  have outcome := connect_connected tokenForJob s hostInfo accepted
  generalize s.connect tokenForJob hostInfo accepted = t at found outcome ⊢
  cases outcome with
  | refused | unknown => exact .inr found
  | queued =>
    by_cases mine : c = s.clients
    · subst mine
      simp only [Function.update_self, Option.some.injEq] at found
      subst found
      exact .inl ⟨rfl, rfl, rfl, rfl⟩
    · simp only [Function.update_of_ne mine] at found
      exact .inr found

theorem connect_acked (tokenForJob : Nat → String) (s : State) (hostInfo : HostInfo)
    (accepted : Option (List String)) :
    (s.connect tokenForJob hostInfo accepted).acked = s.acked := by
  have outcome := connect_connected tokenForJob s hostInfo accepted
  generalize s.connect tokenForJob hostInfo accepted = t at outcome
  cases outcome <;> rfl

theorem connect_clients (tokenForJob : Nat → String) (s : State) (hostInfo : HostInfo)
    (accepted : Option (List String)) :
    s.clients ≤ (s.connect tokenForJob hostInfo accepted).clients := by
  have outcome := connect_connected tokenForJob s hostInfo accepted
  generalize s.connect tokenForJob hostInfo accepted = t at outcome
  cases outcome with
  | refused | unknown => exact Nat.le_refl _
  | queued => exact Nat.le_succ _

theorem connect_reaper (tokenForJob : Nat → String) (s : State) (hostInfo : HostInfo)
    (accepted : Option (List String)) :
    (s.connect tokenForJob hostInfo accepted).reaper = s.reaper := by
  have outcome := connect_connected tokenForJob s hostInfo accepted
  generalize s.connect tokenForJob hostInfo accepted = t at outcome
  cases outcome <;> rfl

@[simp] theorem start_tasks (db : Db) (clients c : Nat) :
    (State.start db clients).tasks c = none := rfl

@[simp] theorem start_acked (db : Db) (clients : Nat) : (State.start db clients).acked = [] := rfl

theorem step_clients (stepped : (machine tokenForJob).step s l = some t) :
    s.clients ≤ t.clients := by
  cases l with
  | connect hostInfo accepted =>
    cases stepped
    exact connect_clients _ _ _ _
  | task c action =>
    obtain ⟨task, db, next, _, _, rfl⟩ := step_task stepped
    rw [moveTask_clients]
  | reaper now =>
    obtain ⟨db, reaper, _, rfl⟩ := step_reaper stepped
    exact Nat.le_refl _
  | post | outside | restart =>
    cases stepped
    exact Nat.le_refl _

/-- What poisons the lock. -/
def Label.poisons : Label → Bool
  | .connect hostInfo _ => !Hosts.bindable hostInfo.cpuInfo.maxFreq
  | .task _ action => action.poisons
  | _ => false

theorem moveTask_poisoned (s : State) (c : Nat) (task : Task) (action : Action) (db : Db)
    (next : Phase) :
    (s.moveTask c task action db next).poisoned = (s.poisoned || action.poisons) := by
  unfold State.moveTask
  split <;> rfl

theorem connect_poisoned (tokenForJob : Nat → String) (s : State) (hostInfo : HostInfo)
    (accepted : Option (List String)) : (s.connect tokenForJob hostInfo accepted).poisoned =
      (s.poisoned || !Hosts.bindable hostInfo.cpuInfo.maxFreq) := by
  have outcome := connect_connected tokenForJob s hostInfo accepted
  generalize s.connect tokenForJob hostInfo accepted = t at outcome
  cases outcome with
  | refused refused =>
    obtain poisoned | unbound := refused
    · simp [poisoned]
    · simp [unbound]
  | unknown healthy stored | queued healthy stored => simp [healthy, stored]

theorem step_healthy (healthy : s.poisoned = false) (sound : l.poisons = false)
    (stepped : (machine tokenForJob).step s l = some t) : t.poisoned = false := by
  cases l with
  | connect hostInfo accepted =>
    cases stepped
    rw [connect_poisoned, healthy]
    exact sound
  | task c action =>
    obtain ⟨task, db, next, _, _, rfl⟩ := step_task stepped
    rw [moveTask_poisoned, healthy]
    exact sound
  | reaper now =>
    obtain ⟨db, reaper, _, rfl⟩ := step_reaper stepped
    exact healthy
  | post | outside =>
    cases stepped
    exact healthy
  | restart =>
    cases stepped
    rfl

theorem run_healthy (healthy : s.poisoned = false) (sound : ∀ l ∈ ls, l.poisons = false)
    (path : (machine tokenForJob).run s ls = some t) : t.poisoned = false := by
  have guarded : (machine tokenForJob).Guarded (fun _ l => l.poisons = false) s ls :=
    Machine.guarded_of_forall fun l member _ => sound l member
  exact Machine.guarded_invariant (P := fun s => s.poisoned = false)
    (fun _ _ _ healthy sound stepped => step_healthy healthy sound stepped) healthy guarded path

/-- Where a task of the next state comes from: it is new, it stood still, or it
is the one that moved. -/
theorem step_tasks (stepped : (machine tokenForJob).step s l = some t)
    (found : t.tasks c = some task') :
    (c = s.clients ∧ task'.client.buildToken = tokenForJob c ∧ task'.phase = .findWork) ∨
    (s.tasks c = some task' ∧ ∀ action, l ≠ .task c action) ∨
    ∃ task action, s.tasks c = some task ∧ l = .task c action ∧ task'.client = task.client ∧
      s.attempt task action = some (t.db, task'.phase) := by
  cases l with
  | connect hostInfo accepted =>
    cases stepped
    obtain ⟨rfl, fresh, token, _⟩ | old := connect_cases found
    · exact .inl ⟨rfl, token, fresh⟩
    · exact .inr (.inl ⟨old, by simp⟩)
  | task c' action =>
    obtain ⟨task, db, next, mine, moved, rfl⟩ := step_attempt stepped
    obtain ⟨rfl, rfl⟩ | ⟨other, old⟩ := moveTask_cases found
    · rw [moveTask_db]
      exact .inr (.inr ⟨task, action, mine, rfl, rfl, moved⟩)
    · refine .inr (.inl ⟨old, ?_⟩)
      rintro _ ⟨⟩
      exact other rfl
  | reaper now =>
    obtain ⟨db, reaper, _, rfl⟩ := step_reaper stepped
    exact .inr (.inl ⟨found, by simp⟩)
  | post | outside =>
    cases stepped
    exact .inr (.inl ⟨found, by simp⟩)
  | restart =>
    cases stepped
    simp at found

/-- What every move of a task keeps of its phase is kept of the task's by every step. -/
theorem step_phase {P : Phase → Prop} (keeps : ∀ client db phase action db' next, P phase →
      Moves client db phase action db' next → P next)
    (stepped : (machine tokenForJob).step s l = some t)
    (known : c < s.clients) (before : ∀ task, s.tasks c = some task → P task.phase) :
    ∀ task, t.tasks c = some task → P task.phase := by
  intro task found
  obtain ⟨rfl, _⟩ | ⟨old, _⟩ | ⟨task', action, held, _, _, moved⟩ := step_tasks stepped found
  · omega
  · exact before task old
  · exact keeps _ _ _ _ _ _ (before task' held) (attempt_moves moved)

/-- The runs a phase refers to. -/
def Phase.mentions : Phase → List Nat
  | .pendingRuns runs => runs.map PendingRun.id
  | phase => phase.run?.toList

/-- A task learns of a run only from the queue or by adding it. -/
theorem moves_mentions (moves : Moves client db phase action db' next)
    (mentioned : run ∈ next.mentions) :
    run ∈ phase.mentions ∨ ∃ row, db'.runs.get? run = some row ∧ row.state = .pending := by
  cases moves with
  | getPendingRuns =>
    obtain ⟨queued, member, rfl⟩ := List.mem_map.mp mentioned
    obtain ⟨row, found, pending, _⟩ := Db.mem_getPendingRuns.mp member
    exact .inr ⟨row, found, pending⟩
  | takes =>
    simp only [Phase.mentions, Phase.run?, Option.toList_some, List.mem_singleton] at mentioned
    exact .inl (by simp [Phase.mentions, mentioned])
  | declines => exact .inl (List.mem_cons_of_mem _ mentioned)
  | newRun =>
    simp only [Phase.mentions, Phase.run?, Option.toList_some, List.mem_singleton] at mentioned
    exact .inr ⟨_, by rw [mentioned, Db.newRun_runs, if_pos (by rfl)], rfl⟩
  | ends ended => cases next <;> simp_all [Phase.isOver, Phase.mentions, Phase.run?]
  | reads within => cases next <;> simp_all [Phase.job?, Phase.mentions, Phase.run?]
  | alternate | nothing | pings | pong | again => simp [Phase.mentions, Phase.run?] at mentioned
  | _ => exact .inl mentioned

/-- The run whose `Started` this task has read. -/
def Phase.acked? : Phase → Option Nat
  | .started offer => some offer.run.id
  | phase => phase.job?

theorem moves_acked (moves : Moves client db phase action db' next)
    (acked : next.acked? = some run) : phase.acked? = some run ∨
      ∃ offer, phase = .awaitStarted offer ∧ next = .started offer ∧ offer.run.id = run := by
  cases moves with
  | ends ended => cases next <;> simp_all [Phase.isOver, Phase.acked?, Phase.job?]
  | reads within => cases next <;> simp_all [Phase.acked?, Phase.job?]
  | acked => exact .inr ⟨_, rfl, rfl, Option.some.inj acked⟩
  | activates | replies | insertMetric | jobById | repoIdByRemote | notifies | records =>
    exact .inl acked
  | _ => simp [Phase.acked?, Phase.job?] at acked

/-- A task writes to no row but that of the run whose `Started` it has read. -/
theorem moves_row_kept (moves : Moves client db phase action db' next)
    (other : phase.acked? ≠ some run) (found : db.runs.get? run = some row) :
    db'.runs.get? run = some row := by
  cases moves with
  | newRun => exact Table.get?_insert_of_some found _
  | activates =>
    have distinct : run ≠ _ := fun same => other (by rw [same]; rfl)
    rw [activate, Db.startRun, Table.get?_update_of_ne _ _ distinct, found]
  | insertMetric => rw [Db.insertMetric_runs, found]
  | records =>
    have distinct : run ≠ _ := fun same => other (by rw [same]; rfl)
    simp only [recordStatus, Db.completeRun, Table.get?_update_of_ne _ _ distinct, found]
  | _ => exact found

/-- Every run that a task or the history speaks of is in the table, and tasks are
numbered by connection. -/
structure Known (s : State) : Prop where
  clients : ∀ c task, s.tasks c = some task → c < s.clients
  tasks : ∀ c task, s.tasks c = some task → ∀ run ∈ task.phase.mentions,
    (s.db.runs.get? run).isSome
  acked : ∀ entry ∈ s.acked, (s.db.runs.get? entry.2).isSome

theorem RunsWrite.known {s : State} (write : RunsWrite s l runs)
    (known : (s.db.runs.get? run).isSome) : (runs.get? run).isSome := by
  obtain ⟨row, found⟩ := Option.isSome_iff_exists.mp known
  obtain ⟨row', found', _⟩ := write.forward run row found
  rw [found']
  rfl

theorem creates_eq_some (created : State.creates phase next = some run) :
    ∃ offer, next = .started offer ∧ offer.run.id = run ∧ ∃ waiting, phase = .awaitStarted waiting := by
  unfold State.creates at created
  split at created
  · exact ⟨_, rfl, Option.some.inj created, _, rfl⟩
  · contradiction

/-- The history after a task's move: one entry more, when it has read `Started`. -/
theorem moveTask_acked {s : State} {next : Phase}
    (member : entry ∈ (s.moveTask c task action db next).acked) : entry ∈ s.acked ∨
      ∃ offer, entry = (c, offer.run.id) ∧ next = .started offer := by
  unfold State.moveTask at member
  split at member
  · exact .inl member
  · rename_i run created
    obtain ⟨offer, started, rfl, _⟩ := creates_eq_some created
    rcases List.mem_cons.mp member with rfl | old
    · exact .inr ⟨offer, rfl, started⟩
    · exact .inl old

theorem start_known (db : Db) (clients : Nat) : Known (.start db clients) :=
  ⟨by simp, by simp, by simp⟩

theorem Known.moveTask {s : State} (known : Known s) (found : s.tasks c = some task)
    (moves : Moves task.client s.db task.phase action db next) :
    Known (s.moveTask c task action db next) := by
  have write := moves_runsWrite found moves
  have mentioned : ∀ run ∈ next.mentions, (db.runs.get? run).isSome := by
    intro run member
    obtain old | ⟨row, queued, _⟩ := moves_mentions moves member
    · exact write.known (known.tasks c task found run old)
    · rw [queued]
      rfl
  refine ⟨?_, ?_, ?_⟩
  · intro c' task' found'
    rw [moveTask_clients]
    obtain ⟨rfl, _⟩ | ⟨_, old⟩ := moveTask_cases found'
    · exact known.clients _ task found
    · exact known.clients c' task' old
  · intro c' task' found' run member
    rw [moveTask_db]
    obtain ⟨_, rfl⟩ | ⟨_, old⟩ := moveTask_cases found'
    · exact mentioned run member
    · exact write.known (known.tasks c' task' old run member)
  · intro entry member
    rw [moveTask_db]
    obtain old | ⟨offer, rfl, started⟩ := moveTask_acked member
    · exact write.known (known.acked entry old)
    · exact mentioned _ (by simp [started, Phase.mentions, Phase.run?])

theorem step_known (known : Known s) (stepped : (machine tokenForJob).step s l = some t) :
    Known t := by
  have write := step_runsWrite stepped
  cases l with
  | connect hostInfo accepted =>
    cases stepped
    refine ⟨?_, ?_, ?_⟩
    · intro c task found
      obtain ⟨rfl, _, _, more⟩ | old := connect_cases found
      · omega
      · exact Nat.lt_of_lt_of_le (known.clients c task old) (connect_clients _ _ _ _)
    · intro c task found run member
      obtain ⟨_, fresh, _⟩ | old := connect_cases found
      · simp [fresh, Phase.mentions, Phase.run?] at member
      · exact write.known (known.tasks c task old run member)
    · intro entry member
      rw [connect_acked] at member
      exact write.known (known.acked entry member)
  | task c action =>
    obtain ⟨task, db, next, found, moves, rfl⟩ := step_task stepped
    exact known.moveTask found moves
  | reaper now =>
    obtain ⟨db, reaper, moved, rfl⟩ := step_reaper stepped
    exact ⟨known.clients,
      fun c task found run member => write.known (known.tasks c task found run member),
      fun entry member => write.known (known.acked entry member)⟩
  | post | outside =>
    cases stepped
    exact ⟨known.clients,
      fun c task found run member => write.known (known.tasks c task found run member),
      fun entry member => write.known (known.acked entry member)⟩
  | restart =>
    cases stepped
    exact ⟨by simp, by simp, fun entry member => write.known (known.acked entry member)⟩

/-- The run that the reaper's next call reaps. -/
def Reaper.next? : Reaper → Option Nat
  | .reaping (task :: _) => some task.id
  | _ => none

theorem reaper_row_kept {s : State}
    (stepped : reaperStep s.db s.activeTasks now s.reaper = some (db, reaper))
    (other : s.reaper.next? ≠ some run) (found : s.db.runs.get? run = some row) :
    db.runs.get? run = some row := by
  generalize same : s.reaper = phase at stepped other
  cases phase with
  | reaping stale =>
    cases stale with
    | nil => cases stepped; exact found
    | cons task rest =>
      cases stepped
      have distinct : run ≠ task.id := fun same => other (by rw [same]; rfl)
      rw [Db.reapTask, Table.get?_update_of_ne _ _ distinct, found]
  | start | activeRuns | unclaimed => cases stepped; exact found
  | done => contradiction

theorem reaper_row_reaped {s : State}
    (stepped : reaperStep s.db s.activeTasks now s.reaper = some (db, reaper))
    (next : s.reaper.next? = some run) (found : s.db.runs.get? run = some row) :
    db.runs.get? run = some { row with finalStatus := some "lost signal", state := .invalid } := by
  generalize s.reaper = phase at stepped next
  cases phase with
  | reaping stale =>
    cases stale with
    | nil => contradiction
    | cons task rest =>
      cases next
      cases stepped
      rw [Db.reapTask, Table.get?_update_self, found, Option.map_some]
  | start | activeRuns | unclaimed | done => contradiction

theorem outside_row_kept (write : Outside) {db : Db} (found : db.runs.get? run = some row) :
    (write.apply db).runs.get? run = some row := by
  cases write with
  | newRun jobId now => exact Table.get?_insert_of_some found _
  | newJob remoteId sha pusher runPreferences now =>
    obtain same | same := outside_newJob db remoteId sha pusher runPreferences now <;>
      rw [same] <;> exact found
  | commitName | newRepo | newRemote => exact found

/-- A row stands still unless its own `ClientJob`'s task moves or the reaper has
come to it. -/
theorem step_row_kept (stepped : (machine tokenForJob).step s l = some t)
    (found : s.db.runs.get? run = some row)
    (task : ∀ c action task, l = .task c action → s.tasks c = some task →
      task.phase.acked? ≠ some run)
    (reaper : ∀ now, l = .reaper now → s.reaper.next? ≠ some run) :
    t.db.runs.get? run = some row := by
  cases l with
  | connect hostInfo accepted =>
    cases stepped
    rw [connect_runs, found]
  | task c action =>
    obtain ⟨mover, db, next, held, moves, rfl⟩ := step_task stepped
    rw [moveTask_db]
    exact moves_row_kept moves (task c action mover rfl held) found
  | reaper now =>
    obtain ⟨db, reaper', moved, rfl⟩ := step_reaper stepped
    exact reaper_row_kept moved (reaper now rfl) found
  | post post now fileCreated =>
    cases stepped
    rw [answerPost_runs, found]
  | outside write =>
    cases stepped
    exact outside_row_kept write found
  | restart =>
    cases stepped
    exact found

theorem activate_row (client : RunnerClient) (offer : Offer)
    (found : db.runs.get? offer.run.id = some row) :
    (activate db client offer).runs.get? offer.run.id = some (startedRow row client offer) := by
  simp only [activate, Db.startRun, Table.get?_update_self, found, Option.map_some]
  rfl

theorem recordStatus_row (db : Db) (now : Nat) (info : TaskInfo)
    (found : db.runs.get? run = some row) :
    (recordStatus db run now info).runs.get? run = some (recordedRow row now info) := by
  simp only [recordStatus, Db.completeRun, Table.get?_update_self, found, Option.map_some]
  rfl

/-- How a step leaves a row, with what its label says about the time. -/
inductive RowStep (s : State) (run : Nat) (row : RunRow) : Label → RunRow → Prop where
  | kept : RowStep s run row l row
  | activated (held : s.tasks c = some task) (acked : task.phase = .started offer)
      (same : offer.run.id = run) : RowStep s run row (.task c (.call now)) (startedRow row task.client offer)
  | recorded (held : s.tasks c = some task) (reporting : task.phase = .recordResult job info)
      (same : job.task.id = run) : RowStep s run row (.task c (.call now)) (recordedRow row now info)
  | reaped (next : s.reaper.next? = some run) : RowStep s run row (.reaper now) (reapedRow row)

/-- The row of the mover's own run. -/
theorem moves_rowStep {s : State} (held : s.tasks c = some task)
    (acked : task.phase.acked? = some run) (moves : Moves task.client s.db task.phase action db next)
    (found : s.db.runs.get? run = some row) :
    ∃ row', db.runs.get? run = some row' ∧ RowStep s run row (.task c action) row' := by
  generalize same : task.phase = phase at moves acked
  cases moves with
  | activates =>
    cases acked
    exact ⟨_, activate_row task.client _ found, .activated held same rfl⟩
  | records =>
    cases acked
    exact ⟨_, recordStatus_row s.db _ _ found, .recorded held same rfl⟩
  | insertMetric =>
    rw [Db.insertMetric_runs]
    exact ⟨row, found, .kept⟩
  | newRun => simp [Phase.acked?, Phase.job?] at acked
  | _ => exact ⟨row, found, .kept⟩

theorem step_rowStep (stepped : (machine tokenForJob).step s l = some t)
    (found : s.db.runs.get? run = some row) :
    ∃ row', t.db.runs.get? run = some row' ∧ RowStep s run row l row' := by
  by_cases mine : ∃ c action task, l = .task c action ∧ s.tasks c = some task ∧
      task.phase.acked? = some run
  · obtain ⟨c, action, task, rfl, held, acked⟩ := mine
    obtain ⟨task', db, next, held', moves, rfl⟩ := step_task stepped
    cases Option.some.inj (held.symm.trans held')
    rw [moveTask_db]
    exact moves_rowStep held acked moves found
  · by_cases reaped : ∃ now, l = .reaper now ∧ s.reaper.next? = some run
    · obtain ⟨now, rfl, next⟩ := reaped
      obtain ⟨db, reaper, moved, rfl⟩ := step_reaper stepped
      exact ⟨_, reaper_row_reaped moved next found, .reaped next⟩
    · refine ⟨row, step_row_kept stepped found ?_ ?_, .kept⟩
      · exact fun c action task label held acked => mine ⟨c, action, task, label, held, acked⟩
      · exact fun now label next => reaped ⟨now, label, next⟩

end BuildOTron.Driver
