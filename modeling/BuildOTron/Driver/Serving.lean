import BuildOTron.Driver.Lookups
import BuildOTron.Driver.RunTimes
import BuildOTron.Driver.StaleRuns

/-! What one client can do for the queue. A client that takes any source gets the newest
run that its host may run, and when it does its part the run is `Finished`. -/
namespace BuildOTron.Driver
open Transition

/-- What panics with the lock held was the task's last step. -/
theorem taskStep_poisons (poisons : action.poisons = true)
    (stepped : taskStep client db phase action = some (db', next)) : next = .panicked := by
  cases action with
  | wrapped now => exact (taskStep_wrapped stepped).2
  | upsert keyed =>
    cases keyed with
    | true => contradiction
    | false =>
      cases phase with
      | metric job name value =>
        cases stepped
        rfl
      | pendingRuns runs => cases runs <;> contradiction
      | _ => contradiction
  | _ => contradiction

/-- What the task alone can do, it can do in the driver, as long as nobody panics in a call. -/
theorem client_run {s : State} (tokenForJob : Nat → String) (c : Nat) (healthy : s.poisoned = false)
    (held : s.tasks c = some ⟨client, phase⟩)
    (path : (taskMachine client).run (s.db, phase) actions = some (db, next)) :
    ∃ t, (machine tokenForJob).run s (actions.flatMap fun action => [.task c action]) = some t ∧
      t.db = db ∧ t.tasks c = some ⟨client, next⟩ ∧ (t.poisoned = false ∨ next = .panicked) := by
  let R (pair : Db × Phase) (s : State) : Prop := s.db = pair.1 ∧ s.tasks c = some ⟨client, pair.2⟩ ∧
    (s.poisoned = false ∨ pair.2 = .panicked)
  have matched : ∀ pair action next s, R pair s → (taskMachine client).step pair action = some next →
      ∃ t, (machine tokenForJob).run s [.task c action] = some t ∧ R next t := by
    rintro ⟨db, phase⟩ action ⟨db', next⟩ s ⟨rfl, held, healthy | ended⟩ stepped
    swap
    · exact absurd stepped (by simp [taskMachine, show phase = .panicked from ended, taskStep])
    have moved : taskStep client s.db phase action = some (db', next) := stepped
    refine ⟨s.moveTask c ⟨client, phase⟩ action db' next, ?_, moveTask_db _ _ _ _ _ _, ?_, ?_⟩
    · simp [Machine.run, machine, held, attempt_healthy healthy, moved]
    · rw [moveTask_tasks, Function.update_self]
    · rw [moveTask_poisoned, healthy, Bool.false_or]
      cases poisons : action.poisons with
      | false => exact .inl rfl
      | true => exact .inr (taskStep_poisons poisons moved)
  exact Machine.run_refines matched ⟨rfl, held, .inl healthy⟩ path

/-- From the search to the offer. -/
def offering (now : Nat) : List Action :=
  [.call now, .call now, .call now, .call now, .call now, .reserveDir true]

/-- From the offer to the record of a job that passes. -/
def passing (now : Nat) : List Action :=
  [.send true, .recv (.message .started), .call now,
    .recv (.message (.taskStatus (.finished "pass"))), .call now, .call now, .notify true, .call now]

theorem client_offers (integral : db.Integral)
    (queue : db.getPendingRuns (some client.hostId) = run :: rest)
    (anything : client.acceptedSources = none) (now : Nat) :
    ∃ offer : Offer, offer.run = run ∧ db.jobById run.jobId = some offer.job ∧
      (taskMachine client).run (db, .findWork) (offering now) = some (db, .submit offer) := by
  have queued : run ∈ db.getPendingRuns (some client.hostId) := queue ▸ List.mem_cons_self
  have known := integral.pending queued
  rw [← Db.jobById_known] at known
  obtain ⟨job, found⟩ := Option.isSome_iff_exists.mp known
  obtain ⟨remoteKnown, commitKnown⟩ := integral.job found
  obtain ⟨remoteRow, remoteHeld⟩ := Option.isSome_iff_exists.mp remoteKnown
  obtain ⟨sha, shaHeld⟩ := Option.isSome_iff_exists.mp commitKnown
  have remote : db.remoteById job.remoteId = some (remoteRow.withId job.remoteId) := by
    rw [Db.remoteById, remoteHeld, Option.map_some]
  have repoKnown : (db.repoById (remoteRow.withId job.remoteId).repoId).isSome := by
    rw [Db.repoById, Option.isSome_map]
    exact integral.remote remote
  obtain ⟨repo, repoFound⟩ := Option.isSome_iff_exists.mp repoKnown
  have commit : db.commitSha job.commitId = .ok sha := by rw [Db.commitSha, shaHeld]
  have willing : client.willAccept job = true := by
    unfold RunnerClient.willAccept
    rw [anything]
  let act : Activation := ⟨run, job, now⟩
  have search : taskStep client db .findWork (.call now) = some (db, .pendingRuns (run :: rest)) := by
    rw [taskStep, queue]
  have takes : taskStep client db (.pendingRuns (run :: rest)) (.call now) =
      some (db, .activateRun run job) := by simp only [taskStep, found, orPanic, willing, if_true]
  have haveRemote : taskStep client db (.activateRun run job) (.call now) =
      some (db, .haveRemote act (remoteRow.withId job.remoteId)) := by
    simp only [taskStep, remote, orPanic, act]
  have haveRepo : taskStep client db (.haveRemote act (remoteRow.withId job.remoteId)) (.call now) =
      some (db, .haveRepo act (remoteRow.withId job.remoteId)) := by
    simp only [taskStep, repoFound, orPanic]
  have haveSha : taskStep client db (.haveRepo act (remoteRow.withId job.remoteId)) (.call now) =
      some (db, .haveSha act (remoteRow.withId job.remoteId) sha) := by
    simp only [taskStep, act, commit]
  refine ⟨⟨act, (remoteRow.withId job.remoteId).remoteGitUrl, sha⟩, rfl, found, ?_⟩
  refine Machine.run_cons.mpr ⟨_, search, Machine.run_cons.mpr ⟨_, takes, ?_⟩⟩
  refine Machine.run_cons.mpr ⟨_, haveRemote, Machine.run_cons.mpr ⟨_, haveRepo, ?_⟩⟩
  exact Machine.run_cons.mpr ⟨_, haveSha, Machine.run_cons.mpr ⟨_, rfl, rfl⟩⟩

/-- The activation changes runs only, so the job and its repo are found once more. -/
theorem client_passes (integral : db.Integral) {offer : Offer}
    (found : db.jobById offer.run.jobId = some offer.job) (now : Nat) :
    (taskMachine client).run (db, .submit offer) (passing now) =
      some (recordStatus (activate db client offer) offer.run.id now (.finished "pass"),
        .running offer.clientJob) := by
  obtain ⟨remoteRow, remoteHeld⟩ := Option.isSome_iff_exists.mp (integral.job found).1
  have repoId : db.repoIdByRemote offer.job.remoteId = some remoteRow.repoId := by
    rw [Db.repoIdByRemote, remoteHeld, Option.map_some]
  let job := offer.clientJob
  let info : TaskInfo := .finished "pass"
  let db' := activate db client offer
  have jobAgain : db'.jobById job.task.jobId = some offer.job := found
  have repoAgain : db'.repoIdByRemote offer.job.remoteId = some remoteRow.repoId := repoId
  have haveJob : taskStep client db' (.taskStatus job info) (.call now) =
      some (db', .haveJob job info offer.job.remoteId) := by simp only [taskStep, jobAgain, orPanic]
  have notifying : taskStep client db' (.haveJob job info offer.job.remoteId) (.call now) =
      some (db', .notifying job info remoteRow.repoId) := by simp only [taskStep, repoAgain, orPanic]
  refine Machine.run_cons.mpr ⟨_, rfl, Machine.run_cons.mpr ⟨_, rfl, ?_⟩⟩
  refine Machine.run_cons.mpr ⟨(db', .running job), rfl, Machine.run_cons.mpr ⟨_, rfl, ?_⟩⟩
  refine Machine.run_cons.mpr ⟨_, haveJob, Machine.run_cons.mpr ⟨_, notifying, ?_⟩⟩
  exact Machine.run_cons.mpr ⟨_, rfl, Machine.run_cons.mpr ⟨_, rfl, rfl⟩⟩

/-! ### What becomes of the queue -/

/-- What serving does to the runs: those it takes off the queue have passed, all others are
as they were. -/
structure Served (db db' : Db) : Prop where
  runs : ∀ run row, db.runs.get? run = some row → ∃ row', db'.runs.get? run = some row' ∧
    (row' = row ∨ row.state = .pending ∧ row'.state = .finished ∧
      row'.buildResult = some JobResult.pass.code)
  absent : ∀ run, db.runs.get? run = none → db'.runs.get? run = none

theorem Served.refl (db : Db) : Served db db := ⟨fun _ row found => ⟨row, found, .inl rfl⟩, fun _ none => none⟩

theorem Served.trans (first : Served a b) (later : Served b c) : Served a c where
  runs run row found := by
    obtain ⟨row', found', kept | served⟩ := first.runs run row found
    · subst kept
      exact later.runs run row' found'
    · obtain ⟨row'', found'', kept | ⟨again, _⟩⟩ := later.runs run row' found'
      · subst kept
        exact ⟨row'', found'', .inr served⟩
      · rw [served.2.1] at again
        contradiction
  absent run none := later.absent run (first.absent run none)

def isPending (row : RunRow) : Bool := row.state = .pending

def pendingCount (db : Db) : Nat := (db.runs.select isPending).length

theorem pendingCount_zero (none : pendingCount db = 0) (found : db.runs.get? run = some row) :
    row.state ≠ .pending := by
  intro pending
  have member : (run, row) ∈ db.runs.select isPending :=
    Table.mem_select.mpr ⟨found, decide_eq_true pending⟩
  rw [List.eq_nil_of_length_eq_zero none] at member
  contradiction

/-- The run's row once its job has passed. -/
def servedRow (row : RunRow) (client : RunnerClient) (offer : Offer) (now : Nat) : RunRow :=
  recordedRow (startedRow row client offer) now (.finished "pass")

theorem served_get? (db : Db) (client : RunnerClient) (offer : Offer) (now run : Nat) :
    (recordStatus (activate db client offer) offer.run.id now (.finished "pass")).runs.get? run =
      if run = offer.run.id then (db.runs.get? run).map fun row => servedRow row client offer now
      else db.runs.get? run := by
  by_cases same : run = offer.run.id
  · subst same
    rw [if_pos rfl]
    cases found : db.runs.get? offer.run.id with
    | none =>
      simp [recordStatus, activate, Db.completeRun, Db.startRun, Table.get?_update_self, found]
    | some row =>
      rw [recordStatus_row _ _ _ (activate_row client offer found)]
      rfl
  · rw [if_neg same]
    simp only [recordStatus, Db.completeRun, activate, Db.startRun, Table.get?_update_of_ne _ _ same]

theorem passing_serves (client : RunnerClient) {offer : Offer} (now : Nat)
    (found : db.runs.get? offer.run.id = some row) (pending : row.state = .pending) :
    Served db (recordStatus (activate db client offer) offer.run.id now (.finished "pass")) where
  runs run row' found' := by
    rw [served_get?]
    by_cases same : run = offer.run.id
    · subst same
      cases found.symm.trans found'
      rw [if_pos rfl, found]
      exact ⟨_, rfl, .inr ⟨pending, rfl, rfl⟩⟩
    · rw [if_neg same]
      exact ⟨row', found', .inl rfl⟩
  absent run none := by
    rw [served_get?, none]
    simp

theorem passing_counts (client : RunnerClient) {offer : Offer} (now : Nat)
    (found : db.runs.get? offer.run.id = some row) (pending : row.state = .pending) :
    pendingCount (recordStatus (activate db client offer) offer.run.id now (.finished "pass")) <
      pendingCount db := by
  have finished : ∀ row, isPending (servedRow row client offer now) = false := fun _ => rfl
  refine Table.length_select_lt found (decide_eq_true pending) ?_ ?_
  · intro row' found'
    rw [served_get?, if_pos rfl, found] at found'
    cases found'
    exact finished row
  · intro run row' found' pending'
    rw [served_get?] at found'
    split at found'
    · obtain ⟨older, _, rfl⟩ := Option.map_eq_some_iff.mp found'
      rw [finished older] at pending'
      contradiction
    · exact ⟨row', found', pending'⟩

/-! ### A new client -/

/-- A client connects, or its task goes on, and no clock shows less than `earliest`. -/
def ByClients (earliest : Nat) : Label → Prop
  | .connect _ _ => True
  | .task _ action => ∀ now ∈ action.reading, earliest ≤ now
  | _ => False

theorem readings_now (now : Nat) : ∀ action ∈ offering now ++ passing now,
    ∀ time ∈ action.reading, now ≤ time := by
  simp [offering, passing, Action.reading]

/-- A client that comes upon a queue takes one run off it, and that run passes. -/
theorem newcomer_serves {s : State} (tokenForJob : Nat → String) (healthy : s.poisoned = false)
    (integral : s.db.Integral) {info : HostInfo} (stored : Hosts.bindable info.cpuInfo.maxFreq = true)
    (host : (s.db.idForHost info).2 = some hostId)
    (waiting : (s.db.idForHost info).1.getPendingRuns (some hostId) ≠ []) (now : Nat) :
    ∃ t, (machine tokenForJob).Reaches (ByClients now) s t ∧ t.poisoned = false ∧ Served s.db t.db ∧
      pendingCount t.db < pendingCount s.db := by
  let client : RunnerClient := ⟨hostId, tokenForJob s.clients, none⟩
  let u := s.connect tokenForJob info none
  have connected : u = _ := connect_some healthy stored host
  have sound : u.poisoned = false := by rw [connected, healthy]
  have db : u.db = (s.db.idForHost info).1 := by rw [connected]
  have held : u.tasks s.clients = some ⟨client, .findWork⟩ := by
    rw [connected]
    exact Function.update_self _ _ _
  have runs : u.db.runs = s.db.runs := connect_runs tokenForJob s info none
  have integral' : u.db.Integral := (connect_upholds tokenForJob s info none).integral integral
  obtain ⟨run, rest, queue⟩ := List.exists_cons_of_ne_nil waiting
  rw [← db] at queue
  obtain ⟨offer, rfl, found, offers⟩ : ∃ offer : Offer, offer.run = run ∧
      u.db.jobById run.jobId = some offer.job ∧
      (taskMachine client).run (u.db, .findWork) (offering now) = some (u.db, .submit offer) :=
    client_offers integral' queue rfl now
  have path : (taskMachine client).run (u.db, .findWork) (offering now ++ passing now) =
      some (recordStatus (activate u.db client offer) offer.run.id now (.finished "pass"),
        .running offer.clientJob) := by
    rw [Machine.run_append, offers, Option.bind_some, client_passes integral' found now]
  obtain ⟨t, ran, after, _, still⟩ := client_run tokenForJob s.clients sound held path
  have member : offer.run ∈ u.db.getPendingRuns (some hostId) := by
    rw [queue]
    exact List.mem_cons_self
  obtain ⟨row, pendingRow, pending, _⟩ := Db.mem_getPendingRuns.mp member
  refine ⟨t, ⟨.connect info none :: _, ?_, Machine.run_cons.mpr ⟨u, rfl, ran⟩⟩,
    still.resolve_right (by simp), ?_, ?_⟩
  · refine List.forall_mem_cons.mpr ⟨trivial, fun l listed => ?_⟩
    obtain ⟨action, within, same⟩ := List.mem_flatMap.mp listed
    rw [List.mem_singleton.mp same]
    exact readings_now now action within
  · have serves := passing_serves client now pendingRow pending
    rw [after]
    exact ⟨runs ▸ serves.runs, runs ▸ serves.absent⟩
  · rw [after]
    have fewer := passing_counts client now pendingRow pending
    have same : pendingCount u.db = pendingCount s.db := by rw [pendingCount, runs, pendingCount]
    omega

/-- What is no call writes nothing. -/
theorem taskStep_unlocked (free : action.locks = false)
    (stepped : taskStep client db phase action = some (db', next)) : db' = db := by
  have moves := taskStep_moves stepped
  cases moves with
  | newRun | activates | insertMetric | records => contradiction
  | _ => rfl

/-- Behind a poisoned lock nothing that clients do has an effect, and it stays poisoned. -/
theorem poisoned_stuck {s t : State} (poisoned : s.poisoned = true) (kind : ByClients earliest l)
    (stepped : (machine tokenForJob).step s l = some t) : t.poisoned = true ∧ t.db = s.db := by
  cases l with
  | connect hostInfo accepted =>
    cases stepped
    have outcome := connect_connected tokenForJob s hostInfo accepted
    generalize s.connect tokenForJob hostInfo accepted = t at outcome
    cases outcome with
    | refused => exact ⟨rfl, rfl⟩
    | unknown healthy | queued healthy =>
      rw [healthy] at poisoned
      contradiction
  | task c action =>
    obtain ⟨task, db, next, _, moved, rfl⟩ := step_attempt stepped
    rw [moveTask_poisoned, moveTask_db, poisoned, Bool.true_or]
    refine ⟨rfl, ?_⟩
    simp only [State.attempt, poisoned, Bool.true_and, Option.map_eq_some_iff] at moved
    obtain ⟨planned, taken, same⟩ := moved
    split at same
    · exact (Prod.mk.inj same).1.symm
    · rename_i free
      cases same
      exact taskStep_unlocked (Bool.eq_false_of_not_eq_true free) taken
  | reaper | post | outside | restart => contradiction

/-! ### A new start -/

theorem exists_bound (times : List Nat) : ∃ bound, ∀ time ∈ times, time ≤ bound := by
  induction times with
  | nil => exact ⟨0, by simp⟩
  | cons first rest ih =>
    obtain ⟨bound, above⟩ := ih
    refine ⟨max first bound, ?_⟩
    intro time member
    obtain rfl | later := List.mem_cons.mp member
    · exact Nat.le_max_left _ _
    · exact Nat.le_trans (above time later) (Nat.le_max_right _ _)

/-- There is a time at which every run that has started is past its grace period. -/
theorem exists_late (db : Db) (earliest : Nat) : ∃ now, earliest ≤ now ∧ 60000 ≤ now ∧
    ∀ run row, db.runs.get? run = some row → row.state = .started → Expired now row := by
  obtain ⟨bound, above⟩ := exists_bound (db.runs.rows.filterMap fun row => row.2.startedTime)
  refine ⟨earliest + bound + 60001, by omega, by omega, ?_⟩
  intro run row found started
  refine ⟨started, fun startTime began => ?_⟩
  have member : startTime ∈ db.runs.rows.filterMap fun row => row.2.startedTime :=
    List.mem_filterMap.mpr ⟨(run, row), Table.get?_eq_some.mp found, began⟩
  have below := above startTime member
  omega

/-- A restart, or a step of the reaper, at no earlier time. -/
def ByReaper (earliest : Nat) : Label → Prop
  | .restart => True
  | .reaper now => earliest ≤ now
  | _ => False

/-- What a restart and the pass after it do to the runs: those under way are `Invalid`. -/
structure Clears (db db' : Db) : Prop where
  started : ∀ run row, db.runs.get? run = some row → row.state = .started →
    db'.runs.get? run = some (reapedRow row)
  kept : ∀ run row, db.runs.get? run = some row → row.state ≠ .started →
    db'.runs.get? run = some row
  absent : ∀ run, db.runs.get? run = none → db'.runs.get? run = none

theorem restart_clears (tokenForJob : Nat → String) (s : State) (earliest : Nat) :
    ∃ t, (machine tokenForJob).Reaches (ByReaper earliest) s t ∧ t.poisoned = false ∧
      Clears s.db t.db := by
  obtain ⟨now, after, late, expired⟩ := exists_late s.db earliest
  let u : State := { State.start s.db s.clients with acked := s.acked }
  have unclaimed : ∀ run, ¬ Claimed u run := fun run claimed => List.not_mem_nil claimed
  have pass : ReaperPass tokenForJob u now (reaperPass u now) := pass_ends tokenForJob rfl rfl late
  have restarts : (machine tokenForJob).Reaches (ByReaper earliest) s u := ⟨[.restart], by simp [ByReaper], rfl⟩
  refine ⟨reaperPass u now, restarts.trans (pass.reaches after), rfl, ?_, ?_, ?_⟩
  · intro run row found started
    exact reaperPass_reaps found (expired run row found started) (unclaimed run)
  · intro run row found other
    exact reaperPass_spares found (.inl fun stale => other stale.1)
  · intro run none
    have missing : u.db.runs.get? run = Option.none := none
    simp [reaperPass, reapAll_runs, missing]

end BuildOTron.Driver
