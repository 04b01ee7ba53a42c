import BuildOTron.System.Origins

/-! What clients and remotes are told about runs, against the rows of those runs. Nothing
that is said is kept in the database, so both sides are compared over whole histories: what
was said is true of the rows, and a row says no more than has been said. -/
namespace BuildOTron
open Transition

inductive Announcement where
  /-- `NewTask`, to a client -/
  | newTask (run : Nat) (task : RequestedJob)
  /-- `tell_complete_job`, to the remotes of a repo -/
  | complete (run repoId : Nat) (sha : String) (result : Except String String)
  /-- `tell_pending_job`, to the remotes of the repo that was pushed to -/
  | pending (jobId : Nat) (url sha : String)

structure Announced where
  said : Announcement
  /-- The send, or the loop over the notifiers, came to its end. -/
  whole : Bool

/-- The commit and the remote spoken of are those of the run. -/
def Announcement.Holds (db : Db) : Announcement → Prop
  | .newTask run task => ∃ jobId remote, db.RunOf run jobId ∧ db.JobOf jobId task.commit remote ∧
    remote.remoteGitUrl = task.remoteUrl
  | .complete run repoId sha _ => ∃ jobId remote, db.RunOf run jobId ∧ db.JobOf jobId sha remote ∧
    remote.repoId = repoId
  | .pending jobId url sha => ∃ run remote, db.RunOf run jobId ∧ db.JobOf jobId sha remote ∧
    remote.remoteGitUrl = url

theorem Announcement.Holds.mono {said : Announcement} (holds : said.Holds db) (lasts : Db.Lasting db db') :
    said.Holds db' := by
  cases said <;>
  · obtain ⟨_, remote, ofRun, ofJob, same⟩ := holds
    exact ⟨_, remote, ofRun.mono lasts, ofJob.mono lasts, same⟩

namespace Driver

/-- What a client's task says in a step. -/
def Task.announces (task : Task) (action : Action) : List Announced :=
  match task.phase, action with
  | .submit offer, .send sent =>
    [⟨.newTask offer.run.id ⟨offer.sha, offer.remoteGitUrl, task.client.buildToken⟩, sent⟩]
  | .notifying job info repoId, .notify completed =>
    [⟨.complete job.task.id repoId job.sha (taskResult info).1, completed⟩]
  | _, _ => []

/-- What a step of it says. Behind a poisoned lock the loop over the notifiers panics before
the first of them. -/
def State.announces (s : State) (c : Nat) (action : Action) : List Announced :=
  if s.poisoned && action.locks then [] else (s.tasks c).elim [] (Task.announces · action)

theorem mem_announces {s : State} (said : announced ∈ s.announces c action) :
    ∃ task, s.tasks c = some task ∧ announced ∈ task.announces action := by
  unfold State.announces at said
  split at said
  · contradiction
  · cases found : s.tasks c with
    | none => simp [found] at said
    | some task =>
      rw [found, Option.elim_some] at said
      exact ⟨task, rfl, said⟩

/-- The run that this task has sent to its client. -/
def Phase.sent? : Phase → Option Nat
  | .awaitStarted offer => some offer.run.id
  | phase => phase.acked?

theorem moves_sent (moves : Moves client db phase action db' next) (sent : next.sent? = some run) :
    phase.sent? = some run ∨ ∃ offer, phase = .submit offer ∧ action = .send true ∧ offer.run.id = run := by
  cases moves with
  | ends ended => cases next <;> contradiction
  | reads within => cases next <;> simp_all [Phase.job?, Phase.acked?, Phase.sent?]
  | offers => exact .inr ⟨_, rfl, rfl, Option.some.inj sent⟩
  | acked | activates | replies | insertMetric | jobById | repoIdByRemote | notifies | records =>
    exact .inl sent
  | _ => contradiction

theorem announces_holds {task : Task} (knows : Knows db task.phase)
    (said : announced ∈ task.announces action) : announced.said.Holds db := by
  unfold Task.announces at said
  split at said
  · rename_i offer sent phase
    rw [phase] at knows
    obtain ⟨queued, remote, ofJob, url⟩ := knows
    cases List.mem_singleton.mp said
    exact ⟨offer.run.jobId, remote, queued, ofJob, url⟩
  · rename_i job info repoId completed phase
    rw [phase] at knows
    obtain ⟨queued, remote, ofJob, owned⟩ := knows
    cases List.mem_singleton.mp said
    exact ⟨job.task.jobId, remote, queued, ofJob, owned⟩
  · contradiction

/-- What is said of a result, is said by the task that has sent the run. -/
theorem announces_complete {task : Task}
    (said : ⟨.complete run repoId sha result, whole⟩ ∈ task.announces action) :
    task.phase.sent? = some run := by
  unfold Task.announces at said
  split at said
  · simp at said
  · rename_i phase
    cases List.mem_singleton.mp said
    rw [phase]
    rfl
  · contradiction

theorem handleMessage_unreported (job : ClientJob) (received : Received) (job' : ClientJob) (info : TaskInfo) :
    handleMessage job received ≠ .recordResult job' info := by
  cases received with
  | message msg => cases msg <;> simp [handleMessage]
  | hangup | failed | undecodable => simp [handleMessage]

/-- A task that is about to record a result has just told it, to the end. -/
theorem step_reported (stepped : taskStep client db phase action = some (db', .recordResult job info)) :
    (∃ repoId, phase = .notifying job info repoId) ∧ action = .notify true := by
  generalize reporting : Phase.recordResult job info = next at stepped
  cases taskStep_moves stepped with
  | notifies =>
    cases reporting
    exact ⟨⟨_, rfl⟩, rfl⟩
  | ends ended =>
    rw [← reporting] at ended
    contradiction
  | reads =>
    simp only [taskStep, Option.some.injEq, Prod.mk.injEq] at stepped
    exact absurd (stepped.2.trans reporting.symm) (handleMessage_unreported _ _ _ _)
  | _ => contradiction

/-- Where a row of the next state comes from. -/
theorem step_row_origin (stepped : (machine tokenForJob).step s l = some t)
    (found : t.db.runs.get? run = some row') :
    (∃ jobId pref now, row' = Db.pendingRow jobId pref now) ∨
      ∃ row, s.db.runs.get? run = some row ∧ RowStep s run row l row' := by
  cases before : s.db.runs.get? run with
  | none =>
    obtain ⟨_, queued⟩ := (step_runsWrite stepped).backward run row' found before
    exact .inl queued
  | some row =>
    obtain ⟨row'', found', rowStep⟩ := step_rowStep stepped before
    cases Option.some.inj (found.symm.trans found')
    exact .inr ⟨row, rfl, rowStep⟩

end Driver

namespace WebServer

def Handler.announces (handler : Handler) (completed : Bool) : List Announced :=
  match handler.phase with
  | .notifying jobId _ => [⟨.pending jobId (remoteUrl handler.event.repoName) handler.event.tip, completed⟩]
  | _ => []

def HandlersKnow (db : Db) (handlers : List Handler) : Prop :=
  ∀ handler ∈ handlers, Knows db handler.event handler.phase

theorem HandlersKnow.mono {handlers : List Handler} (know : HandlersKnow db handlers)
    (lasts : Db.Lasting db db') : HandlersKnow db' handlers :=
  fun handler member => (know handler member).mono lasts

theorem push_know {s t : PushState} (know : HandlersKnow s.db s.handlers) (lasts : Db.Lasting s.db t.db)
    (stepped : pushMachine.step s l = some t) : HandlersKnow t.db t.handlers := by
  cases push_moves stepped with
  | answers found healthy called =>
    have held := know _ (List.mem_of_getElem? found)
    have next := statement_knows held called
    exact PushState.setPhase_all (know.mono lasts) next _
  | panics found => exact PushState.setPhase_all know (show Knows s.db _ .panicked from trivial) _
  | notified found reached =>
    refine PushState.setPhase_all know ?_ _
    split <;> trivial

theorem announces_holds {handler : Handler} (knows : Knows db handler.event handler.phase)
    (said : announced ∈ handler.announces completed) : announced.said.Holds db := by
  unfold Handler.announces at said
  split at said
  · rename_i jobId commitId phase
    rw [phase] at knows
    obtain ⟨⟨run, ofRun⟩, remote, ofJob, url⟩ := knows
    cases List.mem_singleton.mp said
    exact ⟨run, remote, ofRun, ofJob, url⟩
  · contradiction

end WebServer

/-! ### Rows -/

namespace Db

/-- No row is written but those of new runs. -/
def QueuesOnly (db db' : Db) : Prop := ∀ run row, db'.runs.get? run = some row →
  db.runs.get? run = some row ∨ ∃ jobId pref now, row = pendingRow jobId pref now

variable {db db' : Db}

theorem queuesOnly_aside (same : db'.runs = db.runs) : QueuesOnly db db' :=
  fun _ _ found => .inl (same ▸ found)

theorem queuesOnly_newRun (db : Db) (jobId : Nat) (pref : Option Nat) (now : Nat) :
    QueuesOnly db (db.newRun jobId pref now).1 := by
  intro run row found
  rw [newRun_runs] at found
  split at found
  · exact .inr ⟨jobId, pref, now, (Option.some.inj found).symm⟩
  · exact .inl found

theorem newCommit_queuesOnly (made : db.newCommit sha = .ok (db', commitId)) : QueuesOnly db db' := by
  unfold newCommit at made
  split at made
  · cases made
    exact queuesOnly_aside rfl
  · contradiction

instance : Std.Refl QueuesOnly := ⟨fun _ => queuesOnly_aside rfl⟩

instance : IsTrans Db QueuesOnly where
  trans _ _ _ first second run row found := (second run row found).elim (first run row) .inr

end Db

theorem Ctl.queues_additions : Ctl.Additions Db.QueuesOnly where
  newRun db jobId now := Db.queuesOnly_newRun db jobId none now
  newRepo {db db' name repoId} made := by
    unfold Db.newRepo at made
    split at made
    · cases made
      exact Db.queuesOnly_aside rfl
    · contradiction
  newRemote {db db' repoId remote remoteKind config remoteId} made := by
    unfold Db.newRemote at made
    split at made
    · cases made
      exact Db.queuesOnly_aside rfl
    · contradiction
  newJob {db db' remoteId sha pusher runPref now ids} made := by
    obtain ⟨⟨between, commitId⟩, inserted, rest⟩ := Outcome.bind_eq_ok.mp made
    cases rest
    intro run row found
    exact Db.newCommit_queuesOnly inserted run row found

theorem WebServer.statement_queuesOnly
    (called : statement event db now phase = some (.ok (db', next))) : Db.QueuesOnly db db' := by
  cases phase with
  | newRun repoId jobId commitId =>
    cases called
    exact Db.queuesOnly_newRun db jobId none now
  | newCommit remoteId repoId runPref email =>
    obtain ⟨⟨between, commitId⟩, made, rest⟩ := Outcome.bind_eq_ok.mp (Option.some.inj called)
    cases rest
    exact Db.newCommit_queuesOnly made
  | runPreference remoteId repoId =>
    simp only [statement, Option.some.injEq] at called
    split at called
    · contradiction
    · cases called
      exact Db.queuesOnly_aside rfl
  | remoteLookup | commitLookup | newJob | remotesByRepo | commitName =>
    cases called
    exact Db.queuesOnly_aside rfl
  | notifying | notFound | handled | panicked => contradiction

namespace System

/-- What the step says, if it says anything. -/
def announces (s : State) : Label → List Announced
  | .driver (.task c action) => s.driver.announces c action
  | .web (.notify i completed) => s.handlers[i]?.elim [] (WebServer.Handler.announces · completed)
  | _ => []

/-- What a row shows has been said before. -/
structure RowTold (announced : List Announced) (run : Nat) (row : RunRow) : Prop where
  /-- a result that is recorded is what the remotes of a repo were told -/
  ended : row.state = .finished ∨ row.state = .error → ∃ repoId sha result,
    ⟨.complete run repoId sha result, true⟩ ∈ announced ∧
      row.finalStatus = some (Driver.resultDesc result) ∧
      row.buildResult = some (Driver.buildResult result).code ∧
      (row.state = .finished ↔ Driver.buildResult result = .pass)
  /-- the token that is recorded is one that a client was sent with the run -/
  started : row.startedTime.isSome → ∃ task, ⟨.newTask run task, true⟩ ∈ announced ∧
    row.buildToken = some task.buildToken

/-- What is said is true, and no row says more. -/
structure Truthful (db : Db) (announced : List Announced) : Prop where
  holds : ∀ each ∈ announced, each.said.Holds db
  /-- the result of a run is told only when a client was sent the run -/
  sent : ∀ run repoId sha result whole, ⟨.complete run repoId sha result, whole⟩ ∈ announced →
    ∃ task, ⟨.newTask run task, true⟩ ∈ announced
  rows : ∀ run row, db.runs.get? run = some row → RowTold announced run row

/-- What a client's task has said by the time it is where it is. -/
structure TaskTold (announced : List Announced) (task : Driver.Task) : Prop where
  sent : ∀ run, task.phase.sent? = some run → ∃ asked, ⟨.newTask run asked, true⟩ ∈ announced ∧
    asked.buildToken = task.client.buildToken
  reported : ∀ job info, task.phase = .recordResult job info → ∃ repoId sha,
    ⟨.complete job.task.id repoId sha (Driver.taskResult info).1, true⟩ ∈ announced

/-- All of it, with what the programs hold. -/
structure Accounted (s : State) (announced : List Announced) : Prop where
  linked : Linked s
  truthful : Truthful s.db announced
  tasks : ∀ c task, s.driver.tasks c = some task →
    Driver.Knows s.db task.phase ∧ TaskTold announced task
  handlers : WebServer.HandlersKnow s.db s.handlers

variable {announced more : List Announced}

theorem RowTold.mono (told : RowTold announced run row) (more : announced ⊆ announced') :
    RowTold announced' run row where
  ended ended := by
    obtain ⟨repoId, sha, result, said, rest⟩ := told.ended ended
    exact ⟨repoId, sha, result, more said, rest⟩
  started began := by
    obtain ⟨task, said, token⟩ := told.started began
    exact ⟨task, more said, token⟩

theorem TaskTold.mono (told : TaskTold announced task) (more : announced ⊆ announced') :
    TaskTold announced' task where
  sent run sent := by
    obtain ⟨asked, said, token⟩ := told.sent run sent
    exact ⟨asked, more said, token⟩
  reported job info reporting := by
    obtain ⟨repoId, sha, said⟩ := told.reported job info reporting
    exact ⟨repoId, sha, more said⟩

theorem pendingRow_told (announced : List Announced) (run jobId : Nat) (pref : Option Nat) (now : Nat) :
    RowTold announced run (Db.pendingRow jobId pref now) :=
  ⟨fun ended => by simp [Db.pendingRow] at ended, fun began => by simp [Db.pendingRow] at began⟩

/-- A row is written by the task that has said what it writes. -/
theorem rowStep_told {s : Driver.State}
    (tasks : ∀ c task, s.tasks c = some task → TaskTold announced task)
    (told : RowTold announced run row) (step : Driver.RowStep s run row l row') :
    RowTold announced run row' := by
  cases step with
  | kept => exact told
  | activated held acked same =>
    refine ⟨fun ended => by simp [Driver.startedRow] at ended, fun _ => ?_⟩
    obtain ⟨asked, said, token⟩ := (tasks _ _ held).sent run (by rw [acked, ← same]; rfl)
    exact ⟨asked, said, congrArg some token.symm⟩
  | @recorded c task job info now held reporting same =>
    refine ⟨fun _ => ?_, told.started⟩
    obtain ⟨repoId, sha, said⟩ := (tasks _ _ held).reported job info reporting
    refine ⟨repoId, sha, (Driver.taskResult info).1, same ▸ said, rfl, rfl, ?_⟩
    obtain ⟨state, result⟩ | ⟨state, result⟩ := Driver.taskResult_agrees info <;>
      simp [Driver.recordedRow, state, result]
  | reaped => exact ⟨fun ended => by simp [Driver.reapedRow] at ended, told.started⟩

/-- A task's part after its own step. -/
theorem moved_told {task : Driver.Task} (told : TaskTold announced task)
    (stepped : Driver.taskStep task.client db task.phase action = some (db', next)) :
    TaskTold (announced ++ task.announces action) { task with phase := next } := by
  have before : TaskTold (announced ++ task.announces action) task :=
    told.mono (List.subset_append_left _ _)
  refine ⟨fun run sent => ?_, fun job info reporting => ?_⟩
  · obtain earlier | ⟨offer, offering, rfl, rfl⟩ := Driver.moves_sent (Driver.taskStep_moves stepped) sent
    · exact before.sent run earlier
    · refine ⟨⟨offer.sha, offer.remoteGitUrl, task.client.buildToken⟩, List.mem_append_right _ ?_, rfl⟩
      simp [Driver.Task.announces, offering]
  · dsimp only at reporting
    subst reporting
    obtain ⟨⟨repoId, notifying⟩, rfl⟩ := Driver.step_reported stepped
    refine ⟨repoId, job.sha, List.mem_append_right _ ?_⟩
    simp [Driver.Task.announces, notifying]

/-- The same behind the lock. A task that panics there has said nothing, and says no more. -/
theorem attempt_told {s : Driver.State} {task : Driver.Task} (knows : Driver.Knows s.db task.phase)
    (told : TaskTold announced task) (lasts : Db.Lasting s.db db') (mine : s.tasks c = some task)
    (moved : s.attempt task action = some (db', next)) :
    Driver.Knows db' next ∧ TaskTold (announced ++ s.announces c action) { task with phase := next } := by
  simp only [Driver.State.attempt, Option.map_eq_some_iff] at moved
  obtain ⟨planned, stepped, same⟩ := moved
  unfold Driver.State.announces
  split at same
  · rename_i panics
    cases same
    rw [if_pos panics, List.append_nil]
    exact ⟨Driver.knows_over rfl, fun _ sent => by contradiction, fun _ _ reporting => by contradiction⟩
  · rename_i goes
    subst same
    rw [if_neg goes, mine, Option.elim_some]
    exact ⟨Driver.taskStep_knows knows lasts stepped, moved_told told stepped⟩

section Step
variable {s t : State}

theorem announces_true (accounted : Accounted s announced) (said : each ∈ announces s l) :
    each.said.Holds s.db := by
  cases l with
  | driver label =>
    cases label with
    | task c action =>
      obtain ⟨task, found, said⟩ := Driver.mem_announces said
      exact Driver.announces_holds (accounted.tasks c task found).1 said
    | _ => contradiction
  | web label =>
    cases label with
    | notify i completed =>
      cases found : s.handlers[i]? with
      | none => simp [announces, found] at said
      | some handler =>
        simp only [announces, found, Option.elim_some] at said
        exact WebServer.announces_holds (accounted.handlers _ (List.mem_of_getElem? found)) said
    | call => contradiction
  | _ => contradiction

theorem announces_sent (accounted : Accounted s announced)
    (said : ⟨.complete run repoId sha result, whole⟩ ∈ announces s l) :
    ∃ task, ⟨.newTask run task, true⟩ ∈ announced := by
  cases l with
  | driver label =>
    cases label with
    | task c action =>
      obtain ⟨task, found, said⟩ := Driver.mem_announces said
      obtain ⟨asked, sent, _⟩ :=
        (accounted.tasks c task found).2.sent run (Driver.announces_complete said)
      exact ⟨asked, sent⟩
    | _ => contradiction
  | web label =>
    cases label with
    | notify i completed =>
      cases found : s.handlers[i]? with
      | none => simp [announces, found] at said
      | some handler =>
        simp only [announces, found, Option.elim_some, WebServer.Handler.announces] at said
        split at said <;> simp at said
    | call => contradiction
  | _ => contradiction

theorem step_rows_told (accounted : Accounted s announced)
    (stepped : (machine tokenForJob).step s l = some t) (found : t.db.runs.get? run = some row) :
    RowTold announced run row := by
  have queues : ∀ {db}, s.db.QueuesOnly db → db.runs.get? run = some row → RowTold announced run row := by
    intro db queues held
    obtain old | ⟨jobId, pref, now, rfl⟩ := queues run row held
    · exact accounted.truthful.rows run row old
    · exact pendingRow_told _ _ _ _ _
  cases l with
  | ctl command env =>
    cases stepped
    exact queues (Ctl.queues_additions.execute env command s.db) found
  | push | restartWeb =>
    cases stepped
    exact accounted.truthful.rows run row found
  | web label =>
    obtain ⟨server, moved, rfl⟩ := Option.map_eq_some_iff.mp stepped
    cases WebServer.push_moves moved with
    | answers _ _ called => exact queues (WebServer.statement_queuesOnly called) found
    | panics | notified => exact accounted.truthful.rows run row found
  | driver label =>
    obtain ⟨driver, moved, _, rfl⟩ := step_driver stepped
    obtain ⟨jobId, pref, now, rfl⟩ | ⟨before, held, rowStep⟩ := Driver.step_row_origin moved found
    · exact pendingRow_told _ _ _ _ _
    · exact rowStep_told (fun c task mine => (accounted.tasks c task mine).2)
        (accounted.truthful.rows run before held) rowStep

theorem step_tasks_told (accounted : Accounted s announced) (lasts : Db.Lasting s.db t.db)
    (stepped : (machine tokenForJob).step s l = some t) (found : t.driver.tasks c = some task) :
    Driver.Knows t.db task.phase ∧ TaskTold (announced ++ announces s l) task := by
  have kept : s.driver.tasks c = some task →
      Driver.Knows t.db task.phase ∧ TaskTold (announced ++ announces s l) task := by
    intro old
    obtain ⟨knows, told⟩ := accounted.tasks c task old
    exact ⟨knows.mono lasts, told.mono (List.subset_append_left _ _)⟩
  cases l with
  | ctl | push | restartWeb =>
    cases stepped
    exact kept found
  | web label =>
    obtain ⟨server, _, rfl⟩ := Option.map_eq_some_iff.mp stepped
    exact kept found
  | driver label =>
    obtain ⟨driver, moved, _, rfl⟩ := step_driver stepped
    obtain ⟨_, _, fresh⟩ | ⟨old, _⟩ | ⟨before, action, mine, rfl, client, taken⟩ :=
      Driver.step_tasks moved found
    · rw [fresh]
      refine ⟨trivial, ?_, ?_⟩ <;> rw [fresh]
      · rintro run ⟨⟩
      · rintro job info ⟨⟩
    · exact kept old
    · obtain ⟨knows, told⟩ := accounted.tasks c before mine
      rw [show task = { before with phase := task.phase } by rw [← client]]
      exact attempt_told knows told lasts mine taken

theorem step_handlers_know (accounted : Accounted s announced) (lasts : Db.Lasting s.db t.db)
    (stepped : (machine tokenForJob).step s l = some t) : WebServer.HandlersKnow t.db t.handlers := by
  have kept := accounted.handlers.mono lasts
  cases l with
  | ctl =>
    cases stepped
    exact kept
  | push event =>
    cases stepped
    intro handler member
    rcases List.mem_append.mp member with old | new
    · exact accounted.handlers handler old
    · cases List.mem_singleton.mp new
      trivial
  | restartWeb =>
    cases stepped
    exact fun _ member => by contradiction
  | web label =>
    obtain ⟨server, moved, rfl⟩ := Option.map_eq_some_iff.mp stepped
    have know : WebServer.HandlersKnow s.webServer.db s.webServer.handlers := accounted.handlers
    exact WebServer.push_know know lasts moved
  | driver label =>
    obtain ⟨driver, _, _, rfl⟩ := step_driver stepped
    exact kept

theorem step_accounted (accounted : Accounted s announced)
    (stepped : (machine tokenForJob).step s l = some t) : Accounted t (announced ++ announces s l) := by
  obtain ⟨keeps, linked⟩ := step_references accounted.linked stepped
  have lasts := keeps.lasting
  refine ⟨linked, ⟨?_, ?_, ?_⟩, ?_, step_handlers_know accounted lasts stepped⟩
  · intro each said
    rcases List.mem_append.mp said with old | new
    · exact (accounted.truthful.holds each old).mono lasts
    · exact (announces_true accounted new).mono lasts
  · intro run repoId sha result whole said
    have before : ∃ task, ⟨.newTask run task, true⟩ ∈ announced := by
      rcases List.mem_append.mp said with old | new
      · exact accounted.truthful.sent run repoId sha result whole old
      · exact announces_sent accounted new
    obtain ⟨task, sent⟩ := before
    exact ⟨task, List.mem_append_left _ sent⟩
  · intro run row found
    exact (step_rows_told accounted stepped found).mono (List.subset_append_left _ _)
  · intro c task found
    exact step_tasks_told accounted lasts stepped found

end Step

theorem start_accounted : Accounted .start [] where
  linked := start_linked
  truthful := ⟨fun _ said => by contradiction, fun _ _ _ _ _ said => by contradiction,
    fun _ _ found => by contradiction⟩
  tasks _ _ found := by contradiction
  handlers _ member := by contradiction

/-- In every run of all programs: each announcement names the commit and the remote of its
run, remotes hear of a result only after a client was sent the run, and a result or a token
that a row shows is one that was announced. -/
theorem announcements_tell_rows (tokenForJob : Nat → String) (labels : List Label) (s : State)
    (path : (machine tokenForJob).run .start labels = some s) :
    Truthful s.db ((machine tokenForJob).events announces .start labels) := by
  have free : (machine tokenForJob).Guarded (fun _ _ => True) .start labels :=
    Machine.guarded_of_forall fun _ _ _ => trivial
  have accounted : Accounted s ([] ++ (machine tokenForJob).events announces .start labels) :=
    Machine.guarded_events (fun _ _ _ _ accounted _ stepped => step_accounted accounted stepped)
      start_accounted free path
  exact accounted.truthful

/-- A job whose run a client takes and passes. -/
def takenAndPassed : List Label :=
  created "f00d" ++
    ([Driver.connects] ++ Driver.prepares 0 864000000 ++ [Driver.offers 0, Driver.acks 0,
      .task 0 (.call 864000000)] ++ Driver.reports 0 864000000 (.finished "pass")).map .driver

theorem taken_and_passed_told : ∃ s, (machine Driver.someToken).run .start takenAndPassed = some s ∧
    (machine Driver.someToken).events announces .start takenAndPassed =
      [⟨.newTask 1 ⟨"f00d", "https://www.github.com/owner/zoo.git", Driver.someToken 0⟩, true⟩,
       ⟨.complete 1 1 "f00d" (.ok "success"), true⟩] ∧
    Truthful s.db ((machine Driver.someToken).events announces .start takenAndPassed) :=
  ⟨_, rfl, rfl, announcements_tell_rows Driver.someToken takenAndPassed _ rfl⟩

end System
end BuildOTron
