import BuildOTron.Driver.Reaper

/-! Whether a recorded result stays. No update asks what the row holds: an
activation restarts whatever run it names, and a `ClientJob` records every
`TaskStatus` it reads. A result is final when `Started` is taken only for a queued
run and a `TaskStatus` only for a run that is under way. -/
namespace BuildOTron.Driver
open Transition

inductive Advance : RunState → RunState → Prop where
  | stays (state : RunState) : Advance state state
  | starts : Advance .pending .started
  | completes (complete : state.isComplete = true) : Advance .started state

/-- What a step may make of a run: its state goes forward, and with a result it
keeps it. -/
structure Advances (row row' : RunRow) : Prop where
  state : Advance row.state row'.state
  result : row.state.isComplete = true → row'.state = row.state ∧
    row'.buildResult = row.buildResult ∧ row'.completeTime = row.completeTime

def RunsAdvance (s t : State) : Prop :=
  ∀ id row, s.db.runs.get? id = some row → ∃ row', t.db.runs.get? id = some row' ∧ Advances row row'

/-- `Started` is read for a queued run that no other task is about to mark, and a
`TaskStatus` for a run that is still under way. -/
def ReportsOnce (s : State) : Label → Prop
  | .task c (.recv (.message .started)) => ∀ task offer, s.tasks c = some task →
      task.phase = .awaitStarted offer → Pending s.db offer.run.id ∧
        ∀ c' task' offer', c' ≠ c → s.tasks c' = some task' → task'.phase = .started offer' →
          offer'.run.id ≠ offer.run.id
  | .task c (.recv (.message (.taskStatus _))) => ∀ task job, s.tasks c = some task →
      task.phase = .running job → InState s.db job.task.id .started
  | _ => True

/-- The run whose `TaskStatus` has been read and not yet recorded. -/
def Phase.reports? : Phase → Option Nat
  | .taskStatus job _ | .haveJob job _ _ | .notifying job _ _ | .recordResult job _ =>
    some job.task.id
  | _ => none

structure Sole (s : State) : Prop where
  known : Known s
  watched : Watched s
  alone : ∀ c task c' task' run, s.tasks c = some task → s.tasks c' = some task' →
    task.phase.acked? = some run → task'.phase.acked? = some run → c = c'
  started : ∀ c task offer, s.tasks c = some task → task.phase = .started offer →
    Pending s.db offer.run.id
  jobs : JobsSettled s
  reports : ∀ c task run, s.tasks c = some task → task.phase.reports? = some run →
    InState s.db run .started
  stale : ∀ run ∈ s.reaper.candidates, run.state = .started → Claimed s run.id ∨
    InState s.db run.id .started ∨ InState s.db run.id .invalid

theorem reports_acked {phase : Phase} (reports : phase.reports? = some run) :
    phase.acked? = some run := by
  cases phase <;> simp_all [Phase.reports?, Phase.acked?, Phase.job?]

theorem acked_cases {phase : Phase} (acked : phase.acked? = some run) :
    phase.job? = some run ∨ ∃ offer, phase = .started offer ∧ offer.run.id = run := by
  cases phase <;> simp_all [Phase.acked?]

theorem handleMessage_reports (reports : (handleMessage job received).reports? = some run) :
    ∃ info, received = .message (.taskStatus info) ∧ job.task.id = run := by
  cases received with
  | message msg =>
    cases msg <;> first
      | exact ⟨_, rfl, Option.some.inj reports⟩
      | simp [handleMessage, Phase.reports?] at reports
  | hangup | failed | undecodable => simp [handleMessage, Phase.reports?] at reports

/-- A report is taken up where its `TaskStatus` is read. -/
theorem taskStep_reports (moved : taskStep client db phase action = some (db', next))
    (reports : next.reports? = some run) : db' = db ∧ (phase.reports? = some run ∨
      ∃ job info, phase = .running job ∧ action = .recv (.message (.taskStatus info)) ∧
        job.task.id = run) := by
  cases taskStep_moves moved with
  | ends ended => cases next <;> simp_all [Phase.isOver, Phase.reports?]
  | reads within =>
    simp only [taskStep, Option.some.injEq, Prod.mk.injEq, true_and] at moved
    rw [← moved] at reports
    obtain ⟨info, rfl, same⟩ := handleMessage_reports reports
    exact ⟨rfl, .inr ⟨_, info, rfl, rfl, same⟩⟩
  | jobById | repoIdByRemote | notifies => exact ⟨rfl, .inl reports⟩
  | _ => simp [Phase.reports?] at reports

theorem moves_acks (moves : Moves client db phase action db' (.started offer)) :
    db' = db ∧ phase = .awaitStarted offer ∧ action = .recv (.message .started) := by
  cases moves with
  | ends ended => simp [Phase.isOver] at ended
  | reads within => simp [Phase.job?] at within
  | acked => exact ⟨rfl, rfl, rfl⟩

theorem reaperStep_candidates (stepped : reaperStep db activeTasks now reaper = some (db', reaper'))
    (member : run ∈ reaper'.candidates) : run ∈ reaper.candidates ∨ run ∈ db'.getActiveRuns := by
  cases reaper with
  | start =>
    cases stepped
    exact .inr member
  | activeRuns runs =>
    cases stepped
    exact .inl (mem_dropActive member)
  | unclaimed runs =>
    simp only [reaperStep, Option.some.injEq, Prod.mk.injEq] at stepped
    obtain ⟨rfl, rfl⟩ := stepped
    split at member
    · exact .inl (List.mem_of_mem_filter member)
    · contradiction
  | reaping stale =>
    cases stale with
    | nil =>
      cases stepped
      contradiction
    | cons task rest =>
      cases stepped
      exact .inl (List.mem_cons_of_mem _ member)
  | done => contradiction

section Step
variable {tokenForJob : Nat → String} {s t : State} {l : Label}

/-- A task that has read `Started` for a run had done so before, or does it now. -/
theorem step_acked (stepped : (machine tokenForJob).step s l = some t)
    (found : t.tasks c = some task') (acked : task'.phase.acked? = some run) :
    (∃ task, s.tasks c = some task ∧ task.phase.acked? = some run) ∨
    ∃ task offer, s.tasks c = some task ∧ task.phase = .awaitStarted offer ∧
      offer.run.id = run ∧ l = .task c (.recv (.message .started)) := by
  obtain ⟨_, _, fresh⟩ | ⟨old, _⟩ | ⟨task, action, held, rfl, _, moved⟩ := step_tasks stepped found
  · simp [fresh, Phase.acked?, Phase.job?] at acked
  · exact .inl ⟨task', old, acked⟩
  · have moves := attempt_moves moved
    obtain before | ⟨offer, waiting, started, same⟩ := moves_acked moves acked
    · exact .inl ⟨task, held, before⟩
    · rw [started] at moves
      obtain ⟨_, _, rfl⟩ := moves_acks moves
      exact .inr ⟨task, offer, held, waiting, same, rfl⟩

/-- A queued run is in nobody's `ClientJob`. -/
theorem Sole.pending_free (sole : Sole s) (pending : Pending s.db run)
    (unmarked : ∀ offer, task.phase = .started offer → offer.run.id ≠ run)
    (found : s.tasks c = some task) : task.phase.acked? ≠ some run := by
  intro acked
  obtain job | ⟨offer, started, same⟩ := acked_cases acked
  · exact (sole.jobs c task run found job).not_pending pending
  · exact unmarked offer started same

theorem Sole.step_alone (sole : Sole s) (guard : ReportsOnce s l)
    (stepped : (machine tokenForJob).step s l = some t) :
    ∀ c task c' task' run, t.tasks c = some task → t.tasks c' = some task' →
      task.phase.acked? = some run → task'.phase.acked? = some run → c = c' := by
  intro c task c' task' run found found' acked acked'
  have clash : ∀ {a b : Nat} {old waiting : Task} {offer : Offer}, s.tasks a = some old →
      old.phase.acked? = some run → s.tasks b = some waiting → waiting.phase = .awaitStarted offer →
      offer.run.id = run → l = .task b (.recv (.message .started)) → a = b := by
    rintro a b old waiting offer held before held' waits rfl rfl
    by_contra other
    obtain ⟨pending, alone⟩ := guard waiting offer held' waits
    exact sole.pending_free pending (alone a old · other held) held before
  obtain ⟨old, held, before⟩ | ⟨old, offer, held, waits, same, label⟩ := step_acked stepped found acked
  · obtain ⟨old', held', before'⟩ | ⟨old', offer', held', waits', same', label'⟩ :=
      step_acked stepped found' acked'
    · exact sole.alone c old c' old' run held held' before before'
    · exact clash held before held' waits' same' label'
  · obtain ⟨old', held', before'⟩ | ⟨old', offer', held', waits', same', label'⟩ :=
      step_acked stepped found' acked'
    · exact (clash held' before' held waits same label).symm
    · rw [label] at label'
      cases label'
      rfl

/-- The row of a run that a task has acknowledged stands still in every step but
the task's own. -/
theorem Sole.row_kept (sole : Sole s) (stepped : (machine tokenForJob).step s l = some t)
    (held : s.tasks c = some task) (acked : task.phase.acked? = some run)
    (still : ∀ action, l ≠ .task c action) (found : s.db.runs.get? run = some row) :
    t.db.runs.get? run = some row := by
  refine step_row_kept stepped found ?_ ?_
  · rintro c' action mover rfl held' acked'
    cases sole.alone c' mover c task run held' held acked' acked
    exact still action rfl
  · intro now _
    exact sole.watched.spares (sole.watched.acked c task run held acked)

/-- The reaper's list after a step comes from its list before, or from the rows. -/
theorem step_candidates (stepped : (machine tokenForJob).step s l = some t)
    (member : run ∈ t.reaper.candidates) :
    run ∈ s.reaper.candidates ∨ run ∈ t.db.getActiveRuns := by
  cases l with
  | connect hostInfo accepted =>
    cases stepped
    rw [connect_reaper] at member
    exact .inl member
  | task c action =>
    obtain ⟨task, db, next, _, _, rfl⟩ := step_task stepped
    rw [moveTask_reaper] at member
    exact .inl member
  | reaper now =>
    obtain ⟨db, reaper, moved, rfl⟩ := step_reaper stepped
    exact reaperStep_candidates moved member
  | post | outside =>
    cases stepped
    exact .inl member
  | restart =>
    cases stepped
    contradiction

/-- A row on the reaper's list is marked by the reaper, if this process has not
claimed it. -/
theorem Sole.stale_step (sole : Sole s) (stepped : (machine tokenForJob).step s l = some t)
    (held : InState s.db run .started ∨ InState s.db run .invalid) :
    Claimed s run ∨ InState t.db run .started ∨ InState t.db run .invalid := by
  by_cases claimed : Claimed s run
  · exact .inl claimed
  · have tasks : ∀ c action task, l = .task c action → s.tasks c = some task →
        task.phase.acked? ≠ some run :=
      fun c _ task _ found acked => claimed (sole.watched.acked c task run found acked)
    by_cases reaped : ∃ now, l = .reaper now ∧ s.reaper.next? = some run
    · obtain ⟨now, rfl, next⟩ := reaped
      obtain ⟨db, reaper, moved, rfl⟩ := step_reaper stepped
      obtain ⟨row, found, _⟩ | ⟨row, found, _⟩ := held
      · exact .inr (.inr ⟨_, reaper_row_reaped moved next found, rfl⟩)
      · exact .inr (.inr ⟨_, reaper_row_reaped moved next found, rfl⟩)
    · have kept : ∀ row, s.db.runs.get? run = some row → t.db.runs.get? run = some row :=
        fun row found => step_row_kept stepped found tasks
          fun now same next => reaped ⟨now, same, next⟩
      obtain ⟨row, found, state⟩ | ⟨row, found, state⟩ := held
      · exact .inr (.inl ⟨row, kept row found, state⟩)
      · exact .inr (.inr ⟨row, kept row found, state⟩)

theorem Sole.step (sole : Sole s) (guard : ReportsOnce s l)
    (stepped : (machine tokenForJob).step s l = some t) : Sole t := by
  refine ⟨step_known sole.known stepped, step_watched sole.watched stepped,
    sole.step_alone guard stepped, ?_, step_jobsSettled sole.known sole.jobs stepped, ?_, ?_⟩
  · intro c task' offer found started
    obtain ⟨_, _, fresh⟩ | ⟨old, still⟩ | ⟨task, action, held, rfl, _, moved⟩ :=
      step_tasks stepped found
    · rw [started] at fresh
      contradiction
    · obtain ⟨row, before, pending⟩ := sole.started c task' offer old started
      have acked : task'.phase.acked? = some offer.run.id := by rw [started]; rfl
      exact ⟨row, sole.row_kept stepped old acked still before, pending⟩
    · rw [started] at moved
      obtain ⟨same, waiting, rfl⟩ := moves_acks (attempt_moves moved)
      rw [same]
      exact (guard task offer held waiting).1
  · intro c task' run found reports
    obtain ⟨_, _, fresh⟩ | ⟨old, still⟩ | ⟨task, action, held, rfl, _, moved⟩ :=
      step_tasks stepped found
    · simp [fresh, Phase.reports?] at reports
    · obtain ⟨row, before, started⟩ := sole.reports c task' run old reports
      exact ⟨row, sole.row_kept stepped old (reports_acked reports) still before, started⟩
    · have on : task'.phase ≠ .panicked := by
        intro panicked
        rw [panicked] at reports
        contradiction
      obtain ⟨same, before | ⟨job, info, running, rfl, rfl⟩⟩ :=
        taskStep_reports (attempt_goes_on moved on) reports
      · rw [same]
        exact sole.reports c task run held before
      · rw [same]
        exact guard task job held running
  · intro run member started
    by_cases again : l = .restart
    · subst again
      cases stepped
      contradiction
    · obtain old | snapshot := step_candidates stepped member
      · obtain claimed | held := sole.stale run old started
        · exact .inl (step_claims stepped again claimed)
        · exact (sole.stale_step stepped held).imp_left fun claimed => step_claims stepped again claimed
      · obtain ⟨row, found, _, read⟩ := Db.mem_getActiveRuns.mp snapshot
        rw [read] at started
        exact .inr (.inl ⟨row, found, started⟩)

end Step

theorem Advances.refl (row : RunRow) : Advances row row := ⟨.stays _, fun _ => ⟨rfl, rfl, rfl⟩⟩

theorem taskResult_complete (info : TaskInfo) : (taskResult info).2.isComplete = true := by
  obtain ⟨finished, _⟩ | ⟨error, _⟩ := taskResult_agrees info
  · rw [finished]
    rfl
  · rw [error]
    rfl

/-- An activation finds its run queued. -/
theorem Sole.activated_advances {s : State} (sole : Sole s) (held : s.tasks c = some task)
    (acked : task.phase = .started offer) (found : s.db.runs.get? offer.run.id = some row) :
    Advances row (startedRow row task.client offer) := by
  obtain ⟨queued, found', pending⟩ := sole.started c task offer held acked
  cases Option.some.inj (found.symm.trans found')
  refine ⟨?_, ?_⟩
  · rw [pending]
    exact .starts
  · rw [pending]
    intro complete
    contradiction

/-- A report finds its run under way. -/
theorem Sole.recorded_advances {s : State} (sole : Sole s) (held : s.tasks c = some task)
    (reporting : task.phase = .recordResult job info) (found : s.db.runs.get? job.task.id = some row)
    (now : Nat) : Advances row (recordedRow row now info) := by
  obtain ⟨under, found', started⟩ := sole.reports c task job.task.id held (by rw [reporting]; rfl)
  cases Option.some.inj (found.symm.trans found')
  refine ⟨?_, ?_⟩
  · rw [started]
    exact .completes (taskResult_complete info)
  · rw [started]
    intro complete
    contradiction

/-- A run on the reaper's list that this process has not claimed is under way for
nobody, or was reaped before. -/
theorem Sole.reaped_advances {s : State} (sole : Sole s) (next : s.reaper.next? = some run)
    (found : s.db.runs.get? run = some row) : Advances row (reapedRow row) := by
  have unclaimed : ¬ Claimed s run := fun claimed => sole.watched.spares claimed next
  have stale := sole.stale
  have reaping := sole.watched.reaping
  generalize s.reaper = phase at next stale reaping
  cases phase with
  | reaping runs =>
    cases runs with
    | nil => contradiction
    | cons task rest =>
      cases next
      obtain claimed | ⟨under, found', started⟩ | ⟨under, found', invalid⟩ :=
        stale task List.mem_cons_self (reaping _ rfl task List.mem_cons_self)
      · exact absurd claimed unclaimed
      · cases Option.some.inj (found.symm.trans found')
        refine ⟨?_, ?_⟩
        · rw [started]
          exact .completes rfl
        · rw [started]
          intro complete
          contradiction
      · cases Option.some.inj (found.symm.trans found')
        refine ⟨?_, fun _ => ⟨invalid.symm, rfl, rfl⟩⟩
        rw [invalid]
        exact .stays _
  | start | activeRuns | unclaimed | done => contradiction

theorem Sole.advances {s : State} (sole : Sole s)
    (stepped : (machine tokenForJob).step s l = some t) : RunsAdvance s t := by
  intro run row found
  obtain ⟨row', found', wrote⟩ := step_rowStep stepped found
  refine ⟨row', found', ?_⟩
  cases wrote with
  | kept => exact .refl row
  | activated held acked same =>
    subst same
    exact sole.activated_advances held acked found
  | recorded held reporting same =>
    subst same
    exact sole.recorded_advances held reporting found _
  | reaped next => exact sole.reaped_advances next found

theorem start_sole (db : Db) (clients : Nat) : Sole (.start db clients) :=
  ⟨start_known db clients, start_watched db clients [], by simp, by simp, by simp [JobsSettled],
    by simp, by simp [Reaper.candidates, State.start]⟩

/-- On any database, for any clients and across restarts: where `Started` is taken
only for queued runs and a `TaskStatus` only for a run under way, every step takes
each run forward and leaves the results there are. -/
theorem recorded_results_final (tokenForJob : Nat → String) (db : Db) (clients : Nat)
    (labels : List Label)
    (once : (machine tokenForJob).Guarded ReportsOnce (.start db clients) labels) :
    (machine tokenForJob).Each RunsAdvance (.start db clients) labels :=
  Machine.guarded_each (fun _ _ _ => Sole.step) (fun _ _ _ sole _ => sole.advances)
    (start_sole db clients) once

theorem reported_run_once :
    (machine someToken).Guarded ReportsOnce (.start .empty 0) reportedRun := by
  have before : (machine someToken).Guarded ReportsOnce (.start .empty 0)
      (pushed ++ [connects] ++ prepares 0 7 ++ [offers 0]) := by
    apply Machine.guarded_of_forall
    intro l member s
    simp only [pushed, connects, prepares, offers, List.cons_append, List.nil_append,
      List.mem_cons, List.not_mem_nil, or_false] at member
    rcases member with rfl | rfl | rfl | rfl | rfl | rfl | rfl | rfl | rfl | rfl | rfl | rfl <;> trivial
  have after : reportedRun = (pushed ++ [connects] ++ prepares 0 7 ++ [offers 0]) ++
      (acks 0 :: .task 0 (.call 7) :: reports 0 9 (.finished "pass")) := rfl
  rw [after]
  refine Machine.guarded_append.mpr ⟨before, ?_⟩
  intro s path
  have known := (Machine.invariant (fun _ _ _ => step_known) (start_known .empty 0) path).clients
  cases path
  refine ⟨?_, ?_⟩
  · intro task offer found waiting
    cases found
    cases waiting
    refine ⟨⟨_, rfl, rfl⟩, ?_⟩
    intro c task' offer' other found
    exact absurd (Nat.lt_one_iff.mp (known c task' found)) other
  · rintro t ⟨⟩
    refine ⟨trivial, ?_⟩
    rintro u ⟨⟩
    refine ⟨?_, fun _ _ => Machine.guarded_of_forall ?_⟩
    · intro task job found running
      cases found
      cases running
      exact ⟨_, rfl, rfl⟩
    · intro l member s
      simp only [List.mem_cons, List.not_mem_nil, or_false] at member
      rcases member with rfl | rfl | rfl | rfl <;> trivial

theorem reported_run_final :
    (machine someToken).Each RunsAdvance (.start .empty 0) reportedRun :=
  recorded_results_final someToken .empty 0 reportedRun reported_run_once

/-- A client that reports its run a second time. -/
def reportsTwice : List Label :=
  reportedRun ++ [.task 0 (.recv (.message (.taskStatus (.finished "fail")))), .task 0 (.call 10),
    .task 0 (.call 10), .task 0 (.notify true)]

/-- The second report overwrites the first. -/
theorem second_report_overwrites : ¬ ∀ (tokenForJob : Nat → String) (db : Db) (clients : Nat)
    (labels : List Label), (machine tokenForJob).Each RunsAdvance (.start db clients) labels := by
  intro claim
  have each := claim someToken .empty 0 (reportsTwice ++ [.task 0 (.call 10)])
  have runs : ((machine someToken).run (.start .empty 0) reportsTwice).map
      (fun s => (s.db.runs.get? 1).map RunRow.state) = some (some .finished) := rfl
  have ends : (((machine someToken).run (.start .empty 0) reportsTwice).bind fun s =>
      (machine someToken).step s (.task 0 (.call 10))).map
      (fun t => (t.db.runs.get? 1).map RunRow.state) = some (some .error) := rfl
  obtain ⟨s, path, finished⟩ := Option.map_eq_some_iff.mp runs
  obtain ⟨t, stepped, error⟩ := Option.map_eq_some_iff.mp ends
  rw [path, Option.bind_some] at stepped
  obtain ⟨row, found, done⟩ := Option.map_eq_some_iff.mp finished
  obtain ⟨row', found', overwritten⟩ := Option.map_eq_some_iff.mp error
  obtain ⟨kept, found'', advances⟩ := (Machine.each_append each path t stepped).1 1 row found
  cases Option.some.inj (found'.symm.trans found'')
  have same := (advances.result (by rw [done]; rfl)).1
  rw [done, overwritten] at same
  cases same

end BuildOTron.Driver
