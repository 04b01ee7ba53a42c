import BuildOTron.Driver.Reaper

/-! What a hand-out that fails leaves behind: nothing. From the choice of a run to
the `Started` of its client a task only reads the database, so a run whose client
hangs up, answers something else or sends what does not decode stays queued. -/
namespace BuildOTron.Driver
open Transition

/-- A task that has read `Started` is in the history with its run. -/
structure Recorded (s : State) : Prop where
  known : Known s
  watched : Watched s
  history : ∀ c task run, s.tasks c = some task → task.phase.acked? = some run →
    (c, run) ∈ s.acked

theorem step_history_mono (stepped : (machine tokenForJob).step s l = some t)
    (member : entry ∈ s.acked) : entry ∈ t.acked := by
  cases l with
  | connect hostInfo accepted =>
    cases stepped
    rwa [connect_acked]
  | task c action =>
    obtain ⟨task, db, next, found, moves, rfl⟩ := step_task stepped
    obtain ⟨same, _⟩ | ⟨offer, _, _, same⟩ := moveTask_acked_eq (c := c) moves
    · rwa [same]
    · rw [same]
      exact List.mem_cons_of_mem _ member
  | reaper now =>
    obtain ⟨db, reaper, _, rfl⟩ := step_reaper stepped
    exact member
  | post | outside | restart =>
    cases stepped
    exact member

theorem Recorded.step (recorded : Recorded s)
    (stepped : (machine tokenForJob).step s l = some t) : Recorded t := by
  refine ⟨step_known recorded.known stepped, step_watched recorded.watched stepped, ?_⟩
  intro c task' run found acked
  obtain ⟨_, _, fresh⟩ | ⟨old, _⟩ | ⟨task, action, held, rfl, _, moved⟩ := step_tasks stepped found
  · simp [fresh, Phase.acked?, Phase.job?] at acked
  · exact step_history_mono stepped (recorded.history c task' run old acked)
  · have moves := attempt_moves moved
    obtain before | ⟨offer, waiting, started, same⟩ := moves_acked moves acked
    · exact step_history_mono stepped (recorded.history c task run held before)
    · obtain ⟨mover, db, next, held', moves', rfl⟩ := step_task stepped
      obtain ⟨_, rfl⟩ | ⟨other, _⟩ := moveTask_cases found
      · obtain ⟨_, never⟩ | ⟨offer', _, started', history⟩ := moveTask_acked_eq (c := c) moves'
        · exact absurd started (never offer)
        · cases started.symm.trans started'
          rw [history, ← same]
          exact List.mem_cons_self
      · exact absurd rfl other

theorem start_recorded (db : Db) (clients : Nat) : Recorded (.start db clients) :=
  ⟨start_known db clients, start_watched db clients [], by simp⟩

section Phases
variable {client : RunnerClient} {db db' : Db} {phase next : Phase} {action : Action}

/-- A task never puts down the run it has chosen. -/
theorem moves_chosen (moves : Moves client db phase action db' next)
    (chosen : phase.run? = some run) : next.run? = some run ∨ next.isOver = true := by
  cases moves with
  | ends ended => exact .inr ended
  | reads within =>
    refine .inl ?_
    cases next <;> simp_all [Phase.job?, Phase.run?]
  | getPendingRuns | takes | declines | alternate | nothing | newRun | pings | pong | again =>
    simp [Phase.run?] at chosen
  | _ => exact .inl chosen

theorem taskStep_over (isOver : phase.isOver = true) : taskStep client db phase action = none := by
  cases phase with
  | returned | panicked => rfl
  | _ => cases isOver

theorem attempt_over {s : State} {task : Task} (isOver : task.phase.isOver = true) :
    s.attempt task action = none := by
  rw [State.attempt, taskStep_over isOver, Option.map_none]

/-- Between the choice and the client's `Started` a task only reads. -/
theorem moves_reads_only (moves : Moves client db phase action db' next)
    (chosen : phase.run? = some run) (unacked : phase.acked? ≠ some run) :
    db'.runs = db.runs := by
  cases moves with
  | newRun => simp [Phase.run?] at chosen
  | activates => exact absurd chosen unacked
  | insertMetric => exact absurd chosen unacked
  | records => exact absurd chosen unacked
  | _ => rfl

end Phases

section Step
variable {tokenForJob : Nat → String} {s t : State}

/-- A queued run nobody has acknowledged keeps its row through every step. -/
theorem Recorded.queued_step (recorded : Recorded s)
    (stepped : (machine tokenForJob).step s l = some t) (found : s.db.runs.get? run = some row)
    (pending : row.state = .pending) (unacked : ∀ c, (c, run) ∉ s.acked) :
    t.db.runs.get? run = some row := by
  refine step_row_kept stepped found ?_ ?_
  · intro c action task _ held acked
    exact unacked c (recorded.history c task run held acked)
  · intro now _ next
    have settled := recorded.watched.settled
    have reaping := recorded.watched.reaping
    generalize s.reaper = reaper at next settled reaping
    cases reaper with
    | reaping stale =>
      cases stale with
      | nil => contradiction
      | cons task rest =>
        cases next
        have started := reaping _ rfl task List.mem_cons_self
        exact (settled task List.mem_cons_self started).not_pending ⟨row, found, pending⟩
    | start | activeRuns | unclaimed | done => contradiction

/-- A queued run is queued on, with the row it had, until a client acknowledges it. -/
theorem Recorded.queued_run (recorded : Recorded s) (found : s.db.runs.get? run = some row)
    (pending : row.state = .pending) (path : (machine tokenForJob).run s labels = some t)
    (unacked : ∀ c, (c, run) ∉ t.acked) : t.db.runs.get? run = some row := by
  have kept : Recorded t ∧ ((∀ c, (c, run) ∉ t.acked) → t.db.runs.get? run = some row) := by
    refine Machine.invariant
      (P := fun t => Recorded t ∧ ((∀ c, (c, run) ∉ t.acked) → t.db.runs.get? run = some row))
      ?_ ⟨recorded, fun _ => found⟩ path
    rintro u l v ⟨before, queued⟩ stepped
    refine ⟨before.step stepped, fun unacked => ?_⟩
    have earlier : ∀ c, (c, run) ∉ u.acked :=
      fun c member => unacked c (step_history_mono stepped member)
    exact before.queued_step stepped (queued earlier) pending earlier
  exact kept.2 unacked

/-- What the task of an earlier choice is at: on that run, or over. -/
def Carries (s : State) (c run : Nat) : Prop :=
  c < s.clients ∧ ∀ task, s.tasks c = some task → task.phase.run? = some run ∨ task.phase.isOver = true

theorem Carries.step (carries : Carries s c run)
    (stepped : (machine tokenForJob).step s l = some t) : Carries t c run := by
  obtain ⟨known, phase⟩ := carries
  refine ⟨Nat.lt_of_lt_of_le known (step_clients stepped), ?_⟩
  intro task' found
  obtain ⟨rfl, _⟩ | ⟨old, _⟩ | ⟨task, action, held, rfl, _, moved⟩ := step_tasks stepped found
  · omega
  · exact phase task' old
  · obtain chosen | ended := phase task held
    · exact moves_chosen (attempt_moves moved) chosen
    · rw [attempt_over ended] at moved
      cases moved

/-- A run is not queued any more because a client acknowledged it, or was not
queued when the driver started. -/
def Accounted (db₀ : Db) (s : State) : Prop :=
  ∀ id row, s.db.runs.get? id = some row → row.state ≠ .pending → (∃ c, (c, id) ∈ s.acked) ∨
    ∃ row₀, db₀.runs.get? id = some row₀ ∧ row₀.state ≠ .pending

theorem Recorded.accounted_step (recorded : Recorded s) (accounted : Accounted db₀ s)
    (stepped : (machine tokenForJob).step s l = some t) : Accounted db₀ t := by
  intro id row' found' settled
  have write := step_runsWrite stepped
  cases before : s.db.runs.get? id with
  | none =>
    obtain ⟨_, jobId, pref, now, rfl⟩ := write.backward id row' found' before
    exact absurd rfl settled
  | some row =>
    by_cases pending : row.state = .pending
    · by_cases acked : ∃ c, (c, id) ∈ s.acked
      · obtain ⟨c, member⟩ := acked
        exact .inl ⟨c, step_history_mono stepped member⟩
      · have kept := recorded.queued_step stepped before pending (not_exists.mp acked)
        cases Option.some.inj (kept.symm.trans found')
        exact absurd pending settled
    · exact (accounted id row before pending).imp_left fun ⟨c, member⟩ =>
        ⟨c, step_history_mono stepped member⟩

/-- A step of a task that carries a run and has no `Started` for it. -/
theorem Recorded.unacked_step (recorded : Recorded s) (carries : Carries s c run)
    (stepped : (machine tokenForJob).step s (.task c action) = some t)
    (unacked : (c, run) ∉ t.acked) : t.db.runs = s.db.runs := by
  obtain ⟨task, db, next, held, moved, rfl⟩ := step_attempt stepped
  rw [moveTask_db]
  obtain chosen | ended := carries.2 task held
  · refine moves_reads_only (attempt_moves moved) chosen fun acked => unacked ?_
    exact step_history_mono stepped (recorded.history c task run held acked)
  · rw [attempt_over ended] at moved
    cases moved

end Step

/-- On any database, for any clients and any order of steps: only an acknowledged
run leaves the queue; a task that has chosen a run writes nothing to the runs table
unless its client acknowledges; and a run that was queued for a host is queued for
it as long as no client has acknowledged it. -/
theorem failed_handout_loses_nothing (tokenForJob : Nat → String) (db : Db) (clients : Nat)
    (labels : List Label) (s : State)
    (path : (machine tokenForJob).run (.start db clients) labels = some s) :
    Accounted db s ∧
    (∀ c task run, s.tasks c = some task → task.phase.run? = some run →
      ∀ more t action u, (machine tokenForJob).run s more = some t →
        (machine tokenForJob).step t (.task c action) = some u → (c, run) ∉ u.acked →
        u.db.runs = t.db.runs) ∧
    ∀ hostId run, run ∈ s.db.getPendingRuns hostId →
      ∀ more t, (machine tokenForJob).run s more = some t → (∀ c, (c, run.id) ∉ t.acked) →
        run ∈ t.db.getPendingRuns hostId := by
  have reached : Recorded s ∧ Accounted db s := by
    refine Machine.invariant (P := fun s => Recorded s ∧ Accounted db s) ?_ ?_ path
    · exact fun _ _ _ holds stepped => ⟨holds.1.step stepped, holds.1.accounted_step holds.2 stepped⟩
    · exact ⟨start_recorded db clients, fun id row found settled => .inr ⟨row, found, settled⟩⟩
  obtain ⟨recorded, accounted⟩ := reached
  refine ⟨accounted, ?_, ?_⟩
  · intro c task run held chosen more t action u onward stepped unacked
    have carries : Carries s c run := by
      refine ⟨recorded.known.clients c task held, ?_⟩
      intro task' held'
      cases Option.some.inj (held.symm.trans held')
      exact .inl chosen
    obtain ⟨recorded', carries'⟩ := Machine.invariant (P := fun t => Recorded t ∧ Carries t c run)
      (fun _ _ _ holds stepped => ⟨holds.1.step stepped, holds.2.step stepped⟩)
      ⟨recorded, carries⟩ onward
    exact recorded'.unacked_step carries' stepped unacked
  · intro hostId run queued more t onward unacked
    obtain ⟨row, found, pending, rest⟩ := Db.mem_getPendingRuns.mp queued
    exact Db.mem_getPendingRuns.mpr
      ⟨row, recorded.queued_run found pending onward unacked, pending, rest⟩

theorem hung_up_run_queued : ∃ s t,
    (machine someToken).run (.start .empty 0) (oneClient ++ [offers 0]) = some s ∧
    (machine someToken).run s [.task 0 (.recv .hangup)] = some t ∧
    ⟨1, 1, 0⟩ ∈ t.db.getPendingRuns (some 1) := by
  refine ⟨_, _, rfl, rfl, ?_⟩
  have lost := failed_handout_loses_nothing someToken .empty 0 (oneClient ++ [offers 0]) _ rfl
  exact lost.2.2 (some 1) ⟨1, 1, 0⟩ (by decide) [.task 0 (.recv .hangup)] _ rfl nofun

end BuildOTron.Driver
