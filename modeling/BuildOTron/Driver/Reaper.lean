import BuildOTron.Driver.Assignment
import BuildOTron.Driver.RunRecords
import Mathlib.Data.List.Perm.Basic

/-! The reaper beside the tasks of its own process. It reads the rows first and
`ACTIVE_TASKS` second, `submit` writes the map first and `activate_run` the row
second, and no entry ever leaves the map: a row this process has started is seen
in the map by every reaper that saw it started. -/
namespace BuildOTron.Driver
open Transition

/-! ### The scan -/

theorem swapRemove_perm {xs : List α} (inside : i < xs.length) :
    (swapRemove xs i).Perm (xs.eraseIdx i) := by
  rcases List.eq_nil_or_concat xs with rfl | ⟨init, last, rfl⟩
  · simp at inside
  · simp only [List.concat_eq_append, List.length_append, List.length_singleton] at inside
    simp only [swapRemove, List.concat_eq_append, List.getLast?_append, List.getLast?_singleton,
      Option.some_or, List.set_append, List.eraseIdx_append]
    by_cases before : i < init.length
    · have moved := List.set_perm_cons_eraseIdx before last
      rw [if_pos before, if_pos before, List.dropLast_concat]
      exact moved.trans (List.perm_append_singleton _ _).symm
    · obtain rfl : i = init.length := by omega
      simp

/-- With one run of that id at most, dropping it is filtering it out. -/
theorem eraseP_eq_filter {xs : List Run} (distinct : (xs.map Run.id).Nodup) (id : Nat) :
    (xs.eraseP fun task => task.id = id) = xs.filter fun task => task.id ≠ id := by
  induction xs with
  | nil => rfl
  | cons task rest ih =>
    simp only [List.map_cons, List.nodup_cons] at distinct
    by_cases same : task.id = id
    · have others : ∀ other ∈ rest, other.id ≠ id := by
        intro other member clash
        exact distinct.1 (List.mem_map.mpr ⟨other, member, clash.trans same.symm⟩)
      simp only [List.eraseP_cons, same, decide_true, List.filter_cons, ne_eq, not_true,
        decide_false]
      exact (List.filter_eq_self.mpr fun other member => decide_eq_true (others other member)).symm
    · simpa [List.eraseP_cons, List.filter_cons, same] using ih distinct.2

/-- What the scan leaves, up to order: the runs that have no entry in the map. -/
theorem dropActive_perm {stale : List Run} (distinct : (stale.map Run.id).Nodup)
    (activeTasks : List (Nat × Nat)) :
    (dropActive activeTasks stale).Perm
      (stale.filter fun task => task.id ∉ activeTasks.map Prod.fst) := by
  induction activeTasks generalizing stale with
  | nil => simp [dropActive]
  | cons entry rest ih =>
    obtain ⟨kept, same, first⟩ : ∃ kept, dropActive (entry :: rest) stale = dropActive rest kept ∧
        kept.Perm (stale.filter fun task => task.id ≠ entry.1) := by
      rw [← eraseP_eq_filter distinct, List.eraseP_eq_eraseIdx]
      cases found : stale.findIdx? fun task : Run => task.id = entry.1 with
      | none => exact ⟨stale, by simp [dropActive, found], .refl _⟩
      | some i =>
        have inside := (List.findIdx?_eq_some_iff_getElem.mp found).1
        exact ⟨swapRemove stale i, by simp [dropActive, found], swapRemove_perm inside⟩
    have still := (first.map Run.id).nodup_iff.mpr (distinct.sublist (List.filter_sublist.map _))
    rw [same]
    refine (ih still).trans ((first.filter _).trans ?_)
    rw [List.filter_filter]
    refine .of_eq (List.filter_congr fun task _ => ?_)
    by_cases here : task.id = entry.1 <;> simp [here]

/-! ### Who may be reaped -/

/-- `ACTIVE_TASKS` has an entry for the run. -/
def Claimed (s : State) (run : Nat) : Prop := run ∈ s.activeTasks.map Prod.fst

/-- The reaper's list after the scan. -/
def Reaper.scanned : Reaper → List Run
  | .unclaimed runs | .reaping runs => runs
  | _ => []

structure Watched (s : State) : Prop where
  tasks : ∀ c task, s.tasks c = some task → ∀ run ∈ task.phase.mentions,
    Pending s.db run ∨ Claimed s run
  acked : ∀ c task run, s.tasks c = some task → task.phase.acked? = some run → Claimed s run
  settled : ∀ run ∈ s.reaper.candidates, run.state = .started → Settled s.db run.id
  distinct : ∀ runs, s.reaper = .activeRuns runs → (runs.map Run.id).Nodup
  scanned : ∀ run ∈ s.reaper.scanned, run.state = .started → ¬ Claimed s run.id
  reaping : ∀ stale, s.reaper = .reaping stale → ∀ run ∈ stale, run.state = .started

theorem mem_register {activeTasks : List (Nat × Nat)} :
    run ∈ (State.register activeTasks new c).map Prod.fst ↔
      run = new ∨ run ∈ activeTasks.map Prod.fst := by
  by_cases same : run = new
  · simp [State.register, same]
  · simp only [State.register, List.map_cons, List.mem_cons, same, false_or, List.mem_map,
      List.mem_filter, decide_eq_true_eq]
    constructor
    · rintro ⟨entry, ⟨member, _⟩, rfl⟩
      exact ⟨entry, member, rfl⟩
    · rintro ⟨entry, member, rfl⟩
      exact ⟨entry, ⟨member, same⟩, rfl⟩

/-- The map after a task's move: one key more, when it has read `Started`. -/
theorem moveTask_claimed {s : State} {db : Db} {next : Phase} :
    Claimed (s.moveTask c task action db next) run ↔ Claimed s run ∨
      ∃ offer, (∃ waiting, task.phase = .awaitStarted waiting) ∧ next = .started offer ∧
        offer.run.id = run := by
  unfold State.moveTask
  split
  · rename_i silent
    refine ⟨.inl, ?_⟩
    rintro (old | ⟨offer, ⟨waiting, phase⟩, rfl, _⟩)
    · exact old
    · simp [State.creates, phase] at silent
  · rename_i new created
    obtain ⟨offer, started, same, waiting, phase⟩ := creates_eq_some created
    refine mem_register.trans ⟨?_, ?_⟩
    · rintro (rfl | old)
      · exact .inr ⟨offer, ⟨waiting, phase⟩, started, same⟩
      · exact .inl old
    · rintro (old | ⟨offer', _, started', rfl⟩)
      · exact .inr old
      · rw [started] at started'
        cases started'
        exact .inl same

/-- A queued run leaves the queue only by an activation of this process. -/
theorem Watched.pending_step {s : State} (watched : Watched s) (pending : Pending s.db run)
    (write : RunsWrite s l db.runs) : Pending db run ∨ Claimed s run := by
  obtain ⟨row, found, queued⟩ := pending
  obtain ⟨row', found', wrote⟩ := write.forward run row found
  cases wrote with
  | kept => exact .inl ⟨row, found', queued⟩
  | activated _ held acked same =>
    exact .inr (watched.acked _ _ run held (by rw [acked, ← same]; rfl))
  | recorded held reporting same =>
    exact .inr (watched.acked _ _ run held (by rw [reporting, ← same]; rfl))
  | @reaped stale rest reaping same =>
    have settled := watched.settled stale (by rw [reaping]; exact List.mem_cons_self)
      (watched.reaping _ reaping stale List.mem_cons_self)
    rw [same] at settled
    exact absurd ⟨row, found, queued⟩ settled.not_pending

theorem Watched.mentions_step {s t : State} (watched : Watched s)
    (write : RunsWrite s l t.db.runs) (claims : ∀ run, Claimed s run → Claimed t run)
    (found : s.tasks c = some task) (mentioned : run ∈ task.phase.mentions) :
    Pending t.db run ∨ Claimed t run := by
  obtain pending | claimed := watched.tasks c task found run mentioned
  · exact (watched.pending_step pending write).imp_right (claims run)
  · exact .inr (claims run claimed)

/-- What holds of the reaper holds on when it stands still. -/
theorem Watched.frame {s t : State} (watched : Watched s) (write : RunsWrite s l t.db.runs)
    (tasks : t.tasks = s.tasks) (active : t.activeTasks = s.activeTasks)
    (reaper : t.reaper = s.reaper) : Watched t := by
  have claims : ∀ run, Claimed t run ↔ Claimed s run := by
    intro run
    simp only [Claimed, active]
  refine ⟨?_, ?_, ?_, ?_, ?_, ?_⟩
  · intro c task found run mentioned
    rw [tasks] at found
    exact watched.mentions_step write (fun run => (claims run).mpr) found mentioned
  · intro c task run found acked
    rw [tasks] at found
    exact (claims run).mpr (watched.acked c task run found acked)
  · rw [reaper]
    exact fun run member started => (watched.settled run member started).step write
  · rw [reaper]
    exact watched.distinct
  · rw [reaper]
    exact fun run member started claimed =>
      watched.scanned run member started ((claims run.id).mp claimed)
  · rw [reaper]
    exact watched.reaping

theorem scanned_candidates {reaper : Reaper} (member : run ∈ reaper.scanned) :
    run ∈ reaper.candidates := by
  cases reaper <;> first | exact member | contradiction

theorem Watched.moveTask {s : State} (watched : Watched s) (found : s.tasks c = some task)
    (moves : Moves task.client s.db task.phase action db next) :
    Watched (s.moveTask c task action db next) := by
  have write : RunsWrite s (.task c action) (s.moveTask c task action db next).db.runs := by
    rw [moveTask_db]
    exact moves_runsWrite found moves
  have claims : ∀ run, Claimed s run → Claimed (s.moveTask c task action db next) run :=
    fun run claimed => moveTask_claimed.mpr (.inl claimed)
  refine ⟨?_, ?_, ?_, ?_, ?_, ?_⟩
  · intro c' task' found' run mentioned
    obtain ⟨rfl, rfl⟩ | ⟨_, old⟩ := moveTask_cases found'
    · obtain before | queued := moves_mentions moves mentioned
      · exact watched.mentions_step write claims found before
      · rw [moveTask_db]
        exact .inl queued
    · exact watched.mentions_step write claims old mentioned
  · intro c' task' run found' acked
    obtain ⟨rfl, rfl⟩ | ⟨_, old⟩ := moveTask_cases found'
    · obtain before | ⟨offer, waiting, started, same⟩ := moves_acked moves acked
      · exact claims run (watched.acked _ task run found before)
      · exact moveTask_claimed.mpr (.inr ⟨offer, ⟨offer, waiting⟩, started, same⟩)
    · exact claims run (watched.acked c' task' run old acked)
  · rw [moveTask_reaper]
    exact fun run member started => (watched.settled run member started).step write
  · rw [moveTask_reaper]
    exact watched.distinct
  · rw [moveTask_reaper]
    intro run member started claimed
    obtain old | ⟨offer, _, acks, same⟩ := moveTask_claimed.mp claimed
    · exact watched.scanned run member started old
    · -- a run on the reaper's list is settled and unclaimed, so no task has it in hand
      rw [acks] at moves
      have waited := moves_started moves
      have mentioned : run.id ∈ task.phase.mentions := by
        simp [waited, Phase.mentions, Phase.run?, same]
      obtain pending | old := watched.tasks c task found run.id mentioned
      · exact (watched.settled run (scanned_candidates member) started).not_pending pending
      · exact watched.scanned run member started old
  · rw [moveTask_reaper]
    exact watched.reaping

theorem connect_activeTasks (tokenForJob : Nat → String) (s : State) (hostInfo : HostInfo)
    (accepted : Option (List String)) :
    (s.connect tokenForJob hostInfo accepted).activeTasks = s.activeTasks := by
  have outcome := connect_connected tokenForJob s hostInfo accepted
  generalize s.connect tokenForJob hostInfo accepted = t at outcome
  cases outcome <;> rfl

theorem Watched.connect {s : State} (watched : Watched s)
    (write : RunsWrite s l (s.connect tokenForJob hostInfo accepted).db.runs) :
    Watched (s.connect tokenForJob hostInfo accepted) := by
  have claims : ∀ run, Claimed (s.connect tokenForJob hostInfo accepted) run ↔ Claimed s run := by
    intro run
    simp only [Claimed, connect_activeTasks]
  refine ⟨?_, ?_, ?_, ?_, ?_, ?_⟩
  · intro c task found run mentioned
    obtain ⟨_, fresh, _⟩ | old := connect_cases found
    · simp [fresh, Phase.mentions, Phase.run?] at mentioned
    · exact watched.mentions_step write (fun run => (claims run).mpr) old mentioned
  · intro c task run found acked
    obtain ⟨_, fresh, _⟩ | old := connect_cases found
    · simp [fresh, Phase.acked?, Phase.job?] at acked
    · exact (claims run).mpr (watched.acked c task run old acked)
  · rw [connect_reaper]
    exact fun run member started => (watched.settled run member started).step write
  · rw [connect_reaper]
    exact watched.distinct
  · rw [connect_reaper]
    exact fun run member started claimed =>
      watched.scanned run member started ((claims run.id).mp claimed)
  · rw [connect_reaper]
    exact watched.reaping

theorem getActiveRuns_distinct (db : Db) : (db.getActiveRuns.map Run.id).Nodup := by
  have ids : (db.getActiveRuns.map Run.id) =
      (db.runs.select fun row => row.state = .started ∨ row.state = .pending).map Prod.fst := by
    simp [Db.getActiveRuns, Function.comp_def, RunRow.withId]
  rw [ids]
  exact db.runs.nodup_ids.sublist (List.filter_sublist.map _)

/-- A reaper with an empty list asks nothing. -/
theorem Watched.idle {s : State}
    (tasks : ∀ c task, s.tasks c = some task → ∀ run ∈ task.phase.mentions,
      Pending s.db run ∨ Claimed s run)
    (acked : ∀ c task run, s.tasks c = some task → task.phase.acked? = some run → Claimed s run)
    (empty : s.reaper = .start ∨ s.reaper = .done) : Watched s := by
  refine ⟨tasks, acked, ?_, ?_, ?_, ?_⟩ <;>
    rcases empty with same | same <;> simp [same, Reaper.candidates, Reaper.scanned]

theorem Watched.reaperStep {s : State} (watched : Watched s)
    (stepped : Driver.reaperStep s.db s.activeTasks now s.reaper = some (db, reaper)) :
    Watched { s with db := db, reaper := reaper } := by
  have write := reaper_runsWrite stepped
  have tasks : ∀ c task, s.tasks c = some task → ∀ run ∈ task.phase.mentions,
      Pending db run ∨ Claimed s run := by
    intro c task found run mentioned
    obtain pending | claimed := watched.tasks c task found run mentioned
    · exact watched.pending_step pending write
    · exact .inr claimed
  have settled := watched.settled
  have distinct := watched.distinct
  have scanned := watched.scanned
  have reaping := watched.reaping
  generalize same : s.reaper = phase at stepped settled distinct scanned reaping
  cases phase with
  | start =>
    cases stepped
    refine ⟨tasks, watched.acked, ?_, ?_, by simp [Reaper.scanned], by simp⟩
    · intro run member started
      obtain ⟨row, found, _, read⟩ := Db.mem_getActiveRuns.mp member
      refine ⟨row, found, ?_⟩
      rw [read] at started
      rw [show row.state = .started from started]
      simp
    · rintro runs ⟨⟩
      exact getActiveRuns_distinct s.db
  | activeRuns runs =>
    cases stepped
    have kept := dropActive_perm (distinct runs rfl) s.activeTasks
    refine ⟨tasks, watched.acked, ?_, by simp, ?_, by simp⟩
    · exact fun run member => settled run (List.mem_of_mem_filter (kept.mem_iff.mp member))
    · intro run member _ claimed
      have unclaimed := (List.mem_filter.mp (kept.mem_iff.mp member)).2
      exact of_decide_eq_true unclaimed claimed
  | unclaimed runs =>
    simp only [Driver.reaperStep, Option.some.injEq, Prod.mk.injEq] at stepped
    obtain ⟨rfl, rfl⟩ := stepped
    split
    · refine ⟨tasks, watched.acked, ?_, by simp, ?_, ?_⟩
      · exact fun run member => settled run (List.mem_of_mem_filter member)
      · exact fun run member => scanned run (List.mem_of_mem_filter member)
      · rintro _ ⟨⟩ run member
        exact isStale_started (List.mem_filter.mp member).2
    · exact .idle tasks watched.acked (.inr rfl)
  | reaping stale =>
    cases stale with
    | nil =>
      cases stepped
      exact .idle tasks watched.acked (.inr rfl)
    | cons task rest =>
      cases stepped
      have later : ∀ {run : Run}, run ∈ rest → run ∈ task :: rest := List.mem_cons_of_mem _
      refine ⟨tasks, watched.acked, ?_, by simp, ?_, ?_⟩
      · exact fun run member started => (settled run (later member) started).step write
      · exact fun run member => scanned run (later member)
      · rintro _ ⟨⟩ run member
        exact reaping _ rfl run (later member)
  | done => contradiction

theorem start_watched (db : Db) (clients : Nat) (acked : List (Nat × Nat)) :
    Watched { State.start db clients with acked := acked } :=
  .idle (by simp) (by simp) (.inl rfl)

theorem step_watched (watched : Watched s) (stepped : (machine tokenForJob).step s l = some t) :
    Watched t := by
  have write := step_runsWrite stepped
  cases l with
  | connect hostInfo accepted =>
    cases stepped
    exact watched.connect write
  | task c action =>
    obtain ⟨task, db, next, found, moves, rfl⟩ := step_task stepped
    exact watched.moveTask found moves
  | reaper now =>
    obtain ⟨db, reaper, moved, rfl⟩ := step_reaper stepped
    exact watched.reaperStep moved
  | post | outside =>
    cases stepped
    exact watched.frame write rfl rfl rfl
  | restart =>
    cases stepped
    exact start_watched _ _ _

theorem step_claims (stepped : (machine tokenForJob).step s l = some t) (same : l ≠ .restart)
    (claimed : Claimed s run) : Claimed t run := by
  cases l with
  | connect hostInfo accepted =>
    cases stepped
    rwa [Claimed, connect_activeTasks]
  | task c action =>
    obtain ⟨task, db, next, found, moves, rfl⟩ := step_task stepped
    exact moveTask_claimed.mpr (.inl claimed)
  | reaper now =>
    obtain ⟨db, reaper, _, rfl⟩ := step_reaper stepped
    exact claimed
  | post | outside =>
    cases stepped
    exact claimed
  | restart => exact absurd rfl same

/-- The next run to be reaped has no entry in the map. -/
theorem Watched.spares {s : State} (watched : Watched s) (claimed : Claimed s run) :
    s.reaper.next? ≠ some run := by
  intro next
  have scanned := watched.scanned
  have reaping := watched.reaping
  generalize s.reaper = reaper at next scanned reaping
  cases reaper with
  | reaping stale =>
    cases stale with
    | nil => contradiction
    | cons task rest =>
      cases next
      exact scanned task List.mem_cons_self (reaping _ rfl task List.mem_cons_self) claimed
  | start | activeRuns | unclaimed | done => contradiction

/-! ### The jobs of this process -/

/-- A run with a `ClientJob` has left the queue. -/
def JobsSettled (s : State) : Prop :=
  ∀ c task run, s.tasks c = some task → task.phase.job? = some run → Settled s.db run

theorem step_jobsSettled (known : Known s) (jobs : JobsSettled s)
    (stepped : (machine tokenForJob).step s l = some t) : JobsSettled t := by
  have write := step_runsWrite stepped
  intro c task' run found job
  obtain ⟨_, _, fresh⟩ | ⟨old, _⟩ | ⟨task, action, held, rfl, _, moved⟩ := step_tasks stepped found
  · simp [fresh, Phase.job?] at job
  · exact (jobs c task' run old job).step write
  · obtain before | ⟨offer, started, rfl, same⟩ := moves_job (attempt_moves moved) job
    · exact (jobs c task run held before).step write
    · rw [same]
      refine activate_settled (known.tasks c task held offer.run.id ?_) _
      simp [started, Phase.mentions, Phase.run?]

/-- Every `ClientJob` on record has its entry in the map. -/
def JobsClaimed (s : State) : Prop := ∀ entry ∈ s.acked, Claimed s entry.2

theorem step_jobsClaimed (watched : Watched s) (claimed : JobsClaimed s) (same : l ≠ .restart)
    (stepped : (machine tokenForJob).step s l = some t) : JobsClaimed t := by
  intro entry member
  obtain old | ⟨task, offer, _, _, run, now⟩ := step_history stepped member
  · exact step_claims stepped same (claimed entry old)
  · exact (step_watched watched stepped).acked _ _ _ now (congrArg some run)

/-- On whatever database a process starts, and however its tasks and its reaper
interleave, the reaper never reaps a run that this process has a `ClientJob` for. -/
theorem reaper_spares_own_jobs (tokenForJob : Nat → String) (db : Db) (clients : Nat)
    (labels : List Label) (s : State) (oneProcess : .restart ∉ labels)
    (path : (machine tokenForJob).run (.start db clients) labels = some s)
    (reaps : s.reaper.next? = some run) : ∀ c, (c, run) ∉ s.acked := by
  have guarded : (machine tokenForJob).Guarded (fun _ l => l ≠ .restart)
      (.start db clients) labels :=
    Machine.guarded_of_forall fun l member _ same => oneProcess (same ▸ member)
  obtain ⟨watched, claimed⟩ := Machine.guarded_invariant (P := fun s => Watched s ∧ JobsClaimed s)
    (fun _ _ _ holds other stepped =>
      ⟨step_watched holds.1 stepped, step_jobsClaimed holds.1 holds.2 other stepped⟩)
    ⟨start_watched db clients [], by simp [JobsClaimed]⟩ guarded path
  exact fun c member => watched.spares (claimed (c, run) member) reaps

/-- A database whose last process stopped with its one run under way. -/
def leftRunning : Db :=
  (Db.empty.newRun 1 none 0).1.startRun 1 0 1 (artifactsDir 1) "token"

/-- The reaper's three looks around the hand-out of a second run. -/
def reapsAround : List Label :=
  pushed ++ [connects, .reaper 100000] ++ prepares 0 7 ++
    [offers 0, acks 0, .reaper 100000, .task 0 (.call 7), .reaper 100000]

theorem left_run_reaped : ∃ s, (machine someToken).run (.start leftRunning 0) reapsAround = some s ∧
    s.acked = [(0, 2)] ∧ s.reaper.next? = some 1 ∧ ∀ c, (c, 1) ∉ s.acked := by
  have oneProcess : Label.restart ∉ reapsAround := by
    simp [reapsAround, pushed, connects, prepares, offers, acks]
  exact ⟨_, rfl, rfl, rfl, reaper_spares_own_jobs someToken leftRunning 0 _ _ oneProcess rfl rfl⟩

end BuildOTron.Driver
