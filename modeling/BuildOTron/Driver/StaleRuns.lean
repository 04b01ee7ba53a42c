import BuildOTron.Driver.Reaper

/-! One pass of `old_task_reaper` while nothing else steps. The scan of `ACTIVE_TASKS`
takes its keys for the runs that are under way and never asks a witness, so a run whose
`ClientJob` is gone is spared for as long as its entry stands. -/
namespace BuildOTron.Driver
open Transition

/-- What the scan does not look at: the `ClientJob` that the entry's witness came from
is still with its task. -/
def WitnessAlive (s : State) (entry : Nat × Nat) : Prop :=
  ∃ task, s.tasks entry.2 = some task ∧ task.phase.acked? = some entry.1

def HasClientJob (s : State) (run : Nat) : Prop :=
  ∃ entry ∈ s.activeTasks, entry.1 = run ∧ WitnessAlive s entry

/-- Someone should be running it, for more than the grace period. -/
def Expired (now : Nat) (row : RunRow) : Prop :=
  row.state = .started ∧ ∀ startTime, row.startedTime = some startTime → startTime < now - 60000

/-- The stale runs are `Invalid`, and nothing else has changed. -/
structure ReapsStale (s : State) (now : Nat) (t : State) : Prop where
  reaped : ∀ run row, s.db.runs.get? run = some row → Expired now row → ¬ HasClientJob s run →
    t.db.runs.get? run = some (reapedRow row)
  spared : ∀ run row, s.db.runs.get? run = some row → ¬ Expired now row ∨ HasClientJob s run →
    t.db.runs.get? run = some row
  absent : ∀ run, s.db.runs.get? run = none → t.db.runs.get? run = none
  rest : t = { s with db := { s.db with runs := t.db.runs }, reaper := t.reaper }

/-- It has come to its end, or upon a poisoned lock. -/
def ReaperEnded (s : State) : Prop := s.reaper = .done ∨ s.poisoned = true ∧ s.reaper.locks = true

/-- A pass of the reaper, from its first query to its end. -/
def ReaperPass (tokenForJob : Nat → String) (s : State) (now : Nat) (t : State) : Prop :=
  (machine tokenForJob).Until (.reaper now) ReaperEnded s t

/-! ### What a pass computes -/

def reapAll (db : Db) (stale : List Run) : Db := stale.foldl (fun db task => db.reapTask task.id) db

def reaperPass (s : State) (now : Nat) : State :=
  let stale := (dropActive s.activeTasks s.db.getActiveRuns).filter (isStale (now - 60000))
  { s with db := reapAll s.db stale, reaper := .done }

variable {s t : State} {now : Nat}

theorem reapAll_runs (db : Db) (stale : List Run) (run : Nat) :
    (reapAll db stale).runs.get? run =
      if run ∈ stale.map Run.id then (db.runs.get? run).map reapedRow else db.runs.get? run := by
  induction stale generalizing db with
  | nil => rfl
  | cons task rest ih =>
    rw [reapAll, List.foldl_cons, ← reapAll, ih, Db.reapTask, Table.get?_update]
    by_cases here : run = task.id
    · by_cases later : run ∈ rest.map Run.id
      · rw [if_pos later, if_pos here, if_pos (by simp [here]), Option.map_map]
        rfl
      · rw [if_neg later, if_pos here, if_pos (by simp [here])]
        rfl
    · simp [here]

theorem reapAll_rest (db : Db) (stale : List Run) :
    reapAll db stale = { db with runs := (reapAll db stale).runs } := by
  induction stale generalizing db with
  | nil => rfl
  | cons task rest ih =>
    rw [reapAll, List.foldl_cons, ← reapAll, ih]
    rfl

/-- A step of the reaper's is one of the driver's, on a sound lock. -/
theorem healthy_step (tokenForJob : Nat → String) (healthy : s.poisoned = false)
    (stepped : reaperStep s.db s.activeTasks now s.reaper = some (db, reaper)) :
    (machine tokenForJob).step s (.reaper now) = some { s with db := db, reaper := reaper } :=
  reaper_steps (by rw [healthy, Bool.false_and]) stepped

theorem not_ended (healthy : s.poisoned = false) (more : s.reaper ≠ .done) : ¬ ReaperEnded s := by
  simp [ReaperEnded, healthy, more]

theorem reaping_pass (tokenForJob : Nat → String) (healthy : s.poisoned = false)
    (reaping : s.reaper = .reaping stale) :
    ReaperPass tokenForJob s now { s with db := reapAll s.db stale, reaper := .done } := by
  have more : ¬ ReaperEnded s := not_ended healthy (by simp [reaping])
  induction stale generalizing s with
  | nil =>
    exact .step more (healthy_step tokenForJob healthy (by rw [reaping]; rfl)) (.here (.inl rfl))
  | cons task rest ih =>
    have next : (machine tokenForJob).step s (.reaper now) =
        some { s with db := s.db.reapTask task.id, reaper := .reaping rest } :=
      healthy_step tokenForJob healthy (by rw [reaping]; rfl)
    exact .step more next (ih healthy rfl (not_ended healthy (by simp)))

theorem pass_ends (tokenForJob : Nat → String) (healthy : s.poisoned = false)
    (start : s.reaper = .start) (late : 60000 ≤ now) :
    ReaperPass tokenForJob s now (reaperPass s now) := by
  have threshold : (checkedSub now 60000 : Outcome String Nat) = .ok (now - 60000) := by
    rw [checkedSub, if_pos late]
  have query : (machine tokenForJob).step s (.reaper now) =
      some { s with reaper := .activeRuns s.db.getActiveRuns } :=
    healthy_step tokenForJob healthy (by rw [start]; rfl)
  let scanned := dropActive s.activeTasks s.db.getActiveRuns
  let stale := scanned.filter (isStale (now - 60000))
  have filters : (machine tokenForJob).step { s with reaper := .unclaimed scanned } (.reaper now) =
      some { s with reaper := .reaping stale } :=
    healthy_step (s := { s with reaper := .unclaimed scanned }) tokenForJob healthy
      (by rw [reaperStep, threshold])
  have reaps : ReaperPass tokenForJob { s with reaper := .reaping stale } now (reaperPass s now) :=
    reaping_pass (s := { s with reaper := .reaping stale }) tokenForJob healthy rfl
  have scans : (machine tokenForJob).step { s with reaper := .activeRuns s.db.getActiveRuns } (.reaper now) =
      some { s with reaper := .unclaimed scanned } :=
    healthy_step (s := { s with reaper := .activeRuns s.db.getActiveRuns }) tokenForJob healthy rfl
  refine .step (not_ended healthy (by simp [start])) query ?_
  exact .step (not_ended healthy (by simp)) scans (.step (not_ended healthy (by simp)) filters reaps)

/-- On a poisoned lock the first query panics, and that was the pass. -/
theorem pass_panics (tokenForJob : Nat → String) (poisoned : s.poisoned = true)
    (start : s.reaper = .start) : ReaperPass tokenForJob s now s :=
  .here (.inr ⟨poisoned, by rw [start]; rfl⟩)

theorem isStale_iff (row : RunRow) (run : Nat) :
    isStale (now - 60000) (row.withId run) = true ↔ Expired now row := by
  unfold isStale Expired RunRow.withId
  cases row.state <;> cases row.startedTime <;> simp

theorem mem_scanned {task : Run} : task ∈ dropActive s.activeTasks s.db.getActiveRuns ↔
    task ∈ s.db.getActiveRuns ∧ ¬ Claimed s task.id := by
  rw [(dropActive_perm (getActiveRuns_distinct s.db) s.activeTasks).mem_iff, List.mem_filter,
    decide_eq_true_eq]
  rfl

/-- The runs a pass reaps are those that have no entry, whatever the entries' witnesses. -/
theorem mem_stale (run : Nat) :
    run ∈ ((dropActive s.activeTasks s.db.getActiveRuns).filter (isStale (now - 60000))).map Run.id ↔
      ∃ row, s.db.runs.get? run = some row ∧ Expired now row ∧ ¬ Claimed s run := by
  simp only [List.mem_map, List.mem_filter, mem_scanned, Db.mem_getActiveRuns]
  constructor
  · rintro ⟨task, ⟨⟨⟨row, found, _, same⟩, unclaimed⟩, stale⟩, rfl⟩
    rw [same] at stale
    exact ⟨row, found, (isStale_iff row _).mp stale, unclaimed⟩
  · rintro ⟨row, found, expired, unclaimed⟩
    refine ⟨row.withId run, ⟨⟨⟨row, found, .inl expired.1, rfl⟩, unclaimed⟩, ?_⟩, rfl⟩
    exact (isStale_iff row run).mpr expired

theorem reaperPass_reaps (found : s.db.runs.get? run = some row) (expired : Expired now row)
    (unclaimed : ¬ Claimed s run) : (reaperPass s now).db.runs.get? run = some (reapedRow row) := by
  simp only [reaperPass, reapAll_runs]
  rw [if_pos ((mem_stale run).mpr ⟨row, found, expired, unclaimed⟩), found, Option.map_some]

theorem reaperPass_spares (found : s.db.runs.get? run = some row)
    (spared : ¬ Expired now row ∨ Claimed s run) : (reaperPass s now).db.runs.get? run = some row := by
  simp only [reaperPass, reapAll_runs]
  rw [if_neg, found]
  intro stale
  obtain ⟨_, found', expired, unclaimed⟩ := (mem_stale run).mp stale
  cases found.symm.trans found'
  exact spared.elim (· expired) unclaimed

theorem reaperPass_exact (s : State) (now : Nat) : ReapsStale s now (reaperPass s now) ↔
    ∀ run row, s.db.runs.get? run = some row → Expired now row → Claimed s run → HasClientJob s run := by
  constructor
  · intro reaps run row found expired claimed
    by_contra dropped
    have reaped := reaps.reaped run row found expired dropped
    rw [reaperPass_spares found (.inr claimed)] at reaped
    have state := congrArg RunRow.state (Option.some.inj reaped)
    rw [expired.1] at state
    contradiction
  · intro alive
    refine ⟨?_, ?_, ?_, ?_⟩
    · intro run row found expired none
      exact reaperPass_reaps found expired fun claimed => none (alive run row found expired claimed)
    · intro run row found spared
      refine reaperPass_spares found (spared.imp_right ?_)
      rintro ⟨entry, member, rfl, _⟩
      exact List.mem_map_of_mem member
    · intro run missing
      simp [reaperPass, reapAll_runs, missing]
    · exact congrArg (fun db => State.mk db s.poisoned s.tasks s.clients s.activeTasks .done s.acked)
        (reapAll_rest s.db _)

/-- A reaper that panics has reaped nothing, which is right when there was nothing to reap. -/
theorem panicked_exact (s : State) (now : Nat) : ReapsStale s now s ↔
    ∀ run row, s.db.runs.get? run = some row → Expired now row → HasClientJob s run := by
  constructor
  · intro reaps run row found expired
    by_contra dropped
    have reaped := reaps.reaped run row found expired dropped
    rw [found] at reaped
    have state := congrArg RunRow.state (Option.some.inj reaped)
    rw [expired.1] at state
    contradiction
  · intro alive
    refine ⟨fun run row found expired none => ?_, fun run row found _ => found, fun _ missing => missing, rfl⟩
    exact absurd (alive run row found expired) none

/-- For every runs table, every map with every pattern of witnesses and every clock from
60000 on: the reaper's pass comes to its end, and it has reaped the stale runs and nothing
else exactly when no expired run has an entry without a live witness and, on a poisoned
lock, none is without a live witness at all. -/
theorem reaps_stale_iff (tokenForJob : Nat → String) (s : State) (now : Nat)
    (start : s.reaper = .start) (late : 60000 ≤ now) :
    ∃ t, ReaperPass tokenForJob s now t ∧ (ReapsStale s now t ↔
      ∀ run row, s.db.runs.get? run = some row → Expired now row →
        Claimed s run ∨ s.poisoned = true → HasClientJob s run) := by
  cases lock : s.poisoned with
  | false =>
    refine ⟨_, pass_ends tokenForJob lock start late, ?_⟩
    simpa only [Bool.false_eq_true, or_false] using reaperPass_exact s now
  | true =>
    refine ⟨_, pass_panics tokenForJob lock start, ?_⟩
    simpa only [or_true, forall_const] using panicked_exact s now

theorem left_run_stale : ∃ t, ReaperPass someToken (.start leftRunning 0) 60001 t ∧
    ReapsStale (.start leftRunning 0) 60001 t := by
  obtain ⟨t, pass, exact⟩ := reaps_stale_iff someToken (.start leftRunning 0) 60001 rfl (by decide)
  refine ⟨t, pass, exact.mpr fun run row found expired unguarded => ?_⟩
  exact unguarded.elim (absurd · List.not_mem_nil) nofun

/-- A client that takes its run and then hangs up. -/
def hangsUp : List Label :=
  pushed ++ [connects] ++ prepares 0 0 ++ [offers 0, acks 0, .task 0 (.call 0), .task 0 (.recv .hangup)]

/-- Its `ClientJob` is gone, its entry is not: no pass reaps the run. -/
theorem dropped_witness_protects : ¬ ∀ (tokenForJob : Nat → String) (s : State) (now : Nat),
    s.reaper = .start → 60000 ≤ now → ∃ t, ReaperPass tokenForJob s now t ∧ ReapsStale s now t := by
  intro reaps
  obtain ⟨s, path, healthy, start, entries, gone, row, found, started, startTime⟩ : ∃ s,
      (machine someToken).run (.start .empty 0) hangsUp = some s ∧ s.poisoned = false ∧ s.reaper = .start ∧
      s.activeTasks = [(1, 0)] ∧ (s.tasks 0).map Task.phase = some (.returned none) ∧
      ∃ row, s.db.runs.get? 1 = some row ∧ row.state = .started ∧ row.startedTime = some 0 :=
    ⟨_, rfl, rfl, rfl, rfl, rfl, _, rfl, rfl, rfl⟩
  obtain ⟨t, pass, stale⟩ := reaps someToken s 60001 start (by decide)
  cases pass.unique (pass_ends someToken healthy start (by decide))
  have expired : Expired 60001 row := by simp [Expired, started, startTime]
  have claimed : Claimed s 1 := by simp [Claimed, entries]
  have dropped : ¬ HasClientJob s 1 := by
    rintro ⟨entry, member, _, task, held, acked⟩
    rw [entries, List.mem_singleton] at member
    rw [member] at held acked
    rw [held, Option.map_some, Option.some.injEq] at gone
    rw [gone] at acked
    contradiction
  have reaped := stale.reaped 1 row found expired dropped
  rw [reaperPass_spares found (.inr claimed)] at reaped
  have state := congrArg RunRow.state (Option.some.inj reaped)
  rw [started] at state
  contradiction

end BuildOTron.Driver
