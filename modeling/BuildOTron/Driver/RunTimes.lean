import BuildOTron.Driver.RunRecords

/-! The times of a run. Its start is read before it is offered and written once it is
taken; its end is read when it is written. A server clock that does not go back puts the
two in order. -/
namespace BuildOTron.Driver
open Transition

/-- The server clock, at the calls that may look at it. -/
def Action.reading : Action → Option Nat
  | .call now => some now
  | _ => none

def Label.reading : Label → Option Nat
  | .task _ action => action.reading
  | _ => none

def Phase.activates? : Phase → Option Nat
  | .started offer => some offer.run.id
  | _ => none

/-- The run that a step activates. -/
def activates? (s : State) : Label → Option Nat
  | .task c (.call _) => (s.tasks c).bind fun task => task.phase.activates?
  | _ => none

/-- `started_time` is what an activation leaves in a row, and nothing clears it. -/
def ActivatesOnce (s : State) (l : Label) : Prop :=
  ∀ run ∈ activates? s l, ∀ row ∈ s.db.runs.get? run, row.startedTime = none

instance (s : State) (l : Label) : Decidable (ActivatesOnce s l) :=
  inferInstanceAs (Decidable (∀ run ∈ activates? s l, ∀ row ∈ s.db.runs.get? run, row.startedTime = none))

/-- What the times of a row say by the time the clock shows `clock`. -/
structure TimedRow (clock : Nat) (row : RunRow) : Prop where
  started : ∀ start ∈ row.startedTime, start ≤ clock
  completed : ∀ start ∈ row.startedTime, ∀ complete ∈ row.completeTime, start ≤ complete
  unstarted : row.startedTime = none → row.completeTime = none
  ongoing : row.state = .started → row.completeTime = none

namespace TimedRow

theorem later (timed : TimedRow clock row) (after : clock ≤ clock') : TimedRow clock' row :=
  { timed with started := fun start held => Nat.le_trans (timed.started start held) after }

theorem pendingRow (clock jobId : Nat) (pref : Option Nat) (now : Nat) :
    TimedRow clock (Db.pendingRow jobId pref now) :=
  ⟨nofun, nofun, fun _ => rfl, nofun⟩

theorem activated (timed : TimedRow clock row) (fresh : row.startedTime = none)
    (read : offer.now ≤ clock) (client : RunnerClient) :
    TimedRow clock (startedRow row client offer) := by
  have unended : (startedRow row client offer).completeTime = none := timed.unstarted fresh
  refine ⟨?_, ?_, nofun, fun _ => unended⟩
  · rintro _ ⟨⟩
    exact read
  · intro start _ complete ended
    rw [unended] at ended
    contradiction

theorem recorded (timed : TimedRow clock row) (assigned : Assigned row) (after : clock ≤ now)
    (info : TaskInfo) : TimedRow now (recordedRow row now info) := by
  have within : ∀ start ∈ row.startedTime, start ≤ now := fun start held =>
    Nat.le_trans (timed.started start held) after
  refine ⟨within, ?_, ?_, ?_⟩
  · rintro start held _ ⟨⟩
    exact within start held
  · intro unstarted
    have started := assigned.started
    rw [show row.startedTime = none from unstarted] at started
    contradiction
  · intro state
    obtain ⟨ends, _⟩ | ⟨ends, _⟩ := taskResult_agrees info <;> simp [recordedRow, ends] at state

theorem reaped (timed : TimedRow clock row) : TimedRow clock (reapedRow row) :=
  ⟨timed.started, timed.completed, timed.unstarted, nofun⟩

end TimedRow

/-- What `activate_run` has read at its beginning. -/
def Phase.activation? : Phase → Option Activation
  | .haveRemote act _ | .haveRepo act _ | .haveSha act _ _ => some act
  | .submit offer | .awaitStarted offer | .started offer => some offer.toActivation
  | _ => none

theorem moves_activation (moves : Moves client db phase action db' next)
    (activation : next.activation? = some act) :
    phase.activation? = some act ∨ action = .call act.now := by
  cases moves with
  | ends ended => cases next <;> simp_all [Phase.isOver, Phase.activation?]
  | reads within => cases next <;> simp_all [Phase.job?, Phase.activation?]
  | remoteById =>
    cases activation
    exact .inr rfl
  | repoById | commitSha | reserves | offers | acked => exact .inl activation
  | _ => simp [Phase.activation?] at activation

structure Timed (clock : Nat) (s : State) : Prop where
  records : Records s
  rows : ∀ id row, s.db.runs.get? id = some row → TimedRow clock row
  activations : ∀ c task act, s.tasks c = some task → task.phase.activation? = some act → act.now ≤ clock

section Step
variable {s : State}

theorem le_reading {reading : Option Nat} (after : ∀ now ∈ reading, clock ≤ now) : clock ≤ reading.getD clock := by
  cases reading with
  | none => exact Nat.le_refl _
  | some now => exact after now rfl

theorem Timed.rowStep (timed : Timed clock s) (once : ActivatesOnce s l)
    (after : ∀ now ∈ l.reading, clock ≤ now) (found : s.db.runs.get? run = some row)
    (wrote : RowStep s run row l row') : TimedRow (l.reading.getD clock) row' := by
  have now := (timed.rows run row found).later (le_reading after)
  cases wrote with
  | kept => exact now
  | @activated c task offer time held acked same =>
    subst same
    have fresh := once offer.run.id (by simp [activates?, held, acked, Phase.activates?]) row found
    have read := timed.activations c task offer.toActivation held (by rw [acked]; rfl)
    exact now.activated fresh (Nat.le_trans read (after time rfl)) task.client
  | @recorded c task job info time held reporting same =>
    subst same
    obtain ⟨row', found', assigned⟩ := timed.records.jobs c task held job.task.id (by rw [reporting]; rfl)
    cases Option.some.inj (found.symm.trans found')
    exact (timed.rows _ row found).recorded assigned (after time rfl) info
  | reaped => exact now.reaped

theorem Timed.step (timed : Timed clock s) (once : ActivatesOnce s l)
    (after : ∀ now ∈ l.reading, clock ≤ now) (stepped : (machine tokenForJob).step s l = some t) :
    Timed (l.reading.getD clock) t := by
  refine ⟨step_records timed.records stepped, ?_, ?_⟩
  · intro id row' found'
    cases before : s.db.runs.get? id with
    | none =>
      obtain ⟨_, jobId, pref, now, rfl⟩ := (step_runsWrite stepped).backward id row' found' before
      exact .pendingRow _ jobId pref now
    | some row =>
      obtain ⟨row'', found'', wrote⟩ := step_rowStep stepped before
      cases Option.some.inj (found''.symm.trans found')
      exact timed.rowStep once after before wrote
  · intro c task' act found activation
    have latest := le_reading after
    obtain ⟨_, _, fresh⟩ | ⟨old, _⟩ | ⟨task, action, held, rfl, _, moved⟩ := step_tasks stepped found
    · simp [fresh, Phase.activation?] at activation
    · exact Nat.le_trans (timed.activations c task' act old activation) latest
    · obtain before | rfl := moves_activation (attempt_moves moved) activation
      · exact Nat.le_trans (timed.activations c task act held before) latest
      · exact Nat.le_refl _

end Step

theorem start_timed (db : Db) (clients : Nat) : Timed 0 (.start { db with runs := .empty } clients) := by
  refine ⟨start_records db clients, ?_, by simp⟩
  intro id row found
  simp [State.start] at found

/-- Whatever else is written and whenever the driver is restarted: with one activation of
each run, under a clock that does not go back, every row's times are in order. -/
theorem run_times_timed (tokenForJob : Nat → String) (db : Db) (clients : Nat) (labels : List Label)
    (s : State)
    (once : (machine tokenForJob).Guarded ActivatesOnce (.start { db with runs := .empty } clients) labels)
    (inOrder : (labels.filterMap Label.reading).Pairwise (· ≤ ·))
    (path : (machine tokenForJob).run (.start { db with runs := .empty } clients) labels = some s) :
    ∃ latest, Timed latest s := by
  refine Machine.guarded_clocked (fun _ _ _ _ timed guard after => timed.step guard after)
    (start_timed db clients) once ?_ path
  exact List.pairwise_cons.mpr ⟨fun _ _ => Nat.zero_le _, inOrder⟩

end BuildOTron.Driver
