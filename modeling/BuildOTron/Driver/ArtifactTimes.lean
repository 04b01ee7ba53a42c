import BuildOTron.Core.Hosts
import BuildOTron.Driver.ArtifactPosts
import BuildOTron.Driver.RunTimes

/-! The times of an artifact. `handle_artifact` reserves its row and spawns the task that
stores the body; the task finalizes the row if it gets that far. An artifact is no older
than the run it is for, and its end is no earlier than its beginning. -/
namespace BuildOTron.Driver
open Transition

namespace Storing

structure State where
  driver : Driver.State
  /-- artifacts whose body is being stored -/
  storing : List Nat

inductive Label where
  | driver (l : Driver.Label)
  /-- `store_all` has returned, and `finalize_artifact` is called -/
  | finalize (artifact now : Nat)
  /-- `store_all` has failed, which its task does not survive -/
  | abandon (artifact : Nat)

def State.start (db : Db) (clients : Nat) : State := ⟨.start db clients, []⟩

/-- A post that is answered OK has its body stored; no task outlives the process. -/
def State.after (s : State) : Driver.Label → List Nat
  | .post post now fileCreated =>
    match (answerPost s.driver.poisoned s.driver.db post now fileCreated).2 with
    | .ok () => (s.driver.db.artifacts.seq + 1) :: s.storing
    | _ => s.storing
  | .restart => []
  | _ => s.storing

def machine (tokenForJob : Nat → String) : Machine State Label where
  step s
    | .driver l => do
      let driver ← (Driver.machine tokenForJob).step s.driver l
      return ⟨driver, s.after l⟩
    | .finalize artifact now =>
      if artifact ∈ s.storing then
        some ⟨{ s.driver with db := finalizeArtifact s.driver.poisoned s.driver.db artifact now },
          s.storing.erase artifact⟩
      else none
    | .abandon artifact =>
      if artifact ∈ s.storing then some ⟨s.driver, s.storing.erase artifact⟩ else none

/-- The server clock, with what posts and finalized artifacts are stamped with. -/
def Label.reading : Label → Option Nat
  | .driver (.post _ now _) => some now
  | .driver l => l.reading
  | .finalize _ now => some now
  | .abandon _ => none

def ActivatesOnce (s : State) : Label → Prop
  | .driver l => Driver.ActivatesOnce s.driver l
  | _ => True

instance (s : State) : (l : Label) → Decidable (ActivatesOnce s l)
  | .driver l => inferInstanceAs (Decidable (Driver.ActivatesOnce s.driver l))
  | .finalize _ _ | .abandon _ => inferInstanceAs (Decidable True)

inductive Moves (tokenForJob : Nat → String) (s : State) : Label → State → Prop where
  | driver (stepped : (Driver.machine tokenForJob).step s.driver l = some driver) :
    Moves tokenForJob s (.driver l) ⟨driver, s.after l⟩
  | finalize : Moves tokenForJob s (.finalize artifact now)
      ⟨{ s.driver with db := finalizeArtifact s.driver.poisoned s.driver.db artifact now },
        s.storing.erase artifact⟩
  | abandon : Moves tokenForJob s (.abandon artifact) ⟨s.driver, s.storing.erase artifact⟩

theorem step_moves (stepped : (machine tokenForJob).step s l = some t) : Moves tokenForJob s l t := by
  cases l with
  | driver l =>
    obtain ⟨driver, moved, same⟩ := Option.bind_eq_some_iff.mp stepped
    cases same
    exact .driver moved
  | finalize artifact now =>
    simp only [machine, Option.ite_none_right_eq_some, Option.some.injEq] at stepped
    obtain ⟨_, rfl⟩ := stepped
    exact .finalize
  | abandon artifact =>
    simp only [machine, Option.ite_none_right_eq_some, Option.some.injEq] at stepped
    obtain ⟨_, rfl⟩ := stepped
    exact .abandon

end Storing

/-! ### The run and its hosts -/

theorem Timed.later {s : State} (timed : Timed clock s) (after : clock ≤ clock') : Timed clock' s where
  records := timed.records
  rows id row found := (timed.rows id row found).later after
  activations c task act found activation :=
    Nat.le_trans (timed.activations c task act found activation) after

/-- The hosts of runs and of clients are in the table. -/
structure Hosted (s : State) : Prop where
  runs : s.db.runs.MayReference RunRow.hostId s.db.hosts
  clients : ∀ c task, s.tasks c = some task → (s.db.hosts.get? task.client.hostId).isSome

theorem idForHost_extends (db : Db) (hostInfo : HostInfo) :
    db.hosts.Extends (db.idForHost hostInfo).1.hosts := by
  simp only [Db.idForHost]
  split
  · exact Table.extends_insert _ _
  · exact .refl _

theorem step_hosts {s : State} (stepped : (machine tokenForJob).step s l = some t) :
    s.db.hosts.Extends t.db.hosts := by
  cases l with
  | connect hostInfo accepted =>
    cases stepped
    obtain same | same := connect_db_cases tokenForJob s hostInfo accepted <;> rw [same]
    · exact .refl _
    · exact idForHost_extends s.db hostInfo
  | task c action =>
    obtain ⟨task, db, next, _, moves, rfl⟩ := step_task stepped
    rw [moveTask_db, moves_writes moves]
    exact .refl _
  | reaper now =>
    obtain ⟨db, reaper, moved, rfl⟩ := step_reaper stepped
    rw [reaperStep_writes moved]
    exact .refl _
  | post post now fileCreated =>
    cases stepped
    rw [answerPost_writes]
    exact .refl _
  | outside write =>
    cases stepped
    cases write with
    | newJob remoteId sha pusher runPreferences now =>
      obtain same | same := outside_newJob s.db remoteId sha pusher runPreferences now <;>
        rw [same] <;> exact .refl _
    | newRun | commitName | newRepo | newRemote => exact .refl _
  | restart =>
    cases stepped
    exact .refl _

theorem Hosted.connects {s : State} (hosted : Hosted s)
    (found : (s.connect tokenForJob hostInfo accepted).tasks c = some task) :
    ((s.connect tokenForJob hostInfo accepted).db.hosts.get? task.client.hostId).isSome := by
  have more := idForHost_extends s.db hostInfo
  have outcome := connect_connected tokenForJob s hostInfo accepted
  generalize s.connect tokenForJob hostInfo accepted = t at found outcome ⊢
  cases outcome with
  | refused => exact hosted.clients c task found
  | unknown => exact more _ (hosted.clients c task found)
  | queued _ _ host =>
    dsimp only at found ⊢
    rw [Function.update_apply] at found
    split at found
    · cases found
      exact Hosts.idForHost_known host
    · exact more _ (hosted.clients c task found)

theorem Hosted.step_runs {s : State} (hosted : Hosted s)
    (stepped : (machine tokenForJob).step s l = some t) :
    t.db.runs.MayReference RunRow.hostId t.db.hosts := by
  have more := step_hosts stepped
  intro id row' named found' names
  cases before : s.db.runs.get? id with
  | none =>
    obtain ⟨_, _, _, _, rfl⟩ := (step_runsWrite stepped).backward id row' found' before
    contradiction
  | some row =>
    obtain ⟨row'', found'', wrote⟩ := step_rowStep stepped before
    cases Option.some.inj (found''.symm.trans found')
    cases wrote with
    | activated held =>
      cases names
      exact more _ (hosted.clients _ _ held)
    | kept | recorded | reaped => exact more _ (hosted.runs id _ named before names)

theorem Hosted.step {s : State} (hosted : Hosted s) (stepped : (machine tokenForJob).step s l = some t) :
    Hosted t := by
  refine ⟨hosted.step_runs stepped, ?_⟩
  intro c task found
  have more := step_hosts stepped
  cases l with
  | connect hostInfo accepted =>
    cases stepped
    exact hosted.connects found
  | task c' action =>
    obtain ⟨task', db, next, held, _, rfl⟩ := step_task stepped
    have known := hosted.clients c' task' held
    obtain ⟨rfl, rfl⟩ | ⟨_, old⟩ := moveTask_cases found
    · exact more _ known
    · exact more _ (hosted.clients c task old)
  | reaper now =>
    obtain ⟨db, reaper, _, rfl⟩ := step_reaper stepped
    exact more _ (hosted.clients c task found)
  | post | outside =>
    cases stepped
    exact more _ (hosted.clients c task found)
  | restart =>
    cases stepped
    contradiction

theorem start_hosted (db : Db) (clients : Nat) : Hosted (.start { db with runs := .empty } clients) :=
  ⟨.empty _ _, fun _ _ found => by contradiction⟩

/-! ### Artifacts -/

/-- An artifact belongs to a run that had begun when it was reserved. -/
structure TimedArtifact (clock : Nat) (db : Db) (artifact : ArtifactRow) : Prop where
  created : artifact.createdTime ≤ clock
  completed : ∀ time ∈ artifact.completedTime, artifact.createdTime ≤ time
  run : ∃ row start, db.runs.get? artifact.runId = some row ∧ row.startedTime = some start ∧
    start ≤ artifact.createdTime

theorem acceptToken_started (accepted : acceptToken db token now = .ok run) :
    ∃ row start, db.runs.get? run = some row ∧ row.startedTime = some start := by
  unfold acceptToken Db.runForToken at accepted
  cases first : (db.runs.select fun row => row.buildToken = some token).head? with
  | none => simp [first] at accepted
  | some entry =>
    obtain ⟨id, row⟩ := entry
    cases started : row.startedTime with
    | none => simp [first, started] at accepted
    | some start =>
      simp only [first, started] at accepted
      split at accepted
      · rename_i known
        obtain ⟨rfl, _⟩ := Prod.mk.inj (Option.some.inj known)
        cases accepted
        exact ⟨row, start, Table.get?_of_head?_select first, started⟩
      · contradiction

theorem checkPost_started (checked : checkPost db post now = .ok (run, name, desc)) :
    ∃ row start, db.runs.get? run = some row ∧ row.startedTime = some start := by
  obtain ⟨token, _, later⟩ := Outcome.bind_eq_ok.mp checked
  obtain ⟨id, accepted, later⟩ := Outcome.bind_eq_ok.mp later
  obtain ⟨_, _, later⟩ := Outcome.bind_eq_ok.mp later
  obtain ⟨_, _, same⟩ := Outcome.bind_eq_ok.mp later
  cases same
  exact acceptToken_started accepted

/-- What a post leaves in the table was there, or is a new row of a run that has begun. -/
theorem handleArtifact_cases {id : Nat}
    (found : (handleArtifact db post now fileCreated).1.artifacts.get? id = some artifact) :
    db.artifacts.get? id = some artifact ∨ (artifact.createdTime = now ∧ artifact.completedTime = none ∧
      ∃ row start, db.runs.get? artifact.runId = some row ∧ row.startedTime = some start) := by
  unfold handleArtifact at found
  split at found
  · rename_i checked
    dsimp only [Db.insertArtifact] at found
    rw [Table.get?_insert] at found
    split at found
    · cases found
      exact .inr ⟨rfl, rfl, checkPost_started checked⟩
    · exact .inl found
  · exact .inl found
  · exact .inl found

theorem answerPost_cases {id : Nat}
    (found : (answerPost poisoned db post now fileCreated).1.artifacts.get? id = some artifact) :
    db.artifacts.get? id = some artifact ∨ (artifact.createdTime = now ∧ artifact.completedTime = none ∧
      ∃ row start, db.runs.get? artifact.runId = some row ∧ row.startedTime = some start) := by
  obtain same | same := answerPost_db poisoned db post now fileCreated
  · exact .inl (same ▸ found)
  · exact handleArtifact_cases (same ▸ found)

section
variable {db db' : Db} {artifact : ArtifactRow}

/-- An artifact stays in time as long as no run loses its start. -/
theorem TimedArtifact.mono (timed : TimedArtifact clock db artifact) (after : clock ≤ clock')
    (starts : ∀ run row start, db.runs.get? run = some row → row.startedTime = some start →
      ∃ row', db'.runs.get? run = some row' ∧ row'.startedTime = some start) :
    TimedArtifact clock' db' artifact := by
  obtain ⟨row, start, found, started, before⟩ := timed.run
  obtain ⟨row', found', started'⟩ := starts _ row start found started
  exact ⟨Nat.le_trans timed.created after, timed.completed, row', start, found', started', before⟩

theorem TimedArtifact.finalized (timed : TimedArtifact clock db artifact) (after : clock ≤ now) :
    TimedArtifact clock db { artifact with completedTime := some now } := by
  refine ⟨timed.created, ?_, timed.run⟩
  rintro _ ⟨⟩
  exact Nat.le_trans timed.created after

end

/-- Under one activation each, what has started goes on having started then. -/
theorem step_started {s : State} (once : ActivatesOnce s l)
    (stepped : (machine tokenForJob).step s l = some t) (found : s.db.runs.get? run = some row)
    (started : row.startedTime = some start) :
    ∃ row', t.db.runs.get? run = some row' ∧ row'.startedTime = some start := by
  obtain ⟨row', found', wrote⟩ := step_rowStep stepped found
  refine ⟨row', found', ?_⟩
  cases wrote with
  | @activated _ _ _ _ held acked same =>
    subst same
    have fresh := once _ (by simp [activates?, held, acked, Phase.activates?]) row found
    rw [started] at fresh
    contradiction
  | kept | recorded | reaped => exact started

namespace Storing

structure Timed (clock : Nat) (s : State) : Prop where
  driver : Driver.Timed clock s.driver
  hosted : Hosted s.driver
  artifacts : ∀ id artifact, s.driver.db.artifacts.get? id = some artifact →
    TimedArtifact clock s.driver.db artifact

theorem Timed.posted {s : State} {driver : Driver.State} (timed : Timed clock s) (after : clock ≤ now)
    (stepped : (Driver.machine tokenForJob).step s.driver (.post post now fileCreated) = some driver) :
    ∀ id artifact, driver.db.artifacts.get? id = some artifact → TimedArtifact now driver.db artifact := by
  cases stepped
  intro id artifact found
  have runs := answerPost_runs s.driver.poisoned s.driver.db post now fileCreated
  obtain old | ⟨created, unfinished, row, start, held, started⟩ := answerPost_cases found
  · refine (timed.artifacts id artifact old).mono after ?_
    rw [runs]
    exact fun run row start found started => ⟨row, found, started⟩
  · have begun := (timed.driver.rows _ row held).started start started
    refine ⟨by omega, by simp [unfinished], row, start, ?_, started, by omega⟩
    rw [runs]
    exact held

theorem Timed.step {s t : State} (timed : Timed clock s) (once : ActivatesOnce s l)
    (after : ∀ now ∈ l.reading, clock ≤ now) (stepped : (machine tokenForJob).step s l = some t) :
    Timed (l.reading.getD clock) t := by
  cases step_moves stepped with
  | @driver l driver moved =>
    have hosted := timed.hosted.step moved
    by_cases posts : ∃ post now fileCreated, l = .post post now fileCreated
    · obtain ⟨post, now, fileCreated, rfl⟩ := posts
      have later : clock ≤ now := after now rfl
      have silent : ∀ now ∈ (Driver.Label.post post now fileCreated).reading, clock ≤ now := by
        simp [Driver.Label.reading]
      have next := (timed.driver.step once silent moved).later later
      exact ⟨next, hosted, timed.posted later moved⟩
    · have reading : (Label.driver l).reading = l.reading := by
        cases l with
        | post => exact absurd ⟨_, _, _, rfl⟩ posts
        | _ => rfl
      rw [reading] at after ⊢
      refine ⟨timed.driver.step once after moved, hosted, ?_⟩
      intro id artifact found
      rw [step_artifacts moved (by rintro _ _ _ rfl; exact posts ⟨_, _, _, rfl⟩)] at found
      exact (timed.artifacts id artifact found).mono (le_reading after)
        fun _ _ _ => step_started once moved
  | @finalize artifact now =>
    have later : clock ≤ now := after now rfl
    obtain same | same := finalizeArtifact_db s.driver.poisoned s.driver.db artifact now <;> rw [same]
    · exact ⟨timed.driver.later later, timed.hosted, fun id row found =>
        (timed.artifacts id row found).mono later fun _ row _ found started => ⟨row, found, started⟩⟩
    refine ⟨?_, ⟨timed.hosted.runs, timed.hosted.clients⟩, ?_⟩
    · have next := timed.driver.later later
      have records := next.records
      have known : Known { s.driver with db := s.driver.db.finalizeArtifact artifact now } :=
        ⟨records.known.clients, records.known.tasks, records.known.acked⟩
      exact ⟨⟨known, records.rows, records.jobs, ⟨records.reaper.started, records.reaper.reaping⟩⟩,
        next.rows, next.activations⟩
    · intro id row found
      dsimp only [Db.finalizeArtifact] at found
      rw [Table.get?_update] at found
      split at found
      · obtain ⟨old, held, rfl⟩ := Option.map_eq_some_iff.mp found
        have before := timed.artifacts id old held
        exact (before.finalized later).mono later fun _ row _ found started => ⟨row, found, started⟩
      · exact (timed.artifacts id row found).mono later fun _ row _ found started => ⟨row, found, started⟩
  | abandon => exact ⟨timed.driver, timed.hosted, timed.artifacts⟩

theorem start_timed (db : Db) (clients : Nat) :
    Timed 0 (.start { db with runs := .empty, artifacts := .empty } clients) := by
  refine ⟨Driver.start_timed { db with artifacts := .empty } clients,
    start_hosted { db with artifacts := .empty } clients, ?_⟩
  intro id artifact found
  simp [State.start, Driver.State.start] at found

theorem run_timed (tokenForJob : Nat → String) (db : Db) (clients : Nat) (labels : List Label) (s : State)
    (once : (machine tokenForJob).Guarded ActivatesOnce
      (.start { db with runs := .empty, artifacts := .empty } clients) labels)
    (inOrder : (labels.filterMap Label.reading).Pairwise (· ≤ ·))
    (path : (machine tokenForJob).run
      (.start { db with runs := .empty, artifacts := .empty } clients) labels = some s) :
    ∃ latest, Timed latest s := by
  refine Machine.guarded_clocked (fun _ _ _ _ timed guard after => timed.step guard after)
    (start_timed db clients) once ?_ path
  exact List.pairwise_cons.mpr ⟨fun _ _ => Nat.zero_le _, inOrder⟩

end Storing
end BuildOTron.Driver
