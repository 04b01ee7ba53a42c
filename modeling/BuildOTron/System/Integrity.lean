import BuildOTron.Ctl.Command
import BuildOTron.Driver.Lookups
import BuildOTron.Web.RepoIndex
import BuildOTron.WebServer.PushLookups

/-! The programs around one database: the driver, the web server's push handlers and
`ci-ctl`. None of the tables declares a foreign key; rows name rows that are there as
long as whoever reruns a job names one that is. -/
namespace BuildOTron.System
open Transition

structure State where
  driver : Driver.State
  poisoned : Bool
  handlers : List WebServer.Handler

inductive Label where
  | ctl (command : Ctl.Command) (env : Ctl.Environment)
  | push (event : WebServer.PushEvent)
  | web (label : WebServer.PushLabel)
  | restartWeb
  | driver (label : Driver.Label)

namespace State

/-- Empty tables, and every program freshly started. -/
def start : State := ⟨.start .empty 0, false, []⟩

abbrev db (s : State) : Db := s.driver.db

def withDb (s : State) (db : Db) : State := { s with driver := { s.driver with db := db } }

def webServer (s : State) : WebServer.PushState := ⟨s.db, s.poisoned, s.handlers⟩

def withWebServer (s : State) (t : WebServer.PushState) : State :=
  ⟨{ s.driver with db := t.db }, t.poisoned, t.handlers⟩

end State

/-- What the driver's machine has others write, they write here themselves. -/
def machine (tokenForJob : Nat → String) : Machine State Label where
  step s
    | .ctl command env => some (s.withDb (Ctl.execute env command s.db).2)
    | .push event => some { s with handlers := s.handlers ++ [⟨event, .remoteLookup⟩] }
    | .web label => (WebServer.pushMachine.step s.webServer label).map s.withWebServer
    | .restartWeb => some { s with poisoned := false, handlers := [] }
    | .driver (.outside _) => none
    | .driver label =>
      ((Driver.machine tokenForJob).step s.driver label).map fun driver => { s with driver := driver }

/-- A rerun names a job that is there. -/
def NamesJob (s : State) : Label → Prop
  | .ctl command _ => ∀ jobId, command.reruns s.db = some jobId → (s.db.jobs.get? jobId).isSome
  | _ => True

/-- Rows name rows that are there; the index page is built, every queued run's job is
found, and no lookup by id of a client's task panics. -/
structure Sound (s : State) : Prop where
  integral : s.db.Integral
  index : ∃ index, Web.buildRepoIndex s.db = .ok index
  queues : ∀ hostId, ∀ run ∈ s.db.getPendingRuns hostId, ∃ job, s.db.jobById run.jobId = some job
  lookups : ∀ c task now db next, s.driver.tasks c = some task → task.phase.looksUp = true →
    Driver.taskStep task.client s.db task.phase (.call now) = some (db, next) → next ≠ .panicked

/-- What a sound state rests on: also the programs hold only what is there. -/
structure Intact (s : State) : Prop where
  integral : s.db.Integral
  tasks : Driver.TasksGrounded s.driver
  handlers : WebServer.HandlersGrounded s.db s.handlers

theorem start_intact : Intact .start :=
  ⟨Db.empty_integral, fun _ _ found => by contradiction, fun _ member => by contradiction⟩

theorem Intact.sound (intact : Intact s) : Sound s where
  integral := intact.integral
  index := Web.buildRepoIndex_ok intact.integral
  queues hostId run queued := by
    rw [← Option.isSome_iff_exists, Db.jobById_known]
    exact intact.integral.pending queued
  lookups c task now db next found looks stepped :=
    (intact.tasks c task found).lookup looks stepped

theorem Intact.withDb (intact : Intact s) (upholds : s.db.Upholds db) : Intact (s.withDb db) where
  integral := upholds.integral intact.integral
  tasks c task found := (intact.tasks c task found).mono upholds
  handlers handler member := (intact.handlers handler member).mono upholds

/-- A step of the driver is one of its own machine's, and no other program's. -/
theorem step_driver (stepped : (machine tokenForJob).step s (.driver label) = some t) :
    ∃ driver, (Driver.machine tokenForJob).step s.driver label = some driver ∧
      (∀ write, label ≠ .outside write) ∧ t = { s with driver := driver } := by
  have own : ∀ write, label ≠ .outside write := by
    rintro write rfl
    contradiction
  have mapped : ((Driver.machine tokenForJob).step s.driver label).map
      (fun driver => { s with driver := driver }) = some t := by
    cases label with
    | outside write => exact absurd rfl (own write)
    | _ => exact stepped
  obtain ⟨driver, moved, rfl⟩ := Option.map_eq_some_iff.mp mapped
  exact ⟨driver, moved, own, rfl⟩

theorem step_intact (tokenForJob : Nat → String) (s : State) (l : Label) (t : State)
    (intact : Intact s) (named : NamesJob s l) (stepped : (machine tokenForJob).step s l = some t) :
    Intact t := by
  cases l with
  | ctl command env =>
    cases stepped
    exact intact.withDb (Ctl.execute_upholds command env s.db named)
  | push event =>
    cases stepped
    refine ⟨intact.integral, intact.tasks, ?_⟩
    intro handler member
    rcases List.mem_append.mp member with old | new
    · exact intact.handlers handler old
    · cases List.mem_singleton.mp new
      exact WebServer.grounded_free rfl rfl rfl
  | web label =>
    obtain ⟨server, moved, rfl⟩ := Option.map_eq_some_iff.mp stepped
    have held : WebServer.HandlersGrounded s.webServer.db s.webServer.handlers := intact.handlers
    obtain ⟨upholds, handlers⟩ := WebServer.push_upholds held moved
    exact ⟨upholds.integral intact.integral,
      fun c task found => (intact.tasks c task found).mono upholds, handlers⟩
  | restartWeb =>
    cases stepped
    exact ⟨intact.integral, intact.tasks, fun _ member => by contradiction⟩
  | driver label =>
    obtain ⟨driver, moved, own, rfl⟩ := step_driver stepped
    obtain ⟨upholds, tasks⟩ := Driver.step_upholds intact.integral intact.tasks own moved
    exact ⟨upholds.integral intact.integral, tasks,
      fun handler member => (intact.handlers handler member).mono upholds⟩

/-- A rerun of a job that is not there leaves a run that names nothing. -/
theorem unnamed_dangles (tokenForJob : Nat → String) (s : State) (l : Label)
    (unnamed : ¬ NamesJob s l) :
    ∃ t, (machine tokenForJob).step s l = some t ∧ ¬ t.db.Integral := by
  cases l with
  | ctl command env =>
    simp only [NamesJob, not_forall] at unnamed
    obtain ⟨jobId, reruns, missing⟩ := unnamed
    refine ⟨_, rfl, ?_⟩
    show ¬ (Ctl.execute env command s.db).2.Integral
    rw [Ctl.execute_reruns command env s.db reruns]
    exact Db.newRun_dangles (Option.not_isSome_iff_eq_none.mp missing) _ _
  | push | web | restartWeb | driver => exact absurd trivial unnamed

/-- All programs together: every state of a run is sound exactly when every rerun in
it names a job that is there at the time. -/
theorem sound_iff_reruns_name_jobs (tokenForJob : Nat → String) (labels : List Label) :
    (machine tokenForJob).Guarded NamesJob .start labels ↔
      (machine tokenForJob).Throughout Sound .start labels := by
  have free : (machine tokenForJob).Guarded (fun _ _ => True) .start labels :=
    Machine.guarded_of_forall fun _ _ _ => trivial
  refine Machine.guarded_iff_throughout (fun s l t intact _ => step_intact tokenForJob s l t intact)
    (fun _ => Intact.sound) ?_ start_intact free
  intro s l _ _ unnamed
  obtain ⟨t, stepped, dangling⟩ := unnamed_dangles tokenForJob s l unnamed
  exact ⟨t, stepped, fun sound => dangling sound.integral⟩

/-- `ci-ctl job rerun 5` on a database without jobs. -/
theorem rerun_of_nothing_dangles : ¬ ∀ (tokenForJob : Nat → String) (labels : List Label) (s : State),
    (machine tokenForJob).run .start labels = some s → Sound s := by
  intro claim
  have sound := claim Driver.someToken [.ctl (.rerun 5) ⟨"./config", fun _ => .unreadable "", 0, 0⟩] _ rfl
  exact Db.newRun_dangles rfl _ _ sound.integral

end BuildOTron.System
