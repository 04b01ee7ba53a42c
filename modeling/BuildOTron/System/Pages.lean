import BuildOTron.System.Writes
import BuildOTron.Web.Pages

/-! The overview pages of a database that all programs write to. The pages ask more of a
commit's string and of a run's times than any of the writers checks. -/
namespace BuildOTron.System
open Transition Web

variable {r : Renderer} {db db' : Db}

/-- What a command is about to write can be shown. -/
def CommandShows (r : Renderer) (env : Ctl.Environment) : Ctl.Command → Prop
  | .create _ commit _ => Sliceable commit ∧ r.Formats env.runTime
  | .rerun _ | .rerunCommit _ => r.Formats env.runTime
  | .addRepo .. | .addRemote .. => True

/-- The same for the statement that a push handler has come to. -/
def PushShows (r : Renderer) (event : WebServer.PushEvent) (now : Nat) : WebServer.PushPhase → Prop
  | .newCommit .. => Sliceable event.tip
  | .newRun .. => r.Formats now
  | _ => True

/-- The same for a client's task. A run that is started gets the time its activation began. -/
def TaskShows (r : Renderer) (now : Nat) : Driver.Phase → Prop
  | .alternateRun _ => r.Formats now
  | .started offer => r.Reached offer.now
  | _ => True

/-- Commit strings and clock readings reach the database only when they can be shown. -/
def Showable (r : Renderer) (s : State) : Label → Prop
  | .ctl command env => CommandShows r env command
  | .web (.call i now) => ∀ handler, s.handlers[i]? = some handler →
      PushShows r handler.event now handler.phase
  | .driver (.task c (.call now)) => ∀ task, s.driver.tasks c = some task → TaskShows r now task.phase
  | _ => True

def showPolicy (r : Renderer) : Policy := ⟨Sliceable, fun _ _ now => r.Formats now, r.Reached⟩

theorem stays_rules (r : Renderer) : Rules (showPolicy r) (Stays r) where
  aside commits _ runs := stays_aside commits runs
  commit := newCommit_stays
  job _ _ _ _ _ _ := stays_aside rfl rfl
  run formats pref := newRun_stays formats _ pref _
  update db id _ kept started := updateRun_stays db id (fun row => (kept row).2) started

theorem CommandShows.admits (shows : CommandShows r env command) (db : Db) :
    (showPolicy r).AdmitsCommand env db command := by
  cases command with
  | create repo commit pusherEmail => exact ⟨shows.1, fun _ _ _ => shows.2⟩
  | rerun which => exact shows
  | rerunCommit commit => exact fun _ _ => shows
  | addRepo | addRemote => trivial

theorem PushShows.admits (shows : PushShows r event now phase) (db : Db) :
    (showPolicy r).AdmitsPush event db now phase := by
  cases phase <;> exact shows

theorem TaskShows.admits (shows : TaskShows r now phase) (db : Db) :
    (showPolicy r).AdmitsTask db now phase := by
  cases phase <;> exact shows

theorem Showable.admits {s : State} (shows : Showable r s l) : (showPolicy r).Admits s l := by
  cases l with
  | ctl command env => exact CommandShows.admits shows s.db
  | web label =>
    cases label with
    | call i now => exact fun handler found => (shows handler found).admits s.db
    | notify => trivial
  | driver label =>
    cases label with
    | task c action =>
      cases action with
      | call now => exact fun task found => (shows task found).admits s.db
      | _ => trivial
    | _ => trivial
  | push | restartWeb => trivial

theorem step_stays {s t : State} (shows : Showable r s l)
    (stepped : (machine tokenForJob).step s l = some t) : Stays r s.db t.db :=
  (stays_rules r).step_along shows.admits stepped

theorem start_displayable (r : Renderer) : Displayable r State.start.db :=
  ⟨fun _ _ found => by contradiction, fun _ _ found => by contradiction,
    fun _ _ _ found => by contradiction⟩

/-- For a database whose references are met and whose jobs all have runs, the pages render
exactly when every row they show can be; and they render after every run that writes only
what can be shown. -/
theorem overview_pages_iff (r : Renderer) :
    (∀ db : Db, db.Integral → EveryJobRuns db →
      (PagesRender r db ↔ ∀ job run, Shown db job run → RenderableRow r db job run)) ∧
    ∀ (tokenForJob : Nat → String) (labels : List Label) (s : State),
      (machine tokenForJob).Guarded (Showable r) .start labels →
      (machine tokenForJob).run .start labels = some s →
      s.db.Integral → EveryJobRuns s.db → PagesRender r s.db := by
  refine ⟨fun db integral runs => pages_render_iff integral runs, ?_⟩
  intro tokenForJob labels s guarded path integral runs
  have displayable : Displayable r s.db :=
    Machine.guarded_invariant (P := fun s => Displayable r s.db)
      (fun _ _ _ holds shows stepped => step_stays shows stepped holds)
      (start_displayable r) guarded path
  exact (pages_render_iff integral runs).mpr fun job run shown => displayable.shown shown

/-! A repo with one job, at one clock reading. -/

def someRenderer : Renderer :=
  ⟨fun time => if time = 864000000 then some "Sun, 11 Jan 1970 00:00:00 +0000" else none, true, 864000000⟩

def someEnvironment : Ctl.Environment :=
  ⟨"./config", fun _ => .config (.gitHub "token" "secret"), 864000000, 864000000⟩

/-- `ci-ctl add repo`, then `ci-ctl job create`. -/
def created (commit : String) : List Label :=
  [.ctl (.addRepo "zoo" (some "owner/zoo") (some "github") (some "zoo.json")) someEnvironment,
   .ctl (.create "github:owner/zoo" commit "keeper@zoo") someEnvironment]

def createdDb (commit : String) : Db :=
  { Db.empty with
    repos := Table.insert .empty ⟨"zoo", none⟩
    remotes := Table.insert .empty ⟨1, "owner/zoo", "github", "https://www.github.com/owner/zoo",
      "https://www.github.com/owner/zoo.git", "zoo.json"⟩
    commits := Table.insert .empty commit
    jobs := Table.insert .empty ⟨some "keeper@zoo", 864000000, 1, 1, none⟩
    runs := Table.insert .empty (Db.pendingRow 1 none 864000000) }

theorem created_run (tokenForJob : Nat → String) (commit : String) :
    (machine tokenForJob).run .start (created commit) = some (State.start.withDb (createdDb commit)) := rfl

theorem createdDb_integral (commit : String) : (createdDb commit).Integral := by
  have named : (machine Driver.someToken).Guarded NamesJob .start (created commit) := by
    refine Machine.guarded_of_forall fun l member s => ?_
    simp only [created, List.mem_cons, List.not_mem_nil, or_false] at member
    rcases member with rfl | rfl <;> exact fun _ reruns => by contradiction
  have intact : Intact (State.start.withDb (createdDb commit)) :=
    Machine.guarded_invariant (step_intact Driver.someToken) start_intact named (created_run _ commit)
  exact intact.integral

theorem createdDb_jobs_run (commit : String) : EveryJobRuns (createdDb commit) := by
  intro id job found
  have inserted : (Table.insert .empty _).get? id = some job := found
  rw [Table.get?_insert] at inserted
  split at inserted
  · rename_i first
    exact ⟨1, _, rfl, first.symm⟩
  · contradiction

/-- The job is on the index, with its run. -/
theorem createdDb_shown (commit : String) : Shown (createdDb commit)
    ((⟨some "keeper@zoo", 864000000, 1, 1, none⟩ : JobRow).withId 1)
    ((Db.pendingRow 1 none 864000000).withId 1) := by
  have listed : ⟨1, "zoo", none⟩ ∈ (createdDb commit).getRepos := List.mem_singleton.mpr rfl
  exact .newest listed rfl

/-- A commit of twelve digits. -/
theorem created_pages_render : ((machine Driver.someToken).Guarded (Showable someRenderer) .start
      (created "f00dfacec0de") ∧ (createdDb "f00dfacec0de").Integral ∧
      EveryJobRuns (createdDb "f00dfacec0de")) ∧ PagesRender someRenderer (createdDb "f00dfacec0de") := by
  have formats : someRenderer.Formats 864000000 := rfl
  have sliceable : Sliceable "f00dfacec0de" := shortCommit_ok_iff.mp ⟨"f00dfacec", rfl⟩
  have shows : (machine Driver.someToken).Guarded (Showable someRenderer) .start
      (created "f00dfacec0de") := by
    refine Machine.guarded_of_forall fun l member s => ?_
    simp only [created, List.mem_cons, List.not_mem_nil, or_false] at member
    rcases member with rfl | rfl
    · trivial
    · exact ⟨sliceable, formats⟩
  have integral := createdDb_integral "f00dfacec0de"
  have runs := createdDb_jobs_run "f00dfacec0de"
  exact ⟨⟨shows, integral, runs⟩,
    (overview_pages_iff someRenderer).2 _ _ _ shows (created_run _ _) integral runs⟩

/-- `ci-ctl job create github:owner/zoo f00d`. -/
theorem short_commit_breaks_index : ¬ ∀ (r : Renderer) (tokenForJob : Nat → String)
    (labels : List Label) (s : State), (machine tokenForJob).run .start labels = some s →
      s.db.Integral → EveryJobRuns s.db → PagesRender r s.db := by
  intro claim
  have integral := createdDb_integral "f00d"
  have runs := createdDb_jobs_run "f00d"
  have renders := claim someRenderer Driver.someToken _ _ (created_run _ "f00d") integral runs
  have row := (pages_render_iff integral runs).mp renders _ _ (createdDb_shown "f00d") "f00d" rfl
  obtain ⟨short, cut⟩ := shortCommit_ok_iff.mpr row.commit
  have panics : shortCommit "f00d" = .panic := rfl
  rw [panics] at cut
  contradiction

end BuildOTron.System
