import BuildOTron.Core.Hosts
import BuildOTron.Driver.Task
import BuildOTron.Driver.Artifact
import BuildOTron.Lib.Machine
import Mathlib.Logic.Function.Basic

/-! The driver process as a machine: any number of client tasks, the reaper, the
artifact endpoint, the other programs that write to the database, and restarts,
interleaved one database call or one message at a time. They share one connection behind a
mutex: a panic that holds it poisons it, and then every call panics until a restart. -/
namespace BuildOTron.Driver
open Transition

structure Task where
  client : RunnerClient
  phase : Phase

/-- `old_task_reaper`. -/
inductive Reaper where
  | start
  | activeRuns (runs : List Run)
  | unclaimed (runs : List Run)
  | reaping (stale : List Run)
  | done
  deriving DecidableEq, Repr

structure State where
  db : Db
  /-- of the mutex around the connection -/
  poisoned : Bool
  tasks : Nat → Option Task
  /-- connections so far, which is also how many tokens were drawn -/
  clients : Nat
  /-- `ACTIVE_TASKS`: a run and the task whose witness stands for it -/
  activeTasks : List (Nat × Nat)
  reaper : Reaper
  /-- history: every `ClientJob` created so far, as task and run -/
  acked : List (Nat × Nat)

/-- The writes of the web server and of `ci-ctl`. -/
inductive Outside where
  | newRun (jobId now : Nat)
  | newJob (remoteId : Nat) (sha : String) (pusher runPreferences : Option String) (now : Nat)
  | commitName (commitId : Nat) (name : String)
  | newRepo (row : RepoRow)
  | newRemote (row : RemoteRow)

inductive Label where
  | connect (hostInfo : HostInfo) (accepted : Option (List String))
  | task (c : Nat) (action : Action)
  | reaper (now : Nat)
  | post (post : ArtifactPost) (now : Nat) (fileCreated : Bool)
  | outside (write : Outside)
  | restart

/-- A `new_job` that panics does so in its own process. -/
def Outside.apply (db : Db) : Outside → Db
  | .newRun jobId now => (db.newRun jobId none now).1
  | .newJob remoteId sha pusher runPreferences now =>
    match db.newJob remoteId sha pusher runPreferences now with
    | .ok (db, _) => db
    | _ => db
  | .commitName commitId name => db.updateCommitName commitId name
  | .newRepo row => { db with repos := db.repos.insert row }
  | .newRemote row => { db with remotes := db.remotes.insert row }

/-- `Vec::swap_remove`: the last element takes the removed one's place. -/
def swapRemove (xs : List α) (i : Nat) : List α :=
  match xs.getLast? with
  | none => xs
  | some last => (xs.set i last).dropLast

/-- The scan of `ACTIVE_TASKS`; the witnesses themselves are not looked at. -/
def dropActive (activeTasks : List (Nat × Nat)) (stale : List Run) : List Run :=
  activeTasks.foldl (fun stale entry =>
    match stale.findIdx? fun task => task.id = entry.1 with
    | some i => swapRemove stale i
    | none => stale) stale

def isStale (threshold : Nat) (task : Run) : Bool :=
  match task.state, task.startTime with
  | .started, none => true
  | .started, some startTime => startTime < threshold
  | _, _ => false

def reaperStep (db : Db) (activeTasks : List (Nat × Nat)) (now : Nat) : Reaper → Option (Db × Reaper)
  | .start => some (db, .activeRuns db.getActiveRuns)
  | .activeRuns runs => some (db, .unclaimed (dropActive activeTasks runs))
  | .unclaimed runs =>
    some (db, match (checkedSub now 60000 : Outcome String Nat) with
      | .ok threshold => .reaping (runs.filter (isStale threshold))
      | _ => .done)
  | .reaping (task :: rest) => some (db.reapTask task.id, .reaping rest)
  | .reaping [] => some (db, .done)
  | .done => none

/-- Whether its next step is a call. -/
def Reaper.locks : Reaper → Bool
  | .start | .reaping (_ :: _) => true
  | _ => false

namespace State

/-- A freshly started process on an existing database. -/
def start (db : Db) (clients : Nat) : State := ⟨db, false, fun _ => none, clients, [], .start, []⟩

/-- `id_for_host` on the driver's connection. -/
def idForHost (s : State) (hostInfo : HostInfo) : Outcome String Nat × State :=
  let (answer, conn) := Hosts.idForHost hostInfo ⟨s.db, s.poisoned⟩
  (answer, { s with db := conn.db, poisoned := conn.poisoned })

/-- `handle_next_job`, for a request that reaches the task queue. Nothing is
queued when `id_for_host` panics, or fails and its `expect` panics. -/
def connect (tokenForJob : Nat → String) (s : State) (hostInfo : HostInfo)
    (accepted : Option (List String)) : State :=
  match s.idForHost hostInfo with
  | (.ok hostId, s) =>
    { s with
      tasks := Function.update s.tasks s.clients
        (some ⟨⟨hostId, tokenForJob s.clients, accepted⟩, .findWork⟩)
      clients := s.clients + 1 }
  | (_, s) => s

/-- Reading `Started` is what makes `submit` register and create the `ClientJob`. -/
def creates : Phase → Phase → Option Nat
  | .awaitStarted _, .started offer => some offer.run.id
  | _, _ => none

def register (activeTasks : List (Nat × Nat)) (run c : Nat) : List (Nat × Nat) :=
  (run, c) :: activeTasks.filter fun entry => entry.1 ≠ run

/-- `lock().unwrap()` panics on a poisoned lock. -/
def attempt (s : State) (task : Task) (action : Action) : Option (Db × Phase) :=
  (taskStep task.client s.db task.phase action).map fun moved =>
    if s.poisoned && action.locks then (s.db, .panicked) else moved

def moveTask (s : State) (c : Nat) (task : Task) (action : Action) (db : Db) (next : Phase) : State :=
  let s' := { s with
    db := db
    poisoned := s.poisoned || action.poisons
    tasks := Function.update s.tasks c (some { task with phase := next }) }
  match creates task.phase next with
  | none => s'
  | some run => { s' with activeTasks := register s.activeTasks run c, acked := (c, run) :: s.acked }

/-- A reaper that comes upon a poisoned lock stays where it is: it panics, and is not
started again. -/
def reaperMove (s : State) (now : Nat) : Option (Db × Reaper) :=
  if s.poisoned && s.reaper.locks then none else reaperStep s.db s.activeTasks now s.reaper

end State

def machine (tokenForJob : Nat → String) : Machine State Label where
  step s
    | .connect hostInfo accepted => some (s.connect tokenForJob hostInfo accepted)
    | .task c action => do
      let task ← s.tasks c
      let (db, next) ← s.attempt task action
      return s.moveTask c task action db next
    | .reaper now => do
      let (db, reaper) ← s.reaperMove now
      return { s with db := db, reaper := reaper }
    | .post post now fileCreated =>
      some { s with db := (answerPost s.poisoned s.db post now fileCreated).1 }
    | .outside write => some { s with db := write.apply s.db }
    | .restart => some { State.start s.db s.clients with acked := s.acked }

/-! The usual course of one run, as labels: a push queues it, a client's task
offers it, the client takes it. -/

def pushed : List Label :=
  [.outside (.newRepo ⟨"repo", none⟩),
   .outside (.newRemote ⟨1, "owner/repo", "github", "https://www.github.com/owner/repo",
     "https://www.github.com/owner/repo.git", "repo.json"⟩),
   .outside (.newJob 1 "f00d" none none 0), .outside (.newRun 1 0)]

def someHost : HostInfo :=
  ⟨"host", ⟨"model", "0x1", 8, "vendor", "6", "158", 4200000⟩, ⟨"16 GB", "8 GB"⟩,
    ⟨"x86_64", "unix", "linux"⟩⟩

/-- The base64 of 32 bytes, different for each of the first connections. -/
def someToken (c : Nat) : String :=
  String.ofList (Char.ofNat (65 + c) :: (List.replicate 42 'A' ++ ['=']))

def connects : Label := .connect someHost none

/-- Up to the send of `NewTask`, for a task that finds a run at the top of the queue. -/
def prepares (c now : Nat) : List Label :=
  [.task c (.call now), .task c (.call now), .task c (.call now), .task c (.call now),
   .task c (.call now), .task c (.reserveDir true)]

def offers (c : Nat) : Label := .task c (.send true)

def acks (c : Nat) : Label := .task c (.recv (.message .started))

def reports (c now : Nat) (info : TaskInfo) : List Label :=
  [.task c (.recv (.message (.taskStatus info))), .task c (.call now), .task c (.call now),
   .task c (.notify true), .task c (.call now)]

end BuildOTron.Driver
