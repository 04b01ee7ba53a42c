import BuildOTron.Driver.Steps
import BuildOTron.Runner.JobReport

/-! One connection between a runner and the driver: the request handler, the task it
queues, the runner's side of the conversation, and a queue of chunks each way. The
rest of the driver goes on beside it; either side may stop at any point. -/
namespace BuildOTron.Session
open Transition

/-- What the response body carries. -/
inductive Chunk where
  | hello
  | message (msg : ClientProto)
  /-- the answer to `ArtifactCreate`, which is no `ClientProto` -/
  | reply
  deriving DecidableEq, Repr

/-- `handle_next_job`, from the point where it has sent hello. -/
inductive Handler where
  | waiting
  /-- the client was queued and has its task -/
  | queued (c : Nat)
  /-- any other ending: an error status or a panic -/
  | refused
  deriving DecidableEq, Repr

/-- What the runner does next. -/
inductive RunnerSide where
  /-- `NewTaskPlease` is out, the response is not in -/
  | requested
  | waitForWork
  | ponging
  /-- `RunningJob::run`, with the messages it has yet to send -/
  | job (messages : List ClientProto)

structure Connection where
  driver : Driver.State
  handler : Handler
  runner : RunnerSide
  /-- the runner holds its ends of the two bodies -/
  connected : Bool
  toRunner : List Chunk
  toDriver : List ClientProto
  /-- history: what the driver has sent -/
  told : List Chunk

inductive RunnerAction where
  | response
  /-- one chunk, and what a job meets if this is one -/
  | recv (print : Runner.Printers) (accepts : String → String → Bool) (world : Runner.World)
  | send
  /-- it stops, it fails to send, or it finds the body at its end -/
  | disconnect

inductive Label where
  | handle (queueFull : Bool)
  | abandon
  | own (action : Driver.Action)
  | others (l : Driver.Label)
  | runner (action : RunnerAction)

/-- What the task sends in this phase. -/
def toSend (client : Driver.RunnerClient) : Driver.Phase → Option Chunk
  | .idle => some (.message .ping)
  | .submit offer => some (.message (Driver.newTask client offer))
  | .replying _ => some .reply
  | _ => none

namespace Connection

def start (driver : Driver.State) (allowedPushers : Option (List String)) (hostInfo : HostInfo) :
    Connection where
  driver := driver
  handler := .waiting
  runner := .requested
  connected := true
  toRunner := [.hello]
  toDriver := [.newTaskPlease allowedPushers hostInfo]
  told := [.hello]

/-- The first chunk of the request. The queue may be full, and `id_for_host` may fail or panic. -/
def handle (tokenForJob : Nat → String) (s : Connection) (queueFull : Bool) : Option Connection :=
  match s.handler, s.toDriver with
  | .waiting, .newTaskPlease allowedPushers hostInfo :: rest =>
    match s.driver.idForHost hostInfo, queueFull with
    | (.ok _, _), false =>
      some { s with
        driver := s.driver.connect tokenForJob hostInfo allowedPushers
        handler := .queued s.driver.clients, toDriver := rest }
    | (_, driver), _ => some { s with driver := driver, handler := .refused, toDriver := rest }
  | .waiting, _ :: rest => some { s with handler := .refused, toDriver := rest }
  | _, _ => none

/-- The queues after an action of the connection's task. A chunk is a message, so
nothing undecodable arrives. -/
def exchange (s : Connection) (client : Driver.RunnerClient) (phase : Driver.Phase) :
    Driver.Action → Option (List Chunk × List ClientProto × List Chunk)
  | .recv (.message msg) =>
    match s.toDriver with
    | first :: rest => if first = msg then some (s.toRunner, rest, s.told) else none
    | [] => none
  | .recv .hangup =>
    if s.connected = false ∧ s.toDriver = [] then some (s.toRunner, [], s.told) else none
  | .recv .undecodable => none
  | .send true =>
    let chunks := (toSend client phase).toList
    some (s.toRunner ++ chunks, s.toDriver, s.told ++ chunks)
  | _ => some (s.toRunner, s.toDriver, s.told)

def ownStep (tokenForJob : Nat → String) (s : Connection) (action : Driver.Action) :
    Option Connection :=
  match s.handler with
  | .queued c => do
    let task ← s.driver.tasks c
    let (toRunner, toDriver, told) ← s.exchange task.client task.phase action
    let driver ← (Driver.machine tokenForJob).step s.driver (.task c action)
    return { s with driver := driver, toRunner := toRunner, toDriver := toDriver, told := told }
  | _ => none

/-- The step is one of the connection's own task. -/
def owns (s : Connection) : Driver.Label → Bool
  | .task c _ => s.handler = .queued c
  | _ => false

/-- All that a job sends while the connection lasts. -/
def jobMessages (print : Runner.Printers) (accepts : String → String → Bool) (task : RequestedJob)
    (world : Runner.World) : List ClientProto :=
  (Runner.run print accepts task world Runner.RunningJob.start).2.sent

def runnerStep (s : Connection) : RunnerAction → Option Connection
  | .response =>
    match s.runner, s.handler, s.toRunner with
    | .requested, .queued _, .hello :: rest =>
      some { s with runner := .waitForWork, toRunner := rest }
    | .requested, .queued _, _ :: rest => some { s with connected := false, toRunner := rest }
    | .requested, .refused, _ => some { s with connected := false }
    | _, _, _ => none
  | .recv print accepts world =>
    match s.runner, s.toRunner with
    | .waitForWork, .message (.newTask task) :: rest =>
      some { s with runner := .job (jobMessages print accepts task world), toRunner := rest }
    | .waitForWork, .message .ping :: rest => some { s with runner := .ponging, toRunner := rest }
    | .waitForWork, _ :: rest => some { s with connected := false, toRunner := rest }
    | _, _ => none
  | .send =>
    match s.runner with
    | .ponging => some { s with runner := .waitForWork, toDriver := s.toDriver ++ [.pong] }
    | .job (message :: rest) =>
      some { s with runner := .job rest, toDriver := s.toDriver ++ [message] }
    | _ => none
  | .disconnect => some { s with connected := false }

end Connection

def connection (tokenForJob : Nat → String) : Machine Connection Label where
  step s
    | .handle queueFull => s.handle tokenForJob queueFull
    | .abandon => if s.handler = .waiting then some { s with handler := .refused } else none
    | .own action => s.ownStep tokenForJob action
    | .others l =>
      if s.owns l then none
      else (Driver.machine tokenForJob).step s.driver l |>.map fun driver => { s with driver := driver }
    | .runner action => if s.connected then s.runnerStep action else none

end BuildOTron.Session
