import BuildOTron.Core.DbCtx
import BuildOTron.Lib.Machine

/-! One client's task in the driver: `find_client_task`, the `activate_run` it
ends in, and the `ClientJob::run` that this spawns. A phase is what the task does
next; an action is one `DbCtx` call, one message sent or one received, with the
answers that only the outside world can give. -/
namespace BuildOTron.Driver

structure RunnerClient where
  hostId : Nat
  buildToken : String
  acceptedSources : Option (List String)

/-- is this client willing to run the job based on what it has told us so far? -/
def RunnerClient.willAccept (client : RunnerClient) (job : Job) : Bool :=
  match job.source, client.acceptedSources with
  | _, none => true
  | none, some _ => false
  | some source, some accepted => accepted.contains source

/-- What `recv_typed::<ClientProto>` comes back with. Bytes that are JSON but no
`ClientProto` make its `unwrap` panic; bytes that are not JSON are an error. -/
inductive Received where
  | message (msg : ClientProto)
  | hangup
  | failed (error : String)
  | undecodable
  deriving DecidableEq, Repr

/-- The errors `find_client_task` returns. -/
inductive TaskError where
  | lostClientConnection
  | newTaskDeadline
  | hungUpInsteadOfAcking
  | failedToSubmit (error : String)
  deriving DecidableEq, Repr

/-- The locals of `activate_run`. -/
structure Activation where
  run : PendingRun
  job : Job
  now : Nat
  deriving DecidableEq, Repr

structure ClientJob where
  task : PendingRun
  remoteGitUrl : String
  sha : String
  deriving DecidableEq, Repr

/-- An activation with the arguments it calls `submit` with. -/
structure Offer extends Activation where
  remoteGitUrl : String
  sha : String
  deriving DecidableEq, Repr

def Offer.clientJob (offer : Offer) : ClientJob := ⟨offer.run, offer.remoteGitUrl, offer.sha⟩

inductive Phase where
  | findWork
  | pendingRuns (runs : List PendingRun)
  | alternateRun (job : Job)
  | idle
  | awaitPong
  | deadline
  | activateRun (run : PendingRun) (job : Job)
  | haveRemote (act : Activation) (remote : Remote)
  | haveRepo (act : Activation) (remote : Remote)
  | haveSha (act : Activation) (remote : Remote) (sha : String)
  | submit (offer : Offer)
  | awaitStarted (offer : Offer)
  | started (offer : Offer)
  | running (job : ClientJob)
  | replying (job : ClientJob)
  | metric (job : ClientJob) (name value : String)
  | taskStatus (job : ClientJob) (info : TaskInfo)
  | haveJob (job : ClientJob) (info : TaskInfo) (remoteId : Nat)
  | notifying (job : ClientJob) (info : TaskInfo) (repoId : Nat)
  | recordResult (job : ClientJob) (info : TaskInfo)
  | returned (error : Option TaskError)
  | panicked
  deriving DecidableEq, Repr

inductive Action where
  /-- the next `DbCtx` call, and what a clock read beside it shows -/
  | call (now : Nat)
  /-- `jobs_needing_task_runs_for_host` in a build without overflow checks, on the first
  day: the cutoff wraps round, and the query refuses it -/
  | wrapped (now : Nat)
  | send (sent : Bool)
  | recv (received : Received)
  | elapsed (secs : Nat)
  /-- `reserve_artifacts_dir` -/
  | reserveDir (reserved : Bool)
  /-- `insert_metric`, which panics on a table without the key it names -/
  | upsert (keyed : Bool)
  /-- the notifier loop, which either completes or panics -/
  | notify (completed : Bool)
  deriving DecidableEq, Repr

/-- A call locks the connection, and so does the notifier loop for the remotes. -/
def Action.locks : Action → Bool
  | .call _ | .wrapped _ | .upsert _ | .notify _ => true
  | _ => false

/-- These panic with the lock held. -/
def Action.poisons : Action → Bool
  | .wrapped _ => true
  | .upsert keyed => !keyed
  | _ => false

def artifactsDir (runId : Nat) : String := "/root/ixi_ci_server/artifacts/" ++ toString runId

/-- What a `TaskStatus` says: the text that goes into `final_status`, as `Ok` or
`Err`, and the state the run ends in. -/
def taskResult : TaskInfo → Except String String × RunState
  | .finished status =>
    if status = "pass" then (.ok "success", .finished) else (.error status, .error)
  | .interrupted status description => (.error (description.getD status), .error)

def buildResult : Except String String → JobResult
  | .ok _ => .pass
  | .error _ => .fail

def resultDesc : Except String String → String
  | .ok msg => msg
  | .error msg => msg

/-- The update that ends the `TaskStatus` arm. -/
def recordStatus (db : Db) (runId now : Nat) (info : TaskInfo) : Db :=
  let (result, state) := taskResult info
  db.completeRun runId now state (buildResult result) (resultDesc result)

/-- The update of `activate_run`, after `submit` has answered. -/
def activate (db : Db) (client : RunnerClient) (offer : Offer) : Db :=
  db.startRun offer.run.id offer.now client.hostId (artifactsDir offer.run.id) client.buildToken

def submitted (offer : Offer) : Received → Phase
  | .message .started => .started offer
  | .message _ => .returned (some (.failedToSubmit "client rejected job"))
  | .hangup => .returned (some .hungUpInsteadOfAcking)
  | .failed error => .returned (some (.failedToSubmit error))
  | .undecodable => .panicked

/-- The arms of `ClientJob::run`. -/
def handleMessage (job : ClientJob) : Received → Phase
  | .hangup => .returned none
  | .failed _ => .panicked
  | .undecodable => .panicked
  | .message (.newTaskPlease _ _) => .returned none
  | .message (.taskStatus info) => .taskStatus job info
  | .message .artifactCreate => .replying job
  | .message (.metric name value) => .metric job name value
  | .message (.command _) => .running job
  | .message _ => .running job

/-- A lookup whose empty answer is `expect`ed away. -/
def orPanic (found : Option α) (next : α → Phase) : Phase :=
  match found with
  | none => .panicked
  | some value => next value

def taskStep (client : RunnerClient) (db : Db) : Phase → Action → Option (Db × Phase)
  | .findWork, .call _ => some (db, .pendingRuns (db.getPendingRuns (some client.hostId)))
  | .pendingRuns (run :: rest), .call _ =>
    some (db, orPanic (db.jobById run.jobId) fun job =>
      if client.willAccept job then .activateRun run job else .pendingRuns rest)
  | .pendingRuns [], .call now =>
    some (db, match db.jobsNeedingTaskRunsForHost client.hostId now with
      | .ok jobs =>
        match jobs.find? client.willAccept with
        | some job => .alternateRun job
        | none => .idle
      | _ => .panicked)
  | .pendingRuns [], .wrapped now => if now < 24 * 3600 * 1000 then some (db, .panicked) else none
  | .alternateRun job, .call now =>
    some ((db.newRun job.id (some client.hostId) now).1,
      .activateRun (db.newRun job.id (some client.hostId) now).2 job)
  | .idle, .send sent =>
    some (db, if sent then .awaitPong else .returned (some .lostClientConnection))
  | .awaitPong, .recv received =>
    some (db, match received with
      | .message .pong => .deadline
      | .undecodable => .panicked
      | _ => .returned (some .lostClientConnection))
  | .deadline, .elapsed secs =>
    some (db, if 300 < secs then .returned (some .newTaskDeadline) else .findWork)
  | .activateRun run job, .call now =>
    some (db, orPanic (db.remoteById job.remoteId) fun remote => .haveRemote ⟨run, job, now⟩ remote)
  | .haveRemote act remote, .call _ =>
    some (db, orPanic (db.repoById remote.repoId) fun _ => .haveRepo act remote)
  | .haveRepo act remote, .call _ =>
    some (db, match db.commitSha act.job.commitId with
      | .ok sha => .haveSha act remote sha
      | _ => .panicked)
  | .haveSha act remote sha, .reserveDir reserved =>
    some (db, if reserved then .submit ⟨act, remote.remoteGitUrl, sha⟩ else .panicked)
  | .submit offer, .send sent =>
    some (db, if sent then .awaitStarted offer
      else .returned (some (.failedToSubmit "channel closed")))
  | .awaitStarted offer, .recv received => some (db, submitted offer received)
  | .started offer, .call _ =>
    some (activate db client offer, .running offer.clientJob)
  | .running job, .recv received => some (db, handleMessage job received)
  | .replying job, .send sent => some (db, if sent then .running job else .panicked)
  | .metric job name value, .upsert keyed =>
    some (if keyed then (db.insertMetric job.task.id name value, .running job) else (db, .panicked))
  | .taskStatus job info, .call _ =>
    some (db, orPanic (db.jobById job.task.jobId) fun found => .haveJob job info found.remoteId)
  | .haveJob job info remoteId, .call _ =>
    some (db, orPanic (db.repoIdByRemote remoteId) fun repoId => .notifying job info repoId)
  | .notifying job info _, .notify completed =>
    some (db, if completed then .recordResult job info else .panicked)
  | .recordResult job info, .call now => some (recordStatus db job.task.id now info, .running job)
  | _, _ => none

/-- A client's task alone with the database. -/
def taskMachine (client : RunnerClient) : Transition.Machine (Db × Phase) Action where
  step s action := taskStep client s.1 s.2 action

/-- `ClientProto::new_task` as `submit` sends it. -/
def newTask (client : RunnerClient) (offer : Offer) : ClientProto :=
  .newTask ⟨offer.sha, offer.remoteGitUrl, client.buildToken⟩

def Phase.isOver : Phase → Bool
  | .returned _ | .panicked => true
  | _ => false

/-- The run in the task's hands, if it has chosen one. -/
def Phase.run? : Phase → Option Nat
  | .activateRun run _ => some run.id
  | .haveRemote act _ | .haveRepo act _ | .haveSha act _ _ => some act.run.id
  | .submit offer | .awaitStarted offer | .started offer => some offer.run.id
  | .running job | .replying job | .metric job _ _ | .taskStatus job _ | .haveJob job _ _
  | .notifying job _ _ | .recordResult job _ => some job.task.id
  | _ => none

/-- The run whose `NewTask` is unanswered, or answered and not yet recorded. -/
def Phase.offer? : Phase → Option Nat
  | .awaitStarted offer | .started offer => some offer.run.id
  | _ => none

/-- The run whose `ClientJob::run` this task is executing. -/
def Phase.job? : Phase → Option Nat
  | .running job | .replying job | .metric job _ _ | .taskStatus job _ | .haveJob job _ _
  | .notifying job _ _ | .recordResult job _ => some job.task.id
  | _ => none

/-- Every way a task moves, grouped by what it does to the database. The moves
that only end the task are one case. -/
inductive Moves (client : RunnerClient) (db : Db) : Phase → Action → Db → Phase → Prop where
  | ends (ended : next.isOver = true) : Moves client db phase action db next
  | getPendingRuns : Moves client db .findWork (.call now) db
      (.pendingRuns (db.getPendingRuns (some client.hostId)))
  | takes (found : db.jobById run.jobId = some job) (accepts : client.willAccept job = true) :
      Moves client db (.pendingRuns (run :: rest)) (.call now) db (.activateRun run job)
  | declines : Moves client db (.pendingRuns (run :: rest)) (.call now) db (.pendingRuns rest)
  | alternate (needed : db.jobsNeedingTaskRunsForHost client.hostId now = .ok jobs)
      (found : jobs.find? client.willAccept = some job) :
      Moves client db (.pendingRuns []) (.call now) db (.alternateRun job)
  | nothing : Moves client db (.pendingRuns []) (.call now) db .idle
  | newRun : Moves client db (.alternateRun job) (.call now)
      (db.newRun job.id (some client.hostId) now).1
      (.activateRun (db.newRun job.id (some client.hostId) now).2 job)
  | pings : Moves client db .idle (.send true) db .awaitPong
  | pong : Moves client db .awaitPong (.recv (.message .pong)) db .deadline
  | again : Moves client db .deadline (.elapsed secs) db .findWork
  | remoteById : Moves client db (.activateRun run job) (.call now) db
      (.haveRemote ⟨run, job, now⟩ remote)
  | repoById : Moves client db (.haveRemote act remote) (.call now) db (.haveRepo act remote)
  | commitSha : Moves client db (.haveRepo act remote) (.call now) db (.haveSha act remote sha)
  | reserves : Moves client db (.haveSha act remote sha) (.reserveDir true) db
      (.submit ⟨act, remote.remoteGitUrl, sha⟩)
  | offers : Moves client db (.submit offer) (.send true) db (.awaitStarted offer)
  | acked : Moves client db (.awaitStarted offer) (.recv (.message .started)) db (.started offer)
  | activates : Moves client db (.started offer) (.call now) (activate db client offer)
      (.running offer.clientJob)
  | reads (within : next.job? = some job.task.id) :
      Moves client db (.running job) (.recv received) db next
  | replies : Moves client db (.replying job) (.send true) db (.running job)
  | insertMetric : Moves client db (.metric job name value) (.upsert true)
      (db.insertMetric job.task.id name value) (.running job)
  | jobById : Moves client db (.taskStatus job info) (.call now) db (.haveJob job info remoteId)
  | repoIdByRemote : Moves client db (.haveJob job info remoteId) (.call now) db
      (.notifying job info repoId)
  | notifies : Moves client db (.notifying job info repoId) (.notify true) db
      (.recordResult job info)
  | records : Moves client db (.recordResult job info) (.call now)
      (recordStatus db job.task.id now info) (.running job)

theorem handleMessage_moves (client : RunnerClient) (db : Db) (job : ClientJob)
    (received : Received) :
    Moves client db (.running job) (.recv received) db (handleMessage job received) := by
  cases received with
  | message msg => cases msg <;> first | exact .reads rfl | exact .ends rfl
  | hangup | failed | undecodable => exact .ends rfl

theorem submitted_moves (client : RunnerClient) (db : Db) (offer : Offer) (received : Received) :
    Moves client db (.awaitStarted offer) (.recv received) db (submitted offer received) := by
  cases received with
  | message msg => cases msg <;> first | exact .acked | exact .ends rfl
  | hangup | failed | undecodable => exact .ends rfl

theorem orPanic_moves {found : Option α} {next : α → Phase}
    (moves : ∀ value, found = some value → Moves client db phase action db (next value)) :
    Moves client db phase action db (orPanic found next) := by
  cases found with
  | none => exact .ends rfl
  | some value => exact moves value rfl

theorem pendingRuns_moves (client : RunnerClient) (db : Db) (run : PendingRun)
    (rest : List PendingRun) (now : Nat) :
    Moves client db (.pendingRuns (run :: rest)) (.call now) db
      (orPanic (db.jobById run.jobId) fun job =>
        if client.willAccept job then .activateRun run job else .pendingRuns rest) := by
  refine orPanic_moves ?_
  intro job found
  split
  · exact .takes found ‹_›
  · exact .declines

/-- What a task can do in one step, for every phase and action. -/
theorem taskStep_moves (stepped : taskStep client db phase action = some (db', next)) :
    Moves client db phase action db' next := by
  cases phase <;> cases action
  case pendingRuns.call runs now =>
    cases runs with
    | cons run rest =>
      obtain ⟨rfl, rfl⟩ := Prod.mk.inj (Option.some.inj stepped)
      exact pendingRuns_moves _ _ _ _ _
    | nil =>
      obtain ⟨rfl, rfl⟩ := Prod.mk.inj (Option.some.inj stepped)
      split
      · split
        · exact .alternate ‹_› ‹_›
        · exact .nothing
      · exact .ends rfl
  case pendingRuns.wrapped runs now =>
    cases runs with
    | cons run rest => contradiction
    | nil =>
      simp only [taskStep, Option.ite_none_right_eq_some, Option.some.injEq, Prod.mk.injEq] at stepped
      obtain ⟨_, rfl, rfl⟩ := stepped
      exact .ends rfl
  case metric.upsert job name value keyed =>
    cases keyed <;> cases stepped
    · exact .ends rfl
    · exact .insertMetric
  all_goals simp only [taskStep, reduceCtorEq, Option.some.injEq, Prod.mk.injEq] at stepped
  all_goals obtain ⟨rfl, rfl⟩ := stepped
  case findWork.call => exact .getPendingRuns
  case alternateRun.call => exact .newRun
  case activateRun.call => exact orPanic_moves fun _ _ => .remoteById
  case haveRemote.call => exact orPanic_moves fun _ _ => .repoById
  case awaitStarted.recv => exact submitted_moves _ _ _ _
  case started.call => exact .activates
  case running.recv => exact handleMessage_moves _ _ _ _
  case taskStatus.call => exact orPanic_moves fun _ _ => .jobById
  case haveJob.call => exact orPanic_moves fun _ _ => .repoIdByRemote
  case recordResult.call => exact .records
  case haveRepo.call =>
    split
    · exact .commitSha
    · exact .ends rfl
  case awaitPong.recv =>
    split
    · exact .pong
    · exact .ends rfl
    · exact .ends rfl
  case deadline.elapsed secs =>
    split
    · exact .ends rfl
    · exact .again
  case idle.send sent =>
    cases sent
    · exact .ends rfl
    · exact .pings
  case submit.send sent =>
    cases sent
    · exact .ends rfl
    · exact .offers
  case replying.send sent =>
    cases sent
    · exact .ends rfl
    · exact .replies
  case haveSha.reserveDir reserved =>
    cases reserved
    · exact .ends rfl
    · exact .reserves
  case notifying.notify completed =>
    cases completed
    · exact .ends rfl
    · exact .notifies

theorem taskStep_wrapped (stepped : taskStep client db phase (.wrapped now) = some (db', next)) :
    phase = .pendingRuns [] ∧ next = .panicked := by
  cases phase with
  | pendingRuns runs =>
    cases runs with
    | nil =>
      simp only [taskStep, Option.ite_none_right_eq_some, Option.some.injEq, Prod.mk.injEq] at stepped
      exact ⟨rfl, stepped.2.2.symm⟩
    | cons run rest => contradiction
  | _ => contradiction

end BuildOTron.Driver
