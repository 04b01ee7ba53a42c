import BuildOTron.Session.Handshake

/-! What a task takes over from the runner's job is what the job sends, every message
once and in order. The state it records is therefore `Finished` exactly for a job that
passes, whatever the rest of the driver does meanwhile. -/
namespace BuildOTron.Session
open Transition

/-- What a step of the task reads, unless it is the answer to a ping. -/
def heard? : Label → Option ClientProto
  | .own (.recv (.message msg)) => if msg = .pong then none else some msg
  | _ => none

def heard (labels : List Label) : List ClientProto := labels.filterMap heard?

/-- The job that the task has sent `NewTask` for. -/
def requestedJob (client : Driver.RunnerClient) : Driver.Phase → Option RequestedJob
  | .awaitStarted offer | .started offer => some ⟨offer.sha, offer.remoteGitUrl, client.buildToken⟩
  | .running job | .replying job | .metric job _ _ | .taskStatus job _ | .haveJob job _ _
  | .notifying job _ _ | .recordResult job _ => some ⟨job.sha, job.remoteGitUrl, client.buildToken⟩
  | _ => none

/-- The message that the task is acting on. -/
def inHand : Driver.Phase → Option ClientProto
  | .metric _ name value => some (.metric name value)
  | .taskStatus _ info | .haveJob _ info _ | .notifying _ info _ | .recordResult _ info =>
    some (.taskStatus info)
  | _ => none

/-- What has been heard, what is on its way and what the runner has yet to send are the
messages of one job. -/
inductive Relay (labels : List Label) (told : List Chunk) (sent : List ClientProto) :
    RunnerSide → Prop where
  | before (noJob : ∀ messages, side ≠ .job messages) (nothing : heard labels = []) :
      Relay labels told sent side
  | job (met : .runner (.recv print accepts world) ∈ labels)
      (asked : .message (.newTask request) ∈ told)
      (inOrder : Connection.jobMessages print accepts request world = heard labels ++ (sent ++ rest)) :
      Relay labels told sent (.job rest)

/-- What holds of a task while it goes on. -/
structure Live (labels : List Label) (s : Connection) (task : Driver.Task) : Prop where
  relay : Relay labels s.told s.toDriver s.runner
  asked : ∀ request, .message (.newTask request) ∈ s.told →
    requestedJob task.client task.phase = some request
  inHand : ∀ msg, inHand task.phase = some msg → msg ∈ heard labels

structure Conversation (labels : List Label) (s : Connection) : Prop where
  consistent : Consistent s
  told : ∀ chunk ∈ s.toRunner, chunk ∈ s.told
  unqueued : (∀ c, s.handler ≠ .queued c) → heard labels = []
  live : ∀ c task, s.handler = .queued c → s.driver.tasks c = some task →
    task.phase.isOver = false → Live labels s task

/-! ### What is heard -/

theorem heard_append (labels : List Label) (l : Label) :
    heard (labels ++ [l]) = heard labels ++ (heard? l).toList := by
  rw [heard, List.filterMap_append]
  cases said : heard? l <;> simp [heard, said]

theorem heard_silent (labels : List Label) (silent : heard? l = none) :
    heard (labels ++ [l]) = heard labels := by
  rw [heard_append, silent, Option.toList_none, List.append_nil]

theorem heard_message (labels : List Label) (noPong : msg ≠ .pong) :
    heard (labels ++ [.own (.recv (.message msg))]) = heard labels ++ [msg] := by
  simp [heard_append, heard?, noPong]

theorem heard?_apart (noRecv : ∀ received, action ≠ .recv received) :
    heard? (.own action) = none := by
  cases action with
  | recv received => exact absurd rfl (noRecv received)
  | _ => rfl

theorem Relay.silent (relay : Relay labels told sent side) (silent : heard? l = none)
    (kept : ∀ chunk ∈ told, chunk ∈ told') : Relay (labels ++ [l]) told' sent side := by
  cases relay with
  | before noJob nothing => exact .before noJob ((heard_silent labels silent).trans nothing)
  | job met asked inOrder =>
    refine .job (List.mem_append_left _ met) (kept _ asked) ?_
    rw [heard_silent labels silent, inOrder]

theorem Live.silent (live : Live labels s task) (silent : heard? l = none)
    (relay : Relay (labels ++ [l]) t.told t.toDriver t.runner) (told : t.told = s.told) :
    Live (labels ++ [l]) t task where
  relay := relay
  asked := told ▸ live.asked
  inHand msg holds := (heard_silent labels silent).symm ▸ live.inHand msg holds

/-! ### The driver's steps -/

/-- A message from a runner that is in no job is the answer to a ping. -/
theorem Joint.message (joint : Joint phase side chunks (msg :: sent))
    (goesOn : phase.isOver = false) :
    ((∀ messages, side ≠ .job messages) ∧ msg = .pong) ∨ (∃ rest, side = .job rest) ∧ msg ≠ .pong := by
  cases joint with
  | pong => exact .inl ⟨by simp, rfl⟩
  | started => exact .inr ⟨⟨_, rfl⟩, by simp⟩
  | job _ kinds =>
    refine .inr ⟨⟨_, rfl⟩, ?_⟩
    rintro rfl
    exact kinds .pong (by simp)
  | ended finished =>
    rw [finished] at goesOn
    contradiction

theorem Relay.message (relay : Relay labels told (msg :: sent) side)
    (joint : Joint phase side chunks (msg :: sent)) (goesOn : phase.isOver = false) :
    Relay (labels ++ [.own (.recv (.message msg))]) told sent side := by
  cases relay with
  | before noJob nothing =>
    obtain ⟨_, rfl⟩ | ⟨⟨rest, same⟩, _⟩ := joint.message goesOn
    · exact .before noJob ((heard_silent labels rfl).trans nothing)
    · exact absurd same (noJob rest)
  | job met asked inOrder =>
    obtain ⟨noJob, _⟩ | ⟨_, noPong⟩ := joint.message goesOn
    · exact absurd rfl (noJob _)
    · refine .job (List.mem_append_left _ met) asked ?_
      rw [heard_message labels noPong, inOrder]
      simp

theorem goes_on_before (moved : Driver.taskStep client db phase action = some (db', next)) :
    phase.isOver = false := by
  cases phase with
  | returned | panicked => contradiction
  | _ => rfl

theorem handleMessage_requested (client : Driver.RunnerClient) (job : Driver.ClientJob)
    (goesOn : (Driver.handleMessage job received).isOver = false) :
    requestedJob client (Driver.handleMessage job received) = requestedJob client (.running job) := by
  cases received with
  | message msg => cases msg <;> first | rfl | contradiction
  | hangup | failed | undecodable => contradiction

/-- A task stays with the job it has asked for. -/
theorem requestedJob_kept (moved : Driver.taskStep client db phase action = some (db', next))
    (goesOn : next.isOver = false) (requested : requestedJob client phase = some request) :
    requestedJob client next = some request := by
  cases Driver.taskStep_moves moved with
  | ends ended =>
    rw [ended] at goesOn
    contradiction
  | reads =>
    simp only [Driver.taskStep, Option.some.injEq, Prod.mk.injEq, true_and] at moved
    subst moved
    rw [handleMessage_requested client _ goesOn, requested]
  | acked | activates | replies | insertMetric | jobById | repoIdByRemote | notifies | records =>
    exact requested
  | _ => contradiction

theorem not_told_newTask {told : List Chunk} (none : told.countP isNewTask = 0) :
    .message (.newTask request) ∉ told := by
  intro member
  have counted := List.countP_eq_zero.mp none (.message (.newTask request)) member
  exact counted rfl

theorem handleMessage_inHand (holds : inHand (Driver.handleMessage job received) = some msg) :
    received = .message msg ∧ msg ≠ .pong := by
  cases received with
  | message other =>
    cases other with
    | metric name value =>
      cases holds
      exact ⟨rfl, by simp⟩
    | taskStatus info =>
      cases holds
      exact ⟨rfl, by simp⟩
    | _ => contradiction
  | hangup | failed | undecodable => contradiction

theorem inHand_own (live : Live labels s ⟨client, phase⟩)
    (moved : Driver.taskStep client db phase action = some (db', next))
    (holds : inHand next = some msg) : msg ∈ heard (labels ++ [.own action]) := by
  have earlier : inHand phase = some msg → msg ∈ heard (labels ++ [.own action]) := by
    intro before
    rw [heard_append]
    exact List.mem_append_left _ (live.inHand msg before)
  cases Driver.taskStep_moves moved with
  | ends ended => cases next <;> contradiction
  | reads =>
    simp only [Driver.taskStep, Option.some.injEq, Prod.mk.injEq, true_and] at moved
    subst moved
    obtain ⟨rfl, noPong⟩ := handleMessage_inHand holds
    rw [heard_message labels noPong]
    exact List.mem_append_right _ (List.mem_singleton_self msg)
  | jobById | repoIdByRemote | notifies => exact earlier holds
  | _ => contradiction

/-- The task asks for a job when it leaves `submit`, and for no other. -/
theorem asked_own {s : Connection} (exchanged : Exchanges s client phase action chunks sent told)
    (moved : Driver.taskStep client db phase action = some (db', next))
    (goesOn : next.isOver = false)
    (offered : unoffered phase = true → s.told.countP isNewTask = 0)
    (asked : ∀ request, .message (.newTask request) ∈ s.told → requestedJob client phase = some request)
    (request : RequestedJob) (member : .message (.newTask request) ∈ told) :
    requestedJob client next = some request := by
  cases exchanged with
  | message | broken | apart => exact requestedJob_kept moved goesOn (asked request member)
  | sends =>
    obtain before | now := List.mem_append.mp member
    · exact requestedJob_kept moved goesOn (asked request before)
    cases Driver.taskStep_moves moved with
    | ends ended =>
      rw [ended] at goesOn
      contradiction
    | pings | replies => simp [toSend] at now
    | offers =>
      simp only [toSend, Option.toList_some, List.mem_singleton] at now
      cases now
      rfl

theorem Live.own {s : Connection} (live : Live labels s ⟨client, phase⟩)
    (joint : Joint phase s.runner s.toRunner s.toDriver)
    (offered : unoffered phase = true → s.told.countP isNewTask = 0)
    (exchanged : Exchanges s client phase action chunks sent told)
    (moved : Driver.taskStep client db phase action = some (db', next))
    (goesOn : next.isOver = false) (driver : Driver.State) :
    Live (labels ++ [.own action])
      { s with driver := driver, toRunner := chunks, toDriver := sent, told := told }
      ⟨client, next⟩ where
  relay := by
    cases exchanged with
    | message arrived =>
      have relay := live.relay
      rw [arrived] at relay joint
      exact relay.message joint (goes_on_before moved)
    | @broken received noMessage =>
      refine live.relay.silent ?_ fun _ member => member
      cases received with
      | message msg => exact absurd rfl (noMessage msg)
      | hangup | failed | undecodable => rfl
    | sends => exact live.relay.silent rfl fun _ member => List.mem_append_left _ member
    | apart _ noRecv => exact live.relay.silent (heard?_apart noRecv) fun _ member => member
  asked := asked_own exchanged moved goesOn offered live.asked
  inHand _ := inHand_own live moved

theorem told_exchange {s : Connection} (exchanged : Exchanges s client phase action chunks sent told)
    (before : ∀ chunk ∈ s.toRunner, chunk ∈ s.told) : ∀ chunk ∈ chunks, chunk ∈ told := by
  cases exchanged with
  | message | broken | apart => exact before
  | sends =>
    intro chunk member
    rw [List.mem_append] at member ⊢
    exact member.imp (before chunk) fun now => now

theorem Conversation.own {s t : Connection} (conversation : Conversation labels s)
    (stepped : s.ownStep tokenForJob action = some t) :
    Conversation (labels ++ [.own action]) t := by
  have consistent := conversation.consistent.own stepped
  unfold Connection.ownStep at stepped
  split at stepped
  · rename_i c queued
    simp only [Option.bind_eq_bind, Option.bind_eq_some_iff, Option.pure_def, Option.some.injEq] at stepped
    obtain ⟨⟨client, phase⟩, held, ⟨chunks, sent, told⟩, exchanged, driver, moved, rfl⟩ := stepped
    obtain ⟨task', db, next, held', taken, rfl⟩ := Driver.step_attempt moved
    cases Option.some.inj (held.symm.trans held')
    have before : taskPhase s.driver c = phase := by rw [taskPhase, held]; rfl
    have joint := (conversation.consistent.queued c queued).2
    have offered := conversation.consistent.offered c queued
    rw [before] at joint offered
    have exchanges := exchange_cases exchanged
    refine ⟨consistent, told_exchange exchanges conversation.told,
      fun unqueued => absurd queued (unqueued c), ?_⟩
    intro c' task' queued' found goesOn
    cases queued.symm.trans queued'
    rw [Driver.moveTask_tasks, Function.update_self] at found
    cases found
    have moved := Driver.attempt_goes_on taken (by rintro rfl; contradiction)
    exact (conversation.live c _ queued held (goes_on_before moved)).own joint offered exchanges
      moved goesOn _
  · contradiction

theorem Conversation.others {s : Connection} (conversation : Conversation labels s)
    (other : s.owns l = false)
    (stepped : (Driver.machine tokenForJob).step s.driver l = some driver) :
    Conversation (labels ++ [.others l]) { s with driver := driver } where
  consistent := conversation.consistent.others other stepped
  told := conversation.told
  unqueued unqueued := (heard_silent labels rfl).trans (conversation.unqueued unqueued)
  live := by
    intro c task queued held goesOn
    obtain ⟨rfl, _⟩ | ⟨same, _⟩ | ⟨_, action, _, own, _⟩ := Driver.step_tasks stepped held
    · exact absurd (conversation.consistent.queued _ queued).1 (Nat.lt_irrefl _)
    · have live := conversation.live c task queued same goesOn
      exact live.silent rfl (live.relay.silent rfl fun _ member => member) rfl
    · subst own
      exact absurd queued (of_decide_eq_false other)

/-! ### The other steps -/

theorem Conversation.handle {s t : Connection} (conversation : Conversation labels s)
    (stepped : s.handle tokenForJob queueFull = some t) :
    Conversation (labels ++ [.handle queueFull]) t := by
  have consistent := conversation.consistent.handle stepped
  have waiting : s.handler = .waiting := by
    unfold Connection.handle at stepped
    split at stepped <;> first | assumption | contradiction
  obtain ⟨allowed, hostInfo, only⟩ := conversation.consistent.request waiting
  obtain ⟨side, _, untold⟩ := conversation.consistent.unqueued (by simp [waiting])
  have nothing : heard (labels ++ [.handle queueFull]) = [] :=
    (heard_silent labels rfl).trans (conversation.unqueued (by simp [waiting]))
  simp only [Connection.handle, waiting, only] at stepped
  split at stepped <;> cases stepped
  · rename_i answered
    refine ⟨consistent, conversation.told, fun _ => nothing, ?_⟩
    rintro _ task ⟨⟩ held _
    simp only [Driver.connect_answered (congrArg Prod.fst answered), Function.update_self,
      Option.some.injEq] at held
    subst held
    refine ⟨.before (by simp [side]) nothing, ?_, by simp [inHand]⟩
    intro request member
    exact absurd member (not_told_newTask untold)
  · exact ⟨consistent, conversation.told, fun _ => nothing, by simp⟩

/-- A runner that reads a `NewTask` has nothing under way, and starts with all of its job. -/
theorem given_quiet (joint : Joint phase .waitForWork (.message (.newTask request) :: rest) sent)
    (goesOn : phase.isOver = false) : sent = [] := by
  cases joint with
  | newTask => rfl
  | quiet _ _ left | ping _ left => cases left
  | ended finished =>
    rw [finished] at goesOn
    contradiction

/-- Any other word leaves the runner's job as it is, or sends one of its messages. -/
theorem Relay.speaks (relay : Relay labels told sent side)
    (speaks : Speaks side chunks side' chunks' said)
    (noTask : ∀ request rest, side = .waitForWork → chunks ≠ .message (.newTask request) :: rest) :
    Relay labels told (sent ++ said) side' := by
  cases speaks with
  | given => exact absurd rfl (noTask _ _ rfl)
  | silent =>
    rw [List.append_nil]
    exact relay
  | reports =>
    cases relay with
    | before noJob => exact absurd rfl (noJob _)
    | job met asked inOrder =>
      refine .job met asked ?_
      rw [inOrder, List.append_assoc, List.singleton_append]
  | greeted | misgreeted | pinged | puzzled | pongs =>
    cases relay with
    | before _ nothing => exact .before (by simp) nothing

theorem Relay.given {s t : Connection} (relay : Relay labels s.told s.toDriver s.runner)
    (joint : Joint phase s.runner s.toRunner s.toDriver) (goesOn : phase.isOver = false)
    (told : ∀ chunk ∈ s.toRunner, chunk ∈ s.told) (waiting : s.runner = .waitForWork)
    (arrived : s.toRunner = .message (.newTask request) :: rest)
    (stepped : s.runnerStep action = some t) :
    Relay (labels ++ [.runner action]) t.told t.toDriver t.runner := by
  obtain ⟨driver, handler, side, connected, chunks, sent, said⟩ := s
  cases waiting
  cases arrived
  cases action with
  | disconnect =>
    cases stepped
    exact relay.silent rfl fun _ member => member
  | response | send => contradiction
  | recv print accepts world =>
    cases stepped
    obtain rfl := given_quiet joint goesOn
    cases relay with
    | before _ nothing =>
      have met : Label.runner (.recv print accepts world) ∈
          labels ++ [.runner (.recv print accepts world)] :=
        List.mem_append_right _ (List.mem_singleton_self _)
      refine .job met (told _ List.mem_cons_self) ?_
      rw [heard_silent labels rfl, nothing]
      rfl

theorem Relay.runner {s t : Connection} (relay : Relay labels s.told s.toDriver s.runner)
    (joint : Joint phase s.runner s.toRunner s.toDriver) (goesOn : phase.isOver = false)
    (told : ∀ chunk ∈ s.toRunner, chunk ∈ s.told) (stepped : s.runnerStep action = some t) :
    Relay (labels ++ [.runner action]) t.told t.toDriver t.runner := by
  by_cases given : ∃ request rest, s.runner = .waitForWork ∧
      s.toRunner = .message (.newTask request) :: rest
  · obtain ⟨request, rest, waiting, arrived⟩ := given
    exact relay.given joint goesOn told waiting arrived stepped
  · obtain ⟨said, speaks, sent, _, _, same⟩ := runnerStep_speaks stepped
    rw [same, sent]
    refine Relay.speaks ?_ speaks ?_
    · exact relay.silent rfl fun _ member => member
    · exact fun request rest waiting arrived => given ⟨request, rest, waiting, arrived⟩

theorem Speaks.leaves (speaks : Speaks side chunks side' chunks' said) (member : chunk ∈ chunks') :
    chunk ∈ chunks := by
  cases speaks with
  | pongs | reports | silent => exact member
  | _ => exact List.mem_cons_of_mem _ member

theorem Conversation.runner {s t : Connection} (conversation : Conversation labels s)
    (stepped : s.runnerStep action = some t) :
    Conversation (labels ++ [.runner action]) t := by
  have consistent := conversation.consistent.runner stepped
  obtain ⟨_, speaks, _, driver, handler, told⟩ := runnerStep_speaks stepped
  refine ⟨consistent, ?_, ?_, ?_⟩
  · intro chunk member
    rw [told]
    exact conversation.told chunk (speaks.leaves member)
  · intro unqueued
    rw [heard_silent labels rfl]
    exact conversation.unqueued (handler ▸ unqueued)
  · intro c task queued held goesOn
    rw [handler] at queued
    rw [driver] at held
    have live := conversation.live c task queued held goesOn
    have joint := (conversation.consistent.queued c queued).2
    have phase : taskPhase s.driver c = task.phase := by rw [taskPhase, held]; rfl
    rw [phase] at joint
    exact live.silent rfl (live.relay.runner joint goesOn conversation.told stepped) told

theorem step_conversation (conversation : Conversation labels s)
    (stepped : (connection tokenForJob).step s l = some t) : Conversation (labels ++ [l]) t := by
  cases l with
  | handle queueFull => exact conversation.handle stepped
  | abandon =>
    have consistent := step_consistent conversation.consistent stepped
    simp only [connection] at stepped
    split at stepped
    · rename_i waiting
      cases stepped
      have nothing := conversation.unqueued (by simp [waiting])
      exact ⟨consistent, conversation.told, fun _ => (heard_silent labels rfl).trans nothing, by simp⟩
    · contradiction
  | own action => exact conversation.own stepped
  | others l =>
    simp only [connection] at stepped
    split at stepped
    · contradiction
    · rename_i other
      obtain ⟨driver, moved, rfl⟩ := Option.map_eq_some_iff.mp stepped
      exact conversation.others (by simpa using other) moved
  | runner action =>
    simp only [connection] at stepped
    split at stepped
    · exact conversation.runner stepped
    · contradiction

theorem start_conversation (driver : Driver.State) (allowed : Option (List String))
    (hostInfo : HostInfo) : Conversation [] (.start driver allowed hostInfo) where
  consistent := start_consistent driver allowed hostInfo
  told _ member := member
  unqueued _ := rfl
  live c task queued := by cases queued

theorem run_conversation (path : (connection tokenForJob).run
    (.start driver allowed hostInfo) labels = some s) : Conversation labels s :=
  Machine.traced (fun _ _ _ _ => step_conversation) (start_conversation driver allowed hostInfo) path

/-! ### What is recorded -/

theorem taskResult_finished (info : TaskInfo) :
    (Driver.taskResult info).2 = .finished ↔ info = .finished "pass" := by
  cases info with
  | finished status => by_cases passed : status = "pass" <;> simp [Driver.taskResult, passed]
  | interrupted => simp [Driver.taskResult]

/-- A status is the last that a job sends, and tells whether it passes. -/
theorem status_last (inOrder : Connection.jobMessages print accepts request world = before ++ after)
    (sent : .taskStatus info ∈ before) :
    after = [] ∧ (info = .finished "pass" ↔ Runner.Passes print accepts world) := by
  have noStatus : ∀ reports, (∀ msg ∈ reports, Runner.IsReport msg) →
      ClientProto.taskStatus info ∉ .started :: reports := by
    intro reports kinds member
    obtain same | later := List.mem_cons.mp member
    · contradiction
    · exact kinds _ later
  have ends : Runner.Ends (Runner.Passes print accepts world) Runner.started
    (Runner.run print accepts request world .start) := Runner.run_ends request world
  obtain ⟨_, reports, all, kinds⟩ | ⟨_, reports, status, all, kinds, passed⟩ := ends
  · refine absurd ?_ (noStatus reports kinds)
    have same : before ++ after = .started :: reports := inOrder.symm.trans all
    rw [← same]
    exact List.mem_append_left _ sent
  · have same : before ++ after = (.started :: reports) ++ [.taskStatus status] :=
      inOrder.symm.trans all
    obtain rfl | ⟨front, last, rfl⟩ := List.eq_nil_or_concat after
    · rw [List.append_nil] at same
      rw [same] at sent
      obtain early | now := List.mem_append.mp sent
      · exact absurd early (noStatus reports kinds)
      · cases List.mem_singleton.mp now
        exact ⟨rfl, passed⟩
    · rw [List.concat_eq_append, ← List.append_assoc] at same
      have early := (List.append_inj' same rfl).1
      refine absurd ?_ (noStatus reports kinds)
      rw [← early]
      exact List.mem_append_left _ sent

/-- The state that a report ends a run in says whether the job passes. -/
theorem recorded_state {row : RunRow} (passed : info = .finished "pass" ↔ p) :
    ((Driver.recordedRow row now info).state = .finished ↔ p) ∧
      ((Driver.recordedRow row now info).state = .error ↔ ¬ p) := by
  have finished : (Driver.taskResult info).2 = .finished ↔ p :=
    (taskResult_finished info).trans passed
  obtain ⟨state, _⟩ | ⟨state, _⟩ := Driver.taskResult_agrees info
  · simp [Driver.recordedRow, ← finished, state]
  · simp [Driver.recordedRow, ← finished, state]

theorem own_records {s t : Connection} (queued : s.handler = .queued c)
    (held : s.driver.tasks c = some task) (recording : task.phase = .recordResult job info)
    (stepped : (connection tokenForJob).step s (.own (.call now)) = some t)
    (found : s.driver.db.runs.get? job.task.id = some row) :
    s.driver.poisoned = true ∧ t.driver.db = s.driver.db ∨
      t.driver.db.runs.get? job.task.id = some (Driver.recordedRow row now info) := by
  simp only [connection, Connection.ownStep, queued, held, Option.bind_eq_bind, Option.bind_some,
    Option.bind_eq_some_iff, Option.pure_def, Option.some.injEq] at stepped
  obtain ⟨⟨chunks, sent, told⟩, _, driver, moved, rfl⟩ := stepped
  obtain ⟨task', db, next, held', taken, rfl⟩ := Driver.step_attempt moved
  cases Option.some.inj (held.symm.trans held')
  rw [Driver.moveTask_db]
  obtain recorded | ⟨poisoned, _, rfl, _⟩ := Driver.attempt_cases taken
  · rw [recording] at recorded
    cases recorded
    exact .inr (Driver.recordStatus_row s.driver.db now info found)
  · exact .inl ⟨poisoned, rfl⟩

/-- The task has heard so much of one job, and the rest is still to come. -/
structure TakesOver (tokenForJob : Nat → String) (labels : List Label) (s : Connection)
    (task : Driver.Task) : Prop where
  inOrder : heard labels = [] ∨ ∃ print accepts world request rest,
    .runner (.recv print accepts world) ∈ labels ∧
    requestedJob task.client task.phase = some request ∧ s.runner = .job rest ∧
    Connection.jobMessages print accepts request world = heard labels ++ (s.toDriver ++ rest)
  inHand : ∀ msg, inHand task.phase = some msg → msg ∈ heard labels
  recorded : ∀ job info now t row, task.phase = .recordResult job info →
    (connection tokenForJob).step s (.own (.call now)) = some t →
    s.driver.db.runs.get? job.task.id = some row →
    ∃ print accepts world, .runner (.recv print accepts world) ∈ labels ∧
      Connection.jobMessages print accepts ⟨job.sha, job.remoteGitUrl, task.client.buildToken⟩ world =
        heard labels ∧
      (s.driver.poisoned = true ∧ t.driver.db = s.driver.db ∨
        ∃ row', t.driver.db.runs.get? job.task.id = some row' ∧
          (row'.state = .finished ↔ Runner.Passes print accepts world) ∧
          (row'.state = .error ↔ ¬ Runner.Passes print accepts world))

theorem Conversation.takesOver (conversation : Conversation labels s) (queued : s.handler = .queued c)
    (held : s.driver.tasks c = some task) (goesOn : task.phase.isOver = false) :
    TakesOver tokenForJob labels s task := by
  have live := conversation.live c task queued held goesOn
  refine ⟨?_, live.inHand, ?_⟩
  · generalize side : s.runner = side
    have relay := live.relay
    rw [side] at relay
    cases relay with
    | before _ nothing => exact .inl nothing
    | job met told inOrder =>
      exact .inr ⟨_, _, _, _, _, met, live.asked _ told, rfl, inOrder⟩
  · intro job info now t row recording stepped found
    have member := live.inHand (.taskStatus info) (recording ▸ rfl)
    have asked := live.asked
    rw [recording] at asked
    have written := own_records queued held recording stepped found
    have relay := live.relay
    generalize s.runner = side at relay
    cases relay with
    | before _ nothing =>
      rw [nothing] at member
      contradiction
    | job met told inOrder =>
      cases asked _ told
      obtain ⟨nothing, passed⟩ := status_last inOrder member
      rw [nothing, List.append_nil] at inOrder
      exact ⟨_, _, _, met, inOrder, written.imp_right fun row => ⟨_, row, recorded_state passed⟩⟩

/-- In every run of a connection, its task hears the messages of one job, each once and in
order, for the commit, url and token it has asked for; what it acts on is among them. The
state it records is `Finished` exactly when the job passes in the world the runner met; on a
poisoned lock it records nothing. -/
theorem results_taken_over (tokenForJob : Nat → String) (driver : Driver.State)
    (allowedPushers : Option (List String)) (hostInfo : HostInfo) (labels : List Label)
    (s : Connection) (path : (connection tokenForJob).run
      (.start driver allowedPushers hostInfo) labels = some s)
    (c : Nat) (task : Driver.Task) (queued : s.handler = .queued c)
    (held : s.driver.tasks c = some task) (goesOn : task.phase.isOver = false) :
    TakesOver tokenForJob labels s task :=
  (run_conversation path).takesOver queued held goesOn

/-- The session up to the record, where the checkout has failed. -/
theorem whole_session_taken_over : ∃ s task, (connection Driver.someToken).run
    (.start (.start .empty 0) none Driver.someHost)
      (wholeSession ++ [.own (.call 0), .own (.call 0), .own (.notify true)]) = some s ∧
      heard (wholeSession ++ [.own (.call 0), .own (.call 0), .own (.notify true)]) =
        [.started, .taskStatus (.finished "bad_ref")] ∧
      inHand task.phase = some (.taskStatus (.finished "bad_ref")) ∧
      TakesOver Driver.someToken
        (wholeSession ++ [.own (.call 0), .own (.call 0), .own (.notify true)]) s task :=
  ⟨_, _, rfl, by decide, rfl, results_taken_over Driver.someToken (.start .empty 0) none
    Driver.someHost _ _ rfl 0 _ rfl rfl rfl⟩

end BuildOTron.Session
