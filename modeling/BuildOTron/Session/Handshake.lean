import BuildOTron.Session.Connection

/-! Driver and runner agree on who speaks next. Until the job starts one message at
most is under way: a `Ping` and its `Pong`, or a `NewTask` and its `Started`. From
then on only the runner speaks, and says nothing but what `ClientJob::run` handles. -/
namespace BuildOTron.Session
open Transition

/-- What a running job sends, and the status that ends it. -/
def FromJob : ClientProto → Prop
  | .taskStatus _ => True
  | msg => Runner.IsReport msg

theorem jobMessages_eq (print : Runner.Printers) (accepts : String → String → Bool)
    (task : RequestedJob) (world : Runner.World) :
    ∃ messages, Connection.jobMessages print accepts task world = .started :: messages ∧
      ∀ msg ∈ messages, FromJob msg := by
  have reported : ∀ msg, Runner.IsReport msg → FromJob msg := by
    intro msg report
    cases msg <;> first | exact report | trivial
  have ends : Runner.Ends (Runner.Passes print accepts world) Runner.started
      (Runner.run print accepts task world .start) := Runner.run_ends task world
  obtain ⟨_, reports, sent, kinds⟩ | ⟨_, reports, status, sent, kinds, _⟩ := ends
  · exact ⟨reports, sent, fun msg member => reported msg (kinds msg member)⟩
  · refine ⟨reports ++ [.taskStatus status], ?_, ?_⟩
    · rw [Connection.jobMessages, sent, Runner.started, List.append_assoc, List.singleton_append]
    intro msg member
    rcases List.mem_append.mp member with before | last
    · exact reported msg (kinds msg before)
    · rw [List.mem_singleton.mp last]
      trivial

/-! ### Who speaks next -/

/-- Nothing is under way: the next word is the driver's. -/
def isQuiet : Driver.Phase → Bool
  | .findWork | .pendingRuns _ | .alternateRun _ | .idle | .deadline | .activateRun _ _
  | .haveRemote _ _ | .haveRepo _ _ | .haveSha _ _ _ | .submit _ => true
  | _ => false

/-- The runner reads next. -/
def RunnerSide.listens : RunnerSide → Bool
  | .requested | .waitForWork => true
  | _ => false

/-- What the runner has yet to read before its first message. -/
def RunnerSide.greeting : RunnerSide → List Chunk
  | .requested => [.hello]
  | _ => []

/-- What a runner may be left to read when the driver's task is over. -/
inductive Readable : RunnerSide → List Chunk → Prop where
  | nothing (listens : side.listens = true) (left : chunks = side.greeting) : Readable side chunks
  | ping (listens : side.listens = true) (left : chunks = side.greeting ++ [.message .ping]) :
      Readable side chunks
  | newTask (listens : side.listens = true)
      (left : chunks = side.greeting ++ [.message (.newTask task)]) : Readable side chunks
  | ponging : Readable .ponging []
  | job : Readable (.job messages) chunks

/-- Where the two sides and the queues between them can be together. -/
inductive Joint : Driver.Phase → RunnerSide → List Chunk → List ClientProto → Prop where
  | quiet (driver : isQuiet phase = true) (listens : side.listens = true)
      (left : chunks = side.greeting) : Joint phase side chunks []
  | ping (listens : side.listens = true) (left : chunks = side.greeting ++ [.message .ping]) :
      Joint .awaitPong side chunks []
  | ponging : Joint .awaitPong .ponging [] []
  | pong : Joint .awaitPong .waitForWork [] [.pong]
  | newTask (listens : side.listens = true)
      (left : chunks = side.greeting ++ [.message (.newTask task)]) :
      Joint (.awaitStarted offer) side chunks []
  | taken (kinds : ∀ msg ∈ messages, FromJob msg) :
      Joint (.awaitStarted offer) (.job (.started :: messages)) [] []
  | started (kinds : ∀ msg ∈ sent ++ messages, FromJob msg) :
      Joint (.awaitStarted offer) (.job messages) [] (.started :: sent)
  | job (acked : phase.acked?.isSome = true) (kinds : ∀ msg ∈ sent ++ messages, FromJob msg) :
      Joint phase (.job messages) chunks sent
  | ended (isOver : phase.isOver = true) (readable : Readable side chunks) :
      Joint phase side chunks sent

theorem Joint.readable (joint : Joint phase side chunks sent) : Readable side chunks := by
  cases joint with
  | quiet _ listens left => exact .nothing listens left
  | ping listens left => exact .ping listens left
  | newTask listens left => exact .newTask listens left
  | ponging => exact .ponging
  | pong => exact .nothing rfl rfl
  | taken | started | job => exact .job
  | ended _ readable => exact readable

/-! ### The runner's steps -/

/-- How the runner moves over what it reads, and what it sends. -/
inductive Speaks : RunnerSide → List Chunk → RunnerSide → List Chunk → List ClientProto → Prop where
  | greeted : Speaks .requested (.hello :: rest) .waitForWork rest []
  | misgreeted (other : chunk ≠ .hello) : Speaks .requested (chunk :: rest) .requested rest []
  | pinged : Speaks .waitForWork (.message .ping :: rest) .ponging rest []
  | given (kinds : ∀ msg ∈ messages, FromJob msg) :
      Speaks .waitForWork (.message (.newTask task) :: rest) (.job (.started :: messages)) rest []
  | puzzled (noPing : chunk ≠ .message .ping) (noTask : ∀ task, chunk ≠ .message (.newTask task)) :
      Speaks .waitForWork (chunk :: rest) .waitForWork rest []
  | pongs : Speaks .ponging chunks .waitForWork chunks [.pong]
  | reports : Speaks (.job (msg :: rest)) chunks (.job rest) chunks [msg]
  | silent : Speaks side chunks side chunks []

theorem recv_speaks {s t : Connection} (listens : s.runner = .waitForWork)
    (arrived : s.toRunner = chunk :: rest)
    (stepped : s.runnerStep (.recv print accepts world) = some t) :
    Speaks s.runner s.toRunner t.runner t.toRunner [] ∧ t.toDriver = s.toDriver ∧
      t.driver = s.driver ∧ t.handler = s.handler ∧ t.told = s.told := by
  obtain ⟨driver, handler, side, connected, chunks, sent, told⟩ := s
  cases listens
  cases arrived
  cases chunk with
  | message msg =>
    cases msg with
    | newTask task =>
      obtain ⟨messages, same, kinds⟩ := jobMessages_eq print accepts task world
      cases stepped
      rw [same]
      exact ⟨.given kinds, rfl, rfl, rfl, rfl⟩
    | ping =>
      cases stepped
      exact ⟨.pinged, rfl, rfl, rfl, rfl⟩
    | _ =>
      cases stepped
      exact ⟨.puzzled (by simp) (by simp), rfl, rfl, rfl, rfl⟩
  | hello | reply =>
    cases stepped
    exact ⟨.puzzled (by simp) (by simp), rfl, rfl, rfl, rfl⟩

theorem runnerStep_speaks {s t : Connection} (stepped : s.runnerStep action = some t) :
    ∃ said, Speaks s.runner s.toRunner t.runner t.toRunner said ∧
      t.toDriver = s.toDriver ++ said ∧ t.driver = s.driver ∧ t.handler = s.handler ∧
      t.told = s.told := by
  obtain ⟨driver, handler, side, connected, chunks, sent, told⟩ := s
  cases action with
  | response =>
    refine ⟨[], ?_⟩
    rw [List.append_nil]
    cases side with
    | requested =>
      cases handler with
      | waiting => contradiction
      | refused =>
        cases stepped
        exact ⟨.silent, rfl, rfl, rfl, rfl⟩
      | queued c =>
        cases chunks with
        | nil => contradiction
        | cons chunk rest =>
          cases chunk with
          | hello =>
            cases stepped
            exact ⟨.greeted, rfl, rfl, rfl, rfl⟩
          | message | reply =>
            cases stepped
            exact ⟨.misgreeted (by simp), rfl, rfl, rfl, rfl⟩
    | waitForWork | ponging | job => contradiction
  | recv print accepts world =>
    refine ⟨[], ?_⟩
    rw [List.append_nil]
    cases side with
    | waitForWork =>
      cases chunks with
      | nil => contradiction
      | cons chunk rest => exact recv_speaks rfl rfl stepped
    | requested | ponging | job => contradiction
  | send =>
    cases side with
    | ponging =>
      cases stepped
      exact ⟨[.pong], .pongs, rfl, rfl, rfl, rfl⟩
    | job messages =>
      cases messages with
      | nil => contradiction
      | cons msg rest =>
        cases stepped
        exact ⟨[msg], .reports, rfl, rfl, rfl, rfl⟩
    | requested | waitForWork => contradiction
  | disconnect =>
    cases stepped
    exact ⟨[], .silent, (List.append_nil _).symm, rfl, rfl, rfl⟩

/-- A listening runner is still to be greeted, or reads the word under way, or waits. -/
theorem Speaks.listening (speaks : Speaks side chunks side' chunks' said)
    (listens : side.listens = true) (left : chunks = side.greeting ++ word) :
    said = [] ∧ ((side'.listens = true ∧ chunks' = side'.greeting ++ word) ∨
      ∃ chunk, word = chunk :: chunks' ∧ Speaks .waitForWork word side' chunks' []) := by
  cases speaks with
  | greeted =>
    cases left
    exact ⟨rfl, .inl ⟨rfl, rfl⟩⟩
  | misgreeted other =>
    cases left
    contradiction
  | pinged =>
    cases left
    exact ⟨rfl, .inr ⟨_, rfl, .pinged⟩⟩
  | given kinds =>
    cases left
    exact ⟨rfl, .inr ⟨_, rfl, .given kinds⟩⟩
  | puzzled noPing noTask =>
    cases left
    exact ⟨rfl, .inr ⟨_, rfl, .puzzled noPing noTask⟩⟩
  | silent => exact ⟨rfl, .inl ⟨listens, left⟩⟩
  | pongs | reports => contradiction

theorem Speaks.ping (speaks : Speaks .waitForWork [.message .ping] side [] said) :
    side = .ponging := by
  cases speaks with
  | pinged => rfl
  | puzzled noPing => contradiction

theorem Speaks.newTask (speaks : Speaks .waitForWork [.message (.newTask task)] side [] said) :
    ∃ messages, side = .job (.started :: messages) ∧ ∀ msg ∈ messages, FromJob msg := by
  cases speaks with
  | given kinds => exact ⟨_, rfl, kinds⟩
  | puzzled _ noTask => exact absurd rfl (noTask task)

theorem Readable.speaks (readable : Readable side chunks)
    (speaks : Speaks side chunks side' chunks' said) : Readable side' chunks' := by
  cases readable with
  | nothing listens left =>
    obtain ⟨_, ⟨listens', left'⟩ | ⟨chunk, word, _⟩⟩ :=
      speaks.listening listens (left.trans (List.append_nil _).symm)
    · exact .nothing listens' (left'.trans (List.append_nil _))
    · contradiction
  | ping listens left =>
    obtain ⟨_, ⟨listens', left'⟩ | ⟨chunk, word, reads⟩⟩ := speaks.listening listens left
    · exact .ping listens' left'
    · cases word
      rw [reads.ping]
      exact .ponging
  | newTask listens left =>
    obtain ⟨_, ⟨listens', left'⟩ | ⟨chunk, word, reads⟩⟩ := speaks.listening listens left
    · exact .newTask listens' left'
    · cases word
      obtain ⟨messages, rfl, _⟩ := reads.newTask
      exact .job
  | ponging =>
    cases speaks with
    | pongs => exact .nothing rfl rfl
    | silent => exact .ponging
  | job => cases speaks <;> exact .job

theorem Joint.speaks (joint : Joint phase side chunks sent)
    (speaks : Speaks side chunks side' chunks' said) : Joint phase side' chunks' (sent ++ said) := by
  cases joint with
  | quiet driver listens left =>
    obtain ⟨rfl, ⟨listens', left'⟩ | ⟨chunk, word, _⟩⟩ :=
      speaks.listening listens (left.trans (List.append_nil _).symm)
    · exact .quiet driver listens' (left'.trans (List.append_nil _))
    · contradiction
  | ping listens left =>
    obtain ⟨rfl, ⟨listens', left'⟩ | ⟨chunk, word, reads⟩⟩ := speaks.listening listens left
    · exact .ping listens' left'
    · cases word
      rw [reads.ping]
      exact .ponging
  | newTask listens left =>
    obtain ⟨rfl, ⟨listens', left'⟩ | ⟨chunk, word, reads⟩⟩ := speaks.listening listens left
    · exact .newTask listens' left'
    · cases word
      obtain ⟨messages, rfl, kinds⟩ := reads.newTask
      exact .taken kinds
  | ponging =>
    cases speaks with
    | pongs => exact .pong
    | silent => exact .ponging
  | pong =>
    cases speaks
    exact .pong
  | taken kinds =>
    cases speaks with
    | reports => exact .started (by simpa using kinds)
    | silent => exact .taken kinds
  | started kinds =>
    cases speaks with
    | reports => exact .started (by simpa using kinds)
    | silent => exact .started (by simpa using kinds)
  | job acked kinds =>
    cases speaks with
    | reports => exact .job acked (by simpa using kinds)
    | silent => exact .job acked (by simpa using kinds)
  | ended isOver readable => exact .ended isOver (readable.speaks speaks)

/-! ### The driver's steps -/

theorem Joint.of_quiet (joint : Joint phase side chunks sent) (driver : isQuiet phase = true) :
    side.listens = true ∧ chunks = side.greeting ∧ sent = [] := by
  cases joint with
  | quiet _ listens left => exact ⟨listens, left, rfl⟩
  | ping | ponging | pong | newTask | taken | started => contradiction
  | job acked => cases phase <;> simp_all [isQuiet, Driver.Phase.acked?, Driver.Phase.job?]
  | ended isOver => cases phase <;> simp_all [isQuiet, Driver.Phase.isOver]

theorem Joint.of_acked (joint : Joint phase side chunks sent) (acked : phase.acked?.isSome = true) :
    ∃ messages, side = .job messages ∧ ∀ msg ∈ sent ++ messages, FromJob msg := by
  cases joint with
  | job _ kinds => exact ⟨_, rfl, kinds⟩
  | quiet driver => cases phase <;> simp_all [isQuiet, Driver.Phase.acked?, Driver.Phase.job?]
  | ended isOver => cases phase <;> simp_all [Driver.Phase.isOver, Driver.Phase.acked?, Driver.Phase.job?]
  | ping | ponging | pong | newTask | taken | started => contradiction

/-- What an action of the task does to the queues. -/
inductive Exchanges (s : Connection) (client : Driver.RunnerClient) (phase : Driver.Phase) :
    Driver.Action → List Chunk → List ClientProto → List Chunk → Prop where
  | message (arrived : s.toDriver = msg :: sent) :
      Exchanges s client phase (.recv (.message msg)) s.toRunner sent s.told
  | broken (noMessage : ∀ msg, received ≠ .message msg) :
      Exchanges s client phase (.recv received) s.toRunner s.toDriver s.told
  | sends : Exchanges s client phase (.send true) (s.toRunner ++ (toSend client phase).toList)
      s.toDriver (s.told ++ (toSend client phase).toList)
  | apart (noSend : action ≠ .send true) (noRecv : ∀ received, action ≠ .recv received) :
      Exchanges s client phase action s.toRunner s.toDriver s.told

theorem exchange_cases {s : Connection}
    (exchanged : s.exchange client phase action = some (chunks, sent, told)) :
    Exchanges s client phase action chunks sent told := by
  cases action with
  | send went =>
    cases went <;> cases exchanged
    · exact .apart (by simp) (by simp)
    · exact .sends
  | recv received =>
    cases received with
    | message msg =>
      simp only [Connection.exchange] at exchanged
      split at exchanged
      · rename_i first rest arrived
        split at exchanged
        · rename_i same
          cases exchanged
          exact .message (same ▸ arrived)
        · contradiction
      · contradiction
    | hangup =>
      simp only [Connection.exchange] at exchanged
      split at exchanged
      · rename_i gone
        cases exchanged
        rw [← gone.2]
        exact .broken (by simp)
      · contradiction
    | failed =>
      cases exchanged
      exact .broken (by simp)
    | undecodable => contradiction
  | call | wrapped | elapsed | reserveDir | upsert | notify =>
    cases exchanged
    exact .apart (by simp) (by simp)

/-- A call is between the task and the database. -/
theorem Exchanges.locks (exchanges : Exchanges s client phase action chunks sent told)
    (locks : action.locks = true) : chunks = s.toRunner ∧ sent = s.toDriver := by
  cases exchanges with
  | apart => exact ⟨rfl, rfl⟩
  | message | broken | sends => contradiction

theorem send_goes_on (moved : Driver.taskStep client db phase (.send true) = some (db', next)) :
    next.isOver = false := by
  cases phase with
  | idle | submit | replying =>
    cases moved
    rfl
  | pendingRuns runs => cases runs <;> contradiction
  | _ => contradiction

theorem job_goes_on {job : Driver.ClientJob} (fromJob : FromJob msg) :
    (Driver.handleMessage job (.message msg)).acked?.isSome = true := by
  cases msg <;> first | rfl | contradiction

theorem Joint.step {s : Connection} (joint : Joint phase s.runner s.toRunner s.toDriver)
    (exchanged : Exchanges s client phase action chunks sent told)
    (moved : Driver.taskStep client db phase action = some (db', next)) :
    Joint next s.runner chunks sent := by
  cases exchanged with
  | apart noSend noRecv =>
    cases Driver.taskStep_moves moved with
    | ends ended => exact .ended ended joint.readable
    | getPendingRuns | takes | declines | alternate | nothing | newRun | again | remoteById
    | repoById | commitSha | reserves =>
      obtain ⟨listens, left, none⟩ := joint.of_quiet rfl
      rw [none]
      exact .quiet rfl listens left
    | activates | insertMetric | jobById | repoIdByRemote | notifies | records =>
      obtain ⟨messages, side, kinds⟩ := joint.of_acked rfl
      rw [side]
      exact .job rfl kinds
    | pings | offers | replies => exact absurd rfl noSend
    | pong | acked | reads => exact absurd rfl (noRecv _)
  | sends =>
    cases Driver.taskStep_moves moved with
    | ends ended =>
      rw [send_goes_on moved] at ended
      contradiction
    | pings =>
      obtain ⟨listens, left, none⟩ := joint.of_quiet rfl
      rw [none, left]
      exact .ping listens rfl
    | offers =>
      obtain ⟨listens, left, none⟩ := joint.of_quiet rfl
      rw [none, left]
      exact .newTask listens rfl
    | replies =>
      obtain ⟨messages, side, kinds⟩ := joint.of_acked rfl
      rw [side]
      exact .job rfl kinds
  | @broken received noMessage =>
    cases Driver.taskStep_moves moved with
    | ends ended => exact .ended ended joint.readable
    | pong | acked => exact absurd rfl (noMessage _)
    | reads within =>
      simp only [Driver.taskStep, Option.some.injEq, Prod.mk.injEq, true_and] at moved
      rw [← moved] at within
      cases received with
      | message msg => exact absurd rfl (noMessage msg)
      | hangup | failed | undecodable => contradiction
  | @message msg sent arrived =>
    rw [arrived] at joint
    cases Driver.taskStep_moves moved with
    | ends ended => exact .ended ended joint.readable
    | pong =>
      generalize s.runner = side, s.toRunner = chunks at joint
      cases joint with
      | pong => exact .quiet rfl rfl rfl
      | job | ended => contradiction
    | acked =>
      generalize s.runner = side, s.toRunner = chunks at joint
      cases joint with
      | started kinds => exact .job rfl kinds
      | job | ended => contradiction
    | reads within =>
      simp only [Driver.taskStep, Option.some.injEq, Prod.mk.injEq, true_and] at moved
      obtain ⟨messages, side, kinds⟩ := joint.of_acked rfl
      rw [side, ← moved]
      refine .job (job_goes_on (kinds msg (by simp))) ?_
      exact fun other member => kinds other (List.mem_cons_of_mem msg member)

/-- A task that finds the lock poisoned is over, and has read and sent nothing. -/
theorem Joint.own {s : Connection} {driver : Driver.State} {task : Driver.Task}
    (joint : Joint task.phase s.runner s.toRunner s.toDriver)
    (exchanged : Exchanges s task.client task.phase action chunks sent told)
    (moved : driver.attempt task action = some (db', next)) : Joint next s.runner chunks sent := by
  obtain stepped | ⟨_, locks, _, rfl⟩ := Driver.attempt_cases moved
  · exact joint.step exchanged stepped
  · obtain ⟨rfl, rfl⟩ := exchanged.locks locks
    exact .ended rfl joint.readable

/-! ### Runs of the connection -/

def isNewTask : Chunk → Bool
  | .message (.newTask _) => true
  | _ => false

/-- The phase of the connection's task; a task that a restart has dropped is over. -/
def taskPhase (driver : Driver.State) (c : Nat) : Driver.Phase :=
  ((driver.tasks c).map Driver.Task.phase).getD (.returned none)

/-- No task has been offered yet. -/
def unoffered (phase : Driver.Phase) : Bool := isQuiet phase || phase = .awaitPong

structure Consistent (s : Connection) : Prop where
  request : s.handler = .waiting → ∃ allowed hostInfo, s.toDriver = [.newTaskPlease allowed hostInfo]
  unqueued : (∀ c, s.handler ≠ .queued c) →
    s.runner = .requested ∧ s.toRunner = [.hello] ∧ s.told.countP isNewTask = 0
  queued : ∀ c, s.handler = .queued c → c < s.driver.clients ∧
    Joint (taskPhase s.driver c) s.runner s.toRunner s.toDriver
  offered : ∀ c, s.handler = .queued c → unoffered (taskPhase s.driver c) = true →
    s.told.countP isNewTask = 0
  once : s.told.countP isNewTask ≤ 1

/-- What either side is about to read is what it expects. -/
structure Conforms (s : Connection) : Prop where
  request : s.handler = .waiting → ∀ msg rest, s.toDriver = msg :: rest →
    ∃ allowed hostInfo, msg = .newTaskPlease allowed hostInfo
  greeting : s.runner = .requested → ∀ chunk rest, s.toRunner = chunk :: rest → chunk = .hello
  waitForWork : s.runner = .waitForWork → ∀ chunk rest, s.toRunner = chunk :: rest →
    chunk = .message .ping ∨ ∃ task, chunk = .message (.newTask task)
  testConnection : ∀ c task, s.handler = .queued c → s.driver.tasks c = some task →
    task.phase = .awaitPong → ∀ msg rest, s.toDriver = msg :: rest → msg = .pong
  submit : ∀ c task offer, s.handler = .queued c → s.driver.tasks c = some task →
    task.phase = .awaitStarted offer → ∀ msg rest, s.toDriver = msg :: rest → msg = .started
  job : ∀ c task job, s.handler = .queued c → s.driver.tasks c = some task →
    task.phase = .running job → ∀ msg rest, s.toDriver = msg :: rest →
      (∃ info, msg = .command info) ∨ (∃ name value, msg = .metric name value) ∨
        ∃ info, msg = .taskStatus info
  newTask : s.told.countP isNewTask ≤ 1

theorem fromJob_cases (fromJob : FromJob msg) : (∃ info, msg = .command info) ∨
    (∃ name value, msg = .metric name value) ∨ ∃ info, msg = .taskStatus info := by
  cases msg with
  | command info => exact .inl ⟨info, rfl⟩
  | metric name value => exact .inr (.inl ⟨name, value, rfl⟩)
  | taskStatus info => exact .inr (.inr ⟨info, rfl⟩)
  | _ => contradiction

theorem Readable.greeting (readable : Readable .requested (chunk :: rest)) : chunk = .hello := by
  cases readable with
  | nothing _ left | ping _ left | newTask _ left =>
    cases left
    rfl

theorem Readable.word (readable : Readable .waitForWork (chunk :: rest)) :
    chunk = .message .ping ∨ ∃ task, chunk = .message (.newTask task) := by
  cases readable with
  | nothing _ left => contradiction
  | ping _ left =>
    cases left
    exact .inl rfl
  | newTask _ left =>
    cases left
    exact .inr ⟨_, rfl⟩

theorem Consistent.conforms (consistent : Consistent s) : Conforms s := by
  have joint : ∀ c task, s.handler = .queued c → s.driver.tasks c = some task →
      Joint task.phase s.runner s.toRunner s.toDriver := by
    intro c task queued held
    have both := (consistent.queued c queued).2
    rwa [taskPhase, held] at both
  have readable : (∀ c, s.handler ≠ .queued c) ∨ Readable s.runner s.toRunner := by
    by_cases queued : ∃ c, s.handler = .queued c
    · obtain ⟨c, queued⟩ := queued
      exact .inr (consistent.queued c queued).2.readable
    · exact .inl fun c same => queued ⟨c, same⟩
  refine ⟨?_, ?_, ?_, ?_, ?_, ?_, consistent.once⟩
  · intro waiting msg rest arrived
    obtain ⟨allowed, hostInfo, only⟩ := consistent.request waiting
    rw [only] at arrived
    cases arrived
    exact ⟨allowed, hostInfo, rfl⟩
  · intro side chunk rest arrived
    obtain unqueued | readable := readable
    · obtain ⟨_, only, _⟩ := consistent.unqueued unqueued
      rw [only] at arrived
      cases arrived
      rfl
    · rw [side, arrived] at readable
      exact readable.greeting
  · intro side chunk rest arrived
    obtain unqueued | readable := readable
    · rw [(consistent.unqueued unqueued).1] at side
      contradiction
    · rw [side, arrived] at readable
      exact readable.word
  · intro c task queued held waiting msg rest arrived
    have both := joint c task queued held
    rw [waiting, arrived] at both
    generalize s.runner = side, s.toRunner = chunks at both
    cases both with
    | pong => rfl
    | job | ended => contradiction
  · intro c task offer queued held waiting msg rest arrived
    have both := joint c task queued held
    rw [waiting, arrived] at both
    generalize s.runner = side, s.toRunner = chunks at both
    cases both with
    | started => rfl
    | job | ended => contradiction
  · intro c task job queued held running msg rest arrived
    have both := joint c task queued held
    rw [running, arrived] at both
    obtain ⟨_, _, kinds⟩ := both.of_acked rfl
    exact fromJob_cases (kinds msg (by simp))

theorem start_consistent (driver : Driver.State) (allowed : Option (List String))
    (hostInfo : HostInfo) : Consistent (.start driver allowed hostInfo) where
  request _ := ⟨allowed, hostInfo, rfl⟩
  unqueued _ := ⟨rfl, rfl, rfl⟩
  queued c queued := by cases queued
  offered c queued := by cases queued
  once := Nat.zero_le _

theorem unoffered_before (moves : Driver.Moves client db phase action db' next)
    (later : unoffered next = true) : unoffered phase = true := by
  cases moves with
  | ends ended => cases next <;> simp_all [unoffered, isQuiet, Driver.Phase.isOver]
  | reads within => cases next <;> simp_all [unoffered, isQuiet, Driver.Phase.job?]
  | offers | acked | activates | replies | insertMetric | jobById | repoIdByRemote | notifies
  | records => contradiction
  | _ => rfl

/-- A task sends one `NewTask`, on its way from `submit`. -/
theorem told_own {s : Connection} (exchanged : Exchanges s client phase action chunks sent told)
    (moves : Driver.Moves client db phase action db' next)
    (goesOn : action = .send true → next.isOver = false)
    (none : unoffered phase = true → s.told.countP isNewTask = 0)
    (once : s.told.countP isNewTask ≤ 1) :
    (unoffered next = true → told.countP isNewTask = 0) ∧ told.countP isNewTask ≤ 1 := by
  cases exchanged with
  | message | broken | apart =>
    exact ⟨fun later => none (unoffered_before moves later), once⟩
  | sends =>
    rw [List.countP_append]
    cases moves with
    | ends ended =>
      rw [goesOn rfl] at ended
      contradiction
    | pings =>
      have still : s.told.countP isNewTask + (toSend client .idle).toList.countP isNewTask = 0 := by
        rw [none rfl]
        rfl
      exact ⟨fun _ => still, by omega⟩
    | @offers offer =>
      have one : s.told.countP isNewTask +
          (toSend client (.submit offer)).toList.countP isNewTask = 1 := by
        rw [none rfl]
        rfl
      exact ⟨fun later => (by cases later), by omega⟩
    | replies => exact ⟨fun later => (by cases later), once⟩

theorem Consistent.handle {s t : Connection} (consistent : Consistent s)
    (stepped : s.handle tokenForJob queueFull = some t) : Consistent t := by
  have waiting : s.handler = .waiting := by
    unfold Connection.handle at stepped
    split at stepped <;> first | assumption | contradiction
  obtain ⟨allowed, hostInfo, only⟩ := consistent.request waiting
  obtain ⟨side, chunks, untold⟩ := consistent.unqueued (by simp [waiting])
  simp only [Connection.handle, waiting, only] at stepped
  split at stepped <;> cases stepped
  · rename_i answered
    refine ⟨by simp, fun unqueued => absurd rfl (unqueued _), ?_, fun _ _ _ => untold, consistent.once⟩
    rintro _ ⟨⟩
    rw [Driver.connect_answered (congrArg Prod.fst answered)]
    refine ⟨Nat.lt_succ_self _, ?_⟩
    simp only [taskPhase, Function.update_self, Option.map_some, Option.getD_some]
    exact .quiet rfl (by rw [side]; rfl) (by rw [chunks, side]; rfl)
  · exact ⟨by simp, fun _ => ⟨side, chunks, untold⟩, by simp, by simp, consistent.once⟩

theorem Consistent.own {s t : Connection} (consistent : Consistent s)
    (stepped : s.ownStep tokenForJob action = some t) : Consistent t := by
  unfold Connection.ownStep at stepped
  split at stepped
  · rename_i c queued
    simp only [Option.bind_eq_bind, Option.bind_eq_some_iff, Option.pure_def, Option.some.injEq] at stepped
    obtain ⟨task, held, ⟨chunks, sent, told⟩, exchanged, driver, moved, rfl⟩ := stepped
    obtain ⟨task', db, next, held', taken, rfl⟩ := Driver.step_attempt moved
    cases Option.some.inj (held.symm.trans held')
    obtain ⟨older, joint⟩ := consistent.queued c queued
    have none := consistent.offered c queued
    have before : taskPhase s.driver c = task.phase := by rw [taskPhase, held]; rfl
    have after : taskPhase (s.driver.moveTask c task action db next) c = next := by
      rw [taskPhase, Driver.moveTask_tasks, Function.update_self]
      rfl
    rw [before] at joint none
    have exchanges := exchange_cases exchanged
    have goesOn : action = .send true → next.isOver = false := by
      rintro rfl
      obtain stepped | ⟨_, locks, _⟩ := Driver.attempt_cases taken
      · exact send_goes_on stepped
      · contradiction
    obtain ⟨none', once⟩ := told_own exchanges (Driver.attempt_moves taken) goesOn none consistent.once
    refine ⟨by simp [queued], fun unqueued => absurd queued (unqueued c), ?_, ?_, once⟩
    · intro c' queued'
      cases queued.symm.trans queued'
      rw [Driver.moveTask_clients, after]
      exact ⟨older, joint.own exchanges taken⟩
    · intro c' queued'
      cases queued.symm.trans queued'
      rw [after]
      exact none'
  · contradiction

/-- A step that is not the task's own leaves the task alone, unless it drops it. -/
theorem others_taskPhase {s t : Driver.State}
    (stepped : (Driver.machine tokenForJob).step s l = some t) (older : c < s.clients)
    (other : ∀ action, l ≠ .task c action) :
    taskPhase t c = taskPhase s c ∨ taskPhase t c = .returned none := by
  cases held : t.tasks c with
  | none => exact .inr (by rw [taskPhase, held]; rfl)
  | some task =>
    obtain ⟨rfl, _⟩ | ⟨same, _⟩ | ⟨_, action, _, own, _⟩ := Driver.step_tasks stepped held
    · exact absurd older (Nat.lt_irrefl _)
    · exact .inl (by rw [taskPhase, taskPhase, held, same])
    · exact absurd own (other action)

theorem Consistent.others {s : Connection} (consistent : Consistent s) (other : s.owns l = false)
    (stepped : (Driver.machine tokenForJob).step s.driver l = some driver) :
    Consistent { s with driver := driver } := by
  have phases : ∀ c, s.handler = .queued c →
      taskPhase driver c = taskPhase s.driver c ∨ taskPhase driver c = .returned none := by
    intro c queued
    refine others_taskPhase stepped (consistent.queued c queued).1 ?_
    rintro action rfl
    exact of_decide_eq_false other queued
  refine ⟨consistent.request, consistent.unqueued, ?_, ?_, consistent.once⟩
  · intro c queued
    obtain ⟨older, joint⟩ := consistent.queued c queued
    refine ⟨Nat.lt_of_lt_of_le older (Driver.step_clients stepped), ?_⟩
    obtain same | dropped := phases c queued
    · rw [same]
      exact joint
    · rw [dropped]
      exact .ended rfl joint.readable
  · intro c queued early
    obtain same | dropped := phases c queued
    · exact consistent.offered c queued (same ▸ early)
    · rw [dropped] at early
      cases early

/-- Without a response the runner can only leave, or find that it is refused. -/
theorem runnerStep_unqueued {s t : Connection} (unqueued : ∀ c, s.handler ≠ .queued c)
    (side : s.runner = .requested) (stepped : s.runnerStep action = some t) :
    t = { s with connected := false } := by
  cases action with
  | response =>
    cases handler : s.handler with
    | queued c => exact absurd handler (unqueued c)
    | waiting => simp [Connection.runnerStep, side, handler] at stepped
    | refused =>
      simp only [Connection.runnerStep, side, handler, Option.some.injEq] at stepped
      rw [← stepped, side]
  | recv | send => simp [Connection.runnerStep, side] at stepped
  | disconnect =>
    cases stepped
    rfl

theorem Consistent.runner {s t : Connection} (consistent : Consistent s)
    (stepped : s.runnerStep action = some t) : Consistent t := by
  by_cases queued : ∃ c, s.handler = .queued c
  · obtain ⟨c, queued⟩ := queued
    obtain ⟨said, speaks, sent, driver, handler, told⟩ := runnerStep_speaks stepped
    refine ⟨?_, ?_, ?_, ?_, ?_⟩
    · intro waiting
      rw [handler, queued] at waiting
      contradiction
    · intro unqueued
      exact absurd (handler.trans queued) (unqueued c)
    · intro c' queued'
      obtain ⟨older, joint⟩ := consistent.queued c' (handler.symm.trans queued')
      rw [driver, sent]
      exact ⟨older, joint.speaks speaks⟩
    · intro c' queued'
      rw [driver, told]
      exact consistent.offered c' (handler.symm.trans queued')
    · rw [told]
      exact consistent.once
  · have unqueued : ∀ c, s.handler ≠ .queued c := fun c same => queued ⟨c, same⟩
    rw [runnerStep_unqueued unqueued (consistent.unqueued unqueued).1 stepped]
    exact ⟨consistent.request, consistent.unqueued, consistent.queued, consistent.offered,
      consistent.once⟩

theorem Consistent.abandon {s : Connection} (consistent : Consistent s)
    (waiting : s.handler = .waiting) : Consistent { s with handler := .refused } :=
  ⟨nofun, fun _ => consistent.unqueued (by simp [waiting]), nofun, nofun, consistent.once⟩

theorem step_consistent (consistent : Consistent s)
    (stepped : (connection tokenForJob).step s l = some t) : Consistent t := by
  cases l with
  | handle queueFull => exact consistent.handle stepped
  | abandon =>
    simp only [connection] at stepped
    split at stepped
    · cases stepped
      exact consistent.abandon ‹_›
    · contradiction
  | own action => exact consistent.own stepped
  | others l =>
    simp only [connection] at stepped
    split at stepped
    · contradiction
    · rename_i other
      obtain ⟨driver, moved, rfl⟩ := Option.map_eq_some_iff.mp stepped
      exact consistent.others (by simpa using other) moved
  | runner action =>
    simp only [connection] at stepped
    split at stepped
    · exact consistent.runner stepped
    · contradiction

/-- A runner and a driver, whatever the driver is doing besides, whoever stops and
whenever: each side is only ever sent what it expects next, and one task at most. -/
theorem handshake_conformance (tokenForJob : Nat → String) (driver : Driver.State)
    (allowedPushers : Option (List String)) (hostInfo : HostInfo) (labels : List Label)
    (s : Connection) (path : (connection tokenForJob).run
      (.start driver allowedPushers hostInfo) labels = some s) : Conforms s :=
  (Machine.invariant (fun _ _ _ => step_consistent)
    (start_consistent driver allowedPushers hostInfo) path).conforms

/-- The artifact endpoint takes everything, and `git clone` cannot be spawned. -/
def takesWork : Label :=
  .runner (.recv ⟨fun _ => "", fun text => text, fun _ => "", fun _ => ""⟩ (fun _ _ => true)
    ⟨"x86_64", true, .notSpawned "", .notSpawned "", .notFound (.notSpawned "") (.notSpawned "")⟩)

/-- One round of `Ping` and `Pong`, and a task once a push has come in. -/
def wholeSession : List Label :=
  [.handle false, .runner .response, .own (.call 100000000), .own (.call 100000000),
    .own (.send true), takesWork, .runner .send, .own (.recv (.message .pong)), .own (.elapsed 0)] ++
  Driver.pushed.map .others ++
  [.own (.call 0), .own (.call 0), .own (.call 0), .own (.call 0), .own (.call 0),
    .own (.reserveDir true), .own (.send true), takesWork, .runner .send,
    .own (.recv (.message .started)), .own (.call 0), .runner .send, .runner .disconnect,
    .own (.recv (.message (.taskStatus (.finished "bad_ref"))))]

theorem whole_session_conforms : ∃ s, (connection Driver.someToken).run
    (.start (.start .empty 0) none Driver.someHost) wholeSession = some s ∧
      s.told = [.hello, .message .ping,
        .message (.newTask ⟨"f00d", "https://www.github.com/owner/repo.git", Driver.someToken 0⟩)] ∧
      Conforms s :=
  ⟨_, rfl, rfl, handshake_conformance Driver.someToken (.start .empty 0) none Driver.someHost
    wholeSession _ rfl⟩

end BuildOTron.Session
