import BuildOTron.Core.Framing
import BuildOTron.Core.Hosts
import BuildOTron.Driver.Steps
import BuildOTron.Lib.Channel
import BuildOTron.Lib.JsonUtf8

/-! How a connection comes to have a task: `handle_next_job` answers the request, the
channel of `make_api_server` holds its client, and the loop of `main` spawns the task.
Requests, the channel and the rest of the driver go on beside one another. -/
namespace BuildOTron.Admission
open Driver Transition

inductive StatusCode where
  | ok
  | badRequest
  | misdirectedRequest
  | imATeapot
  deriving DecidableEq, Repr

/-- `to_str().unwrap_or("")`, of a header that is there. -/
def textOrEmpty : Header → Option String
  | .absent => none
  | .text value => some value
  | .unreadable => some ""

def authorized (authSecret : Option String) (authorization : Header) : Bool :=
  match textOrEmpty authorization with
  | none => false
  | some token => some token = authSecret

/-- What the first read of the request's body comes back with. -/
inductive Chunk where
  | bytes (chunk : List UInt8)
  | failed
  | ended
  deriving DecidableEq, Repr

/-- The arguments of a `NewTaskPlease`. What is not UTF-8 panics, and so does a body
without a first chunk. -/
def workRequest : Chunk → Outcome StatusCode (Option (List String) × HostInfo)
  | .bytes chunk =>
    match Json.textOf chunk with
    | none => .panic
    | some _ =>
      match (Json.parse chunk).bind ClientProto.ofJson with
      | some (.newTaskPlease allowedPushers hostInfo) => .ok (allowedPushers, hostInfo)
      | _ => .err .misdirectedRequest
  | _ => .panic

/-- A client that `RunnerClient::new` has made, with the request it came from. -/
structure Candidate where
  request : Nat
  connection : Nat
  client : RunnerClient

/-- `handle_next_job`, at the points between which other things may happen. -/
inductive Handler where
  /-- the greeting is sent, the first chunk is not in -/
  | greeted
  /-- the client is made and not yet sent to `main` -/
  | registered (candidate : Candidate)
  /-- a status, and the body so far -/
  | answered (status : StatusCode) (body : List (List UInt8))
  /-- it panicked, or was dropped with its connection -/
  | gone

structure Request where
  authorization : Header
  /-- history: what it read -/
  chunk : Option Chunk
  handler : Handler

structure State where
  driver : Driver.State
  requests : List Request
  /-- history: the clients that this process has made -/
  made : List Candidate
  channel : Channel Candidate 8

inductive Label where
  | request (authorization : Header)
  | chunk (r : Nat) (chunk : Chunk)
  | abandon (r : Nat)
  | trySend (r : Nat)
  /-- `main` -/
  | recv
  | driver (l : Driver.Label)

namespace State

def start (driver : Driver.State) : State := ⟨driver, [], [], .empty⟩

def arrive (s : State) (request : Request) : State := { s with requests := s.requests ++ [request] }

def setHandler (s : State) (r : Nat) (request : Request) (handler : Handler) : State :=
  { s with requests := s.requests.set r { request with handler := handler } }

/-- `id_for_host`, which may panic and whose error is `expect`ed away, and `RunnerClient::new`. -/
def register (tokenForJob : Nat → String) (s : State) (r : Nat) (request : Request)
    (allowedPushers : Option (List String)) (hostInfo : HostInfo) : State :=
  match s.driver.idForHost hostInfo with
  | (.ok hostId, driver) =>
    let c := driver.clients
    let candidate : Candidate := ⟨r, c, ⟨hostId, tokenForJob c, allowedPushers⟩⟩
    { s with
      driver := { driver with clients := c + 1 }
      made := s.made ++ [candidate] }.setHandler r request (.registered candidate)
  | (_, driver) => { s with driver := driver }.setHandler r request .gone

/-- What `handle_next_job` makes of the first chunk. -/
def read (tokenForJob : Nat → String) (s : State) (r : Nat) (request : Request) (chunk : Chunk) :
    State :=
  let request := { request with chunk := some chunk }
  match workRequest chunk with
  | .ok (allowedPushers, hostInfo) => s.register tokenForJob r request allowedPushers hostInfo
  | .err status => s.setHandler r request (.answered status [hello])
  | .panic => s.setHandler r request .gone

/-- The receiver lives as long as `main`, so the channel is never closed. -/
def trySend (s : State) (r : Nat) (request : Request) (candidate : Candidate) : State :=
  match s.channel.trySend candidate with
  | some channel => { s with channel := channel }.setHandler r request (.answered .ok [hello])
  | none => s.setHandler r request (.answered .imATeapot [hello])

/-- A task at the start of `find_client_task`. -/
def spawn (s : State) (candidate : Candidate) (channel : Channel Candidate 8) : State :=
  { s with
    driver := { s.driver with
      tasks := Function.update s.driver.tasks candidate.connection (some ⟨candidate.client, .findWork⟩) }
    channel := channel }

end State

section Machine
variable (authSecret : Option String) (tokenForJob : Nat → String)

def machine : Machine State Label where
  step s
    | .request authorization =>
      let handler := if authorized authSecret authorization then .greeted else .answered .badRequest []
      some (s.arrive ⟨authorization, none, handler⟩)
    | .chunk r chunk => do
      let request ← s.requests[r]?
      match request.handler with
      | .greeted => return s.read tokenForJob r request chunk
      | _ => none
    | .abandon r => do
      let request ← s.requests[r]?
      match request.handler with
      | .greeted => return s.setHandler r request .gone
      | _ => none
    | .trySend r => do
      let request ← s.requests[r]?
      match request.handler with
      | .registered candidate => return s.trySend r request candidate
      | _ => none
    | .recv => s.channel.recv.map fun (candidate, channel) => s.spawn candidate channel
    | .driver (.connect _ _) => none
    | .driver .restart => ((Driver.machine tokenForJob).step s.driver .restart).map State.start
    | .driver l =>
      ((Driver.machine tokenForJob).step s.driver l).map fun driver => { s with driver := driver }

/-- What a step is to a driver whose connections have their tasks at once. -/
def driverLabels : Label → List Driver.Label
  | .chunk _ chunk =>
    match workRequest chunk with
    | .ok (allowedPushers, hostInfo) => [.connect hostInfo allowedPushers]
    | _ => []
  | .driver l => [l]
  | _ => []

/-- The steps of the machine. A request that has read its first chunk is answered, is gone,
or has a client; a client is accepted or refused. -/
inductive Moves (s : State) : Label → State → Prop where
  | arrives : Moves s (.request authorization) (s.arrive ⟨authorization, none,
      if authorized authSecret authorization then .greeted else .answered .badRequest []⟩)
  | closes (found : s.requests[r]? = some request) (greeted : request.handler = .greeted)
      (closed : handler = .gone ∨ ∃ status body, handler = .answered status body ∧ status ≠ .ok)
      (cause : driverLabels l = [] ∧ driver = s.driver ∨ ∃ hostInfo allowedPushers,
        driverLabels l = [.connect hostInfo allowedPushers] ∧
        (∀ hostId, (s.driver.idForHost hostInfo).1 ≠ .ok hostId) ∧
        (s.driver.idForHost hostInfo).2 = driver) :
      Moves s l { s with
        driver := driver
        requests := s.requests.set r ⟨request.authorization, seen, handler⟩ }
  | registers (found : s.requests[r]? = some request) (greeted : request.handler = .greeted)
      (asked : workRequest chunk = .ok (allowedPushers, hostInfo))
      (host : s.driver.idForHost hostInfo = (.ok hostId, driver))
      (new : candidate = ⟨r, driver.clients, ⟨hostId, tokenForJob driver.clients, allowedPushers⟩⟩) :
      Moves s (.chunk r chunk) { s with
        driver := { driver with clients := driver.clients + 1 }
        requests := s.requests.set r ⟨request.authorization, some chunk, .registered candidate⟩
        made := s.made ++ [candidate] }
  | accepts (found : s.requests[r]? = some request) (registered : request.handler = .registered candidate)
      (sent : s.channel.trySend candidate = some channel) :
      Moves s (.trySend r) { s with
        channel := channel
        requests := s.requests.set r { request with handler := .answered .ok [hello] } }
  | refuses (found : s.requests[r]? = some request) (registered : request.handler = .registered candidate)
      (full : s.channel.trySend candidate = none) :
      Moves s (.trySend r) { s with
        requests := s.requests.set r { request with handler := .answered .imATeapot [hello] } }
  | spawns (taken : s.channel.recv = some (candidate, channel)) :
      Moves s .recv (s.spawn candidate channel)
  | driver (noConnect : ∀ hostInfo accepted, l ≠ .connect hostInfo accepted) (noRestart : l ≠ .restart)
      (stepped : (Driver.machine tokenForJob).step s.driver l = some driver) :
      Moves s (.driver l) { s with driver := driver }
  | restarts (stepped : (Driver.machine tokenForJob).step s.driver .restart = some driver) :
      Moves s (.driver .restart) (.start driver)

variable {authSecret : Option String} {tokenForJob : Nat → String}

theorem workRequest_err (answered : workRequest chunk = .err status) : status ≠ .ok := by
  cases chunk with
  | failed | ended => contradiction
  | bytes chunk =>
    simp only [workRequest] at answered
    split at answered
    · contradiction
    · split at answered
      · contradiction
      · cases answered
        decide

theorem read_moves {s : State} (found : s.requests[r]? = some request)
    (greeted : request.handler = .greeted) (chunk : Chunk) :
    Moves authSecret tokenForJob s (.chunk r chunk) (s.read tokenForJob r request chunk) := by
  have closes := @Moves.closes authSecret tokenForJob s r request
  unfold State.read
  split
  · rename_i allowedPushers hostInfo asked
    unfold State.register
    split
    · rename_i hostId driver host
      exact (Moves.registers found greeted asked host rfl : Moves authSecret tokenForJob s _ _)
    · rename_i driver other host
      refine closes found greeted (.inl rfl)
        (.inr ⟨hostInfo, allowedPushers, ?_, fun hostId same => ?_, congrArg Prod.snd host⟩)
      · simp only [driverLabels, asked]
      · rw [host] at same
        exact other hostId same
  · rename_i status answered
    refine closes found greeted (.inr ⟨status, _, rfl, workRequest_err answered⟩) (.inl ⟨?_, rfl⟩)
    simp only [driverLabels, answered]
  · rename_i panics
    refine closes found greeted (.inl rfl) (.inl ⟨?_, rfl⟩)
    simp only [driverLabels, panics]

theorem step_moves {s : State} (stepped : (machine authSecret tokenForJob).step s l = some t) :
    Moves authSecret tokenForJob s l t := by
  cases l with
  | request authorization =>
    cases stepped
    exact .arrives
  | chunk r chunk =>
    simp only [machine, Option.bind_eq_bind, Option.bind_eq_some_iff] at stepped
    obtain ⟨request, found, stepped⟩ := stepped
    split at stepped
    · rename_i greeted
      cases stepped
      exact read_moves found greeted chunk
    · contradiction
  | abandon r =>
    simp only [machine, Option.bind_eq_bind, Option.bind_eq_some_iff] at stepped
    obtain ⟨request, found, stepped⟩ := stepped
    split at stepped
    · rename_i greeted
      cases stepped
      exact .closes found greeted (.inl rfl) (.inl ⟨rfl, rfl⟩)
    · contradiction
  | trySend r =>
    simp only [machine, Option.bind_eq_bind, Option.bind_eq_some_iff] at stepped
    obtain ⟨request, found, stepped⟩ := stepped
    split at stepped
    · rename_i candidate registered
      cases stepped
      unfold State.trySend
      split
      · exact .accepts found registered ‹_›
      · exact .refuses found registered ‹_›
    · contradiction
  | recv =>
    simp only [machine, Option.map_eq_some_iff] at stepped
    obtain ⟨⟨candidate, channel⟩, taken, rfl⟩ := stepped
    exact .spawns taken
  | driver l =>
    cases l with
    | connect => contradiction
    | restart =>
      simp only [machine, Option.map_eq_some_iff] at stepped
      obtain ⟨driver, stepped, rfl⟩ := stepped
      exact .restarts stepped
    | task | reaper | post | outside =>
      simp only [machine, Option.map_eq_some_iff] at stepped
      obtain ⟨driver, stepped, rfl⟩ := stepped
      exact .driver (by simp) (by simp) stepped

/-! ### Who is admitted -/

/-- The candidate's request had the secret and asked for work, and the candidate is what
`handle_next_job` made of it. -/
structure Vetted (authSecret : Option String) (tokenForJob : Nat → String) (s : State)
    (candidate : Candidate) : Prop where
  asked : ∃ request chunk hostInfo, s.requests[candidate.request]? = some request ∧
    authorized authSecret request.authorization = true ∧ request.chunk = some chunk ∧
    workRequest chunk = .ok (candidate.client.acceptedSources, hostInfo) ∧
    s.driver.db.hosts.get? candidate.client.hostId = some (Db.hostRow hostInfo)
  token : candidate.client.buildToken = tokenForJob candidate.connection
  connection : candidate.connection < s.driver.clients

/-- Requests, clients and tasks as they are in every state of a run. -/
structure Sound (authSecret : Option String) (tokenForJob : Nat → String) (s : State) : Prop where
  greeted : ∀ (r : Nat) (request : Request), s.requests[r]? = some request →
    request.handler = .greeted → authorized authSecret request.authorization = true ∧ request.chunk = none
  vetted : ∀ candidate ∈ s.made, Vetted authSecret tokenForJob s candidate
  requests : (s.made.map Candidate.request).Nodup
  connections : (s.made.map Candidate.connection).Nodup
  registered : ∀ (r : Nat) (request : Request) (candidate : Candidate), s.requests[r]? = some request →
    request.handler = .registered candidate → candidate.request = r ∧ candidate ∈ s.made
  accepted : ∀ candidate ∈ s.channel.accepted, candidate ∈ s.made ∧
    ∃ request, s.requests[candidate.request]? = some request ∧ request.handler = .answered .ok [hello]
  answered : ∀ (r : Nat) (request : Request) (body : List (List UInt8)), s.requests[r]? = some request →
    request.handler = .answered .ok body → ∃ candidate ∈ s.channel.accepted, candidate.request = r
  once : s.channel.accepted.Nodup
  tasks : ∀ c task, s.driver.tasks c = some task →
    ∃ candidate ∈ s.channel.received, candidate.connection = c ∧ candidate.client = task.client
  spawned : ∀ candidate ∈ s.channel.received, (s.driver.tasks candidate.connection).isSome

/-- A set element is found where it was set, and the others where they were. -/
theorem getElem?_set_found {requests : List Request} (found : requests[r]? = some old)
    (new : Request) (i : Nat) :
    (requests.set r new)[i]? = if i = r then some new else requests[i]? := by
  obtain ⟨below, _⟩ := List.getElem?_eq_some_iff.mp found
  rw [List.getElem?_set]
  by_cases same : i = r
  · subst same
    rw [if_pos rfl, if_pos rfl, if_pos below]
  · rw [if_neg (Ne.symm same), if_neg same]

theorem idForHost_keeps {s : Driver.State} (hostInfo : HostInfo) (found : s.db.hosts.get? i = some row) :
    (s.idForHost hostInfo).2.db.hosts.get? i = some row := by
  obtain same | same := idForHost_cases s hostInfo
  · rw [same]
    exact found
  · rw [same, Db.idForHost]
    dsimp only
    split
    · exact Table.get?_insert_of_some found _
    · exact found

theorem idForHost_row {s : Driver.State} (answered : s.idForHost hostInfo = (.ok hostId, t)) :
    t.db.hosts.get? hostId = some (Db.hostRow hostInfo) := by
  obtain ⟨_, _, first, rfl⟩ := idForHost_ok.mp answered
  obtain ⟨row, head, rfl⟩ := Option.map_eq_some_iff.mp first
  obtain ⟨found, same⟩ := Table.mem_select.mp (List.mem_of_head? head)
  exact found.trans (congrArg some (of_decide_eq_true same))

/-- What the driver's other steps leave alone. -/
theorem driver_frame {s t : Driver.State} (noConnect : ∀ hostInfo accepted, l ≠ .connect hostInfo accepted)
    (noRestart : l ≠ .restart) (stepped : (Driver.machine tokenForJob).step s l = some t) :
    (∀ c, (t.tasks c).map Task.client = (s.tasks c).map Task.client) ∧ t.clients = s.clients ∧
      t.db.hosts = s.db.hosts := by
  cases l with
  | connect hostInfo accepted => exact absurd rfl (noConnect hostInfo accepted)
  | restart => exact absurd rfl noRestart
  | task c action =>
    obtain ⟨task, db, next, held, moves, rfl⟩ := step_task stepped
    refine ⟨fun c' => ?_, moveTask_clients _ _ _ _ _ _, ?_⟩
    · rw [moveTask_tasks]
      by_cases same : c' = c
      · subst same
        rw [Function.update_self, held]
        rfl
      · rw [Function.update_of_ne same]
    · rw [moveTask_db, moves_writes moves]
  | reaper now =>
    obtain ⟨db, reaper, moved, rfl⟩ := step_reaper stepped
    refine ⟨fun _ => rfl, rfl, ?_⟩
    rw [reaperStep_writes moved]
  | post post now fileCreated =>
    cases stepped
    refine ⟨fun _ => rfl, rfl, ?_⟩
    rw [answerPost_writes]
  | outside write =>
    cases stepped
    refine ⟨fun _ => rfl, rfl, ?_⟩
    cases write with
    | newJob remoteId sha pusher runPreferences now =>
      obtain same | same := outside_newJob s.db remoteId sha pusher runPreferences now <;> rw [same]
    | newRun | commitName | newRepo | newRemote => rfl

theorem start_sound (driver : Driver.State) (none : ∀ c, driver.tasks c = none) :
    Sound authSecret tokenForJob (.start driver) := by
  refine ⟨?_, ?_, ?_, ?_, ?_, ?_, ?_, ?_, ?_, ?_⟩ <;>
    simp [State.start, Channel.empty, none]

/-- The candidate's own request is not one that is still to be read. -/
theorem Sound.read_before {s : State} (sound : Sound authSecret tokenForJob s)
    (member : candidate ∈ s.made) (found : s.requests[r]? = some request)
    (greeted : request.handler = .greeted) : candidate.request ≠ r := by
  rintro rfl
  obtain ⟨request', chunk, _, found', _, chunked, _⟩ := (sound.vetted candidate member).asked
  obtain rfl := Option.some.inj (found.symm.trans found')
  rw [(sound.greeted _ _ found greeted).2] at chunked
  contradiction

/-- A candidate stays what it was while its request keeps what it sent. -/
theorem Vetted.mono {s t : State} (vetted : Vetted authSecret tokenForJob s candidate)
    (kept : ∀ request, s.requests[candidate.request]? = some request →
      ∃ handler, t.requests[candidate.request]? = some { request with handler := handler })
    (hosts : ∀ i row, s.driver.db.hosts.get? i = some row → t.driver.db.hosts.get? i = some row)
    (clients : s.driver.clients ≤ t.driver.clients) : Vetted authSecret tokenForJob t candidate := by
  obtain ⟨request, chunk, hostInfo, found, secret, chunked, asked, row⟩ := vetted.asked
  obtain ⟨handler, found'⟩ := kept request found
  exact ⟨⟨_, chunk, hostInfo, found', secret, chunked, asked, hosts _ _ row⟩, vetted.token,
    Nat.lt_of_lt_of_le vetted.connection clients⟩

/-- A request that closes takes nobody with it. -/
theorem Sound.closes {s : State} (sound : Sound authSecret tokenForJob s)
    (found : s.requests[r]? = some request) (greeted : request.handler = .greeted)
    (closed : handler = .gone ∨ ∃ status body, handler = .answered status body ∧ status ≠ .ok)
    (asked : driver = s.driver ∨ ∃ hostInfo, driver = (s.driver.idForHost hostInfo).2) :
    Sound authSecret tokenForJob { s with
      driver := driver
      requests := s.requests.set r ⟨request.authorization, seen, handler⟩ } := by
  have set := getElem?_set_found found ⟨request.authorization, seen, handler⟩
  have kept : ∀ i row, s.driver.db.hosts.get? i = some row → driver.db.hosts.get? i = some row := by
    intro i row held
    obtain rfl | ⟨hostInfo, rfl⟩ := asked
    · exact held
    · exact idForHost_keeps hostInfo held
  obtain ⟨tasks, clients⟩ : driver.tasks = s.driver.tasks ∧ driver.clients = s.driver.clients := by
    obtain rfl | ⟨hostInfo, rfl⟩ := asked <;> exact ⟨rfl, rfl⟩
  have aside : ∀ candidate ∈ s.made, (s.requests.set r ⟨request.authorization, seen, handler⟩)[
      candidate.request]? = s.requests[candidate.request]? := by
    intro candidate member
    rw [set, if_neg (sound.read_before member found greeted)]
  refine ⟨?_, ?_, sound.requests, sound.connections, ?_, ?_, ?_, sound.once, tasks ▸ sound.tasks,
    tasks ▸ sound.spawned⟩
  · intro r' request' found' greeted'
    rw [set] at found'
    split at found'
    · cases found'
      obtain rfl | ⟨_, _, rfl, _⟩ := closed <;> contradiction
    · exact sound.greeted r' request' found' greeted'
  · intro candidate member
    refine (sound.vetted candidate member).mono ?_ kept (Nat.le_of_eq clients.symm)
    intro request' found'
    exact ⟨request'.handler, (aside candidate member).trans found'⟩
  · intro r' request' candidate found' registered
    rw [set] at found'
    split at found'
    · cases found'
      obtain rfl | ⟨_, _, rfl, _⟩ := closed <;> contradiction
    · exact sound.registered r' request' candidate found' registered
  · intro candidate member
    obtain ⟨made, request', found', answered⟩ := sound.accepted candidate member
    exact ⟨made, request', (aside candidate made).trans found', answered⟩
  · intro r' request' body found' answered
    rw [set] at found'
    split at found'
    · cases found'
      obtain rfl | ⟨_, _, rfl, noOk⟩ := closed
      · contradiction
      · cases answered
        contradiction
    · exact sound.answered r' request' body found' answered

theorem Sound.arrives {s : State} (sound : Sound authSecret tokenForJob s) (authorization : Header) :
    Sound authSecret tokenForJob (s.arrive ⟨authorization, none,
      if authorized authSecret authorization then .greeted else .answered .badRequest []⟩) := by
  have before : ∀ {r : Nat} {request : Request}, s.requests[r]? = some request → ∀ more,
      (s.requests ++ more)[r]? = some request := by
    intro r request found more
    obtain ⟨below, _⟩ := List.getElem?_eq_some_iff.mp found
    rw [List.getElem?_append_left below, found]
  have cases : ∀ {r : Nat} {request new : Request}, (s.requests ++ [new])[r]? = some request →
      s.requests[r]? = some request ∨ request = new := by
    intro r request new found
    rcases Nat.lt_or_ge r s.requests.length with below | beyond
    · rw [List.getElem?_append_left below] at found
      exact .inl found
    · rw [List.getElem?_append_right beyond] at found
      exact .inr (List.mem_singleton.mp (List.mem_of_getElem? found))
  refine ⟨?_, ?_, sound.requests, sound.connections, ?_, ?_, ?_, sound.once, sound.tasks, sound.spawned⟩
  · intro r request found greeted
    obtain old | rfl := cases found
    · exact sound.greeted r request old greeted
    · dsimp only at greeted
      split at greeted
      · exact ⟨‹_›, rfl⟩
      · contradiction
  · intro candidate member
    refine (sound.vetted candidate member).mono ?_ (fun _ _ held => held) (Nat.le_refl _)
    exact fun request found => ⟨request.handler, before found _⟩
  · intro r request candidate found registered
    obtain old | rfl := cases found
    · exact sound.registered r request candidate old registered
    · dsimp only at registered
      split at registered <;> contradiction
  · intro candidate member
    obtain ⟨made, request, found, answered⟩ := sound.accepted candidate member
    exact ⟨made, request, before found _, answered⟩
  · intro r request body found answered
    obtain old | rfl := cases found
    · exact sound.answered r request body old answered
    · dsimp only at answered
      split at answered <;> cases answered

theorem Sound.registers {s : State} (sound : Sound authSecret tokenForJob s)
    (found : s.requests[r]? = some request) (greeted : request.handler = .greeted)
    (asked : workRequest chunk = .ok (allowedPushers, hostInfo))
    (host : s.driver.idForHost hostInfo = (.ok hostId, driver))
    (new : candidate = ⟨r, driver.clients, ⟨hostId, tokenForJob driver.clients, allowedPushers⟩⟩) :
    Sound authSecret tokenForJob { s with
      driver := { driver with clients := driver.clients + 1 }
      requests := s.requests.set r ⟨request.authorization, some chunk, .registered candidate⟩
      made := s.made ++ [candidate] } := by
  have set := getElem?_set_found found ⟨request.authorization, some chunk, .registered candidate⟩
  have kept : ∀ i row, s.driver.db.hosts.get? i = some row → driver.db.hosts.get? i = some row := by
    intro i row held
    have same := idForHost_keeps hostInfo held
    rwa [host] at same
  have own := idForHost_row host
  obtain ⟨_, _, _, rfl⟩ := idForHost_ok.mp host
  have before : ∀ other ∈ s.made, other.request ≠ r ∧ other.connection ≠ s.driver.clients := by
    intro other member
    exact ⟨sound.read_before member found greeted, Nat.ne_of_lt (sound.vetted other member).connection⟩
  have aside : ∀ other ∈ s.made, (s.requests.set r ⟨request.authorization, some chunk,
      .registered candidate⟩)[other.request]? = s.requests[other.request]? := by
    intro other member
    rw [set, if_neg (before other member).1]
  subst new
  refine ⟨?_, ?_, ?_, ?_, ?_, ?_, ?_, sound.once, sound.tasks, sound.spawned⟩
  · intro r' request' found' greeted'
    rw [set] at found'
    split at found'
    · cases found'
      contradiction
    · exact sound.greeted r' request' found' greeted'
  · intro other member
    rcases List.mem_append.mp member with old | last
    · refine (sound.vetted other old).mono ?_ kept (Nat.le_succ _)
      exact fun request' found' => ⟨request'.handler, (aside other old).trans found'⟩
    · rw [List.mem_singleton.mp last]
      have answered := set r
      rw [if_pos rfl] at answered
      exact ⟨⟨_, chunk, hostInfo, answered, (sound.greeted r request found greeted).1, rfl, asked, own⟩,
        rfl, Nat.lt_succ_self _⟩
  · rw [List.map_append, List.nodup_append]
    refine ⟨sound.requests, List.nodup_singleton _, ?_⟩
    simp only [List.map_singleton, List.mem_singleton, List.forall_mem_map]
    rintro other member _ rfl
    exact (before other member).1
  · rw [List.map_append, List.nodup_append]
    refine ⟨sound.connections, List.nodup_singleton _, ?_⟩
    simp only [List.map_singleton, List.mem_singleton, List.forall_mem_map]
    rintro other member _ rfl
    exact (before other member).2
  · intro r' request' other found' registered
    rw [set] at found'
    split at found'
    · rename_i same
      cases found'
      cases registered
      exact ⟨same.symm, List.mem_append_right _ (List.mem_singleton_self _)⟩
    · obtain ⟨same, member⟩ := sound.registered r' request' other found' registered
      exact ⟨same, List.mem_append_left _ member⟩
  · intro other member
    obtain ⟨made, request', found', answered⟩ := sound.accepted other member
    exact ⟨List.mem_append_left _ made, request', (aside other made).trans found', answered⟩
  · intro r' request' body found' answered
    rw [set] at found'
    split at found'
    · cases found'
      contradiction
    · exact sound.answered r' request' body found' answered

/-- Only the channel and the handler of the candidate's request change. -/
theorem Sound.answers {s : State} (sound : Sound authSecret tokenForJob s)
    (found : s.requests[r]? = some request) (registered : request.handler = .registered candidate)
    (received : channel.received = s.channel.received)
    (outcome : channel.accepted = s.channel.accepted ++ [candidate] ∧ status = .ok ∨
      channel.accepted = s.channel.accepted ∧ status ≠ .ok) :
    Sound authSecret tokenForJob { s with
      channel := channel
      requests := s.requests.set r { request with handler := .answered status [hello] } } := by
  have set := getElem?_set_found found { request with handler := .answered status [hello] }
  obtain ⟨own, made⟩ := sound.registered r request candidate found registered
  have apart : ∀ other ∈ s.channel.accepted, other.request ≠ r := by
    rintro other member rfl
    obtain ⟨_, request', found', answered⟩ := sound.accepted other member
    obtain rfl := Option.some.inj (found.symm.trans found')
    rw [registered] at answered
    contradiction
  have old : ∀ other ∈ s.channel.accepted, other ∈ channel.accepted := by
    intro other member
    obtain ⟨same, _⟩ | ⟨same, _⟩ := outcome <;> rw [same]
    · exact List.mem_append_left _ member
    · exact member
  refine ⟨?_, ?_, sound.requests, sound.connections, ?_, ?_, ?_, ?_, ?_, ?_⟩
  · intro r' request' found' greeted'
    rw [set] at found'
    split at found'
    · cases found'
      contradiction
    · exact sound.greeted r' request' found' greeted'
  · intro other member
    refine (sound.vetted other member).mono ?_ (fun _ _ held => held) (Nat.le_refl _)
    intro request' found'
    rw [set]
    split
    · rename_i same
      rw [same, found] at found'
      cases found'
      exact ⟨_, rfl⟩
    · exact ⟨request'.handler, found'⟩
  · intro r' request' other found' registered'
    rw [set] at found'
    split at found'
    · cases found'
      contradiction
    · exact sound.registered r' request' other found' registered'
  · intro other member
    have cases : other ∈ s.channel.accepted ∨ other = candidate ∧ status = .ok := by
      obtain ⟨same, ok⟩ | ⟨same, _⟩ := outcome <;> rw [same] at member
      · rcases List.mem_append.mp member with old | new
        · exact .inl old
        · exact .inr ⟨List.mem_singleton.mp new, ok⟩
      · exact .inl member
    obtain before | ⟨rfl, rfl⟩ := cases
    · obtain ⟨made', request', found', answered⟩ := sound.accepted other before
      refine ⟨made', request', ?_, answered⟩
      rw [set, if_neg (apart other before)]
      exact found'
    · have answered := set other.request
      rw [if_pos own] at answered
      exact ⟨made, _, answered, rfl⟩
  · intro r' request' body found' answered
    rw [set] at found'
    split at found'
    · rename_i same
      cases found'
      cases answered
      obtain ⟨grown, _⟩ | ⟨_, refused⟩ := outcome
      · refine ⟨candidate, ?_, own.trans same.symm⟩
        rw [grown]
        exact List.mem_append_right _ (List.mem_singleton_self _)
      · contradiction
    · obtain ⟨other, member, own'⟩ := sound.answered r' request' body found' answered
      exact ⟨other, old other member, own'⟩
  · obtain ⟨same, _⟩ | ⟨same, _⟩ := outcome <;> rw [same]
    · rw [List.nodup_append]
      refine ⟨sound.once, List.nodup_singleton _, ?_⟩
      simp only [List.mem_singleton]
      rintro other member _ rfl rfl
      exact apart _ member own
    · exact sound.once
  · rw [received]
    exact sound.tasks
  · rw [received]
    exact sound.spawned

theorem Sound.spawns {s : State} (sound : Sound authSecret tokenForJob s)
    (taken : s.channel.recv = some (candidate, channel)) :
    Sound authSecret tokenForJob (s.spawn candidate channel) := by
  obtain ⟨waiting, accepted, received⟩ := Channel.recv_some taken
  have last : candidate ∈ channel.received := by
    rw [received]
    exact List.mem_append_right _ (List.mem_singleton_self _)
  have old : ∀ other ∈ s.channel.received, other ∈ channel.received := by
    intro other member
    rw [received]
    exact List.mem_append_left _ member
  refine ⟨sound.greeted, ?_, sound.requests, sound.connections, sound.registered, ?_, ?_, ?_, ?_, ?_⟩
  · exact fun other member => (sound.vetted other member).mono
      (fun request found => ⟨request.handler, found⟩) (fun _ _ held => held) (Nat.le_refl _)
  · exact accepted ▸ sound.accepted
  · exact accepted ▸ sound.answered
  · exact accepted ▸ sound.once
  · intro c task held
    by_cases same : c = candidate.connection
    · subst same
      simp only [State.spawn, Function.update_self, Option.some.injEq] at held
      exact ⟨candidate, last, rfl, held ▸ rfl⟩
    · simp only [State.spawn, Function.update_of_ne same] at held
      obtain ⟨other, member, own⟩ := sound.tasks c task held
      exact ⟨other, old other member, own⟩
  · intro other member
    by_cases same : other.connection = candidate.connection
    · simp only [State.spawn, same, Function.update_self, Option.isSome_some]
    · simp only [State.spawn, Function.update_of_ne same]
      refine sound.spawned other ?_
      rw [State.spawn, received] at member
      rcases List.mem_append.mp member with before | new
      · exact before
      · exact absurd (congrArg Candidate.connection (List.mem_singleton.mp new)) same

theorem Sound.driver {s : State} {driver : Driver.State} (sound : Sound authSecret tokenForJob s)
    (frame : (∀ c, (driver.tasks c).map Task.client = (s.driver.tasks c).map Task.client) ∧
      driver.clients = s.driver.clients ∧ driver.db.hosts = s.driver.db.hosts) :
    Sound authSecret tokenForJob { s with driver := driver } := by
  obtain ⟨tasks, clients, hosts⟩ := frame
  refine ⟨sound.greeted, ?_, sound.requests, sound.connections, sound.registered, sound.accepted,
    sound.answered, sound.once, ?_, ?_⟩
  · intro other member
    refine (sound.vetted other member).mono (fun request found => ⟨request.handler, found⟩) ?_
      (Nat.le_of_eq clients.symm)
    intro i row held
    rwa [hosts]
  · intro c task held
    have same := tasks c
    rw [held, Option.map_some] at same
    obtain ⟨before, held', client⟩ := Option.map_eq_some_iff.mp same.symm
    obtain ⟨candidate, member, own, client'⟩ := sound.tasks c before held'
    exact ⟨candidate, member, own, client'.trans client⟩
  · intro candidate member
    have same := congrArg Option.isSome (tasks candidate.connection)
    rw [Option.isSome_map, Option.isSome_map] at same
    exact same.trans (sound.spawned candidate member)

theorem step_sound {s : State} (sound : Sound authSecret tokenForJob s)
    (stepped : (machine authSecret tokenForJob).step s l = some t) : Sound authSecret tokenForJob t := by
  cases step_moves stepped with
  | arrives => exact sound.arrives _
  | closes found greeted closed cause =>
    refine sound.closes found greeted closed ?_
    obtain ⟨_, same⟩ | ⟨hostInfo, _, _, _, asked⟩ := cause
    · exact .inl same
    · exact .inr ⟨hostInfo, asked.symm⟩
  | registers found greeted asked host new => exact sound.registers found greeted asked host new
  | accepts found registered sent =>
    obtain ⟨accepted, received, _⟩ := Channel.trySend_some sent
    exact sound.answers found registered received (.inl ⟨accepted, rfl⟩)
  | refuses found registered =>
    exact sound.answers found registered rfl (.inr ⟨rfl, by decide⟩)
  | spawns taken => exact sound.spawns taken
  | driver noConnect noRestart moved => exact sound.driver (driver_frame noConnect noRestart moved)
  | restarts restarted =>
    cases restarted
    exact start_sound _ fun _ => rfl

/-- The clients that were answered `OK` are each a client of one request that had the secret
and asked for work; they get their tasks in the order of the answers, at most eight of them
are without one, and nobody else has one. -/
structure Admitted (authSecret : Option String) (tokenForJob : Nat → String) (s : State) : Prop where
  inOrder : s.channel.accepted = s.channel.received ++ s.channel.queue
  bounded : s.channel.queue.length ≤ 8
  vetted : ∀ candidate ∈ s.channel.accepted, Vetted authSecret tokenForJob s candidate
  requests : (s.channel.accepted.map Candidate.request).Nodup
  connections : (s.channel.accepted.map Candidate.connection).Nodup
  answers : ∀ r, (∃ request body, s.requests[r]? = some request ∧ request.handler = .answered .ok body) ↔
    r ∈ s.channel.accepted.map Candidate.request
  tasks : ∀ c client, (∃ phase, s.driver.tasks c = some ⟨client, phase⟩) ↔
    ∃ candidate ∈ s.channel.received, candidate.connection = c ∧ candidate.client = client

/-- What tells the clients apart tells those apart that were accepted. -/
theorem Sound.nodup_map {s : State} (sound : Sound authSecret tokenForJob s) {f : Candidate → Nat}
    (distinct : (s.made.map f).Nodup) : (s.channel.accepted.map f).Nodup := by
  refine sound.once.map_on fun a memberA b memberB same => ?_
  exact List.inj_on_of_nodup_map distinct (sound.accepted a memberA).1 (sound.accepted b memberB).1 same

theorem Sound.admitted {s : State} (sound : Sound authSecret tokenForJob s) :
    Admitted authSecret tokenForJob s := by
  refine ⟨s.channel.inOrder, s.channel.bounded, ?_, sound.nodup_map sound.requests,
    sound.nodup_map sound.connections, fun r => ?_, fun c client => ?_⟩
  · exact fun candidate member => sound.vetted candidate (sound.accepted candidate member).1
  · rw [List.mem_map]
    constructor
    · rintro ⟨request, body, found, answered⟩
      exact sound.answered r request body found answered
    · rintro ⟨candidate, member, rfl⟩
      obtain ⟨_, request, found, answered⟩ := sound.accepted candidate member
      exact ⟨request, _, found, answered⟩
  · constructor
    · rintro ⟨phase, held⟩
      exact sound.tasks c _ held
    · rintro ⟨candidate, member, rfl, rfl⟩
      obtain ⟨⟨client, phase⟩, held⟩ := Option.isSome_iff_exists.mp (sound.spawned candidate member)
      obtain ⟨other, member', same, own⟩ := sound.tasks _ _ held
      have one := List.inj_on_of_nodup_map (sound.nodup_map sound.connections)
        (Channel.mem_accepted_of_received member') (Channel.mem_accepted_of_received member) same
      refine ⟨phase, ?_⟩
      rw [held, ← one, own]

theorem admitted_in_order (authSecret : Option String) (tokenForJob : Nat → String) (db : Db)
    (clients : Nat) (ls : List Label) (s : State)
    (path : (machine authSecret tokenForJob).run (.start (.start db clients)) ls = some s) :
    Admitted authSecret tokenForJob s :=
  (Machine.invariant (fun _ _ _ sound stepped => step_sound sound stepped)
    (start_sound _ fun _ => rfl) path).admitted

/-! ### Connections of the driver -/

/-- The same driver, in which every client that was made has a task that has yet to begin. -/
structure Refines (s : State) (u : Driver.State) : Prop where
  db : u.db = s.driver.db
  poisoned : u.poisoned = s.driver.poisoned
  clients : u.clients = s.driver.clients
  activeTasks : u.activeTasks = s.driver.activeTasks
  reaper : u.reaper = s.driver.reaper
  acked : u.acked = s.driver.acked
  tasks : ∀ c task, s.driver.tasks c = some task → u.tasks c = some task
  waiting : ∀ candidate ∈ s.made, s.driver.tasks candidate.connection = none →
    u.tasks candidate.connection = some ⟨candidate.client, .findWork⟩

theorem Refines.moveTask {s : State} (refines : Refines s u) (held : s.driver.tasks c = some task)
    (action : Action) (db : Db) (next : Phase) :
    Refines { s with driver := s.driver.moveTask c task action db next } (u.moveTask c task action db next) := by
  have tasks : ∀ c' task', (s.driver.moveTask c task action db next).tasks c' = some task' →
      (u.moveTask c task action db next).tasks c' = some task' := by
    intro c' task' held'
    rw [moveTask_tasks]
    obtain ⟨rfl, rfl⟩ | ⟨other, old⟩ := moveTask_cases held'
    · rw [Function.update_self]
    · rw [Function.update_of_ne other]
      exact refines.tasks c' task' old
  have waiting : ∀ candidate ∈ s.made,
      (s.driver.moveTask c task action db next).tasks candidate.connection = none →
      (u.moveTask c task action db next).tasks candidate.connection = some ⟨candidate.client, .findWork⟩ := by
    intro candidate member idle
    have other : candidate.connection ≠ c := by
      rintro rfl
      rw [moveTask_tasks, Function.update_self] at idle
      contradiction
    rw [moveTask_tasks, Function.update_of_ne other] at idle ⊢
    exact refines.waiting candidate member idle
  refine ⟨?_, ?_, ?_, ?_, ?_, ?_, tasks, waiting⟩
  · rw [moveTask_db, moveTask_db]
  · rw [moveTask_poisoned, moveTask_poisoned, refines.poisoned]
  · rw [moveTask_clients, moveTask_clients, refines.clients]
  · unfold State.moveTask
    split
    · exact refines.activeTasks
    · exact congrArg (Driver.State.register · _ _) refines.activeTasks
  · rw [moveTask_reaper, moveTask_reaper, refines.reaper]
  · unfold State.moveTask
    split
    · exact refines.acked
    · exact congrArg (_ :: ·) refines.acked

/-- A candidate that is received has no task yet. -/
theorem Sound.idle {s : State} (sound : Sound authSecret tokenForJob s)
    (taken : s.channel.recv = some (candidate, channel)) : candidate ∈ s.made ∧
      s.driver.tasks candidate.connection = none ∧
      ∀ other ∈ s.made, other.connection = candidate.connection → other = candidate := by
  obtain ⟨waiting, _, _⟩ := Channel.recv_some taken
  have queued : candidate ∈ s.channel.queue := by
    rw [waiting]
    exact List.mem_cons_self
  have made := (sound.accepted candidate (Channel.mem_accepted_of_queue queued)).1
  have only : ∀ other ∈ s.made, other.connection = candidate.connection → other = candidate :=
    fun other member => List.inj_on_of_nodup_map sound.connections member made
  refine ⟨made, ?_, only⟩
  by_contra busy
  obtain ⟨task, held⟩ := Option.ne_none_iff_exists'.mp busy
  obtain ⟨other, member, same, _⟩ := sound.tasks _ task held
  obtain rfl := only other (sound.accepted other (Channel.mem_accepted_of_received member)).1 same
  have once := sound.once
  rw [s.channel.inOrder] at once
  exact List.disjoint_of_nodup_append once member queued

theorem Refines.spawn {s : State} (sound : Sound authSecret tokenForJob s) (refines : Refines s u)
    (taken : s.channel.recv = some (candidate, channel)) : Refines (s.spawn candidate channel) u := by
  obtain ⟨made, idle, only⟩ := sound.idle taken
  have begun := refines.waiting candidate made idle
  refine ⟨refines.db, refines.poisoned, refines.clients, refines.activeTasks, refines.reaper, refines.acked,
    ?_, ?_⟩
  · intro c task held
    by_cases same : c = candidate.connection
    · subst same
      simp only [State.spawn, Function.update_self, Option.some.injEq] at held
      rw [begun, held]
    · simp only [State.spawn, Function.update_of_ne same] at held
      exact refines.tasks c task held
  · intro other member still
    by_cases same : other.connection = candidate.connection
    · rw [only other member same, begun]
    · simp only [State.spawn, Function.update_of_ne same] at still
      exact refines.waiting other member still

/-- A connection, of which the task is kept back. -/
theorem Refines.connect {s : State} (sound : Sound authSecret tokenForJob s) (refines : Refines s u)
    (host : s.driver.idForHost hostInfo = (.ok hostId, driver)) (requests : List Request)
    (new : candidate = ⟨r, driver.clients, ⟨hostId, tokenForJob driver.clients, allowedPushers⟩⟩) :
    Refines { s with
      driver := { driver with clients := driver.clients + 1 }
      requests := requests
      made := s.made ++ [candidate] } (u.connect tokenForJob hostInfo allowedPushers) := by
  obtain ⟨healthy, stored, found, rfl⟩ := idForHost_ok.mp host
  have hosted : (u.db.idForHost hostInfo).2 = some hostId := by rw [refines.db, found]
  rw [connect_some (refines.poisoned.trans healthy) stored hosted, refines.clients, refines.db]
  subst new
  have fresh : ∀ c task, s.driver.tasks c = some task → c ≠ s.driver.clients := by
    rintro _ task held rfl
    obtain ⟨other, member, same, _⟩ := sound.tasks _ task held
    have below := (sound.vetted other (sound.accepted other
      (Channel.mem_accepted_of_received member)).1).connection
    exact absurd same (Nat.ne_of_lt below)
  refine ⟨rfl, refines.poisoned, rfl, refines.activeTasks, refines.reaper, refines.acked, ?_, ?_⟩
  · intro c task held
    simp only [Function.update_of_ne (fresh c task held)]
    exact refines.tasks c task held
  · intro other member still
    rcases List.mem_append.mp member with old | last
    · have below := (sound.vetted other old).connection
      simp only [Function.update_of_ne (Nat.ne_of_lt below)]
      exact refines.waiting other old still
    · obtain rfl := List.mem_singleton.mp last
      simp only [Function.update_self]

theorem Refines.driver {s : State} {driver : Driver.State} (refines : Refines s u)
    (noConnect : ∀ hostInfo accepted, l ≠ .connect hostInfo accepted) (noRestart : l ≠ .restart)
    (stepped : (Driver.machine tokenForJob).step s.driver l = some driver) :
    ∃ v, (Driver.machine tokenForJob).step u l = some v ∧ Refines { s with driver := driver } v := by
  have aside : ∀ write : Db → Db, Refines { s with driver := { s.driver with db := write s.driver.db } }
      { u with db := write u.db } := fun write => ⟨congrArg write refines.db, refines.poisoned,
    refines.clients, refines.activeTasks, refines.reaper, refines.acked, refines.tasks, refines.waiting⟩
  cases l with
  | connect hostInfo accepted => exact absurd rfl (noConnect hostInfo accepted)
  | restart => exact absurd rfl noRestart
  | task c action =>
    obtain ⟨task, db, next, held, moved, rfl⟩ := step_attempt stepped
    refine ⟨u.moveTask c task action db next, ?_, refines.moveTask held action db next⟩
    rw [State.attempt, ← refines.db, ← refines.poisoned, ← State.attempt] at moved
    simp [Driver.machine, refines.tasks c task held, moved]
  | reaper now =>
    have free := step_reaper_free stepped
    obtain ⟨db, reaper, moved, rfl⟩ := step_reaper stepped
    rw [← refines.poisoned, ← refines.reaper] at free
    rw [← refines.db, ← refines.activeTasks, ← refines.reaper] at moved
    exact ⟨{ u with db := db, reaper := reaper }, reaper_steps free moved,
      ⟨rfl, refines.poisoned, refines.clients, refines.activeTasks, rfl, refines.acked, refines.tasks,
        refines.waiting⟩⟩
  | post post now fileCreated =>
    cases stepped
    refine ⟨{ u with db := (answerPost s.driver.poisoned u.db post now fileCreated).1 }, ?_,
      aside fun db => (answerPost s.driver.poisoned db post now fileCreated).1⟩
    rw [← refines.poisoned]
    rfl
  | outside write =>
    cases stepped
    exact ⟨_, rfl, aside write.apply⟩

/-- Nothing but the requests differs, and they are nothing to the driver. -/
theorem Refines.beside {s : State} (refines : Refines s u) (requests : List Request)
    (channel : Channel Candidate 8) : Refines { s with requests := requests, channel := channel } u :=
  ⟨refines.db, refines.poisoned, refines.clients, refines.activeTasks, refines.reaper, refines.acked,
    refines.tasks, refines.waiting⟩

theorem Refines.step {s : State} (sound : Sound authSecret tokenForJob s) (refines : Refines s u)
    (stepped : (machine authSecret tokenForJob).step s l = some t) :
    ∃ v, (Driver.machine tokenForJob).run u (driverLabels l) = some v ∧ Refines t v := by
  cases step_moves stepped with
  | arrives => exact ⟨u, rfl, refines.beside _ _⟩
  | closes found greeted closed cause =>
    obtain ⟨silent, rfl⟩ | ⟨hostInfo, allowedPushers, connects, unknown, rfl⟩ := cause
    · exact ⟨u, by rw [silent]; rfl, refines.beside _ _⟩
    · refine ⟨u.connect tokenForJob hostInfo allowedPushers, by rw [connects]; rfl, ?_⟩
      have same : u.idForHost hostInfo = _ :=
        idForHost_agrees (congrArg Db.hosts refines.db) refines.poisoned
      rw [connect_refused (by rw [same]; exact unknown), same]
      refine ⟨?_, rfl, refines.clients, refines.activeTasks, refines.reaper, refines.acked, refines.tasks,
        refines.waiting⟩
      rw [refines.db, idForHost_writes s.driver]
  | registers found greeted asked host new =>
    refine ⟨_, ?_, refines.connect sound host _ new⟩
    simp only [driverLabels, asked]
    rfl
  | accepts => exact ⟨u, rfl, refines.beside _ _⟩
  | refuses => exact ⟨u, rfl, refines.beside _ _⟩
  | spawns taken => exact ⟨u, rfl, refines.spawn sound taken⟩
  | driver noConnect noRestart moved =>
    obtain ⟨v, stepped', refines'⟩ := refines.driver noConnect noRestart moved
    exact ⟨v, Machine.run_cons.mpr ⟨v, stepped', rfl⟩, refines'⟩
  | restarts restarted =>
    cases restarted
    refine ⟨{ Driver.State.start u.db u.clients with acked := u.acked }, rfl, ?_⟩
    exact ⟨refines.db, rfl, refines.clients, rfl, rfl, refines.acked, nofun, nofun⟩

/-- A runner's first message is taken for what it is. -/
theorem workRequest_encode (allowedPushers : Option (List String)) (hostInfo : HostInfo) :
    workRequest (.bytes (ClientProto.newTaskPlease allowedPushers hostInfo).encode) =
      .ok (allowedPushers, hostInfo) := by
  obtain ⟨text, valid⟩ := Option.isSome_iff_exists.mp
    (Json.textOf_print (ClientProto.newTaskPlease allowedPushers hostInfo).toJson)
  simp only [workRequest, ClientProto.encode, valid]
  rw [← ClientProto.encode, parse_encode, Option.bind_some, ofJson_toJson]

/-- So is one that leaves out the names of its fields. -/
theorem workRequest_inOrder (allowedPushers : Option (List String)) (hostInfo : HostInfo) :
    workRequest (.bytes (Json.arr
      ((ClientProto.newTaskPlease allowedPushers hostInfo).members.map Prod.snd)).print) =
      .ok (allowedPushers, hostInfo) := by
  have plain := Json.plainItems_values (plain_members (.newTaskPlease allowedPushers hostInfo))
  have shallow := shallow_members (.newTaskPlease allowedPushers hostInfo)
  rw [← Json.depthItems_values] at shallow
  obtain ⟨text, valid⟩ := Option.isSome_iff_exists.mp (Json.textOf_print
    (.arr ((ClientProto.newTaskPlease allowedPushers hostInfo).members.map Prod.snd)))
  simp only [workRequest, valid]
  rw [Json.parse_print_arr plain shallow, Option.bind_some, ofJson_inOrder]

theorem chunk_registers (tokenForJob : Nat → String) {s : State} (found : s.requests[r]? = some request)
    (greeted : request.handler = .greeted)
    (asked : workRequest chunk = .ok (allowedPushers, hostInfo)) :
    (machine authSecret tokenForJob).step s (.chunk r chunk) =
      some (s.register tokenForJob r { request with chunk := some chunk } allowedPushers hostInfo) := by
  simp only [machine, found, greeted, Option.bind_eq_bind, Option.bind_some, State.read, asked,
    Option.pure_def]

/-- A request with the secret, up to the client it makes. -/
theorem request_registers (tokenForJob : Nat → String) (s : State)
    (secret : authorized authSecret authorization = true)
    (allowedPushers : Option (List String)) (hostInfo : HostInfo) :
    ∃ chunk, driverLabels (.chunk s.requests.length chunk) = [.connect hostInfo allowedPushers] ∧
      (machine authSecret tokenForJob).run s [.request authorization, .chunk s.requests.length chunk] =
        some ((s.arrive ⟨authorization, none, .greeted⟩).register tokenForJob s.requests.length
          ⟨authorization, some chunk, .greeted⟩ allowedPushers hostInfo) := by
  have asked := workRequest_encode allowedPushers hostInfo
  refine ⟨.bytes (ClientProto.newTaskPlease allowedPushers hostInfo).encode, ?_,
    Machine.run_cons.mpr ⟨_, rfl, Machine.run_cons.mpr ⟨_, ?_, rfl⟩⟩⟩
  · simp only [driverLabels, asked]
  · have arrived : (s.arrive ⟨authorization, none, .greeted⟩).requests[s.requests.length]? =
        some ⟨authorization, none, .greeted⟩ := List.getElem?_concat_length
    rw [secret, if_pos rfl]
    exact chunk_registers tokenForJob arrived rfl asked

/-- With nobody waiting, a client that was made is accepted and has its task. -/
theorem registered_spawns (authSecret : Option String) (tokenForJob : Nat → String) {s : State}
    {request : Request} {candidate : Candidate} (found : s.requests[r]? = some request)
    (registered : request.handler = .registered candidate)
    (idle : s.channel.queue = []) :
    ∃ t, (machine authSecret tokenForJob).run s [.trySend r, .recv] = some t ∧
      t.driver = { s.driver with
        tasks := Function.update s.driver.tasks candidate.connection (some ⟨candidate.client, .findWork⟩) } ∧
      t.channel.queue = [] := by
  obtain ⟨sent, taken, accepts, receives, empty⟩ :=
    Channel.recv_trySend (a := candidate) idle (Nat.zero_lt_succ 7)
  have first : (machine authSecret tokenForJob).step s (.trySend r) =
      some ({ s with channel := sent }.setHandler r request (.answered .ok [hello])) := by
    simp only [machine, found, Option.bind_eq_bind, Option.bind_some, registered, State.trySend, accepts,
      Option.pure_def]
  have second : (machine authSecret tokenForJob).step
      ({ s with channel := sent }.setHandler r request (.answered .ok [hello])) .recv =
      some (({ s with channel := sent }.setHandler r request (.answered .ok [hello])).spawn candidate taken) := by
    simp only [machine, State.setHandler, receives, Option.map_some]
  exact ⟨_, Machine.run_cons.mpr ⟨_, first, Machine.run_cons.mpr ⟨_, second, rfl⟩⟩, rfl, empty⟩

theorem register_made (tokenForJob : Nat → String) {s : State} {r : Nat} (known : r < s.requests.length)
    (request : Request) (allowedPushers : Option (List String))
    (host : s.driver.idForHost hostInfo = (.ok hostId, driver)) :
    ∃ made candidate, (s.register tokenForJob r request allowedPushers hostInfo).requests[r]? = some made ∧
      made.handler = .registered candidate ∧ candidate.connection = driver.clients ∧
      candidate.client = ⟨hostId, tokenForJob driver.clients, allowedPushers⟩ ∧
      (s.register tokenForJob r request allowedPushers hostInfo).driver =
        { driver with clients := driver.clients + 1 } ∧
      (s.register tokenForJob r request allowedPushers hostInfo).channel = s.channel := by
  rw [State.register, host]
  exact ⟨_, _, List.getElem?_set_self known, rfl, rfl, rfl, rfl, rfl⟩

theorem connect_realised (tokenForJob : Nat → String) {s : State}
    (secret : authorized authSecret authorization = true) (hostInfo : HostInfo)
    (accepted : Option (List String)) (idle : s.channel.queue = []) :
    ∃ ks t, (machine authSecret tokenForJob).run s ks = some t ∧
      ks.flatMap driverLabels = [.connect hostInfo accepted] ∧
      t.driver = s.driver.connect tokenForJob hostInfo accepted ∧ t.channel.queue = [] := by
  obtain ⟨chunk, label, path⟩ := request_registers tokenForJob s secret accepted hostInfo
  have labels : [Label.request authorization, .chunk s.requests.length chunk].flatMap driverLabels =
      [.connect hostInfo accepted] := by
    rw [List.flatMap_cons, List.flatMap_singleton, label]
    rfl
  cases host : s.driver.idForHost hostInfo with
  | mk answer driver =>
    cases answer with
    | err | panic =>
      refine ⟨_, _, path, labels, ?_, ?_⟩
      · rw [State.register, State.arrive, host, connect_refused (by rw [host]; nofun), host]
        rfl
      · rw [State.register, State.arrive, host]
        exact idle
    | ok hostId =>
      have known : s.requests.length < (s.arrive ⟨authorization, none, .greeted⟩).requests.length := by
        simp [State.arrive]
      obtain ⟨made, candidate, found, registered, connection, client, same, channel⟩ :=
        register_made tokenForJob known ⟨authorization, some chunk, .greeted⟩ accepted host
      obtain ⟨t, path', driver', empty⟩ := registered_spawns authSecret tokenForJob found registered
        ((congrArg Channel.queue channel).trans idle)
      refine ⟨[.request authorization, .chunk s.requests.length chunk] ++
        [.trySend s.requests.length, .recv], t, ?_, ?_, ?_, empty⟩
      · rw [Machine.run_append, path, Option.bind_some, path']
      · rw [List.flatMap_append, labels]
        rfl
      · rw [driver', same, connection, client, State.connect, host]

/-- Three requests with the secret and one without; the second one with it is admitted first,
and is the only one that has a task yet. -/
def severalRequests : List Label :=
  let asks := ClientProto.newTaskPlease none Driver.someHost
  [.request (.text "secret"), .request (.text "secret"), .request .absent, .request (.text "secret"),
    .chunk 1 (.bytes asks.encode), .chunk 0 (.bytes (Json.arr (asks.members.map Prod.snd)).print),
    .trySend 0, .chunk 3 (.bytes asks.encode), .trySend 3, .recv, .trySend 1]

theorem several_admitted : ∃ s, (machine (some "secret") someToken).run (.start (.start .empty 0))
    severalRequests = some s ∧ s.channel.received.map Candidate.request = [0] ∧
      s.channel.queue.map Candidate.request = [3, 1] ∧ Admitted (some "secret") someToken s := by
  have named := workRequest_encode none Driver.someHost
  have unnamed := workRequest_inOrder none Driver.someHost
  have path : ∃ s, (machine (some "secret") someToken).run (.start (.start .empty 0))
      severalRequests = some s ∧ s.channel.received.map Candidate.request = [0] ∧
        s.channel.queue.map Candidate.request = [3, 1] := by
    refine ⟨_, Machine.run_cons.mpr ⟨_, rfl, Machine.run_cons.mpr ⟨_, rfl, Machine.run_cons.mpr ⟨_, rfl,
      Machine.run_cons.mpr ⟨_, rfl, Machine.run_cons.mpr ⟨_, chunk_registers someToken rfl rfl named,
      Machine.run_cons.mpr ⟨_, chunk_registers someToken rfl rfl unnamed, Machine.run_cons.mpr ⟨_, rfl,
      Machine.run_cons.mpr ⟨_, chunk_registers someToken rfl rfl named, Machine.run_cons.mpr ⟨_, rfl,
      Machine.run_cons.mpr ⟨_, rfl, Machine.run_cons.mpr ⟨_, rfl, rfl⟩⟩⟩⟩⟩⟩⟩⟩⟩⟩⟩, ?_, ?_⟩ <;> rfl
  obtain ⟨s, path, received, waiting⟩ := path
  exact ⟨s, path, received, waiting, admitted_in_order _ _ _ _ severalRequests s path⟩

/-- Every run of a driver whose connections have their tasks at once, step for step. -/
theorem driver_realised (secret : authorized authSecret authorization = true)
    (path : (Driver.machine tokenForJob).run s.driver ls = some u) (idle : s.channel.queue = []) :
    ∃ ks t, (machine authSecret tokenForJob).run s ks = some t ∧ ks.flatMap driverLabels = ls ∧
      t.driver = u := by
  induction ls generalizing s with
  | nil =>
    cases path
    exact ⟨[], s, rfl, rfl, rfl⟩
  | cons l ls ih =>
    obtain ⟨v, stepped, rest⟩ := Machine.run_cons.mp path
    have first : ∃ ks t, (machine authSecret tokenForJob).run s ks = some t ∧
        ks.flatMap driverLabels = [l] ∧ t.driver = v ∧ t.channel.queue = [] := by
      cases l with
      | connect hostInfo accepted =>
        cases stepped
        exact connect_realised tokenForJob secret hostInfo accepted idle
      | restart =>
        refine ⟨[.driver .restart], .start v, Machine.run_cons.mpr ⟨_, ?_, rfl⟩, rfl, rfl, rfl⟩
        simp only [machine, stepped, Option.map_some]
      | task | reaper | post | outside =>
        refine ⟨[.driver _], { s with driver := v }, Machine.run_cons.mpr ⟨_, ?_, rfl⟩, rfl, rfl, idle⟩
        simp only [machine, stepped, Option.map_some]
    obtain ⟨ks, t, path₁, labels, rfl, idle'⟩ := first
    obtain ⟨ks', t', path₂, labels', driver⟩ := ih rest idle'
    refine ⟨ks ++ ks', t', ?_, ?_, driver⟩
    · rw [Machine.run_append, path₁, Option.bind_some, path₂]
    · rw [List.flatMap_append, labels, labels']
      rfl

/-- The driver with its requests and its queue does what the driver does whose connections have
their tasks at once, and where somebody knows the secret, all that it does. -/
theorem admission_refines_driver (authSecret : Option String) (tokenForJob : Nat → String) (db : Db)
    (clients : Nat) :
    (∀ ls s, (machine authSecret tokenForJob).run (.start (.start db clients)) ls = some s →
      ∃ u, (Driver.machine tokenForJob).run (.start db clients) (ls.flatMap driverLabels) = some u ∧
        Refines s u) ∧
    (∀ authorization, authorized authSecret authorization = true → ∀ ls u,
      (Driver.machine tokenForJob).run (.start db clients) ls = some u →
      ∃ ks s, (machine authSecret tokenForJob).run (.start (.start db clients)) ks = some s ∧
        ks.flatMap driverLabels = ls ∧ s.driver = u) := by
  constructor
  · intro ls s path
    have related : Sound authSecret tokenForJob (.start (.start db clients)) ∧
        Refines (.start (.start db clients)) (.start db clients) :=
      ⟨start_sound _ fun _ => rfl, rfl, rfl, rfl, rfl, rfl, rfl, nofun, nofun⟩
    obtain ⟨u, path', _, refines⟩ := Machine.run_refines (R := fun s u => Sound authSecret tokenForJob s ∧
      Refines s u) (fun s l t u both stepped => by
        obtain ⟨v, stepped', refines⟩ := both.2.step both.1 stepped
        exact ⟨v, stepped', step_sound both.1 stepped, refines⟩) related path
    exact ⟨u, path', refines⟩
  · intro authorization secret ls u path
    exact driver_realised (s := .start (.start db clients)) secret path rfl

end Machine
end BuildOTron.Admission
