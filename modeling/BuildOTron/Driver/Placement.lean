import BuildOTron.Driver.Steps

/-! Where a run may be sent. A run reaches a client from the queue or as a fresh
alternate run; on both ways its source is checked against the client's list and its
preference against the client's host, on rows that no later statement changes. -/
namespace BuildOTron.Driver
open Transition

variable {id : Nat}

/-- The client gave no list, or one with the job's source in it. -/
def Accepts (client : RunnerClient) (job : Job) : Prop :=
  client.acceptedSources = none ∨ ∃ source accepted, job.source = some source ∧
    client.acceptedSources = some accepted ∧ source ∈ accepted

theorem willAccept_iff {client : RunnerClient} : client.willAccept job = true ↔ Accepts client job := by
  unfold RunnerClient.willAccept Accepts
  cases job.source <;> cases client.acceptedSources <;> simp

/-- The row of a run that may run on this host. -/
def Preferred (db : Db) (hostId run jobId : Nat) : Prop :=
  ∃ row, db.runs.get? run = some row ∧ row.jobId = jobId ∧
    (row.hostPreference = none ∨ row.hostPreference = some hostId)

/-- A run that may be sent to this client. -/
def MayRun (db : Db) (client : RunnerClient) (run : Nat) : Prop :=
  ∃ job, db.jobById job.id = some job ∧ Accepts client job ∧ Preferred db client.hostId run job.id

/-- A run that prefers a host has run on that host or on none. -/
def PlacedRow (row : RunRow) : Prop :=
  ∀ h, row.hostPreference = some h → row.hostId = none ∨ row.hostId = some h

/-- What was in the database is there still, as far as placement looks at it. -/
structure Lasts (db db' : Db) : Prop where
  runs : ∀ id row, db.runs.get? id = some row → ∃ row', db'.runs.get? id = some row' ∧
    row'.jobId = row.jobId ∧ row'.hostPreference = row.hostPreference
  jobs : ∀ id job, db.jobById id = some job → db'.jobById id = some job

theorem connect_jobs (tokenForJob : Nat → String) (s : State) (hostInfo : HostInfo)
    (accepted : Option (List String)) :
    (s.connect tokenForJob hostInfo accepted).db.jobs = s.db.jobs := by
  rw [connect_db]

theorem outside_jobs (write : Outside) {db : Db} (found : db.jobs.get? id = some row) :
    (write.apply db).jobs.get? id = some row := by
  cases write with
  | newJob remoteId sha pusher runPreferences now =>
    obtain same | same := outside_newJob db remoteId sha pusher runPreferences now
    · rw [same]
      exact found
    · rw [same]
      exact Table.get?_insert_of_some found _
  | newRun | commitName | newRepo | newRemote => exact found

theorem step_jobs (stepped : (machine tokenForJob).step s l = some t)
    (found : s.db.jobs.get? id = some row) : t.db.jobs.get? id = some row := by
  cases l with
  | connect hostInfo accepted =>
    cases stepped
    rw [connect_jobs, found]
  | task c action =>
    obtain ⟨task, db, next, _, moves, rfl⟩ := step_task stepped
    rw [moveTask_db, moves_writes moves]
    exact found
  | reaper now =>
    obtain ⟨db, reaper, moved, rfl⟩ := step_reaper stepped
    rw [reaperStep_writes moved]
    exact found
  | post post now fileCreated =>
    cases stepped
    rw [answerPost_writes]
    exact found
  | outside write =>
    cases stepped
    exact outside_jobs write found
  | restart =>
    cases stepped
    exact found

theorem step_lasts (stepped : (machine tokenForJob).step s l = some t) : Lasts s.db t.db where
  runs id row found := by
    obtain ⟨row', found', wrote⟩ := (step_runsWrite stepped).forward id row found
    exact ⟨row', found', wrote.fixed⟩
  jobs id job found := by
    obtain ⟨row, held, rfl⟩ := Option.map_eq_some_iff.mp found
    rw [Db.jobById, step_jobs stepped held, Option.map_some]

theorem Preferred.lasts (preferred : Preferred db hostId run jobId) (lasts : Lasts db db') :
    Preferred db' hostId run jobId := by
  obtain ⟨row, found, job, preference⟩ := preferred
  obtain ⟨row', found', job', preference'⟩ := lasts.runs run row found
  refine ⟨row', found', job'.trans job, ?_⟩
  rw [preference']
  exact preference

theorem MayRun.lasts (mayRun : MayRun db client run) (lasts : Lasts db db') :
    MayRun db' client run := by
  obtain ⟨job, found, accepts, preferred⟩ := mayRun
  exact ⟨job, lasts.jobs job.id job found, accepts, preferred.lasts lasts⟩

/-- What a phase may have in hand, for this client and this database. -/
structure Sound (db : Db) (client : RunnerClient) (phase : Phase) : Prop where
  queued : ∀ runs, phase = .pendingRuns runs → ∀ run ∈ runs,
    Preferred db client.hostId run.id run.jobId
  alternate : ∀ job, phase = .alternateRun job → db.jobById job.id = some job ∧ Accepts client job
  chosen : ∀ run, phase.run? = some run → MayRun db client run

theorem Sound.lasts (sound : Sound db client phase) (lasts : Lasts db db') :
    Sound db' client phase where
  queued runs same run member := (sound.queued runs same run member).lasts lasts
  alternate job same := ⟨lasts.jobs job.id job (sound.alternate job same).1, (sound.alternate job same).2⟩
  chosen run chosen := (sound.chosen run chosen).lasts lasts

/-- A phase with nothing in hand. -/
theorem Sound.empty (none : phase.run? = none) (queue : ∀ runs, phase ≠ .pendingRuns runs)
    (job : ∀ job, phase ≠ .alternateRun job) : Sound db client phase :=
  ⟨fun runs same => absurd same (queue runs), fun j same => absurd same (job j),
    fun run same => by rw [none] at same; contradiction⟩

theorem Sound.ended (isOver : phase.isOver = true) : Sound db client phase := by
  cases phase with
  | returned | panicked => exact .empty rfl (by simp) (by simp)
  | _ => cases isOver

theorem jobById_id {db : Db} (found : db.jobById id = some job) : job.id = id := by
  obtain ⟨row, _, rfl⟩ := Option.map_eq_some_iff.mp found
  rfl

/-- A phase that goes on with the run that was in hand. -/
theorem Sound.carries (sound : Sound db client phase) (lasts : Lasts db db')
    (same : next.run? = phase.run?) (queue : ∀ runs, next ≠ .pendingRuns runs)
    (job : ∀ job, next ≠ .alternateRun job) : Sound db' client next :=
  ⟨fun runs same => absurd same (queue runs), fun j same => absurd same (job j),
    fun run held => (sound.chosen run (same ▸ held)).lasts lasts⟩

theorem Sound.moves (sound : Sound db client phase) (lasts : Lasts db db')
    (moves : Moves client db phase action db' next) : Sound db' client next := by
  cases moves with
  | ends ended => exact .ended ended
  | getPendingRuns =>
    refine ⟨?_, by simp, by simp [Phase.run?]⟩
    rintro _ ⟨⟩ run member
    obtain ⟨row, found, _, preference, job, _⟩ := Db.mem_getPendingRuns.mp member
    exact ⟨row, found, job, preference.symm⟩
  | @takes job run rest now found accepts =>
    refine ⟨by simp, by simp, ?_⟩
    rintro _ ⟨⟩
    have same := jobById_id found
    refine ⟨job, by rw [same, found], willAccept_iff.mp accepts, ?_⟩
    rw [same]
    exact sound.queued _ rfl run List.mem_cons_self
  | @declines run rest now =>
    refine ⟨?_, by simp, by simp [Phase.run?]⟩
    rintro _ ⟨⟩ other member
    exact sound.queued _ rfl other (List.mem_cons_of_mem run member)
  | alternate needed found =>
    refine ⟨by simp, ?_, by simp [Phase.run?]⟩
    rintro _ ⟨⟩
    exact ⟨((Db.mem_jobsNeedingTaskRunsForHost needed).mp (List.mem_of_find?_eq_some found)).1,
      willAccept_iff.mp (List.find?_some found)⟩
  | @newRun job now =>
    refine ⟨by simp, by simp, ?_⟩
    rintro _ ⟨⟩
    obtain ⟨found, accepts⟩ := sound.alternate job rfl
    refine ⟨job, lasts.jobs job.id job found, accepts, Db.pendingRow job.id (some client.hostId) now,
      ?_, rfl, .inr rfl⟩
    rw [Db.newRun_runs, if_pos (by rfl)]
  | nothing | pings | pong | again => exact .empty rfl (by simp) (by simp)
  | reads within =>
    refine sound.carries lasts ?_ ?_ ?_
    · cases next <;> simp_all [Phase.job?, Phase.run?]
    · rintro runs rfl
      cases within
    · rintro job rfl
      cases within
  | _ => exact sound.carries lasts rfl (by simp) (by simp)

/-- Every task's hand is sound, in every state. -/
def Placed (s : State) : Prop := ∀ c task, s.tasks c = some task → Sound s.db task.client task.phase

theorem step_placed (placed : Placed s) (stepped : (machine tokenForJob).step s l = some t) :
    Placed t := by
  have lasts := step_lasts stepped
  intro c task' found
  obtain ⟨_, _, fresh⟩ | ⟨old, _⟩ | ⟨task, action, held, rfl, same, moved⟩ := step_tasks stepped found
  · rw [fresh]
    exact .empty rfl (by simp) (by simp)
  · exact (placed c task' old).lasts lasts
  · rw [same]
    exact (placed c task held).moves lasts (attempt_moves moved)

theorem start_placed (db : Db) (clients : Nat) : Placed (.start db clients) := by
  simp [Placed]

/-- Only an activation sets a row's host, to that of a client that may run it. -/
theorem rows_placed (placed : Placed s)
    (rows : ∀ id row, s.db.runs.get? id = some row → PlacedRow row)
    (stepped : (machine tokenForJob).step s l = some t) (found : t.db.runs.get? id = some row') :
    PlacedRow row' := by
  have write := step_runsWrite stepped
  cases before : s.db.runs.get? id with
  | none =>
    obtain ⟨_, jobId, pref, now, rfl⟩ := write.backward id row' found before
    exact fun h _ => .inl rfl
  | some row =>
    have placedRow : ∀ h, row.hostPreference = some h → row.hostId = none ∨ row.hostId = some h :=
      rows id row before
    obtain ⟨row'', found', wrote⟩ := write.forward id row before
    cases Option.some.inj (found'.symm.trans found)
    cases wrote with
    | kept | recorded | reaped => exact placedRow
    | activated _ held acked same =>
      obtain ⟨job, _, _, row'', found'', _, preference⟩ :=
        (placed _ _ held).chosen id (by rw [acked, ← same]; rfl)
      cases Option.some.inj (before.symm.trans found'')
      intro h prefers
      obtain none | mine := preference
      · exact absurd (prefers.symm.trans none) (by simp)
      · exact .inr (mine.symm.trans prefers)

/-- On any database, for any clients and any order of steps: a run goes to a client
only if the client accepts its job and the run asks for no other host; so rows that
ran where they preferred to still do. -/
theorem placement_safety (tokenForJob : Nat → String) (db : Db) (clients : Nat)
    (labels : List Label) (s : State)
    (path : (machine tokenForJob).run (.start db clients) labels = some s) :
    (∀ c task offer, s.tasks c = some task → task.phase = .submit offer →
      MayRun s.db task.client offer.run.id) ∧
    ((∀ id row, db.runs.get? id = some row → PlacedRow row) →
      ∀ id row, s.db.runs.get? id = some row → PlacedRow row) := by
  refine ⟨?_, ?_⟩
  · intro c task offer held submit
    have placed := Machine.invariant (fun _ _ _ => step_placed) (start_placed db clients) path
    exact (placed c task held).chosen offer.run.id (by rw [submit]; rfl)
  · intro initial
    have both := Machine.invariant
      (P := fun s => Placed s ∧ ∀ id row, s.db.runs.get? id = some row → PlacedRow row)
      (fun _ _ _ holds stepped =>
        ⟨step_placed holds.1 stepped, fun _ _ => rows_placed holds.1 holds.2 stepped⟩)
      ⟨start_placed db clients, initial⟩ path
    exact both.2

/-- The one client of a fresh driver, up to the send of `NewTask`. -/
def offersRun : List Label := pushed ++ [connects] ++ prepares 0 0

theorem offered_run_placed : ∃ s task offer,
    (machine someToken).run (.start .empty 0) offersRun = some s ∧ s.tasks 0 = some task ∧
    task.phase = .submit offer ∧ MayRun s.db task.client offer.run.id :=
  ⟨_, _, _, rfl, rfl, rfl,
    (placement_safety someToken .empty 0 offersRun _ rfl).1 0 _ _ rfl rfl⟩

end BuildOTron.Driver
