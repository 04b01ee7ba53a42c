import BuildOTron.Driver.Placement
import BuildOTron.Driver.Reaper

/-! How often a job is run again for a host. The test for an existing run looks at
`host_id`, which only an activation sets, so an alternate run that found no taker is
invisible to it; what keeps a second one from being made is that the first is still
queued for that host and is met first by every client that would accept the job. -/
namespace BuildOTron.Driver
open Transition

variable {id : Nat}

/-- Between the read of the queue and the end of the round. -/
def Phase.midRound : Phase → Bool
  | .pendingRuns _ | .alternateRun _ | .activateRun _ _ | .haveRemote _ _ | .haveRepo _ _
  | .haveSha _ _ _ | .submit _ | .awaitStarted _ | .started _ => true
  | _ => false

/-- No step of a round is taken while another task is in the middle of one. -/
def OneRoundAtATime (s : State) : Label → Prop
  | .task c _ => ∀ task, s.tasks c = some task → task.phase.job? = none →
      ∀ c' task', c' ≠ c → s.tasks c' = some task' → task'.phase.midRound = false
  | _ => True

/-- The job and the host of the alternate run that this step creates. -/
def alternatesMade (s : State) : Label → List (Nat × Nat)
  | .task c (.call _) =>
    match s.tasks c, s.poisoned with
    | some ⟨client, .alternateRun job⟩, false => [(job.id, client.hostId)]
    | _, _ => []
  | _ => []

/-- A run made for this job and this host since the database was `db₀`. -/
def Made (db₀ db : Db) (jobId hostId : Nat) : Prop :=
  ∃ id row, db₀.runs.get? id = none ∧ db.runs.get? id = some row ∧ row.jobId = jobId ∧
    row.hostPreference = some hostId

/-- The queue as far as this task has read it still holds every alternate run that
its client would take. -/
def StillListed (db₀ db : Db) (client : RunnerClient) (runs : List PendingRun) : Prop :=
  ∀ id row job, db₀.runs.get? id = none → db.runs.get? id = some row → row.state = .pending →
    row.hostPreference = some client.hostId → db.jobById row.jobId = some job →
    client.willAccept job = true → ∃ run ∈ runs, run.id = id

structure Alternates (db₀ : Db) (s : State) (made : List (Nat × Nat)) : Prop where
  known : Known s
  watched : Watched s
  placed : Placed s
  lasts : Lasts db₀ s.db
  jobs : JobsSettled s
  ran : ∀ id row h, db₀.runs.get? id = none → s.db.runs.get? id = some row →
    row.hostPreference = some h → row.state = .pending ∨ row.hostId = some h
  jobOf : ∀ id row h, db₀.runs.get? id = none → s.db.runs.get? id = some row →
    row.hostPreference = some h → ∃ job, s.db.jobById row.jobId = some job
  listed : ∀ c task runs, s.tasks c = some task → task.phase = .pendingRuns runs →
    StillListed db₀ s.db task.client runs
  unmade : ∀ c task job, s.tasks c = some task → task.phase = .alternateRun job →
    ¬ Made db₀ s.db job.id task.client.hostId
  created : ∀ entry ∈ made, Made db₀ s.db entry.1 entry.2
  distinct : made.Nodup

theorem Lasts.trans (first : Lasts db db') (second : Lasts db' db'') : Lasts db db'' where
  runs id row found := by
    obtain ⟨row', found', job, preference⟩ := first.runs id row found
    obtain ⟨row'', found'', job', preference'⟩ := second.runs id row' found'
    exact ⟨row'', found'', job'.trans job, preference'.trans preference⟩
  jobs id job found := second.jobs id job (first.jobs id job found)

theorem Made.lasts (made : Made db₀ db jobId hostId) (lasts : Lasts db db') :
    Made db₀ db' jobId hostId := by
  obtain ⟨id, row, fresh, found, job, preference⟩ := made
  obtain ⟨row', found', job', preference'⟩ := lasts.runs id row found
  exact ⟨id, row', fresh, found', job'.trans job, preference'.trans preference⟩

section Step
variable {tokenForJob : Nat → String} {s t : State} {l : Label}

/-- Only the alternate path creates a run with a preference. -/
theorem step_prefers (stepped : (machine tokenForJob).step s l = some t)
    (fresh : s.db.runs.get? id = none) (found : t.db.runs.get? id = some row)
    (prefers : row.hostPreference = some h) :
    ∃ c now task job, l = .task c (.call now) ∧ s.tasks c = some task ∧
      task.phase = .alternateRun job ∧ row.jobId = job.id ∧ h = task.client.hostId := by
  have absent : ∀ {db : Db}, db.runs.get? id = none → db.runs.get? id ≠ some row :=
    fun none same => by rw [none] at same; cases same
  have updated : ∀ target (f : RunRow → RunRow), (s.db.runs.update target f).get? id = none := by
    intro target f
    rw [Table.get?_update, fresh, Option.map_none, ite_self]
  cases l with
  | connect hostInfo accepted =>
    cases stepped
    rw [connect_runs] at found
    exact absurd found (absent fresh)
  | task c action =>
    obtain ⟨task, db, next, held, moves, rfl⟩ := step_task stepped
    rw [moveTask_db] at found
    generalize same : task.phase = phase at moves
    cases moves with
    | @newRun job now =>
      rw [Db.newRun_runs, fresh] at found
      split at found
      · cases found
        exact ⟨c, now, task, job, rfl, held, same, rfl, (Option.some.inj prefers).symm⟩
      · cases found
    | activates => exact absurd found (absent (updated _ _))
    | records => exact absurd found (absent (updated _ _))
    | insertMetric =>
      rw [Db.insertMetric_runs] at found
      exact absurd found (absent fresh)
    | _ => exact absurd found (absent fresh)
  | reaper now =>
    obtain ⟨db, reaper', moved, rfl⟩ := step_reaper stepped
    generalize s.reaper = phase at moved
    cases phase with
    | reaping stale =>
      cases stale with
      | nil => cases moved; exact absurd found (absent fresh)
      | cons run rest => cases moved; exact absurd found (absent (updated _ _))
    | start | activeRuns | unclaimed => cases moved; exact absurd found (absent fresh)
    | done => contradiction
  | post post now fileCreated =>
    cases stepped
    rw [answerPost_runs] at found
    exact absurd found (absent fresh)
  | outside write =>
    cases stepped
    cases write with
    | newRun jobId now =>
      rw [Outside.apply, Db.newRun_runs, fresh] at found
      split at found
      · cases found
        cases prefers
      · cases found
    | newJob remoteId sha pusher runPreferences now =>
      obtain same | same := outside_newJob s.db remoteId sha pusher runPreferences now <;>
        rw [same] at found <;> exact absurd found (absent fresh)
    | commitName | newRepo | newRemote => exact absurd found (absent fresh)
  | restart =>
    cases stepped
    exact absurd found (absent fresh)

/-- No alternate run is made while some other task is in the middle of its round. -/
theorem step_unmade (guard : OneRoundAtATime s l)
    (stepped : (machine tokenForJob).step s l = some t) (held : s.tasks c = some task)
    (mid : task.phase.midRound = true) (still : ∀ action, l ≠ .task c action)
    (lasts : Lasts s.db t.db) (found : t.db.runs.get? id = some row)
    (prefers : row.hostPreference = some h) :
    ∃ before, s.db.runs.get? id = some before ∧ before.jobId = row.jobId ∧
      before.hostPreference = some h := by
  cases before : s.db.runs.get? id with
  | some old =>
    obtain ⟨row', found', job, preference⟩ := lasts.runs id old before
    cases Option.some.inj (found.symm.trans found')
    exact ⟨old, rfl, job.symm, preference.symm.trans prefers⟩
  | none =>
    obtain ⟨c', now, mover, job, rfl, held', alternate, _⟩ := step_prefers stepped before found prefers
    have other : c ≠ c' := fun same => still (.call now) (by rw [same])
    have idle := guard mover held' (by rw [alternate]; rfl) c task other held
    rw [mid] at idle
    cases idle

theorem mem_alternatesMade (member : entry ∈ alternatesMade s l) :
    ∃ c now client job, l = .task c (.call now) ∧ s.tasks c = some ⟨client, .alternateRun job⟩ ∧
      s.poisoned = false ∧ entry = (job.id, client.hostId) := by
  unfold alternatesMade at member
  split at member
  · split at member
    · exact ⟨_, _, _, _, rfl, ‹_›, ‹_›, List.mem_singleton.mp member⟩
    · contradiction
  · contradiction

theorem alternatesMade_nodup (s : State) (l : Label) : (alternatesMade s l).Nodup := by
  unfold alternatesMade
  split
  · split
    · exact List.nodup_singleton _
    · exact List.nodup_nil
  · exact List.nodup_nil

/-- The row of a fresh run with a preference, one step later. -/
theorem Alternates.step_ran (alternates : Alternates db₀ s made)
    (stepped : (machine tokenForJob).step s l = some t) (fresh : db₀.runs.get? id = none)
    (found : t.db.runs.get? id = some row') (prefers : row'.hostPreference = some h) :
    row'.state = .pending ∨ row'.hostId = some h := by
  have write := step_runsWrite stepped
  cases before : s.db.runs.get? id with
  | none =>
    obtain ⟨_, jobId, pref, now, rfl⟩ := write.backward id row' found before
    exact .inl rfl
  | some row =>
    obtain ⟨row'', found', wrote⟩ := write.forward id row before
    cases Option.some.inj (found'.symm.trans found)
    have old := alternates.ran id row h fresh before
    have settled : Settled s.db id → row.hostPreference = some h → row.hostId = some h := by
      rintro ⟨held, found, left⟩ prefers
      cases Option.some.inj (found.symm.trans before)
      exact (old prefers).resolve_left left
    cases wrote with
    | kept => exact old prefers
    | activated _ held acked same =>
      obtain ⟨job, _, _, held', found'', _, preference⟩ :=
        (alternates.placed _ _ held).chosen id (by rw [acked, ← same]; rfl)
      cases Option.some.inj (before.symm.trans found'')
      obtain none | mine := preference
      · exact absurd (Eq.trans none.symm prefers) (by simp)
      · exact .inr (mine.symm.trans prefers)
    | recorded held reporting same =>
      exact .inr (settled (alternates.jobs _ _ id held (by rw [reporting, ← same]; rfl)) prefers)
    | @reaped run rest reaping same =>
      have listed : run ∈ s.reaper.candidates := by rw [reaping]; exact List.mem_cons_self
      have started := alternates.watched.reaping _ reaping run List.mem_cons_self
      exact .inr (settled (same ▸ alternates.watched.settled run listed started) prefers)

/-- The client of a run that was passed over does not take its job. -/
theorem taskStep_declines
    (moved : taskStep client db (.pendingRuns (run :: rest)) action = some (db', .pendingRuns runs)) :
    runs = rest ∧ db' = db ∧ ∀ job, db.jobById run.jobId = some job → client.willAccept job = false := by
  cases action with
  | call now =>
    simp only [taskStep, Option.some.injEq, Prod.mk.injEq] at moved
    obtain ⟨rfl, moved⟩ := moved
    cases found : db.jobById run.jobId with
    | none => simp [found, orPanic] at moved
    | some job =>
      simp only [found, orPanic] at moved
      split at moved
      · cases moved
      · rename_i refuses
        cases moved
        refine ⟨rfl, rfl, ?_⟩
        rintro _ ⟨⟩
        exact Bool.eq_false_of_not_eq_true refuses
  | _ => cases moved

theorem Alternates.step_jobOf (alternates : Alternates db₀ s made)
    (stepped : (machine tokenForJob).step s l = some t) (fresh : db₀.runs.get? id = none)
    (found : t.db.runs.get? id = some row') (prefers : row'.hostPreference = some h) :
    ∃ job, t.db.jobById row'.jobId = some job := by
  have lasts := step_lasts stepped
  cases before : s.db.runs.get? id with
  | none =>
    obtain ⟨c, now, task, job, rfl, held, alternate, same, _⟩ := step_prefers stepped before found prefers
    have known := ((alternates.placed c task held).alternate job alternate).1
    exact ⟨job, by rw [same]; exact lasts.jobs job.id job known⟩
  | some row =>
    obtain ⟨row'', found', same, preference⟩ := lasts.runs id row before
    cases Option.some.inj (found'.symm.trans found)
    obtain ⟨job, known⟩ := alternates.jobOf id row h fresh before (preference.symm.trans prefers)
    exact ⟨job, by rw [same]; exact lasts.jobs row.jobId job known⟩

/-- A run that has been passed over is one the client does not take. -/
theorem Alternates.step_listed (alternates : Alternates db₀ s made) (guard : OneRoundAtATime s l)
    (stepped : (machine tokenForJob).step s l = some t) (found : t.tasks c = some task')
    (reading : task'.phase = .pendingRuns runs) : StillListed db₀ t.db task'.client runs := by
  have lasts := step_lasts stepped
  obtain ⟨_, _, fresh⟩ | ⟨old, still⟩ | ⟨task, action, mine, rfl, same, moved⟩ :=
    step_tasks stepped found
  · rw [fresh] at reading
    cases reading
  · intro id row job fresh held pending prefers known accepts
    obtain ⟨before, held', sameJob, prefers'⟩ := step_unmade guard stepped old
      (by rw [reading]; rfl) still lasts held prefers
    have queued : before.state = .pending := by
      by_contra left
      obtain ⟨row', found', left'⟩ := Settled.step ⟨before, held', left⟩ (step_runsWrite stepped)
      cases Option.some.inj (found'.symm.trans held)
      exact left' pending
    obtain ⟨job', known'⟩ := alternates.jobOf id before _ fresh held' prefers'
    have sameAs := lasts.jobs before.jobId job' known'
    rw [sameJob] at sameAs known'
    cases Option.some.inj (sameAs.symm.trans known)
    exact alternates.listed c task' runs old reading id before job fresh held' queued prefers'
      (sameJob ▸ known') accepts
  · rw [reading] at moved
    rw [same]
    have moved := attempt_goes_on moved (by simp)
    have moves := taskStep_moves moved
    generalize phase : task.phase = phase at moves moved
    generalize t.db = db at moves moved ⊢
    cases moves with
    | ends ended => cases ended
    | reads within => cases within
    | getPendingRuns =>
      intro id row job _ held pending prefers _ _
      exact ⟨⟨id, row.jobId, row.createdTime⟩,
        Db.mem_getPendingRuns.mpr ⟨row, held, pending, .inl prefers, rfl, rfl⟩, rfl⟩
    | @declines run rest now =>
      obtain ⟨_, _, refuses⟩ := taskStep_declines moved
      intro id row job fresh held pending prefers known accepts
      obtain ⟨listed, member, same⟩ := alternates.listed c task _ mine phase id row job fresh held
        pending prefers known accepts
      rcases List.mem_cons.mp member with rfl | later
      · obtain ⟨row', found', sameJob, _⟩ := (alternates.placed c task mine).queued _ phase listed
          List.mem_cons_self
        rw [same] at found'
        cases Option.some.inj (found'.symm.trans held)
        rw [sameJob] at known
        rw [refuses job known] at accepts
        cases accepts
      · exact ⟨listed, later, same⟩

/-- A job is taken up for an alternate run only when none was made. -/
theorem Alternates.step_needed (alternates : Alternates db₀ s made) (guard : OneRoundAtATime s l)
    (stepped : (machine tokenForJob).step s l = some t) (found : t.tasks c = some task')
    (alternate : task'.phase = .alternateRun job) :
    ¬ Made db₀ t.db job.id task'.client.hostId := by
  have lasts := step_lasts stepped
  rintro ⟨id, row, fresh, held, sameJob, prefers⟩
  obtain ⟨_, _, new⟩ | ⟨old, still⟩ | ⟨task, action, mine, rfl, same, moved⟩ :=
    step_tasks stepped found
  · rw [new] at alternate
    cases alternate
  · obtain ⟨before, held', sameJob', prefers'⟩ := step_unmade guard stepped old
      (by rw [alternate]; rfl) still lasts held prefers
    exact alternates.unmade c task' job old alternate
      ⟨id, before, fresh, held', sameJob'.trans sameJob, prefers'⟩
  · rw [alternate] at moved
    rw [same] at prefers
    have moves := attempt_moves moved
    have ran := alternates.step_ran stepped fresh held prefers
    have listed := alternates.listed c task
    generalize task.phase = phase at moves moved listed
    generalize after : t.db = db at moves moved held
    cases moves with
    | ends ended => cases ended
    | reads within => cases within
    | alternate needed taken =>
      obtain ⟨known, _, _, unrun⟩ :=
        (Db.mem_jobsNeedingTaskRunsForHost needed).mp (List.mem_of_find?_eq_some taken)
      rcases ran with pending | hosted
      · -- still queued for this host, so the reading of the queue has met it
        obtain ⟨run, member, _⟩ := listed [] mine rfl id row job fresh held pending prefers
          (by rw [sameJob, known]) (List.find?_some taken)
        cases member
      · exact unrun id row held sameJob hosted

theorem Alternates.step_created (alternates : Alternates db₀ s made)
    (stepped : (machine tokenForJob).step s l = some t)
    (member : entry ∈ made ++ alternatesMade s l) : Made db₀ t.db entry.1 entry.2 := by
  rcases List.mem_append.mp member with old | new
  · exact (alternates.created entry old).lasts (step_lasts stepped)
  · obtain ⟨c, now, client, job, rfl, held, healthy, rfl⟩ := mem_alternatesMade new
    obtain ⟨task, db, next, held', moved, rfl⟩ := step_attempt stepped
    cases Option.some.inj (held.symm.trans held')
    rw [attempt_healthy healthy] at moved
    simp only [taskStep, Option.some.injEq, Prod.mk.injEq] at moved
    rw [moveTask_db, ← moved.1]
    refine ⟨s.db.runs.seq + 1, Db.pendingRow job.id (some client.hostId) now, ?_, ?_, rfl, rfl⟩
    · cases before : db₀.runs.get? (s.db.runs.seq + 1) with
      | none => rfl
      | some row =>
        obtain ⟨row', found, _⟩ := alternates.lasts.runs _ row before
        have within := Table.le_seq found
        omega
    · rw [Db.newRun_runs, if_pos rfl]

theorem Alternates.step_distinct (alternates : Alternates db₀ s made) :
    (made ++ alternatesMade s l).Nodup := by
  refine List.nodup_append.mpr ⟨alternates.distinct, alternatesMade_nodup s l, ?_⟩
  rintro entry old new member rfl
  obtain ⟨c, now, client, job, _, held, _, rfl⟩ := mem_alternatesMade member
  exact alternates.unmade c _ job held rfl (alternates.created _ old)

theorem Alternates.step (alternates : Alternates db₀ s made) (guard : OneRoundAtATime s l)
    (stepped : (machine tokenForJob).step s l = some t) :
    Alternates db₀ t (made ++ alternatesMade s l) where
  known := step_known alternates.known stepped
  watched := step_watched alternates.watched stepped
  placed := step_placed alternates.placed stepped
  lasts := alternates.lasts.trans (step_lasts stepped)
  jobs := step_jobsSettled alternates.known alternates.jobs stepped
  ran _ _ _ fresh found prefers := alternates.step_ran stepped fresh found prefers
  jobOf _ _ _ fresh found prefers := alternates.step_jobOf stepped fresh found prefers
  listed _ _ _ found reading := alternates.step_listed guard stepped found reading
  unmade _ _ _ found alternate := alternates.step_needed guard stepped found alternate
  created _ member := alternates.step_created stepped member
  distinct := alternates.step_distinct

end Step

theorem start_alternates (db : Db) (clients : Nat) : Alternates db (.start db clients) [] where
  known := start_known db clients
  watched := start_watched db clients []
  placed := start_placed db clients
  lasts := ⟨fun _ row found => ⟨row, found, rfl, rfl⟩, fun _ _ found => found⟩
  jobs := by simp [JobsSettled]
  ran _ _ _ fresh found := by
    rw [show (State.start db clients).db = db from rfl, fresh] at found
    cases found
  jobOf _ _ _ fresh found := by
    rw [show (State.start db clients).db = db from rfl, fresh] at found
    cases found
  listed := by simp
  unmade := by simp
  created := by simp
  distinct := List.nodup_nil

/-- On any database, with any clients, whatever becomes of each round: rounds that
do not overlap make one alternate run at most for each job and host. -/
theorem one_alternate_per_host (tokenForJob : Nat → String) (db : Db) (clients : Nat)
    (labels : List Label) (s : State)
    (rounds : (machine tokenForJob).Guarded OneRoundAtATime (.start db clients) labels)
    (path : (machine tokenForJob).run (.start db clients) labels = some s) :
    ((machine tokenForJob).events alternatesMade (.start db clients) labels).Nodup :=
  (Machine.guarded_events (fun _ _ _ _ alternates => alternates.step)
    (start_alternates db clients) rounds path).distinct

/-- A job that every host is to run, and the one client there is. -/
def jobForAll : List Label :=
  [.outside (.newRepo ⟨"repo", some "all"⟩),
   .outside (.newRemote ⟨1, "owner/repo", "github", "https://www.github.com/owner/repo",
     "https://www.github.com/owner/repo.git", "repo.json"⟩),
   .outside (.newJob 1 "f00d" none (some "all") 1), connects]

def makesAlternate : List Label :=
  [.task 0 (.call 86400000), .task 0 (.call 86400000), .task 0 (.call 86400000)]

theorem alternate_round_alone :
    (machine someToken).Guarded OneRoundAtATime (.start .empty 0) (jobForAll ++ makesAlternate) := by
  have alone : ∀ {s : State} (action : Action), Known s → s.clients = 1 →
      OneRoundAtATime s (.task 0 action) := by
    intro s action known one task _ _ c task' other found
    have within := known.clients c task' found
    omega
  refine Machine.guarded_append.mpr ⟨Machine.guarded_of_forall ?_, ?_⟩
  · intro l member s
    simp only [jobForAll, connects, List.mem_cons, List.not_mem_nil, or_false] at member
    rcases member with rfl | rfl | rfl | rfl <;> trivial
  · intro s path
    have known := Machine.invariant (fun _ _ _ => step_known) (start_known .empty 0) path
    cases path
    refine ⟨alone _ known rfl, fun t stepped => ?_⟩
    have known' := step_known known stepped
    cases stepped
    refine ⟨alone _ known' rfl, fun u stepped => ?_⟩
    have known'' := step_known known' stepped
    cases stepped
    exact ⟨alone _ known'' rfl, fun _ _ => trivial⟩

theorem alternate_made_once :
    (machine someToken).events alternatesMade (.start .empty 0) (jobForAll ++ makesAlternate) =
      [(1, 1)] ∧
    ((machine someToken).events alternatesMade (.start .empty 0)
      (jobForAll ++ makesAlternate)).Nodup :=
  ⟨rfl, one_alternate_per_host someToken .empty 0 _ _ alternate_round_alone rfl⟩

end BuildOTron.Driver
