import BuildOTron.WebServer.PushRecords

/-! One push event by itself, stopped anywhere and delivered again. A stop is a run
that goes no further, or a statement that the database refuses. The second delivery
looks for the commit's row and nothing else, so what the first had not yet written
beside it is never written. -/
namespace BuildOTron.WebServer
open Transition

variable {db : Db} {event : PushEvent}

inductive DeliveryLabel where
  | push (label : PushLabel)
  /-- the database refuses a handler's next statement, which panics with the lock held -/
  | refuse (i : Nat)

def deliveryMachine : Machine PushState DeliveryLabel where
  step s
    | .push label => pushMachine.step s label
    | .refuse i => do
      let handler ← s.handlers[i]?
      let _ ← statement handler.event s.db 0 handler.phase
      return { s.setPhase i handler .panicked with poisoned := true }

/-- What one delivery is to leave behind. -/
structure RecordedAs (db : Db) (event : PushEvent) (commitId jobId : Nat) : Prop where
  commit : db.commits.get? commitId = some event.tip
  job : (db.jobs.select fun row => row.commitId = commitId).map Prod.fst = [jobId]
  run : ∃ id run, db.runs.get? id = some run ∧ run.jobId = jobId
  name : ∃ id row, db.commitNames.get? id = some row ∧ row.commitId = commitId ∧
    row.name = shortRefName event.refName

def Converged (db : Db) (event : PushEvent) : Prop :=
  ∃ commitId jobId, RecordedAs db event commitId jobId

/-- The delivery stopped before its commit was inserted, or after its job was, with a
run that names the job. -/
def StopsSafely (db stopped : Db) : Prop :=
  stopped.commits = db.commits ∨
    stopped.jobs ≠ db.jobs ∧ ∃ id run, stopped.runs.get? id = some run ∧ run.jobId = db.jobs.seq + 1

/-! ### One handler alone -/

/-- What every statement of a lone handler keeps, each of its runs keeps. -/
theorem alone_step {P : PushPhase → Db → Prop} {s t : PushState}
    (called : ∀ phase d now d' next, P phase d →
      statement event d now phase = some (.ok (d', next)) → P next d')
    (notified : ∀ jobId commitId d, P (.notifying jobId commitId) d → P (.commitName commitId) d)
    (panics : ∀ phase d, P phase d → P .panicked d)
    (held : ∃ phase, s.handlers = [⟨event, phase⟩] ∧ P phase s.db)
    (stepped : deliveryMachine.step s l = some t) :
    ∃ phase, t.handlers = [⟨event, phase⟩] ∧ P phase t.db := by
  obtain ⟨phase, alone, holds⟩ := held
  have only : ∀ {i handler}, s.handlers[i]? = some handler → i = 0 ∧ handler = ⟨event, phase⟩ := by
    intro i handler found
    rw [alone] at found
    cases i with
    | zero => exact ⟨rfl, (Option.some.inj found).symm⟩
    | succ i => simp at found
  cases l with
  | refuse i =>
    simp only [deliveryMachine, Option.bind_eq_bind, Option.bind_eq_some_iff] at stepped
    obtain ⟨handler, found, _, _, stepped⟩ := stepped
    obtain ⟨rfl, rfl⟩ := only found
    cases stepped
    exact ⟨.panicked, by simp [PushState.setPhase, alone], panics phase _ holds⟩
  | push label =>
    cases push_moves stepped with
    | answers found healthy answered =>
      obtain ⟨rfl, rfl⟩ := only found
      exact ⟨_, by simp [PushState.setPhase, alone], called phase _ _ _ _ holds answered⟩
    | panics found answered failed =>
      obtain ⟨rfl, rfl⟩ := only found
      exact ⟨.panicked, by simp [PushState.setPhase, alone], panics phase _ holds⟩
    | notified found reached =>
      obtain ⟨rfl, rfl⟩ := only found
      cases reached
      refine ⟨_, by simp [PushState.setPhase, alone]; rfl, ?_⟩
      split
      · exact notified _ _ _ holds
      · exact panics _ _ holds

theorem alone_run {P : PushPhase → Db → Prop} {t : PushState}
    (called : ∀ phase d now d' next, P phase d →
      statement event d now phase = some (.ok (d', next)) → P next d')
    (notified : ∀ jobId commitId d, P (.notifying jobId commitId) d → P (.commitName commitId) d)
    (panics : ∀ phase d, P phase d → P .panicked d) (initial : P .remoteLookup db)
    (path : deliveryMachine.run (.start db [event]) labels = some t) :
    ∃ phase, t.handlers = [⟨event, phase⟩] ∧ P phase t.db :=
  Machine.invariant (P := fun s => ∃ phase, s.handlers = [⟨event, phase⟩] ∧ P phase s.db)
    (fun _ _ _ => alone_step called notified panics) ⟨.remoteLookup, rfl, initial⟩ path

/-! ### The first delivery of a sha -/

def PushPhase.unwritten : PushPhase → Bool
  | .remoteLookup | .commitLookup _ _ | .runPreference _ _ | .newCommit _ _ _ _ | .notFound => true
  | _ => false

/-- The commit that is still to be told about and named. -/
def PushPhase.reports? : PushPhase → Option Nat
  | .remotesByRepo _ _ commitId | .notifying _ commitId | .commitName commitId => some commitId
  | _ => none

/-- How far the delivery of a new sha is, and what it has written by then. -/
inductive Progress (db : Db) (event : PushEvent) : PushPhase → Db → Prop where
  | searching (unwritten : phase.unwritten = true) : Progress db event phase db
  | committed : Progress db event (.newJob remoteId repoId runPref email (db.commits.seq + 1))
      { db with commits := db.commits.insert event.tip }
  | queued (ofCommit : job.commitId = db.commits.seq + 1) :
      Progress db event (.newRun repoId (db.jobs.seq + 1) (db.commits.seq + 1))
        { db with commits := db.commits.insert event.tip, jobs := db.jobs.insert job }
  | ran (ofCommit : job.commitId = db.commits.seq + 1) (ofJob : run.jobId = db.jobs.seq + 1)
      (reports : phase.reports? = some (db.commits.seq + 1)) : Progress db event phase
        { db with
          commits := db.commits.insert event.tip, jobs := db.jobs.insert job,
          runs := db.runs.insert run }
  | named (ofCommit : job.commitId = db.commits.seq + 1) (ofJob : run.jobId = db.jobs.seq + 1) :
      Progress db event (.handled (db.commits.seq + 1))
        { db with
          commits := db.commits.insert event.tip, jobs := db.jobs.insert job,
          runs := db.runs.insert run,
          commitNames := db.commitNames.insert
            ⟨db.commits.seq + 1, shortRefName event.refName, .fresh⟩ }
  | panicked (stopped : Progress db event phase d) : Progress db event .panicked d

theorem Progress.call {phase next : PushPhase} {d d' : Db} (fresh : event.tip ∉ shas db) (progress : Progress db event phase d)
    (answered : statement event d now phase = some (.ok (d', next))) : Progress db event next d' := by
  cases progress with
  | searching unwritten =>
    cases phase with
    | remoteLookup =>
      cases answered
      split <;> exact .searching rfl
    | commitLookup remoteId repoId =>
      cases answered
      rw [commitToId_eq_none.mpr fresh]
      exact .searching rfl
    | runPreference remoteId repoId =>
      simp only [statement, Option.some.injEq] at answered
      split at answered
      · contradiction
      · cases answered
        split
        · exact .searching rfl
        · have looking : Progress db event .remoteLookup db := .searching rfl
          exact .panicked looking
    | newCommit remoteId repoId runPref email =>
      simp only [statement, newCommit_eq fresh, Outcome.ok_bind, Outcome.pure_eq] at answered
      cases answered
      exact .committed
    | _ => contradiction
  | committed =>
    cases answered
    exact .queued rfl
  | queued ofCommit =>
    cases answered
    exact .ran ofCommit rfl rfl
  | ran ofCommit ofJob reports =>
    cases phase with
    | remotesByRepo repoId jobId commitId =>
      cases answered
      exact .ran ofCommit ofJob reports
    | commitName commitId =>
      cases reports
      cases answered
      exact .named ofCommit ofJob
    | _ => contradiction
  | named | panicked => contradiction

theorem Progress.notify {d : Db} (progress : Progress db event (.notifying jobId commitId) d) :
    Progress db event (.commitName commitId) d := by
  cases progress with
  | searching unwritten => contradiction
  | ran ofCommit ofJob reports => exact .ran ofCommit ofJob reports

theorem delivery_progress {s : PushState} (fresh : event.tip ∉ shas db)
    (path : deliveryMachine.run (.start db [event]) labels = some s) :
    ∃ phase, s.handlers = [⟨event, phase⟩] ∧ Progress db event phase s.db :=
  alone_run (fun _ _ _ _ _ => Progress.call fresh) (fun _ _ _ => Progress.notify)
    (fun _ _ => .panicked) (.searching rfl) path

/-! ### A later delivery, which finds the commit -/

def PushPhase.searching : PushPhase → Bool
  | .remoteLookup | .commitLookup _ _ | .notFound => true
  | _ => false

inductive Repeats (db : Db) (event : PushEvent) : PushPhase → Db → Prop where
  | searching (searching : phase.searching = true) : Repeats db event phase db
  | naming (known : commitToId db event.tip = some commitId) : Repeats db event (.commitName commitId) db
  | named (known : commitToId db event.tip = some commitId) : Repeats db event (.handled commitId)
      (db.updateCommitName commitId (shortRefName event.refName))
  | panicked (stopped : Repeats db event phase d) : Repeats db event .panicked d

theorem Repeats.call {phase next : PushPhase} {d d' : Db} (known : event.tip ∈ shas db)
    (repeats : Repeats db event phase d)
    (answered : statement event d now phase = some (.ok (d', next))) : Repeats db event next d' := by
  cases repeats with
  | searching searching =>
    cases phase with
    | remoteLookup =>
      cases answered
      split <;> exact .searching rfl
    | commitLookup remoteId repoId =>
      cases answered
      cases found : commitToId db event.tip with
      | none => exact absurd known (commitToId_eq_none.mp found)
      | some commitId => exact .naming found
    | _ => contradiction
  | naming known =>
    cases answered
    exact .named known
  | named | panicked => contradiction

theorem redelivery_repeats {s : PushState} (known : event.tip ∈ shas db)
    (path : deliveryMachine.run (.start db [event]) labels = some s) :
    ∃ phase, s.handlers = [⟨event, phase⟩] ∧ Repeats db event phase s.db := by
  refine alone_run (fun _ _ _ _ _ => Repeats.call known) ?_ (fun _ _ => .panicked) (.searching rfl) path
  intro jobId commitId d repeats
  cases repeats
  contradiction

/-! ### What two deliveries leave -/

section Outcome
variable {d : Db}

theorem commitToId_insert (fresh : event.tip ∉ shas db)
    (commits : d.commits = db.commits.insert event.tip) :
    commitToId d event.tip = some (db.commits.seq + 1) := by
  have missing : db.commits.select (fun known => known = event.tip) = [] := by
    simpa [commitToId] using commitToId_eq_none.mpr fresh
  simp [commitToId, commits, Table.select_insert, missing]

/-- Nothing names a commit before it is there. -/
theorem newCommit_unused (intact : db.jobs.References JobRow.commitId db.commits) :
    db.jobs.select (fun row => row.commitId = db.commits.seq + 1) = [] := by
  rw [List.eq_nil_iff_forall_not_mem]
  intro row member
  obtain ⟨found, names⟩ := Table.mem_select.mp member
  have known := intact row.1 row.2 found
  rw [of_decide_eq_true names] at known
  obtain ⟨sha, held⟩ := Option.isSome_iff_exists.mp known
  have bound := Table.le_seq held
  omega

theorem newCommit_job (intact : db.jobs.References JobRow.commitId db.commits) {job : JobRow}
    (ofCommit : job.commitId = db.commits.seq + 1) :
    ((db.jobs.insert job).select fun row => row.commitId = db.commits.seq + 1).map Prod.fst =
      [db.jobs.seq + 1] := by
  simp [Table.select_insert, newCommit_unused intact, ofCommit]

/-- Once the sha has its commit and its name, the rest is up to the jobs and the runs. -/
theorem converged_iff (fresh : event.tip ∉ shas db)
    (commits : d.commits = db.commits.insert event.tip)
    (named : ∃ id row, d.commitNames.get? id = some row ∧ row.commitId = db.commits.seq + 1 ∧
      row.name = shortRefName event.refName) :
    Converged d event ↔ ∃ jobId,
      (d.jobs.select fun row => row.commitId = db.commits.seq + 1).map Prod.fst = [jobId] ∧
      ∃ id run, d.runs.get? id = some run ∧ run.jobId = jobId := by
  constructor
  · rintro ⟨commitId, jobId, recorded⟩
    have found := recorded.commit
    rw [commits, Table.get?_insert] at found
    split at found
    · rename_i same
      subst same
      exact ⟨jobId, recorded.job, recorded.run⟩
    · have old : event.tip ∈ shas db := List.mem_map.mpr ⟨_, Table.get?_eq_some.mp found, rfl⟩
      exact absurd old fresh
  · rintro ⟨jobId, job, run⟩
    refine ⟨_, jobId, ?_, job, run, named⟩
    rw [commits, Table.get?_insert_self]

/-- One delivery of a new sha that gets to its end. -/
theorem undisturbed_converges {labels : List DeliveryLabel} {s : PushState}
    (fresh : event.tip ∉ shas db) (intact : db.jobs.References JobRow.commitId db.commits)
    (path : deliveryMachine.run (.start db [event]) labels = some s)
    (handled : s.handlers = [⟨event, .handled commitId⟩]) : Converged s.db event := by
  obtain ⟨phase, alone, progress⟩ := delivery_progress fresh path
  rw [handled] at alone
  cases alone
  generalize s.db = d at progress
  cases progress with
  | searching | ran => contradiction
  | @named job run ofCommit ofJob =>
    refine (converged_iff fresh rfl ⟨_, _, Table.get?_insert_self _ _, rfl, rfl⟩).mpr ?_
    exact ⟨_, newCommit_job intact ofCommit, _, _, Table.get?_insert_self _ _, ofJob⟩

/-- A delivery that finds the sha adds its name. -/
theorem repeated_names {labels : List DeliveryLabel} {s : PushState} (known : event.tip ∈ shas d)
    (path : deliveryMachine.run (.start d [event]) labels = some s)
    (handled : s.handlers = [⟨event, .handled commitId⟩]) : commitToId d event.tip = some commitId ∧
      s.db = d.updateCommitName commitId (shortRefName event.refName) := by
  obtain ⟨phase, alone, repeats⟩ := redelivery_repeats known path
  rw [handled] at alone
  cases alone
  generalize s.db = d' at repeats
  cases repeats with
  | searching => contradiction
  | named known => exact ⟨known, rfl⟩

/-- With the sha on record, a second delivery changes nothing but the names. -/
theorem redelivered_iff {labels : List DeliveryLabel} {s : PushState} (fresh : event.tip ∉ shas db)
    (commits : d.commits = db.commits.insert event.tip)
    (path : deliveryMachine.run (.start d [event]) labels = some s)
    (handled : s.handlers = [⟨event, .handled commitId⟩]) : Converged s.db event ↔ ∃ jobId,
      (d.jobs.select fun row => row.commitId = db.commits.seq + 1).map Prod.fst = [jobId] ∧
      ∃ id run, d.runs.get? id = some run ∧ run.jobId = jobId := by
  have found := commitToId_insert fresh commits
  have known : event.tip ∈ shas d := by
    by_contra missing
    rw [commitToId_eq_none.mpr missing] at found
    contradiction
  obtain ⟨same, written⟩ := repeated_names known path handled
  rw [found] at same
  cases same
  rw [written]
  exact converged_iff (d := d.updateCommitName _ _) fresh commits
    ⟨_, _, Table.get?_insert_self _ _, rfl, rfl⟩

theorem Progress.converges_iff {phase : PushPhase} {labels : List DeliveryLabel} {s : PushState}
    (fresh : event.tip ∉ shas db) (intact : db.jobs.References JobRow.commitId db.commits)
    (progress : Progress db event phase d)
    (path : deliveryMachine.run (.start d [event]) labels = some s)
    (handled : s.handlers = [⟨event, .handled commitId⟩]) :
    Converged s.db event ↔ StopsSafely db d := by
  induction progress with
  | searching => exact iff_of_true (undisturbed_converges fresh intact path handled) (.inl rfl)
  | panicked _ ih => exact ih path
  | committed =>
    rw [redelivered_iff fresh rfl path handled]
    have unwritten : ¬ StopsSafely db { db with commits := db.commits.insert event.tip } := by
      rintro (same | ⟨added, _⟩)
      · exact Table.insert_ne _ _ same
      · exact added rfl
    refine iff_of_false ?_ unwritten
    rintro ⟨jobId, job, _⟩
    simp [newCommit_unused intact] at job
  | @queued job repoId ofCommit =>
    rw [redelivered_iff fresh rfl path handled]
    constructor
    · rintro ⟨jobId, own, run⟩
      have same := (newCommit_job intact ofCommit).symm.trans own
      cases List.cons.inj same |>.1
      exact .inr ⟨Table.insert_ne _ _, run⟩
    · rintro (same | ⟨_, run⟩)
      · exact absurd same (Table.insert_ne _ _)
      · exact ⟨_, newCommit_job intact ofCommit, run⟩
  | ran ofCommit ofJob | named ofCommit ofJob =>
    rw [redelivered_iff fresh rfl path handled]
    have run := Table.get?_insert_self db.runs ‹RunRow›
    exact iff_of_true ⟨_, newCommit_job intact ofCommit, _, _, run, ofJob⟩
      (.inr ⟨Table.insert_ne _ _, _, _, run, ofJob⟩)

end Outcome

/-- A push event of a new sha, whose processing stops anywhere, delivered again and
processed to the end: it leaves what one undisturbed processing leaves exactly when
the stop came before the commit's insert or after the run's. -/
theorem redelivery_converges_iff (db : Db) (event : PushEvent) (first second : List DeliveryLabel)
    (s t : PushState) (commitId : Nat) (fresh : event.tip ∉ shas db)
    (intact : db.jobs.References JobRow.commitId db.commits)
    (stopped : deliveryMachine.run (.start db [event]) first = some s)
    (again : deliveryMachine.run (.start s.db [event]) second = some t)
    (handled : t.handlers = [⟨event, .handled commitId⟩]) :
    (Converged t.db event ↔ StopsSafely db s.db) ∧
      ∀ undisturbed u c, deliveryMachine.run (.start db [event]) undisturbed = some u →
        u.handlers = [⟨event, .handled c⟩] → Converged u.db event := by
  obtain ⟨phase, _, progress⟩ := delivery_progress fresh stopped
  exact ⟨progress.converges_iff fresh intact again handled,
    fun _ _ _ path done => undisturbed_converges fresh intact path done⟩

def mainPush : PushEvent := pushOf "refs/heads/main"

def statements (n : Nat) : List DeliveryLabel := List.replicate n (.push (.call 0 1))

/-- The remote, the sha and the name: all that a later delivery looks at or writes. -/
def afterwards : List DeliveryLabel := statements 3

theorem oneRemote_jobs : oneRemote.jobs.References JobRow.commitId oneRemote.commits := .empty _ _

/-- The handlers and the jobs after a delivery that takes these steps and a second one. -/
def redeliver (first : List DeliveryLabel) : Option (List Handler × List (Nat × JobRow)) := do
  let s ← deliveryMachine.run (.start oneRemote [mainPush]) first
  let t ← deliveryMachine.run (.start s.db [mainPush]) afterwards
  return (t.handlers, t.db.jobs.rows)

theorem redeliver_eq_some {first : List DeliveryLabel} (ran : redeliver first = some (handlers, jobs)) :
    ∃ s t, deliveryMachine.run (.start oneRemote [mainPush]) first = some s ∧
      deliveryMachine.run (.start s.db [mainPush]) afterwards = some t ∧
      t.handlers = handlers ∧ t.db.jobs.rows = jobs := by
  simp only [redeliver, Option.bind_eq_bind, Option.bind_eq_some_iff, Option.pure_def,
    Option.some.injEq, Prod.mk.injEq] at ran
  obtain ⟨s, stopped, t, again, handled, rows⟩ := ran
  exact ⟨s, t, stopped, again, handled, rows⟩

def notifierFails : List DeliveryLabel := statements 7 ++ [.push (.notify 0 false)]

theorem notifier_failure_recovers : ∃ s t,
    deliveryMachine.run (.start oneRemote [mainPush]) notifierFails = some s ∧
    deliveryMachine.run (.start s.db [mainPush]) afterwards = some t ∧
    ((Converged t.db mainPush ↔ StopsSafely oneRemote s.db) ∧
      ∀ undisturbed u c, deliveryMachine.run (.start oneRemote [mainPush]) undisturbed = some u →
        u.handlers = [⟨mainPush, .handled c⟩] → Converged u.db mainPush) := by
  have ran : redeliver notifierFails = some ([⟨mainPush, .handled 1⟩],
      [(1, ⟨some "dev@server", 1, 1, 1, none⟩)]) := rfl
  obtain ⟨s, t, stopped, again, handled, _⟩ := redeliver_eq_some ran
  exact ⟨s, t, stopped, again, redelivery_converges_iff oneRemote mainPush _ _ s t 1 (by decide)
    oneRemote_jobs stopped again handled⟩

/-- The process stops after the commit's insert; the retry takes the commit for old. -/
theorem half_written_push_stays :
    ¬ ∀ (db : Db) (event : PushEvent) (first second : List DeliveryLabel) (s t : PushState)
      (commitId : Nat), event.tip ∉ shas db → db.jobs.References JobRow.commitId db.commits →
      deliveryMachine.run (.start db [event]) first = some s →
      deliveryMachine.run (.start s.db [event]) second = some t →
      t.handlers = [⟨event, .handled commitId⟩] → Converged t.db event := by
  intro claim
  have ran : redeliver (statements 4) = some ([⟨mainPush, .handled 1⟩], []) := rfl
  obtain ⟨s, t, stopped, again, handled, jobs⟩ := redeliver_eq_some ran
  obtain ⟨_, jobId, recorded⟩ := claim oneRemote mainPush _ _ s t 1 (by decide) oneRemote_jobs stopped
    again handled
  have job := recorded.job
  rw [Table.select, jobs] at job
  contradiction

end BuildOTron.WebServer
