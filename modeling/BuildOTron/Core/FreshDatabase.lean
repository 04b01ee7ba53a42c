import BuildOTron.Core.FreshTables

/-! What becomes of a sequence of calls on a database that `create_tables` has just
made. A call works when all of its statements can be prepared, and the first one that
cannot is the end of the sequence. -/
namespace BuildOTron.Fresh
open Transition

def Call.statements : Call → List Sql.Statement
  | .newRepo _ => [Statements.newRepo]
  | .newRemote _ _ _ _ => [Statements.newRemote]
  | .newJob _ _ _ _ => [Statements.newCommit, Statements.newJob]
  | .newRun _ _ => [Statements.newRun]
  | .insertMetric _ _ _ => [Statements.insertMetric]
  | .metricsForRun _ => [Statements.metricsForRun]
  | .getPendingRuns _ => [Statements.pendingRuns]
  | .getActiveRuns => [Statements.activeRuns]
  | .jobsNeedingTaskRunsForHost _ => [Statements.jobsNeedingHostRun]
  | .lastRunForJob _ => [Statements.lastRunForJob]
  | .runsForJobOnePerHost _ => [Statements.runsForJob]
  | .idForHost _ => [Statements.insertHost, Statements.selectHost]
  | .activate _ _ _ _ => [Statements.startRun]

def Accepted (schema : Sql.Schema) (call : Call) : Prop :=
  ∀ statement ∈ call.statements, schema.Accepts statement

/-- What a call leaves in the runs table. -/
def Call.runsAfter (db : Db) (now : Nat) : Call → Table RunRow
  | .newRun jobId hostPreference => (db.newRun jobId hostPreference now).1.runs
  | .activate runId hostId artifacts buildToken =>
    (db.startRun runId now hostId artifacts buildToken).runs
  | _ => db.runs

/-- A call that has met no SQL error, on a connection that is still good. -/
structure Performed (conn : Conn) (label : Label) (ended : Outcome Stop Answer) (conn' : Conn) :
    Prop where
  clean : ended.isErr = false
  healthy : conn'.poisoned = false
  runs : conn'.db.runs = label.call.runsAfter conn.db label.now
  answers : ∀ jobId hostPreference, label.call = .newRun jobId hostPreference →
    ended = .ok (.run (conn.db.newRun jobId hostPreference label.now).2)

section Performing
variable {schema : Sql.Schema} {conn : Conn} {now : Nat}
  {pick : List (Nat × RunRow) → Option (Nat × RunRow)}

theorem lock_healthy (healthy : conn.poisoned = false) : lock conn = (.ok (), conn) := by
  simp [lock, healthy]

theorem perform_ok {effect : Db → Except Sql.Error (Db × α)} (accepts : schema.Accepts statement)
    (done : effect conn.db = .ok (db, value)) (stop : Sql.Error → Stop) :
    perform schema stop statement effect conn = (.ok value, { conn with db := db }) := by
  have prepared : schema.prepare statement = .ok () := accepts
  simp only [perform, prepared, done]

theorem perform_refused {effect : Db → Except Sql.Error (Db × α)}
    (refused : schema.prepare statement = .error error) (stop : Sql.Error → Stop) :
    (perform schema stop statement effect conn).1 = .err (stop error) := by
  simp only [perform, refused]

theorem uniquely_newRepo {db : Db} (fresh : (db.repos.select fun row => row.repoName = name).isEmpty) :
    ∃ db' id, uniquely "repos.repo_name" (db.newRepo name) = .ok (db', id) ∧ db'.runs = db.runs := by
  rw [Db.newRepo, if_pos fresh]
  exact ⟨_, _, rfl, rfl⟩

theorem uniquely_newCommit {db : Db} (fresh : (db.commits.select fun known => known = sha).isEmpty) :
    ∃ db' id, uniquely "commits.sha" (db.newCommit sha) = .ok (db', id) ∧ db'.runs = db.runs := by
  rw [Db.newCommit, if_pos fresh]
  exact ⟨_, _, rfl, rfl⟩

/-- A host is found by all of its columns once it is known or added. -/
theorem idForHost_selects {db : Db}
    (known : (db.hosts.select (Db.hostKeyMatches (Db.hostRow hostInfo))).all fun host =>
      host.2 = Db.hostRow hostInfo) :
    ∃ id row, ((db.idForHost hostInfo).1.hosts.select fun host => host = Db.hostRow hostInfo).head? =
      some (id, row) := by
  have present : ∃ id, (db.idForHost hostInfo).1.hosts.get? id = some (Db.hostRow hostInfo) := by
    simp only [Db.idForHost]
    split
    · exact ⟨_, Table.get?_insert_self _ _⟩
    · rename_i conflict
      obtain ⟨host, member⟩ := List.exists_mem_of_ne_nil _ (mt List.isEmpty_iff.mpr conflict)
      have same := of_decide_eq_true (List.all_eq_true.mp known host member)
      exact ⟨host.1, same ▸ (Table.mem_select.mp member).1⟩
  obtain ⟨id, found⟩ := present
  have member : (id, Db.hostRow hostInfo) ∈ (db.idForHost hostInfo).1.hosts.select fun host =>
      host = Db.hostRow hostInfo := Table.mem_select.mpr ⟨found, decide_eq_true rfl⟩
  cases first : ((db.idForHost hostInfo).1.hosts.select fun host => host = Db.hostRow hostInfo).head? with
  | none =>
    rw [List.head?_eq_none_iff] at first
    rw [first] at member
    contradiction
  | some host => exact ⟨host.1, host.2, rfl⟩

/-- A call all of whose statements are prepared, and that respects what is declared,
meets no error. -/
theorem execute_performed {label : Label} (accepted : Accepted schema label.call)
    (respected : respects conn.db label.call = true) (healthy : conn.poisoned = false) :
    Performed conn label (execute schema label.now label.pick label.call conn).1
      (execute schema label.now label.pick label.call conn).2 := by
  obtain ⟨call, now, pick⟩ := label
  have locked := lock_healthy healthy
  cases call with
  | newRepo name =>
    obtain ⟨db, id, inserted, same⟩ := uniquely_newRepo respected
    rw [execute, Effect.bind_of_eq locked,
      Effect.bind_of_eq (perform_ok (accepted _ List.mem_cons_self) inserted _)]
    exact ⟨rfl, healthy, same, nofun⟩
  | newRemote repoId remote remoteKind configPath =>
    rw [execute]
    cases supported : Db.remoteRow repoId remote remoteKind configPath with
    | none =>
      rw [Outcome.expectSome_none, Effect.lift_panic_bind]
      exact ⟨rfl, healthy, rfl, nofun⟩
    | some row =>
      rw [Outcome.expectSome_some, Effect.lift_ok_bind, Effect.bind_of_eq locked,
        Effect.bind_of_eq (perform_ok (accepted _ List.mem_cons_self) rfl _)]
      exact ⟨rfl, healthy, rfl, nofun⟩
  | newJob remoteId sha pusher runPreferences =>
    obtain ⟨db, commitId, inserted, same⟩ := uniquely_newCommit (Bool.and_eq_true_iff.mp respected).2
    have again : lock { conn with db := db } = (.ok (), { conn with db := db }) := lock_healthy healthy
    rw [execute, Effect.bind_of_eq locked,
      Effect.bind_of_eq (perform_ok (accepted _ List.mem_cons_self) inserted _),
      Effect.bind_of_eq again,
      Effect.bind_of_eq (perform_ok (accepted _ (List.mem_cons_of_mem _ List.mem_cons_self)) rfl _)]
    exact ⟨rfl, healthy, same, nofun⟩
  | newRun jobId hostPreference =>
    rw [execute, Effect.bind_of_eq locked,
      Effect.bind_of_eq (perform_ok (accepted _ List.mem_cons_self) rfl _)]
    refine ⟨rfl, healthy, rfl, ?_⟩
    rintro _ _ ⟨⟩
    rfl
  | jobsNeedingTaskRunsForHost hostId =>
    rw [execute]
    by_cases past : 24 * 3600 * 1000 ≤ now
    · have cutoff : (checkedSub now (24 * 3600 * 1000) : Outcome Stop Nat) =
          .ok (now - 24 * 3600 * 1000) := if_pos past
      have needed : ∃ jobs, conn.db.jobsNeedingTaskRunsForHost hostId now = .ok jobs := by
        rw [Db.jobsNeedingTaskRunsForHost, checkedSub, if_pos past]
        exact ⟨_, rfl⟩
      obtain ⟨jobs, needed⟩ := needed
      rw [cutoff, Effect.lift_ok_bind, Effect.bind_of_eq locked,
        Effect.bind_of_eq (perform_ok (accepted _ List.mem_cons_self) rfl _),
        Effect.bind_of_eq (by rw [Effect.read_apply, needed]; rfl)]
      exact ⟨rfl, healthy, rfl, nofun⟩
    · have cutoff : (checkedSub now (24 * 3600 * 1000) : Outcome Stop Nat) = .panic := if_neg past
      rw [cutoff, Effect.lift_panic_bind]
      exact ⟨rfl, healthy, rfl, nofun⟩
  | idForHost hostInfo =>
    obtain ⟨id, row, first⟩ := idForHost_selects respected
    rw [execute, Effect.bind_of_eq locked,
      Effect.bind_of_eq (perform_ok (accepted _ List.mem_cons_self) rfl _),
      perform_ok (accepted _ (List.mem_cons_of_mem _ List.mem_cons_self)) (by rw [first]) _]
    exact ⟨rfl, healthy, rfl, nofun⟩
  | insertMetric run name value =>
    rw [execute, Effect.bind_of_eq locked, perform_ok (accepted _ List.mem_cons_self) rfl _]
    exact ⟨rfl, healthy, Db.insertMetric_runs run name value, nofun⟩
  | metricsForRun | getPendingRuns | getActiveRuns | lastRunForJob | runsForJobOnePerHost | activate =>
    rw [execute, Effect.bind_of_eq locked, perform_ok (accepted _ List.mem_cons_self) rfl _]
    exact ⟨rfl, healthy, rfl, nofun⟩

end Performing

/-! ### Whole sequences -/

/-- No error so far; every run created is in the table with the preference it was
created with, pending as long as it is not activated. -/
structure Good (s : Session) : Prop where
  clean : s.failed = false
  healthy : s.conn.poisoned = false
  created : ∀ run hostPreference, (run, hostPreference) ∈ s.created →
    ∃ row, s.conn.db.runs.get? run.id = some row ∧ row.jobId = run.jobId ∧
      row.createdTime = run.createTime ∧ row.hostPreference = hostPreference ∧
      (row.state = .pending ↔ run.id ∉ s.activated)
  activated : ∀ id ∈ s.activated, (s.conn.db.runs.get? id).isSome

theorem fresh_good : Good .fresh := ⟨rfl, rfl, nofun, nofun⟩

variable {schema : Sql.Schema}

/-- The queue of a host, in a session without errors. -/
theorem Good.returns (good : Good s) (reads : schema.Accepts Statements.pendingRuns) :
    Returns schema s.conn host run ↔ run ∈ s.conn.db.getPendingRuns (some host) := by
  have answer : execute schema 0 List.head? (.getPendingRuns (some host)) s.conn =
      (.ok (.pendingRuns (s.conn.db.getPendingRuns (some host))), s.conn) := by
    rw [execute, Effect.bind_of_eq (lock_healthy good.healthy), perform_ok reads rfl _]
  simp only [Returns, answer, Outcome.ok.injEq, Answer.pendingRuns.injEq, exists_eq_left']

theorem Good.works (good : Good s) (reads : schema.Accepts Statements.pendingRuns ∨ s.created = []) :
    Works schema s := by
  refine ⟨good.clean, ?_⟩
  intro run hostPreference member host
  rcases reads with reads | none
  · obtain ⟨row, found, job, time, preferred, pending⟩ := good.created run hostPreference member
    rw [good.returns reads, Db.mem_getPendingRuns, ← pending]
    constructor
    · rintro ⟨row', found', queued, suits, _, _⟩
      cases Option.some.inj (found.symm.trans found')
      exact ⟨preferred ▸ suits.symm, queued⟩
    · rintro ⟨suits, queued⟩
      exact ⟨row, found, queued, preferred ▸ suits.symm, job, time⟩
  · rw [none] at member
    contradiction

theorem step_eq (schema : Sql.Schema) (s : Session) (label : Label) :
    (machine schema).step s label =
      some ⟨(execute schema label.now label.pick label.call s.conn).2,
        s.failed || (execute schema label.now label.pick label.call s.conn).1.isErr,
        label.call.created (execute schema label.now label.pick label.call s.conn).1 ++ s.created,
        label.call.activated ++ s.activated⟩ := rfl

/-- What a call has answered and written, for the runs that were created so far. -/
theorem Good.performed (good : Good s) (respected : Respects s label)
    (performed : Performed s.conn label ended conn) :
    Good ⟨conn, s.failed || ended.isErr, label.call.created ended ++ s.created,
      label.call.activated ++ s.activated⟩ := by
  obtain ⟨call, now, pick⟩ := label
  have clean : (s.failed || ended.isErr) = false := by rw [good.clean, performed.clean, Bool.or_false]
  have runs := performed.runs
  cases call with
  | newRun jobId hostPreference =>
    have later : ∀ id, (s.conn.db.runs.get? id).isSome → id ≠ s.conn.db.runs.seq + 1 := by
      intro id known
      obtain ⟨row, found⟩ := Option.isSome_iff_exists.mp known
      have := Table.le_seq found
      omega
    simp only [Call.runsAfter] at runs
    rw [performed.answers jobId hostPreference rfl]
    refine ⟨by simpa [performed.answers jobId hostPreference rfl] using clean, performed.healthy, ?_, ?_⟩
    · intro run preference member
      rcases List.mem_cons.mp member with new | old
      · cases new
        refine ⟨Db.pendingRow jobId hostPreference now, ?_, rfl, rfl, rfl, ?_⟩
        · rw [runs]
          exact Table.get?_insert_self _ _
        · refine ⟨fun _ activated => ?_, fun _ => rfl⟩
          exact later _ (good.activated _ activated) rfl
      · obtain ⟨row, found, same⟩ := good.created run preference old
        refine ⟨row, ?_, same⟩
        rw [runs]
        exact Table.get?_insert_of_some found _
    · intro id member
      rw [runs]
      exact Table.isSome_insert (good.activated id member) _
  | activate runId hostId artifacts buildToken =>
    simp only [Call.runsAfter, Db.startRun] at runs
    refine ⟨clean, performed.healthy, ?_, ?_⟩
    · intro run preference member
      obtain ⟨row, found, job, time, preferred, pending⟩ := good.created run preference member
      rw [runs]
      by_cases here : run.id = runId
      · subst here
        refine ⟨_, Table.get?_update_of_some found _, job, time, preferred, ?_⟩
        simp [Call.activated]
      · refine ⟨row, by rw [Table.get?_update_of_ne _ _ here, found], job, time, preferred, ?_⟩
        simpa [Call.activated, here] using pending
    · intro id member
      rw [runs, Table.isSome_update]
      rcases List.mem_cons.mp member with rfl | old
      · exact respected
      · exact good.activated id old
  | _ =>
    simp only [Call.runsAfter] at runs
    refine ⟨clean, performed.healthy, ?_, ?_⟩
    · intro run preference member
      rw [runs]
      exact good.created run preference member
    · intro id member
      rw [runs]
      exact good.activated id member

theorem Good.step (good : Good s) (accepted : Accepted schema label.call)
    (respected : Respects s label) (stepped : (machine schema).step s label = some t) : Good t := by
  rw [step_eq] at stepped
  cases stepped
  exact good.performed respected (execute_performed accepted respected good.healthy)

/-! ### The declared tables, and those the statements were written for -/

/-- The calls that name a column or a key that `create_tables` does not declare. -/
def Call.outdated : Call → Bool
  | .newRun _ _ | .getPendingRuns _ | .insertMetric _ _ _ | .metricsForRun _ => true
  | _ => false

theorem declared_accepts (current : call.outdated = false) : Accepted createTables call := by
  have alone : ∀ {statement}, createTables.Accepts statement →
      ∀ other ∈ [statement], createTables.Accepts other :=
    fun accepts _ member => List.mem_singleton.mp member ▸ accepts
  cases call with
  | newJob | idForHost => exact List.forall_mem_cons.mpr ⟨rfl, alone rfl⟩
  | newRun | getPendingRuns | insertMetric | metricsForRun => contradiction
  | _ => exact alone rfl

theorem migrated_accepts (call : Call) : Accepted migratedTables call := by
  have alone : ∀ {statement}, migratedTables.Accepts statement →
      ∀ other ∈ [statement], migratedTables.Accepts other :=
    fun accepts _ member => List.mem_singleton.mp member ▸ accepts
  cases call with
  | newJob | idForHost => exact List.forall_mem_cons.mpr ⟨rfl, alone rfl⟩
  | _ => exact alone rfl

/-- An outdated call ends in the error of its statement, and with it every call after it. -/
theorem outdated_fails (outdated : call.outdated = true) (healthy : conn.poisoned = false)
    (now : Nat) (pick : List (Nat × RunRow) → Option (Nat × RunRow)) :
    (execute createTables now pick call conn).1.isErr = true := by
  have locked := lock_healthy healthy
  cases call with
  | newRun jobId hostPreference =>
    have refused : createTables.prepare Statements.newRun =
        .error (.noColumnNamed "runs" "host_preference") := rfl
    rw [execute, Effect.bind_of_eq locked, Effect.bind_of_err (perform_refused refused _)]
    rfl
  | getPendingRuns hostId =>
    have refused : createTables.prepare Statements.pendingRuns =
        .error (.noSuchColumn "host_preference") := rfl
    rw [execute, Effect.bind_of_eq locked, perform_refused refused]
    rfl
  | insertMetric run name value =>
    have refused : createTables.prepare Statements.insertMetric =
        .error (.noColumnNamed "metrics" "run_id") := rfl
    rw [execute, Effect.bind_of_eq locked, perform_refused refused]
    rfl
  | metricsForRun run =>
    have refused : createTables.prepare Statements.metricsForRun = .error (.noSuchColumn "run_id") := rfl
    rw [execute, Effect.bind_of_eq locked, perform_refused refused]
    rfl
  | _ => contradiction

theorem created_of_current {call : Call} (current : call.outdated = false) (ended : Outcome Stop Answer) :
    call.created ended = [] := by
  cases call <;> first | rfl | contradiction

/-- On the declared tables, a sequence that respects them works exactly when it has
none of the outdated calls. -/
theorem fresh_database_works_iff (labels : List Label)
    (respecting : (machine createTables).Guarded Respects .fresh labels) :
    (machine createTables).Throughout (Works createTables) .fresh labels ↔
      ∀ label ∈ labels, label.call.outdated = false := by
  have keeps : ∀ s label t, Good s ∧ s.created = [] → Respects s label → label.call.outdated = false →
      (machine createTables).step s label = some t → Good t ∧ t.created = [] := by
    rintro s label t ⟨good, none⟩ respected current stepped
    refine ⟨good.step (declared_accepts current) respected stepped, ?_⟩
    rw [step_eq] at stepped
    cases stepped
    exact List.append_eq_nil_iff.mpr ⟨created_of_current current _, none⟩
  have shows : ∀ s label, Good s ∧ s.created = [] → Respects s label → ¬ label.call.outdated = false →
      ∃ t, (machine createTables).step s label = some t ∧ ¬ Works createTables t := by
    rintro s label ⟨good, _⟩ _ outdated
    refine ⟨_, step_eq createTables s label, fun works => ?_⟩
    have failed := outdated_fails (Bool.eq_true_of_not_eq_false outdated) good.healthy label.now label.pick
    have clean := works.clean
    rw [failed, Bool.or_true] at clean
    contradiction
  rw [← Machine.guarded_labels fun s label => ⟨_, step_eq createTables s label⟩]
  exact (Machine.guarded_iff_throughout keeps (fun s kept => kept.1.works (.inr kept.2)) shows
    ⟨fresh_good, rfl⟩ respecting).symm

/-- A repo, its remote and a job, up to the run. -/
def firstJob : List Label :=
  [⟨.newRepo "repo", 0, List.head?⟩, ⟨.newRemote 1 "owner/repo" "github" "repo.json", 0, List.head?⟩,
   ⟨.newJob 1 "f00d" none none, 0, List.head?⟩]

theorem first_job_works : (machine createTables).Throughout (Works createTables) .fresh firstJob :=
  (fresh_database_works_iff firstJob (of_decide_eq_true rfl)).mpr (by simp [firstJob, Call.outdated])

theorem first_run_fails : ¬ ∀ labels : List Label,
    (machine createTables).Guarded Respects .fresh labels →
    (machine createTables).Throughout (Works createTables) .fresh labels := by
  intro claim
  have works := claim (firstJob ++ [⟨.newRun 1 none, 0, List.head?⟩]) (of_decide_eq_true rfl)
  have runs : ((machine createTables).run .fresh
      (firstJob ++ [⟨.newRun 1 none, 0, List.head?⟩])).map Session.failed = some true := rfl
  obtain ⟨s, path, failed⟩ := Option.map_eq_some_iff.mp runs
  have clean := (works.ends path).clean
  rw [failed] at clean
  contradiction

/-- On the tables that the statements were written for, every sequence works. -/
theorem migrated_database_works (labels : List Label)
    (respecting : (machine migratedTables).Guarded Respects .fresh labels) :
    (machine migratedTables).Throughout (Works migratedTables) .fresh labels := by
  have keeps : ∀ s label t, Good s → Respects s label → True →
      (machine migratedTables).step s label = some t → Good t :=
    fun s label t good respected _ stepped => good.step (migrated_accepts _) respected stepped
  have reads : migratedTables.Accepts Statements.pendingRuns := rfl
  have free : (machine migratedTables).Guarded (fun _ _ => True) .fresh labels :=
    Machine.guarded_of_forall fun _ _ _ => trivial
  exact (Machine.guarded_iff_throughout keeps (fun s good => good.works (.inl reads))
    (fun _ _ _ _ broken => absurd trivial broken) fresh_good respecting).mp free

end BuildOTron.Fresh
