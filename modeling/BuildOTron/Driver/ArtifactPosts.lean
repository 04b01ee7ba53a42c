import BuildOTron.Driver.TokenRace

/-! Who may post an artifact. A token is drawn for one connection, and a connection
activates one run at most, so a token that stands in a row stands in no other: the
post it comes with is for that row's run, and is accepted within that row's time. -/
namespace BuildOTron.Driver
open Transition

/-- The post's headers can be read, and its token is good for this run at this time. -/
structure Authorised (db : Db) (post : ArtifactPost) (now run : Nat) (name desc : String) :
    Prop where
  artifactName : post.artifactName = .text name
  artifactDesc : post.artifactDesc = .text desc
  token : ∃ token row start, post.taskToken = .text token ∧ db.runs.get? run = some row ∧
    row.buildToken = some token ∧ row.artifactsPath.isSome ∧ row.startedTime = some start ∧
    now ≤ start + row.runTimeout.getD Db.tokenExpiryMs

def TokensDistinct (db : Db) : Prop :=
  ∀ run run' row row' token, db.runs.get? run = some row → db.runs.get? run' = some row' →
    row.buildToken = some token → row'.buildToken = some token → run = run'

/-- Every token in the table was drawn for a connection that is past its activation. -/
structure TokensBound (tokenForJob : Nat → String) (s : State) : Prop where
  known : Known s
  tokens : ∀ c task, s.tasks c = some task → task.client.buildToken = tokenForJob c
  rows : ∀ run row token, s.db.runs.get? run = some row → row.buildToken = some token →
    ∃ c, c < s.clients ∧ token = tokenForJob c ∧
      ∀ task, s.tasks c = some task → After task.phase
  distinct : TokensDistinct s.db

section Step
variable {tokenForJob : Nat → String} {s t : State} {l : Label}

/-- The connection that activates a run has put its token in no row yet. -/
theorem TokensBound.unused (bound : TokensBound tokenForJob s)
    (drawn : ∀ a b, a < s.clients → b < s.clients → tokenForJob a = tokenForJob b → a = b)
    (mine : s.tasks c = some task) (acked : task.phase = .started offer)
    (found : s.db.runs.get? run = some row) : row.buildToken ≠ some task.client.buildToken := by
  intro held
  obtain ⟨c', before, same, after⟩ := bound.rows run row _ found held
  rw [bound.tokens c task mine] at same
  cases drawn c c' (bound.known.clients c task mine) before same
  have past := after task mine
  rw [acked] at past
  simp [After, Phase.job?, Phase.isOver] at past

theorem TokensBound.step_distinct (bound : TokensBound tokenForJob s)
    (drawn : ∀ a b, a < s.clients → b < s.clients → tokenForJob a = tokenForJob b → a = b)
    (stepped : (machine tokenForJob).step s l = some t) : TokensDistinct t.db := by
  intro run run' row row' token found found' held held'
  obtain ⟨old, before, kept⟩ | ⟨c, action, task, offer, rfl, mine, acked, same, rfl⟩ :=
    token_written (step_runsWrite stepped) found held
  · obtain ⟨old', before', kept'⟩ | ⟨c, action, task, offer, rfl, mine, acked, same, rfl⟩ :=
      token_written (step_runsWrite stepped) found' held'
    · exact bound.distinct run run' old old' token before before' kept kept'
    · exact absurd kept (bound.unused drawn mine acked before)
  · obtain ⟨old', before', kept'⟩ | ⟨c', action', task', offer', label, mine', acked', same', _⟩ :=
      token_written (step_runsWrite stepped) found' held'
    · exact absurd kept' (bound.unused drawn mine acked before')
    · cases label
      cases Option.some.inj (mine.symm.trans mine')
      rw [acked] at acked'
      cases acked'
      exact same.symm.trans same'

theorem TokensBound.step (bound : TokensBound tokenForJob s)
    (drawn : ∀ a b, a < s.clients → b < s.clients → tokenForJob a = tokenForJob b → a = b)
    (stepped : (machine tokenForJob).step s l = some t) : TokensBound tokenForJob t := by
  refine ⟨step_known bound.known stepped, ?_, ?_, bound.step_distinct drawn stepped⟩
  · intro c task found
    obtain ⟨_, token, _⟩ | ⟨old, _⟩ | ⟨task', _, held, _, same, _⟩ := step_tasks stepped found
    · exact token
    · exact bound.tokens c task old
    · rw [same]
      exact bound.tokens c task' held
  · intro run row token found held
    obtain ⟨old, before, kept⟩ | ⟨c, action, task, offer, rfl, mine, acked, _, rfl⟩ :=
      token_written (step_runsWrite stepped) found held
    · obtain ⟨c, known, same, after⟩ := bound.rows run old token before kept
      exact ⟨c, Nat.lt_of_lt_of_le known (step_clients stepped), same,
        step_phase (fun _ _ _ _ _ _ => After.moves) stepped known after⟩
    · have known := bound.known.clients c task mine
      refine ⟨c, Nat.lt_of_lt_of_le known (step_clients stepped), bound.tokens c task mine, ?_⟩
      intro task' now
      obtain ⟨rfl, _⟩ | ⟨_, still⟩ | ⟨old, _, held', _, _, moved⟩ := step_tasks stepped now
      · omega
      · exact absurd rfl (still action)
      · cases Option.some.inj (mine.symm.trans held')
        obtain ⟨_, ⟨_, _, next⟩ | ⟨_, _, next⟩⟩ := attempt_started moved acked <;>
          rw [next]
        · exact .inl rfl
        · exact .inr rfl

/-- The artifacts table is written by accepted posts only. -/
theorem step_artifacts (stepped : (machine tokenForJob).step s l = some t)
    (other : ∀ post now fileCreated, l ≠ .post post now fileCreated) :
    t.db.artifacts = s.db.artifacts := by
  cases l with
  | connect hostInfo accepted =>
    cases stepped
    rw [connect_db]
  | task c action =>
    obtain ⟨task, db, next, _, moves, rfl⟩ := step_task stepped
    rw [moveTask_db, moves_writes moves]
  | reaper now =>
    obtain ⟨db, reaper, moved, rfl⟩ := step_reaper stepped
    rw [reaperStep_writes moved]
  | post post now fileCreated => exact absurd rfl (other post now fileCreated)
  | outside write =>
    cases stepped
    cases write with
    | newJob remoteId sha pusher runPreferences now =>
      obtain same | same := outside_newJob s.db remoteId sha pusher runPreferences now <;> rw [same]
    | newRun | commitName | newRepo | newRemote => rfl
  | restart =>
    cases stepped
    rfl

end Step

theorem start_tokensBound (tokenForJob : Nat → String) (db : Db) (clients : Nat) :
    TokensBound tokenForJob (.start { db with runs := .empty } clients) := by
  refine ⟨start_known _ _, by simp, ?_, ?_⟩
  · intro run row token found
    simp [State.start] at found
  · intro run run' row row' token found
    simp [State.start] at found

/-! ### One post -/

theorem acceptToken_iff {db : Db} (distinct : TokensDistinct db) :
    acceptToken db token now = .ok run ↔ ∃ row start, db.runs.get? run = some row ∧
      row.buildToken = some token ∧ row.artifactsPath.isSome ∧ row.startedTime = some start ∧
      now ≤ start + row.runTimeout.getD Db.tokenExpiryMs := by
  constructor
  · intro accepts
    unfold acceptToken Db.runForToken at accepts
    cases rows : (db.runs.select fun row => row.buildToken = some token).head? with
    | none => simp [rows] at accepts
    | some entry =>
      obtain ⟨id, row⟩ := entry
      obtain ⟨found, held⟩ := Table.mem_select.mp (List.mem_of_head? rows)
      cases started : row.startedTime with
      | none => simp [rows, started] at accepts
      | some start =>
        cases path : row.artifactsPath with
        | none => simp [rows, started, path] at accepts
        | some path' =>
          by_cases expired : start + row.runTimeout.getD Db.tokenExpiryMs < now
          · simp [rows, started, path, expired] at accepts
          · simp only [rows, started, path, if_neg expired, Outcome.ok.injEq] at accepts
            subst accepts
            exact ⟨row, start, found, of_decide_eq_true held, by rw [path]; rfl, started, by omega⟩
  · rintro ⟨row, start, found, held, path, started, within⟩
    have only : ∀ run' row', db.runs.get? run' = some row' → row'.buildToken = some token →
        run' = run := fun run' row' found' held' => distinct run' run row' row token found' found held' held
    obtain ⟨path', path⟩ := Option.isSome_iff_exists.mp path
    rw [acceptToken, runForToken_eq found held only started, if_neg (by omega), path]

theorem read_eq_ok {header : Header} : header.read = .ok value ↔ header = .text value := by
  cases header <;> simp [Header.read]

theorem checkPost_iff {db : Db} (distinct : TokensDistinct db) :
    checkPost db post now = .ok (run, name, desc) ↔ Authorised db post now run name desc := by
  unfold checkPost
  constructor
  · intro checked
    obtain ⟨token, tokenRead, checked⟩ := Outcome.bind_eq_ok.mp checked
    obtain ⟨run', accepted, checked⟩ := Outcome.bind_eq_ok.mp checked
    obtain ⟨name', nameRead, checked⟩ := Outcome.bind_eq_ok.mp checked
    obtain ⟨desc', descRead, checked⟩ := Outcome.bind_eq_ok.mp checked
    cases checked
    obtain ⟨row, start, rest⟩ := (acceptToken_iff distinct).mp accepted
    exact ⟨read_eq_ok.mp nameRead, read_eq_ok.mp descRead,
      token, row, start, read_eq_ok.mp tokenRead, rest⟩
  · rintro ⟨artifactName, artifactDesc, token, row, start, taskToken, rest⟩
    refine Outcome.bind_eq_ok.mpr ⟨token, read_eq_ok.mpr taskToken, ?_⟩
    refine Outcome.bind_eq_ok.mpr ⟨run, (acceptToken_iff distinct).mpr ⟨row, start, rest⟩, ?_⟩
    refine Outcome.bind_eq_ok.mpr ⟨name, read_eq_ok.mpr artifactName, ?_⟩
    exact Outcome.bind_eq_ok.mpr ⟨desc, read_eq_ok.mpr artifactDesc, rfl⟩

theorem handleArtifact_refuses (refused : ∀ answer, checkPost db post now ≠ .ok answer)
    (fileCreated : Bool) : (handleArtifact db post now fileCreated).1 = db := by
  unfold handleArtifact
  split
  · rename_i checked
    exact absurd checked (refused _)
  · rfl
  · rfl

theorem handleArtifact_checked (checked : checkPost db post now = .ok (run, name, desc))
    (fileCreated : Bool) : (handleArtifact db post now fileCreated).1.artifacts =
      db.artifacts.insert ⟨run, name, desc, now, none⟩ := by
  unfold handleArtifact
  rw [checked]
  rfl

/-- A post adds the one row it is authorised for, or none. -/
theorem handleArtifact_inserts {db : Db} (distinct : TokensDistinct db) (post : ArtifactPost)
    (now : Nat) (fileCreated : Bool) (run : Nat) (name desc : String) :
    (handleArtifact db post now fileCreated).1.artifacts =
      db.artifacts.insert ⟨run, name, desc, now, none⟩ ↔ Authorised db post now run name desc := by
  rw [← checkPost_iff distinct]
  constructor
  · intro inserted
    by_cases accepted : ∃ answer, checkPost db post now = .ok answer
    · obtain ⟨⟨run', name', desc'⟩, checked⟩ := accepted
      rw [handleArtifact_checked checked] at inserted
      cases Table.insert_inj inserted
      exact checked
    · rw [handleArtifact_refuses (not_exists.mp accepted)] at inserted
      exact absurd inserted.symm (Table.insert_ne _ _)
  · exact fun checked => handleArtifact_checked checked fileCreated

/-- Whoever is authorised for nothing adds nothing, whatever the lock. -/
theorem answerPost_refuses {db : Db} (distinct : TokensDistinct db) (poisoned : Bool)
    (refused : ∀ run name desc, ¬ Authorised db post now run name desc) (fileCreated : Bool) :
    (answerPost poisoned db post now fileCreated).1.artifacts = db.artifacts := by
  obtain same | same := answerPost_db poisoned db post now fileCreated
  · rw [same]
  · rw [same, handleArtifact_refuses]
    exact fun (run, name, desc) checked => refused run name desc ((checkPost_iff distinct).mp checked)

/-- On a sound lock the authorised posts are those that add their row; on a poisoned one none
does, which is right as long as none is authorised. -/
theorem answerPost_inserts {db : Db} (distinct : TokensDistinct db) (poisoned : Bool)
    (post : ArtifactPost) (now : Nat) (fileCreated : Bool) :
    (∀ run name desc, (answerPost poisoned db post now fileCreated).1.artifacts =
      db.artifacts.insert ⟨run, name, desc, now, none⟩ ↔ Authorised db post now run name desc) ↔
    poisoned = false ∨ ∀ run name desc, ¬ Authorised db post now run name desc := by
  constructor
  · intro exact_
    cases poisoned with
    | false => exact .inl rfl
    | true =>
      refine .inr fun run name desc authorised => ?_
      exact Table.insert_ne _ _ ((exact_ run name desc).mpr authorised).symm
  · rintro (rfl | none) run name desc
    · exact handleArtifact_inserts distinct post now fileCreated run name desc
    · rw [answerPost_refuses distinct poisoned none]
      exact iff_of_false (Table.insert_ne _ _).symm (none run name desc)

/-- What an SQLite INTEGER column that is not negative can hold. -/
def sqliteMax : Nat := 9223372036854775808

/-- In every state a driver can reach with tokens drawn once each: no token stands in two
rows; a post adds exactly the row it is authorised for if and only if the lock is not
poisoned or it is authorised for none, and then adds none; the end of a row's time fits in
64 bits; nothing but a post writes to the artifacts; and only what panics in a call
poisons the lock. -/
theorem artifact_authorisation (tokenForJob : Nat → String) (db : Db) (clients : Nat)
    (labels : List Label) (s : State)
    (drawn : ∀ a b, a < s.clients → b < s.clients → tokenForJob a = tokenForJob b → a = b)
    (path : (machine tokenForJob).run (.start { db with runs := .empty } clients) labels = some s) :
    TokensDistinct s.db ∧
    (∀ post now fileCreated t,
      (machine tokenForJob).step s (.post post now fileCreated) = some t →
      ((∀ run name desc, t.db.artifacts = s.db.artifacts.insert ⟨run, name, desc, now, none⟩ ↔
        Authorised s.db post now run name desc) ↔
        s.poisoned = false ∨ ∀ run name desc, ¬ Authorised s.db post now run name desc) ∧
      ((∀ run name desc, ¬ Authorised s.db post now run name desc) →
        t.db.artifacts = s.db.artifacts)) ∧
    (∀ run row start, s.db.runs.get? run = some row → row.startedTime = some start →
      start < sqliteMax → (∀ timeout, row.runTimeout = some timeout → timeout < sqliteMax) →
      start + row.runTimeout.getD Db.tokenExpiryMs < UInt64.size) ∧
    (∀ l t, (machine tokenForJob).step s l = some t →
      (∀ post now fileCreated, l ≠ .post post now fileCreated) →
      t.db.artifacts = s.db.artifacts) ∧
    ((∀ l ∈ labels, l.poisons = false) → s.poisoned = false) := by
  have bound : s.clients ≤ s.clients → TokensBound tokenForJob s :=
    Machine.invariant (P := fun t => t.clients ≤ s.clients → TokensBound tokenForJob t)
      (fun t l u bound stepped within => by
        have before := Nat.le_trans (step_clients stepped) within
        exact (bound before).step (fun a b ha hb => drawn a b (Nat.lt_of_lt_of_le ha before)
          (Nat.lt_of_lt_of_le hb before)) stepped)
      (fun _ => start_tokensBound tokenForJob db clients) path
  have distinct := (bound (Nat.le_refl _)).distinct
  refine ⟨distinct, ?_, ?_, fun l t stepped other => step_artifacts stepped other, ?_⟩
  · intro post now fileCreated t stepped
    cases stepped
    exact ⟨answerPost_inserts distinct s.poisoned post now fileCreated,
      fun refused => answerPost_refuses distinct s.poisoned refused fileCreated⟩
  · intro run row start _ _ early timeouts
    have timeout : row.runTimeout.getD Db.tokenExpiryMs < sqliteMax := by
      cases set : row.runTimeout with
      | none => decide
      | some timeout => exact timeouts timeout set
    simp only [sqliteMax] at early timeout
    simp only [UInt64.size]
    omega
  · exact fun sound => run_healthy rfl sound path

/-- One run up to its activation, and a post of its client. -/
def activatedRun : List Label :=
  pushed ++ [connects] ++ prepares 0 7 ++ [offers 0, acks 0, .task 0 (.call 7)]

def postsStdout : ArtifactPost := ⟨.text (someToken 0), .text "cargo build", .text "stdout"⟩

theorem activated_post_inserted : ∃ s t,
    (machine someToken).run (.start { Db.empty with runs := .empty } 0) activatedRun = some s ∧
    (machine someToken).step s (.post postsStdout 9 true) = some t ∧
    t.db.artifacts = s.db.artifacts.insert ⟨1, "cargo build", "stdout", 9, none⟩ := by
  refine ⟨_, _, rfl, rfl, ?_⟩
  have authorised := artifact_authorisation someToken .empty 0 activatedRun _
    (fun a b one one' _ => (Nat.lt_one_iff.mp one).trans (Nat.lt_one_iff.mp one').symm) rfl
  have inserts := (authorised.2.1 postsStdout 9 true _ rfl).1.mpr (.inl rfl)
  refine (inserts 1 "cargo build" "stdout").mpr ?_
  exact ⟨rfl, rfl, someToken 0, _, 7, rfl, rfl, rfl, rfl, rfl, by decide⟩

/-- Another client tells a frequency that no column can hold, which panics with the lock
held; the same post then panics too, and its row is not added. -/
theorem poisoned_post_refused : ∃ s t,
    (machine someToken).run (.start { Db.empty with runs := .empty } 0)
      (activatedRun ++ [.connect (Hosts.someHost 9223372036854775808) none]) = some s ∧
    Authorised s.db postsStdout 9 1 "cargo build" "stdout" ∧
    (machine someToken).step s (.post postsStdout 9 true) = some t ∧
    (answerPost s.poisoned s.db postsStdout 9 true).2 = .panic ∧
    t.db.artifacts ≠ s.db.artifacts.insert ⟨1, "cargo build", "stdout", 9, none⟩ := by
  refine ⟨_, _, rfl, ?_, rfl, rfl, (Table.insert_ne _ _).symm⟩
  exact ⟨rfl, rfl, someToken 0, _, 7, rfl, rfl, rfl, rfl, rfl, by decide⟩

end BuildOTron.Driver
