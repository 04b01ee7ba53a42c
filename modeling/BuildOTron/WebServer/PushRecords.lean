import BuildOTron.WebServer.Push
import Mathlib.Data.List.Perm.Basic

/-! What concurrent pushes leave behind. The lookup of a commit and its insert are
separate statements, and the insert panics on a sha that is there already. If no
other handler is between the two for the same sha when one looks it up, every push
is recorded once and nothing panics. -/
namespace BuildOTron.WebServer
open Transition

variable {db₀ db db' : Db} {event : PushEvent} {handler : Handler} {handlers rest : List Handler}

def PushPhase.looksUp : PushPhase → Bool
  | .commitLookup _ _ => true
  | _ => false

/-- A commit is looked up only while no other handler is about to insert the same
sha, and notifiers succeed. -/
def SerialLookups (s : PushState) : PushLabel → Prop
  | .call i _ => ∀ handler ∈ s.handlers[i]?, handler.phase.looksUp = true →
      handler.event.tip ∉ s.handlers.filterMap Handler.window?
  | .notify _ completed => completed = true

instance (s : PushState) : (l : PushLabel) → Decidable (SerialLookups s l)
  | .call i _ => inferInstanceAs (Decidable (∀ handler ∈ s.handlers[i]?,
      handler.phase.looksUp = true → handler.event.tip ∉ s.handlers.filterMap Handler.window?))
  | .notify _ completed => inferInstanceAs (Decidable (completed = true))

def shas (db : Db) : List String := db.commits.rows.map Prod.snd

/-- The repository a handler has still to look at. -/
def Handler.repo? (handler : Handler) : Option Nat :=
  match handler.phase with
  | .commitLookup _ repoId | .runPreference _ repoId => some repoId
  | _ => none

structure HandlerOk (db : Db) (handler : Handler) : Prop where
  registered : Registered db handler.event
  sound : handler.phase ≠ .panicked ∧ handler.phase ≠ .notFound
  repo : ∀ repoId, handler.repo? = some repoId → (db.repos.get? repoId).isSome
  window : ∀ sha, handler.window? = some sha → sha ∉ shas db
  commit : ∀ id, handler.commit? = some id → db.commits.get? id = some handler.event.tip

/-- What was inserted since `db₀`, against what the handlers have still to insert. -/
structure Balanced (db₀ db : Db) (handlers : List Handler) : Prop where
  commitsGrown : Table.Grown db₀.commits db.commits
  jobsGrown : Table.Grown db₀.jobs db.jobs
  runsGrown : Table.Grown db₀.runs db.runs
  namesGrown : Table.Grown db₀.commitNames db.commitNames
  alone : (handlers.filterMap Handler.window?).Nodup
  distinct : ((Table.since db₀.commits db.commits).map Prod.snd).Nodup
  commits : ∀ sha ∈ (Table.since db₀.commits db.commits).map Prod.snd,
    sha ∉ shas db₀ ∧ sha ∈ handlers.map fun handler => handler.event.tip
  jobs : ((Table.since db₀.jobs db.jobs).map (fun row => row.2.commitId) ++
    handlers.filterMap Handler.awaitingJob?).Perm ((Table.since db₀.commits db.commits).map Prod.fst)
  runs : ((Table.since db₀.runs db.runs).map (fun row => row.2.jobId) ++
    handlers.filterMap Handler.awaitingRun?).Perm ((Table.since db₀.jobs db.jobs).map Prod.fst)
  names : ((Table.since db₀.commitNames db.commitNames).map Prod.snd).Perm
    (handlers.filterMap Handler.named?)

structure PushInv (db₀ db : Db) (handlers : List Handler) : Prop where
  each : ∀ handler ∈ handlers, HandlerOk db handler
  balanced : Balanced db₀ db handlers

theorem Balanced.perm (balanced : Balanced db₀ db handlers) (perm : handlers.Perm handlers') :
    Balanced db₀ db handlers' where
  commitsGrown := balanced.commitsGrown
  jobsGrown := balanced.jobsGrown
  runsGrown := balanced.runsGrown
  namesGrown := balanced.namesGrown
  alone := (perm.filterMap _).nodup_iff.mp balanced.alone
  distinct := balanced.distinct
  commits sha member := (balanced.commits sha member).imp_right (perm.map _).mem_iff.mp
  jobs := ((perm.filterMap _).symm.append_left _).trans balanced.jobs
  runs := ((perm.filterMap _).symm.append_left _).trans balanced.runs
  names := balanced.names.trans (perm.filterMap _)

/-- The order the handlers are listed in does not matter. -/
theorem PushInv.perm (inv : PushInv db₀ db handlers) (perm : handlers.Perm handlers') :
    PushInv db₀ db handlers' :=
  ⟨fun handler member => inv.each handler (perm.mem_iff.mpr member), inv.balanced.perm perm⟩

theorem Registered.frame (registered : Registered db event) (remotes : db'.remotes = db.remotes)
    (repos : db'.repos = db.repos) : Registered db' event := by
  obtain ⟨found, email⟩ := registered
  exact ⟨by simpa only [remoteByGitUrl, remotes, repos] using found, email⟩

/-- Handlers are judged by the remotes, the repositories and the commits alone. -/
theorem HandlerOk.frame (ok : HandlerOk db handler) (remotes : db'.remotes = db.remotes)
    (repos : db'.repos = db.repos)
    (commits : ∀ id sha, db.commits.get? id = some sha → db'.commits.get? id = some sha)
    (window : ∀ sha, handler.window? = some sha → sha ∉ shas db') : HandlerOk db' handler where
  registered := ok.registered.frame remotes repos
  sound := ok.sound
  repo := by rw [repos]; exact ok.repo
  window := window
  commit id held := commits id _ (ok.commit id held)

theorem commitToId_eq_none {sha : String} : commitToId db sha = none ↔ sha ∉ shas db := by
  simp only [commitToId, shas, Option.map_eq_none_iff, List.head?_eq_none_iff,
    List.eq_nil_iff_forall_not_mem, Table.mem_select, Table.get?_eq_some, List.mem_map]
  constructor
  · rintro missing ⟨row, member, rfl⟩
    exact missing row ⟨member, by simp⟩
  · rintro missing row ⟨member, same⟩
    exact missing ⟨row, member, of_decide_eq_true same⟩

theorem commitToId_eq_some {sha : String} (found : commitToId db sha = some id') :
    db.commits.get? id' = some sha := by
  simp only [commitToId, Option.map_eq_some_iff] at found
  obtain ⟨row, first, rfl⟩ := found
  obtain ⟨held, same⟩ := Table.mem_select.mp (List.mem_of_head? first)
  rw [held, of_decide_eq_true same]

theorem newCommit_eq {sha : String} (fresh : sha ∉ shas db) : db.newCommit sha =
    .ok ({ db with commits := db.commits.insert sha }, db.commits.seq + 1) := by
  have missing : (db.commits.select fun known => known = sha).isEmpty = true := by
    have := commitToId_eq_none.mpr fresh
    simpa [commitToId] using this
  rw [Db.newCommit, if_pos missing]

theorem Balanced.alone_rest (balanced : Balanced db₀ db (handler :: rest)) :
    (rest.filterMap Handler.window?).Nodup :=
  balanced.alone.sublist ((List.sublist_cons_self _ _).filterMap _)

theorem Balanced.alone_ne (balanced : Balanced db₀ db (handler :: rest))
    (window : handler.window? = some sha) : sha ∉ rest.filterMap Handler.window? := by
  have alone := balanced.alone
  rw [List.filterMap_cons_some window, List.nodup_cons] at alone
  exact alone.1

section Moves
variable {next : PushPhase}

/-- A move that only reads the database. -/
theorem PushInv.quiet (inv : PushInv db₀ db (⟨event, phase⟩ :: rest))
    (ok : HandlerOk db ⟨event, next⟩)
    (alone : ((⟨event, next⟩ :: rest).filterMap Handler.window?).Nodup)
    (jobs : Handler.awaitingJob? ⟨event, next⟩ = Handler.awaitingJob? ⟨event, phase⟩)
    (runs : Handler.awaitingRun? ⟨event, next⟩ = Handler.awaitingRun? ⟨event, phase⟩)
    (names : Handler.named? ⟨event, next⟩ = Handler.named? ⟨event, phase⟩) :
    PushInv db₀ db (⟨event, next⟩ :: rest) where
  each := List.forall_mem_cons.mpr ⟨ok, (List.forall_mem_cons.mp inv.each).2⟩
  balanced :=
    { inv.balanced with
      alone := alone
      jobs := by
        rw [List.filterMap_cons, jobs, ← List.filterMap_cons]
        exact inv.balanced.jobs
      runs := by
        rw [List.filterMap_cons, runs, ← List.filterMap_cons]
        exact inv.balanced.runs
      names := by
        rw [List.filterMap_cons, names, ← List.filterMap_cons]
        exact inv.balanced.names }

theorem PushInv.remoteLookup (inv : PushInv db₀ db (⟨event, .remoteLookup⟩ :: rest)) :
    ∃ remoteId repoId, remoteByGitUrl db (remoteUrl event.repoName) = some (remoteId, repoId) ∧
      PushInv db₀ db (⟨event, .commitLookup remoteId repoId⟩ :: rest) := by
  have ok := inv.each _ List.mem_cons_self
  obtain ⟨remoteId, repoId, found, repo⟩ := ok.registered.remote
  refine ⟨remoteId, repoId, found, inv.quiet ?_ inv.balanced.alone_rest rfl rfl rfl⟩
  exact ⟨ok.registered, ⟨nofun, nofun⟩, fun repoId' same => Option.some.inj same ▸ repo, nofun, nofun⟩

theorem PushInv.commitLookup (inv : PushInv db₀ db (⟨event, .commitLookup remoteId repoId⟩ :: rest))
    (serial : event.tip ∉ rest.filterMap Handler.window?) :
    PushInv db₀ db (⟨event, match commitToId db event.tip with
      | some id => .commitName id
      | none => .runPreference remoteId repoId⟩ :: rest) := by
  have ok := inv.each _ List.mem_cons_self
  cases found : commitToId db event.tip with
  | some id' =>
    refine inv.quiet ?_ inv.balanced.alone_rest rfl rfl rfl
    exact ⟨ok.registered, ⟨nofun, nofun⟩, nofun, nofun,
      fun id same => Option.some.inj same ▸ commitToId_eq_some found⟩
  | none =>
    refine inv.quiet ?_ ?_ rfl rfl rfl
    · exact ⟨ok.registered, ⟨nofun, nofun⟩, ok.repo,
        fun sha same => Option.some.inj same ▸ commitToId_eq_none.mp found, nofun⟩
    · exact List.nodup_cons.mpr ⟨serial, inv.balanced.alone_rest⟩

theorem PushInv.runPreference (inv : PushInv db₀ db (⟨event, .runPreference remoteId repoId⟩ :: rest)) :
    ∃ repo email, db.repos.get? repoId = some repo ∧ pusherEmail event = some email ∧
      PushInv db₀ db (⟨event, .newCommit remoteId repoId repo.defaultRunPreference email⟩ :: rest) := by
  have ok := inv.each _ List.mem_cons_self
  obtain ⟨repo, found⟩ := Option.isSome_iff_exists.mp (ok.repo repoId rfl)
  obtain ⟨email, read⟩ := Option.isSome_iff_exists.mp ok.registered.email
  refine ⟨repo, email, found, read, inv.quiet ?_ inv.balanced.alone rfl rfl rfl⟩
  exact ⟨ok.registered, ⟨nofun, nofun⟩, nofun, ok.window, nofun⟩

theorem shas_insert (db : Db) (sha : String) :
    shas { db with commits := db.commits.insert sha } = shas db ++ [sha] := by
  simp [shas, Table.insert]

theorem PushInv.newCommit
    (inv : PushInv db₀ db (⟨event, .newCommit remoteId repoId runPref email⟩ :: rest)) :
    db.newCommit event.tip =
      .ok ({ db with commits := db.commits.insert event.tip }, db.commits.seq + 1) ∧
    PushInv db₀ { db with commits := db.commits.insert event.tip }
      (⟨event, .newJob remoteId repoId runPref email (db.commits.seq + 1)⟩ :: rest) := by
  have ok := inv.each _ List.mem_cons_self
  have missing := ok.window event.tip rfl
  have kept : ∀ id sha, db.commits.get? id = some sha →
      (db.commits.insert event.tip).get? id = some sha :=
    fun id sha found => Table.get?_insert_of_some found _
  have balanced := inv.balanced
  have inserted := Table.since_insert balanced.commitsGrown event.tip
  have added : event.tip ∉ (Table.since db₀.commits db.commits).map Prod.snd := by
    intro member
    obtain ⟨row, held, same⟩ := List.mem_map.mp member
    exact missing (List.mem_map.mpr ⟨row, balanced.commitsGrown.mem.mpr (.inr held), same⟩)
  refine ⟨newCommit_eq missing, ?_, ?_⟩
  · refine List.forall_mem_cons.mpr ⟨?_, ?_⟩
    · exact ⟨ok.registered.frame rfl rfl, ⟨nofun, nofun⟩, nofun, nofun,
        fun id same => Option.some.inj same ▸ Table.get?_insert_self _ _⟩
    · intro other member
      have held := (List.forall_mem_cons.mp inv.each).2 other member
      refine held.frame rfl rfl kept ?_
      intro sha window
      rw [shas_insert, List.mem_append, List.mem_singleton, not_or]
      refine ⟨held.window sha window, ?_⟩
      rintro rfl
      exact balanced.alone_ne rfl (List.mem_filterMap.mpr ⟨other, member, window⟩)
  · refine ⟨balanced.commitsGrown.insert _, balanced.jobsGrown, balanced.runsGrown,
      balanced.namesGrown, balanced.alone_rest, ?_, ?_, ?_, balanced.runs, balanced.names⟩
    · rw [inserted, List.map_append]
      exact balanced.distinct.append (List.nodup_singleton _) (by simpa using added)
    · intro sha member
      rw [inserted, List.map_append, List.mem_append] at member
      rcases member with old | new
      · exact balanced.commits sha old
      · cases List.mem_singleton.mp new
        refine ⟨?_, List.mem_map.mpr ⟨_, List.mem_cons_self, rfl⟩⟩
        intro member
        obtain ⟨row, held, same⟩ := List.mem_map.mp member
        exact missing (List.mem_map.mpr ⟨row, balanced.commitsGrown.mem.mpr (.inl held), same⟩)
    · rw [inserted, List.map_append]
      exact List.perm_middle.trans ((balanced.jobs.cons _).trans (List.perm_append_singleton _ _).symm)

/-- Handlers are indifferent to inserts elsewhere. -/
theorem HandlerOk.sameCommits (ok : HandlerOk db handler) (remotes : db'.remotes = db.remotes)
    (repos : db'.repos = db.repos) (commits : db'.commits = db.commits) : HandlerOk db' handler :=
  ok.frame remotes repos (by rw [commits]; exact fun _ _ => id)
    (by rw [shas, commits]; exact ok.window)

/-- A handler that has a commit moves on from an insert that neither it nor another one
looks at again. -/
theorem PushInv.each_inserted (inv : PushInv db₀ db (⟨event, phase⟩ :: rest))
    (remotes : db'.remotes = db.remotes) (repos : db'.repos = db.repos)
    (commits : db'.commits = db.commits) (sound : next ≠ .panicked ∧ next ≠ .notFound)
    (repo : Handler.repo? ⟨event, next⟩ = none) (window : Handler.window? ⟨event, next⟩ = none)
    (commit : Handler.commit? ⟨event, next⟩ = Handler.commit? ⟨event, phase⟩) :
    ∀ handler ∈ ⟨event, next⟩ :: rest, HandlerOk db' handler := by
  obtain ⟨ok, others⟩ := List.forall_mem_cons.mp inv.each
  refine List.forall_mem_cons.mpr ⟨?_, fun other member =>
    (others other member).sameCommits remotes repos commits⟩
  refine ⟨ok.registered.frame remotes repos, sound, by simp [repo], by simp [window], ?_⟩
  rw [commit, commits]
  exact ok.commit

theorem PushInv.newJob
    (inv : PushInv db₀ db (⟨event, .newJob remoteId repoId runPref email commitId⟩ :: rest))
    (now : Nat) :
    PushInv db₀ (db.insertJob remoteId commitId (some email) runPref now).1
      (⟨event, .newRun repoId (db.jobs.seq + 1) commitId⟩ :: rest) := by
  have balanced := inv.balanced
  refine ⟨inv.each_inserted rfl rfl rfl ⟨nofun, nofun⟩ rfl rfl rfl, ?_⟩
  refine ⟨balanced.commitsGrown, balanced.jobsGrown.insert _, balanced.runsGrown,
    balanced.namesGrown, balanced.alone, balanced.distinct, balanced.commits, ?_, ?_, balanced.names⟩
  · simp only [Db.insertJob, Table.since_insert balanced.jobsGrown, List.map_append]
    exact (List.append_assoc _ _ _).symm ▸ balanced.jobs
  · simp only [Db.insertJob, Table.since_insert balanced.jobsGrown, List.map_append]
    exact List.perm_middle.trans ((balanced.runs.cons _).trans (List.perm_append_singleton _ _).symm)

theorem PushInv.newRun (inv : PushInv db₀ db (⟨event, .newRun repoId jobId commitId⟩ :: rest))
    (now : Nat) :
    PushInv db₀ (db.newRun jobId none now).1
      (⟨event, .remotesByRepo repoId jobId commitId⟩ :: rest) := by
  have balanced := inv.balanced
  refine ⟨inv.each_inserted rfl rfl rfl ⟨nofun, nofun⟩ rfl rfl rfl, ?_⟩
  refine ⟨balanced.commitsGrown, balanced.jobsGrown, balanced.runsGrown.insert _,
    balanced.namesGrown, balanced.alone, balanced.distinct, balanced.commits, balanced.jobs, ?_,
    balanced.names⟩
  simp only [Db.newRun, Table.since_insert balanced.runsGrown, List.map_append]
  exact (List.append_assoc _ _ _).symm ▸ balanced.runs

theorem PushInv.commitName (inv : PushInv db₀ db (⟨event, .commitName commitId⟩ :: rest)) :
    PushInv db₀ (db.updateCommitName commitId (shortRefName event.refName))
      (⟨event, .handled commitId⟩ :: rest) := by
  have balanced := inv.balanced
  refine ⟨inv.each_inserted rfl rfl rfl ⟨nofun, nofun⟩ rfl rfl rfl, ?_⟩
  refine ⟨balanced.commitsGrown, balanced.jobsGrown, balanced.runsGrown,
    balanced.namesGrown.insert _, balanced.alone, balanced.distinct, balanced.commits,
    balanced.jobs, balanced.runs, ?_⟩
  simp only [Db.updateCommitName, Table.since_insert balanced.namesGrown, List.map_append]
  exact (List.perm_append_singleton _ _).trans (balanced.names.cons _)

end Moves

/-- One statement of the first handler panics nowhere and keeps the balance. -/
theorem PushInv.statement (inv : PushInv db₀ db (handler :: rest))
    (serial : handler.phase.looksUp = true → handler.event.tip ∉ rest.filterMap Handler.window?)
    (called : statement handler.event db now handler.phase = some outcome) :
    ∃ db' next, outcome = .ok (db', next) ∧
      PushInv db₀ db' ({ handler with phase := next } :: rest) := by
  obtain ⟨event, phase⟩ := handler
  cases phase with
  | remoteLookup =>
    obtain ⟨remoteId, repoId, found, next⟩ := inv.remoteLookup
    cases called
    exact ⟨_, _, rfl, by simpa only [found] using next⟩
  | commitLookup remoteId repoId =>
    cases called
    exact ⟨_, _, rfl, inv.commitLookup (serial rfl)⟩
  | runPreference remoteId repoId =>
    obtain ⟨repo, email, found, read, next⟩ := inv.runPreference
    simp only [WebServer.statement, found, read, Option.some.injEq] at called
    exact ⟨_, _, called.symm, next⟩
  | newCommit remoteId repoId runPref email =>
    obtain ⟨inserted, next⟩ := inv.newCommit
    simp only [WebServer.statement, inserted, Outcome.ok_bind, Outcome.pure_eq,
      Option.some.injEq] at called
    exact ⟨_, _, called.symm, next⟩
  | newJob remoteId repoId runPref email commitId =>
    cases called
    exact ⟨_, _, rfl, inv.newJob now⟩
  | newRun repoId jobId commitId =>
    cases called
    exact ⟨_, _, rfl, inv.newRun now⟩
  | remotesByRepo repoId jobId commitId =>
    cases called
    have ok := inv.each _ List.mem_cons_self
    exact ⟨_, _, rfl, inv.quiet ⟨ok.registered, ⟨nofun, nofun⟩, nofun, nofun, ok.commit⟩
      inv.balanced.alone rfl rfl rfl⟩
  | commitName commitId =>
    cases called
    exact ⟨_, _, rfl, inv.commitName⟩
  | notifying | notFound | handled | panicked => contradiction

theorem PushInv.notified (inv : PushInv db₀ db (⟨event, .notifying jobId commitId⟩ :: rest)) :
    PushInv db₀ db (⟨event, .commitName commitId⟩ :: rest) := by
  have ok := inv.each _ List.mem_cons_self
  exact inv.quiet ⟨ok.registered, ⟨nofun, nofun⟩, nofun, nofun, ok.commit⟩
    inv.balanced.alone rfl rfl rfl

/-! The whole server. -/

structure Calm (db₀ : Db) (events : List PushEvent) (s : PushState) : Prop where
  healthy : s.poisoned = false
  inv : PushInv db₀ s.db s.handlers
  events : s.handlers.map Handler.event = events

theorem setPhase_perm {s : PushState} (found : s.handlers[i]? = some handler) (phase : PushPhase) :
    s.handlers.Perm (handler :: s.handlers.eraseIdx i) ∧
      (s.setPhase i handler phase).handlers.Perm
        ({ handler with phase := phase } :: s.handlers.eraseIdx i) := by
  obtain ⟨within, rfl⟩ := List.getElem?_eq_some_iff.mp found
  exact ⟨(List.getElem_cons_eraseIdx_perm within).symm, List.set_perm_cons_eraseIdx within _⟩

theorem setPhase_events {s : PushState} (found : s.handlers[i]? = some handler) (phase : PushPhase) :
    (s.setPhase i handler phase).handlers.map Handler.event = s.handlers.map Handler.event := by
  obtain ⟨within, rfl⟩ := List.getElem?_eq_some_iff.mp found
  simp only [PushState.setPhase, List.map_set]
  apply List.ext_getElem?
  intro j
  by_cases same : i = j
  · subst same
    simp [within]
  · simp [same]

/-- A handler's next statement answers, and the server stays calm. -/
theorem calm_statement (calm : Calm db₀ events s) (serial : SerialLookups s (.call i now))
    (found : s.handlers[i]? = some handler)
    (called : statement handler.event s.db now handler.phase = some outcome) :
    ∃ db' next, outcome = .ok (db', next) ∧
      Calm db₀ events { s.setPhase i handler next with db := db' } := by
  obtain ⟨before, _⟩ := setPhase_perm found .panicked
  have windows := (before.filterMap Handler.window?).mem_iff (a := handler.event.tip)
  have inv := calm.inv.perm before
  obtain ⟨db', next, same, inv'⟩ := inv.statement (fun lookup member => serial handler found lookup
      (windows.mpr (List.mem_filterMap.mpr (by
        obtain ⟨other, held, window⟩ := List.mem_filterMap.mp member
        exact ⟨other, List.mem_cons_of_mem _ held, window⟩)))) called
  exact ⟨db', next, same, calm.healthy, inv'.perm (setPhase_perm found next).2.symm,
    (setPhase_events found next).trans calm.events⟩

theorem step_calm (calm : Calm db₀ events s) (serial : SerialLookups s l)
    (stepped : pushMachine.step s l = some t) : Calm db₀ events t := by
  cases push_moves stepped with
  | answers found healthy called =>
    obtain ⟨db', next, same, after⟩ := calm_statement calm serial found called
    cases same
    exact after
  | panics found called failed =>
    obtain ⟨db', next, same, _⟩ := calm_statement calm serial found called
    rcases failed with poisoned | failed
    · rw [calm.healthy] at poisoned
      contradiction
    · exact absurd same (failed _)
  | @notified i handler jobId commitId completed found reached =>
    cases serial
    obtain ⟨event, phase⟩ := handler
    cases reached
    obtain ⟨before, after⟩ := setPhase_perm found (.commitName commitId)
    exact ⟨calm.healthy, (calm.inv.perm before).notified.perm after.symm,
      (setPhase_events found _).trans calm.events⟩

theorem start_calm (registered : ∀ event ∈ events, Registered db event) :
    Calm db events (.start db events) := by
  have idle : ∀ {β : Type} (f : Handler → Option β), (∀ event, f ⟨event, .remoteLookup⟩ = none) →
      (PushState.start db events).handlers.filterMap f = [] := by
    intro β f none
    simp [PushState.start, none]
  refine ⟨rfl, ⟨?_, ?_⟩, ?_⟩
  · intro handler member
    obtain ⟨event, held, rfl⟩ := List.mem_map.mp member
    exact ⟨registered event held, ⟨nofun, nofun⟩, nofun, nofun, nofun⟩
  · refine ⟨.refl _, .refl _, .refl _, .refl _, ?_, ?_, ?_, ?_, ?_, ?_⟩
    · rw [idle _ fun _ => rfl]
      exact List.nodup_nil
    · simp [PushState.start]
    · simp [PushState.start]
    · rw [idle _ fun _ => rfl]
      simp [PushState.start]
    · rw [idle _ fun _ => rfl]
      simp [PushState.start]
    · rw [idle _ fun _ => rfl]
      simp [PushState.start]
  · simp [PushState.start, Function.comp_def]

/-- Each sha pushed for the first time has one commit, one job and one run; each
event has one name, for its own commit. -/
structure Recorded (db₀ db : Db) (events : List PushEvent) : Prop where
  grown : Table.Grown db₀.commits db.commits ∧ Table.Grown db₀.jobs db.jobs ∧
    Table.Grown db₀.runs db.runs ∧ Table.Grown db₀.commitNames db.commitNames
  distinct : ((Table.since db₀.commits db.commits).map Prod.snd).Nodup
  commits : ∀ sha, sha ∈ (Table.since db₀.commits db.commits).map Prod.snd ↔
    sha ∉ shas db₀ ∧ sha ∈ events.map PushEvent.tip
  jobs : ((Table.since db₀.jobs db.jobs).map fun row => row.2.commitId).Perm
    ((Table.since db₀.commits db.commits).map Prod.fst)
  runs : ((Table.since db₀.runs db.runs).map fun row => row.2.jobId).Perm
    ((Table.since db₀.jobs db.jobs).map Prod.fst)
  names : ((Table.since db₀.commitNames db.commitNames).map fun row =>
      (db.commits.get? row.2.commitId, row.2.name)).Perm
    (events.map fun event => (some event.tip, shortRefName event.refName))

def PushPhase.finished : PushPhase → Bool
  | .notFound | .handled _ | .panicked => true
  | _ => false

theorem HandlerOk.handled (ok : HandlerOk db handler) (finished : handler.phase.finished = true) :
    ∃ commitId, handler.phase = .handled commitId ∧
      db.commits.get? commitId = some handler.event.tip := by
  obtain ⟨event, phase⟩ := handler
  cases phase with
  | handled commitId => exact ⟨commitId, rfl, ok.commit commitId rfl⟩
  | notFound => exact absurd rfl ok.sound.2
  | panicked => exact absurd rfl ok.sound.1
  | _ => contradiction

theorem PushInv.recorded (inv : PushInv db₀ db handlers)
    (finished : ∀ handler ∈ handlers, handler.phase.finished = true) :
    Recorded db₀ db (handlers.map Handler.event) := by
  have balanced := inv.balanced
  have handled := fun handler member => (inv.each handler member).handled (finished handler member)
  have idle : ∀ {β : Type} (f : Handler → Option β),
      (∀ event commitId, f ⟨event, .handled commitId⟩ = none) → handlers.filterMap f = [] := by
    intro β f none
    rw [List.filterMap_eq_nil_iff]
    intro handler member
    obtain ⟨commitId, phase, _⟩ := handled handler member
    obtain ⟨event, _⟩ := handler
    cases phase
    exact none event commitId
  refine ⟨⟨balanced.commitsGrown, balanced.jobsGrown, balanced.runsGrown, balanced.namesGrown⟩,
    balanced.distinct, ?_, ?_, ?_, ?_⟩
  · intro sha
    simp only [List.map_map]
    refine ⟨balanced.commits sha, ?_⟩
    rintro ⟨fresh, member⟩
    obtain ⟨handler, held, rfl⟩ := List.mem_map.mp member
    obtain ⟨commitId, _, found⟩ := handled handler held
    rcases balanced.commitsGrown.mem.mp (Table.get?_eq_some.mp found) with old | new
    · exact absurd (List.mem_map.mpr ⟨_, old, rfl⟩) fresh
    · exact List.mem_map.mpr ⟨_, new, rfl⟩
  · have jobs := balanced.jobs
    rwa [idle Handler.awaitingJob? fun _ _ => rfl, List.append_nil] at jobs
  · have runs := balanced.runs
    rwa [idle Handler.awaitingRun? fun _ _ => rfl, List.append_nil] at runs
  · have names := balanced.names.map fun row => (db.commits.get? row.commitId, row.name)
    rw [List.map_map] at names
    refine names.trans (List.Perm.of_eq ?_)
    rw [List.map_map, List.map_filterMap, ← List.filterMap_eq_map]
    apply List.filterMap_congr
    intro handler member
    obtain ⟨commitId, phase, found⟩ := handled handler member
    simp only [Handler.named?, phase, Option.map_some, found, Function.comp_apply]

/-- In every run whose lookups are serial per sha, no handler panics, the lock is
not poisoned, and once all have finished every push is on record. -/
theorem pushes_recorded (db : Db) (events : List PushEvent) (labels : List PushLabel)
    (s : PushState) (registered : ∀ event ∈ events, Registered db event)
    (serial : pushMachine.Guarded SerialLookups (.start db events) labels)
    (path : pushMachine.run (.start db events) labels = some s) :
    s.poisoned = false ∧ (∀ handler ∈ s.handlers, handler.phase ≠ .panicked) ∧
      ((∀ handler ∈ s.handlers, handler.phase.finished = true) → Recorded db s.db events) := by
  have calm : Calm db events s :=
    Machine.guarded_invariant (fun _ _ _ => step_calm) (start_calm registered) serial path
  refine ⟨calm.healthy, fun handler member => (calm.inv.each handler member).sound.1, ?_⟩
  intro finished
  have recorded := calm.inv.recorded finished
  rwa [calm.events] at recorded

/-- A database with one repository and its github remote. -/
def oneRemote : Db :=
  { Db.empty with
    repos := .insert .empty ⟨"repo", none⟩
    remotes := .insert .empty ⟨1, "owner/repo", "github", "https://www.github.com/owner/repo",
      "https://www.github.com/owner/repo.git", "repo.json"⟩ }

def pushOf (refName : String) : PushEvent :=
  ⟨"f00d", "owner/repo", [], [("email", .str "dev@server")], refName⟩

theorem pushOf_registered (refName : String) : Registered oneRemote (pushOf refName) :=
  ⟨⟨1, 1, rfl, rfl⟩, rfl⟩

/-- One commit under two refs, the second push after the first. -/
def twoRefs : List PushEvent := [pushOf "refs/heads/main", pushOf "refs/heads/next"]

def inTurn : List PushLabel :=
  [.call 0 1, .call 0 1, .call 0 1, .call 0 1, .call 0 1, .call 0 1, .call 0 1, .notify 0 true,
   .call 0 1, .call 1 2, .call 1 2, .call 1 2]

theorem twoRefs_registered : ∀ event ∈ twoRefs, Registered oneRemote event := by
  intro event member
  simp only [twoRefs, List.mem_cons, List.not_mem_nil, or_false] at member
  rcases member with rfl | rfl <;> exact pushOf_registered _

theorem pushes_in_turn_recorded :
    ∃ s, pushMachine.run (.start oneRemote twoRefs) inTurn = some s ∧
      s.handlers.map Handler.phase = [.handled 1, .handled 1] ∧
      s.poisoned = false ∧ (∀ handler ∈ s.handlers, handler.phase ≠ .panicked) ∧
      ((∀ handler ∈ s.handlers, handler.phase.finished = true) → Recorded oneRemote s.db twoRefs) := by
  have runs : (pushMachine.run (.start oneRemote twoRefs) inTurn).map
      (fun s => s.handlers.map Handler.phase) = some [.handled 1, .handled 1] := rfl
  obtain ⟨s, path, phases⟩ := Option.map_eq_some_iff.mp runs
  exact ⟨s, path, phases, pushes_recorded oneRemote twoRefs inTurn s twoRefs_registered
    (of_decide_eq_true rfl) path⟩

/-- Both handlers look the commit up before either has inserted it. -/
def abreast : List PushLabel :=
  [.call 0 1, .call 0 1, .call 1 1, .call 1 1, .call 0 1, .call 1 1, .call 0 1, .call 1 1]

theorem concurrent_push_poisons : ¬ ∀ (db : Db) (events : List PushEvent) (labels : List PushLabel)
    (s : PushState), (∀ event ∈ events, Registered db event) →
    (∀ i, PushLabel.notify i false ∉ labels) →
    pushMachine.run (.start db events) labels = some s →
    s.poisoned = false ∧ ∀ handler ∈ s.handlers, handler.phase ≠ .panicked := by
  intro claim
  have runs : (pushMachine.run (.start oneRemote twoRefs) abreast).map PushState.poisoned =
      some true := rfl
  obtain ⟨s, path, poisoned⟩ := Option.map_eq_some_iff.mp runs
  have healthy := (claim oneRemote twoRefs abreast s twoRefs_registered (by simp [abreast]) path).1
  rw [poisoned] at healthy
  contradiction

end BuildOTron.WebServer
