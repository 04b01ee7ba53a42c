import BuildOTron.Driver.ArtifactTimes
import BuildOTron.System.Pages
import BuildOTron.Web.JobMetrics

/-! The columns that name hosts, runs and commits beside those of the queue. Only the
driver writes hosts, artifacts and metrics, and only for what it has at hand, so unlike a
rerun none of these writes leaves a row that names nothing. -/
namespace BuildOTron
open Transition

namespace Db

structure Referenced (db : Db) : Prop where
  hostId : db.runs.MayReference RunRow.hostId db.hosts
  hostPreference : db.runs.MayReference RunRow.hostPreference db.hosts
  artifacts : db.artifacts.References ArtifactRow.runId db.runs
  metrics : db.metrics.References MetricRow.runId db.runs
  commitNames : db.commitNames.References CommitNameRow.commitId db.commits
  /-- the hosts are what runners have reported that can be stored, one row for each key -/
  hosts : ∃ seen : List HostInfo, (∀ info ∈ seen, Hosts.bindable info.cpuInfo.maxFreq = true) ∧
    Table.Interned Hosts.hostKey db.hosts (seen.map hostRow)

/-- Jobs, remotes and commits are never changed, nor is the job of a run. -/
structure Lasting (db db' : Db) : Prop where
  jobOf : ∀ id row, db.runs.get? id = some row → ∃ row', db'.runs.get? id = some row' ∧
    row'.jobId = row.jobId
  jobs : db.jobs.Within db'.jobs
  remotes : db.remotes.Within db'.remotes
  commits : db.commits.Within db'.commits

structure KeepsReferences (db db' : Db) : Prop where
  referenced : db.Referenced → db'.Referenced
  hosts : db.hosts.Extends db'.hosts
  runs : db.runs.Extends db'.runs
  commits : db.commits.Extends db'.commits
  lasting : Lasting db db'

theorem empty_referenced : Db.empty.Referenced where
  hostId := .empty _ _
  hostPreference := .empty _ _
  artifacts := .empty _ _
  metrics := .empty _ _
  commitNames := .empty _ _
  hosts := ⟨[], by simp, Table.interned_empty rfl⟩

namespace Lasting

/-- A write to other tables, or one that adds jobs, remotes and commits. -/
theorem aside {db db' : Db} (runs : db'.runs = db.runs) (jobs : db.jobs.Within db'.jobs)
    (remotes : db.remotes.Within db'.remotes) (commits : db.commits.Within db'.commits) :
    Lasting db db' :=
  ⟨fun _ row found => ⟨row, runs ▸ found, rfl⟩, jobs, remotes, commits⟩

theorem refl (db : Db) : Lasting db db := .aside rfl (.refl _) (.refl _) (.refl _)

theorem trans (first : Lasting a b) (second : Lasting b c) : Lasting a c where
  jobOf id row found := by
    obtain ⟨row', found', same⟩ := first.jobOf id row found
    obtain ⟨row'', found'', same'⟩ := second.jobOf id row' found'
    exact ⟨row'', found'', same'.trans same⟩
  jobs := first.jobs.trans second.jobs
  remotes := first.remotes.trans second.remotes
  commits := first.commits.trans second.commits

theorem newRun (db : Db) (jobId : Nat) (pref : Option Nat) (now : Nat) :
    Lasting db (db.newRun jobId pref now).1 :=
  ⟨fun _ row found => ⟨row, Table.get?_insert_of_some found _, rfl⟩, .refl _, .refl _, .refl _⟩

theorem updateRun (db : Db) (id : Nat) {f : RunRow → RunRow} (job : ∀ row, (f row).jobId = row.jobId) :
    Lasting db { db with runs := db.runs.update id f } where
  jobOf i row found := by
    rw [Table.get?_update, found, Option.map_some]
    split
    · exact ⟨f row, rfl, job row⟩
    · exact ⟨row, rfl, rfl⟩
  jobs := .refl _
  remotes := .refl _
  commits := .refl _

end Lasting

namespace KeepsReferences

theorem refl (db : Db) : KeepsReferences db db :=
  ⟨fun referenced => referenced, .refl _, .refl _, .refl _, .refl _⟩

theorem trans (first : KeepsReferences a b) (second : KeepsReferences b c) : KeepsReferences a c where
  referenced := fun referenced => second.referenced (first.referenced referenced)
  hosts := first.hosts.trans second.hosts
  runs := first.runs.trans second.runs
  commits := first.commits.trans second.commits
  lasting := first.lasting.trans second.lasting

instance : Std.Refl KeepsReferences := ⟨refl⟩

instance : IsTrans Db KeepsReferences := ⟨fun _ _ _ => trans⟩

end KeepsReferences

section Writers
variable {db db' : Db}

/-- A write to the tables that only name what the queue needs. -/
theorem aside_keeps (db : Db) {jobs : Table JobRow} {remotes : Table RemoteRow}
    (jobsLast : db.jobs.Within jobs) (remotesLast : db.remotes.Within remotes) (repos : Table RepoRow) :
    KeepsReferences db { db with jobs := jobs, remotes := remotes, repos := repos } where
  referenced r := ⟨r.hostId, r.hostPreference, r.artifacts, r.metrics, r.commitNames, r.hosts⟩
  hosts := .refl _
  runs := .refl _
  commits := .refl _
  lasting := .aside rfl jobsLast remotesLast (.refl _)

theorem newRun_keeps (known : ∀ hostId, pref = some hostId → (db.hosts.get? hostId).isSome)
    (jobId now : Nat) : KeepsReferences db (db.newRun jobId pref now).1 where
  referenced r :=
    have more := Table.extends_insert db.runs (pendingRow jobId pref now)
    ⟨r.hostId.insert (by simp [pendingRow]), r.hostPreference.insert known, r.artifacts.mono more, r.metrics.mono more,
      r.commitNames, r.hosts⟩
  hosts := .refl _
  runs := Table.extends_insert _ _
  commits := .refl _
  lasting := .newRun db jobId pref now

theorem updateRun_keeps (id : Nat) {f : RunRow → RunRow}
    (host : ∀ row hostId, (f row).hostId = some hostId →
      row.hostId = some hostId ∨ (db.hosts.get? hostId).isSome)
    (preference : ∀ row, (f row).hostPreference = row.hostPreference)
    (job : ∀ row, (f row).jobId = row.jobId) :
    KeepsReferences db { db with runs := db.runs.update id f } where
  referenced r :=
    have more := Table.extends_update db.runs id f
    ⟨r.hostId.update host, r.hostPreference.update fun row _ names => .inl (preference row ▸ names),
      r.artifacts.mono more, r.metrics.mono more, r.commitNames, r.hosts⟩
  hosts := .refl _
  runs := Table.extends_update _ _ _
  commits := .refl _
  lasting := .updateRun db id job

theorem newCommit_keeps (made : db.newCommit sha = .ok (db', commitId)) : KeepsReferences db db' := by
  unfold newCommit at made
  split at made
  · cases made
    have more := Table.extends_insert db.commits sha
    refine ⟨fun r => ?_, .refl _, .refl _, more,
      .aside rfl (.refl _) (.refl _) (Table.within_insert _ _)⟩
    exact ⟨r.hostId, r.hostPreference, r.artifacts, r.metrics, r.commitNames.mono more, r.hosts⟩
  · contradiction

theorem updateCommitName_keeps (known : (db.commits.get? commitId).isSome) (name : String) :
    KeepsReferences db (db.updateCommitName commitId name) where
  referenced r :=
    ⟨r.hostId, r.hostPreference, r.artifacts, r.metrics, r.commitNames.insert known, r.hosts⟩
  hosts := .refl _
  runs := .refl _
  commits := .refl _
  lasting := .aside rfl (.refl _) (.refl _) (.refl _)

theorem insertMetric_keeps (known : (db.runs.get? runId).isSome) (name value : String) :
    KeepsReferences db (db.insertMetric runId name value) := by
  rw [insertMetric_eq]
  refine ⟨fun r => ?_, .refl _, .refl _, .refl _, .aside rfl (.refl _) (.refl _) (.refl _)⟩
  exact ⟨r.hostId, r.hostPreference, r.artifacts, r.metrics.upsert (fun _ => rfl) known,
    r.commitNames, r.hosts⟩

theorem insertArtifact_keeps (known : (db.runs.get? runId).isSome) (name desc : String) (now : Nat) :
    KeepsReferences db (db.insertArtifact runId name desc now).1 where
  referenced r :=
    ⟨r.hostId, r.hostPreference, r.artifacts.insert known, r.metrics, r.commitNames, r.hosts⟩
  hosts := .refl _
  runs := .refl _
  commits := .refl _
  lasting := .aside rfl (.refl _) (.refl _) (.refl _)

/-- A host that is not told apart from one before it is left out. -/
theorem Referenced.idForHost (referenced : db.Referenced) {info : HostInfo}
    (stored : Hosts.bindable info.cpuInfo.maxFreq = true) : KeepsReferences db (db.idForHost info).1 := by
  obtain ⟨seen, bound, interned⟩ := referenced.hosts
  rw [Hosts.idForHost_eq]
  obtain same | ⟨inserted, interned'⟩ := interned.intern_cases (hostRow info)
  · rw [same]
    exact .refl db
  · rw [inserted]
    have more := Table.extends_insert db.hosts (hostRow info)
    refine ⟨fun r => ?_, more, .refl _, .refl _, .aside rfl (.refl _) (.refl _) (.refl _)⟩
    refine ⟨r.hostId.mono more, r.hostPreference.mono more, r.artifacts, r.metrics, r.commitNames, ?_⟩
    refine ⟨seen ++ [info], ?_, by rwa [List.map_append]⟩
    rw [List.forall_mem_append]
    exact ⟨bound, List.forall_mem_singleton.mpr stored⟩

/-- A runner on a host of the table is known by the id it has there. -/
theorem Referenced.again (referenced : db.Referenced) {hostId : Nat} (found : db.hosts.get? hostId = some host) :
    ∃ info, hostRow info = host ∧ Hosts.bindable info.cpuInfo.maxFreq = true ∧
      db.idForHost info = (db, some hostId) := by
  obtain ⟨seen, bound, interned⟩ := referenced.hosts
  obtain ⟨info, member, rfl⟩ := List.mem_map.mp (interned.rows hostId host found)
  refine ⟨info, rfl, bound info member, ?_⟩
  rw [Hosts.idForHost_eq, interned.intern_known found]

end Writers
end Db

/-! ### The writes of each program -/

namespace Ctl
open Db

/-- What commands write, each time a row or two that are new. -/
structure Additions (R : Db → Db → Prop) : Prop where
  newRun : ∀ db jobId now, R db (db.newRun jobId none now).1
  newRepo : ∀ {db db' : Db} {name repoId}, db.newRepo name = .ok (db', repoId) → R db db'
  newRemote : ∀ {db db' : Db} {repoId remote remoteKind config remoteId},
    db.newRemote repoId remote remoteKind config = .ok (db', remoteId) → R db db'
  newJob : ∀ {db db' : Db} {remoteId sha pusher runPref now ids},
    db.newJob remoteId sha pusher runPref now = .ok (db', ids) → R db db'

namespace Additions
variable {R : Db → Db → Prop} [Std.Refl R]

theorem runAdded (additions : Additions R) (jobId now : Nat) (db : Db) :
    R db (Ctl.newRun jobId now db).2 := by
  refine Effect.call_relates ?_
  intro db' run made
  cases made
  exact additions.newRun db jobId now

theorem repoAdded (additions : Additions R) (name : String) (db : Db) : R db (Ctl.newRepo name db).2 := by
  refine Effect.call_relates ?_
  intro db' repoId made
  exact additions.newRepo (Outcome.mapErr_eq_ok.mp made)

theorem remoteAdded (additions : Additions R) (repoId : Nat) (remote remoteKind config : String) (db : Db) :
    R db (Ctl.newRemote repoId remote remoteKind config db).2 := by
  refine Effect.call_relates ?_
  intro db' remoteId made
  exact additions.newRemote (Outcome.expect_eq_ok.mp made)

theorem jobAdded (additions : Additions R) (remoteId : Nat) (sha : String) (pusher runPref : Option String)
    (now : Nat) (db : Db) : R db (Ctl.newJob remoteId sha pusher runPref now db).2 := by
  refine Effect.call_relates ?_
  intro db' ids made
  exact additions.newJob (Outcome.expect_eq_ok.mp made)

/-- Commands add repos, remotes, jobs and runs, and runs without a preference. -/
theorem execute [IsTrans Db R] (additions : Additions R) (env : Environment) (command : Command) (db : Db) :
    R db (Ctl.execute env command db).2 := by
  have idle : ∀ db : Db, R db db := Std.Refl.refl
  cases command with
  | addRepo name remote remoteKind config =>
    refine Effect.bind_relates (idle db) fun described _ => ?_
    refine Effect.bind_relates (additions.repoAdded name db) fun repoId _ => ?_
    cases described with
    | none => exact idle _
    | some described =>
      refine Effect.bind_relates (idle _) fun _ _ => ?_
      exact Effect.bind_relates (additions.remoteAdded _ _ _ _ _) fun _ _ => idle _
  | addRemote repoName remote remoteKind config =>
    refine Effect.bind_relates (idle db) fun repoId _ => ?_
    refine Effect.bind_relates (idle _) fun _ _ => ?_
    exact Effect.bind_relates (additions.remoteAdded _ _ _ _ _) fun _ _ => idle _
  | rerun which => exact Effect.bind_relates (additions.runAdded _ _ _) fun _ _ => idle _
  | rerunCommit commit =>
    refine Effect.bind_relates (idle db) fun jobId _ => ?_
    cases jobId with
    | none => exact idle _
    | some jobId => exact Effect.bind_relates (additions.runAdded _ _ _) fun _ _ => idle _
  | create repo commit pusherEmail =>
    refine Effect.bind_relates (idle db) fun parts _ => ?_
    refine Effect.bind_relates (idle db) fun remote _ => ?_
    refine Effect.bind_relates (idle db) fun owner _ => ?_
    refine Effect.bind_relates (additions.jobAdded _ _ _ _ _ _) fun made _ => ?_
    exact Effect.bind_relates (additions.runAdded _ _ _) fun _ _ => idle _

end Additions

theorem keeps_additions : Additions KeepsReferences where
  newRun db jobId now := Db.newRun_keeps (by simp) jobId now
  newRepo {db db' name repoId} made := by
    unfold Db.newRepo at made
    split at made
    · cases made
      exact aside_keeps db (.refl _) (.refl _) _
    · contradiction
  newRemote {db db' repoId remote remoteKind config remoteId} made := by
    unfold Db.newRemote at made
    split at made
    · cases made
      exact aside_keeps db (.refl _) (Table.within_insert _ _) db.repos
    · contradiction
  newJob made := by
    obtain ⟨⟨between, commitId⟩, inserted, rest⟩ := Outcome.bind_eq_ok.mp made
    cases rest
    exact (newCommit_keeps inserted).trans
      (aside_keeps between (Table.within_insert _ _) (.refl _) between.repos)

end Ctl

namespace WebServer
open Db
variable {db db' : Db}

theorem commitToId_known (found : commitToId db sha = some commitId) :
    (db.commits.get? commitId).isSome := by
  obtain ⟨row, first, rfl⟩ := Option.map_eq_some_iff.mp found
  exact Option.isSome_iff_exists.mpr ⟨_, Table.get?_of_head?_select first⟩

theorem newCommit_known (made : db.newCommit sha = .ok (db', commitId)) :
    (db'.commits.get? commitId).isSome :=
  (Db.newCommit_upholds made).2

/-- The commit that a handler works for is in the table. -/
def CommitKnown (db : Db) (handler : Handler) : Prop :=
  ∀ commitId, handler.commit? = some commitId → (db.commits.get? commitId).isSome

theorem statement_keeps (known : CommitKnown db ⟨event, phase⟩)
    (called : statement event db now phase = some (.ok (db', next))) :
    KeepsReferences db db' ∧ CommitKnown db' ⟨event, next⟩ := by
  cases phase with
  | remoteLookup =>
    simp only [statement, Option.some.injEq, Outcome.ok.injEq, Prod.mk.injEq] at called
    obtain ⟨rfl, rfl⟩ := called
    refine ⟨.refl _, ?_⟩
    split <;> rintro _ ⟨⟩
  | commitLookup remoteId repoId =>
    simp only [statement, Option.some.injEq, Outcome.ok.injEq, Prod.mk.injEq] at called
    obtain ⟨rfl, rfl⟩ := called
    refine ⟨.refl _, ?_⟩
    split
    · rename_i id found
      rintro _ ⟨⟩
      exact commitToId_known found
    · rintro _ ⟨⟩
  | runPreference remoteId repoId =>
    simp only [statement, Option.some.injEq] at called
    split at called
    · contradiction
    · cases called
      refine ⟨.refl _, ?_⟩
      split <;> rintro _ ⟨⟩
  | newCommit remoteId repoId runPref email =>
    obtain ⟨⟨between, commitId⟩, made, rest⟩ := Outcome.bind_eq_ok.mp (Option.some.inj called)
    cases rest
    refine ⟨newCommit_keeps made, ?_⟩
    rintro _ ⟨⟩
    exact newCommit_known made
  | newJob remoteId repoId runPref email commitId =>
    cases called
    exact ⟨aside_keeps db (Table.within_insert _ _) (.refl _) db.repos, known⟩
  | newRun repoId jobId commitId =>
    cases called
    exact ⟨Db.newRun_keeps (by simp) jobId now, known⟩
  | remotesByRepo =>
    cases called
    exact ⟨.refl _, known⟩
  | commitName commitId =>
    cases called
    exact ⟨updateCommitName_keeps (known commitId rfl) _, known⟩
  | notifying | notFound | handled | panicked => contradiction

theorem CommitKnown.mono {handler : Handler} (known : CommitKnown db handler)
    (keeps : KeepsReferences db db') : CommitKnown db' handler :=
  fun commitId held => keeps.commits commitId (known commitId held)

def CommitsKnown (db : Db) (handlers : List Handler) : Prop :=
  ∀ handler ∈ handlers, CommitKnown db handler

theorem push_keeps {s t : PushState} (known : CommitsKnown s.db s.handlers)
    (stepped : pushMachine.step s l = some t) :
    KeepsReferences s.db t.db ∧ CommitsKnown t.db t.handlers := by
  cases push_moves stepped with
  | answers found healthy called =>
    have held := known _ (List.mem_of_getElem? found)
    obtain ⟨keeps, next⟩ := statement_keeps held called
    have later : CommitsKnown _ s.handlers := fun handler member => (known handler member).mono keeps
    exact ⟨keeps, PushState.setPhase_all later next _⟩
  | panics found =>
    exact ⟨.refl _, PushState.setPhase_all known (by simp [CommitKnown, Handler.commit?]) _⟩
  | notified found reached =>
    refine ⟨.refl _, PushState.setPhase_all known ?_ _⟩
    have held := known _ (List.mem_of_getElem? found)
    split
    · rintro commitId ⟨⟩
      exact held _ (by simp [Handler.commit?, reached])
    · rintro _ ⟨⟩

end WebServer

namespace Driver
open Db

/-- A client's host and the runs that its task speaks of are in their tables. -/
structure TaskLinked (db : Db) (task : Task) : Prop where
  host : (db.hosts.get? task.client.hostId).isSome
  runs : ∀ run ∈ task.phase.mentions, (db.runs.get? run).isSome

theorem TaskLinked.mono (linked : TaskLinked db task) (keeps : KeepsReferences db db') :
    TaskLinked db' task :=
  ⟨keeps.hosts _ linked.host, fun run mentioned => keeps.runs run (linked.runs run mentioned)⟩

theorem moves_keeps (linked : TaskLinked db ⟨client, phase⟩)
    (moves : Moves client db phase action db' next) : KeepsReferences db db' := by
  cases moves with
  | newRun =>
    refine Db.newRun_keeps ?_ _ _
    rintro _ ⟨⟩
    exact linked.host
  | activates =>
    refine updateRun_keeps _ ?_ (fun _ => rfl) fun _ => rfl
    intro row hostId names
    cases names
    exact .inr linked.host
  | insertMetric =>
    exact insertMetric_keeps (linked.runs _ (by simp [Phase.mentions, Phase.run?])) _ _
  | records => exact updateRun_keeps _ (fun _ _ names => .inl names) (fun _ => rfl) fun _ => rfl
  | _ => exact .refl _

theorem moves_linked (linked : TaskLinked db ⟨client, phase⟩)
    (moves : Moves client db phase action db' next) : TaskLinked db' ⟨client, next⟩ := by
  have keeps := moves_keeps linked moves
  refine ⟨keeps.hosts _ linked.host, ?_⟩
  intro run mentioned
  obtain before | ⟨row, found, _⟩ := moves_mentions moves mentioned
  · exact keeps.runs run (linked.runs run before)
  · rw [found]
    rfl

theorem reaper_keeps (moved : reaperStep db activeTasks now reaper = some (db', reaper')) :
    KeepsReferences db db' := by
  cases reaper with
  | reaping stale =>
    cases stale with
    | nil =>
      cases moved
      exact .refl _
    | cons run rest =>
      cases moved
      exact updateRun_keeps _ (fun _ _ names => .inl names) (fun _ => rfl) fun _ => rfl
  | start | activeRuns | unclaimed =>
    cases moved
    exact .refl _
  | done => contradiction

theorem post_keeps (db : Db) (post : ArtifactPost) (now : Nat) (fileCreated : Bool) :
    KeepsReferences db (handleArtifact db post now fileCreated).1 := by
  unfold handleArtifact
  split
  · obtain ⟨row, _, found, _⟩ := checkPost_started ‹_›
    exact insertArtifact_keeps (by rw [found]; rfl) _ _ _
  · exact .refl _
  · exact .refl _

def TasksLinked (s : State) : Prop := ∀ c task, s.tasks c = some task → TaskLinked s.db task

theorem connect_keeps {s : State} (referenced : s.db.Referenced) (linked : TasksLinked s)
    (tokenForJob : Nat → String) (hostInfo : HostInfo) (accepted : Option (List String)) :
    KeepsReferences s.db (s.connect tokenForJob hostInfo accepted).db ∧
      TasksLinked (s.connect tokenForJob hostInfo accepted) := by
  have outcome := connect_connected tokenForJob s hostInfo accepted
  generalize s.connect tokenForJob hostInfo accepted = t at outcome ⊢
  cases outcome with
  | refused => exact ⟨.refl _, linked⟩
  | unknown _ stored =>
    have keeps := referenced.idForHost stored
    exact ⟨keeps, fun c task found => (linked c task found).mono keeps⟩
  | queued _ stored host =>
    have keeps := referenced.idForHost stored
    refine ⟨keeps, ?_⟩
    intro c task found
    dsimp only at found
    rw [Function.update_apply] at found
    split at found
    · cases found
      exact ⟨Hosts.idForHost_known host, by simp [Phase.mentions, Phase.run?]⟩
    · exact (linked c task found).mono keeps

theorem step_keeps {s t : State} (referenced : s.db.Referenced) (linked : TasksLinked s)
    (own : ∀ write, l ≠ .outside write) (stepped : (machine tokenForJob).step s l = some t) :
    KeepsReferences s.db t.db ∧ TasksLinked t := by
  cases l with
  | connect hostInfo accepted =>
    cases stepped
    exact connect_keeps referenced linked tokenForJob hostInfo accepted
  | task c action =>
    obtain ⟨task, db, next, found, moves, rfl⟩ := step_task stepped
    have keeps := moves_keeps (linked c task found) moves
    rw [TasksLinked, moveTask_db]
    refine ⟨keeps, ?_⟩
    intro c' task' found'
    obtain ⟨_, rfl⟩ | ⟨_, old⟩ := moveTask_cases found'
    · exact moves_linked (linked c task found) moves
    · exact (linked c' task' old).mono keeps
  | reaper now =>
    obtain ⟨db, reaper, moved, rfl⟩ := step_reaper stepped
    have keeps := reaper_keeps moved
    exact ⟨keeps, fun c task found => (linked c task found).mono keeps⟩
  | post post now fileCreated =>
    cases stepped
    have keeps : KeepsReferences s.db (answerPost s.poisoned s.db post now fileCreated).1 := by
      obtain same | same := answerPost_db s.poisoned s.db post now fileCreated <;> rw [same]
      · exact .refl _
      · exact post_keeps s.db post now fileCreated
    exact ⟨keeps, fun c task found => (linked c task found).mono keeps⟩
  | outside write => exact absurd rfl (own write)
  | restart =>
    cases stepped
    exact ⟨.refl _, fun _ _ found => by contradiction⟩

end Driver

/-! ### All programs together -/

namespace System

structure Linked (s : State) : Prop where
  referenced : s.db.Referenced
  tasks : Driver.TasksLinked s.driver
  handlers : WebServer.CommitsKnown s.db s.handlers

theorem start_linked : Linked .start :=
  ⟨Db.empty_referenced, fun _ _ found => by contradiction, fun _ member => by contradiction⟩

theorem Linked.mono (linked : Linked s) (keeps : Db.KeepsReferences s.db db) :
    Linked (s.withDb db) where
  referenced := keeps.referenced linked.referenced
  tasks c task found := (linked.tasks c task found).mono keeps
  handlers handler member := (linked.handlers handler member).mono keeps

theorem step_references (linked : Linked s) (stepped : (machine tokenForJob).step s l = some t) :
    Db.KeepsReferences s.db t.db ∧ Linked t := by
  cases l with
  | ctl command env =>
    cases stepped
    have keeps := Ctl.keeps_additions.execute env command s.db
    exact ⟨keeps, linked.mono keeps⟩
  | push event =>
    cases stepped
    refine ⟨.refl _, linked.referenced, linked.tasks, ?_⟩
    intro handler member
    rcases List.mem_append.mp member with old | new
    · exact linked.handlers handler old
    · cases List.mem_singleton.mp new
      rintro _ ⟨⟩
  | web label =>
    obtain ⟨server, moved, rfl⟩ := Option.map_eq_some_iff.mp stepped
    have known : WebServer.CommitsKnown s.webServer.db s.webServer.handlers := linked.handlers
    obtain ⟨keeps, handlers⟩ := WebServer.push_keeps known moved
    exact ⟨keeps, keeps.referenced linked.referenced,
      fun c task found => (linked.tasks c task found).mono keeps, handlers⟩
  | restartWeb =>
    cases stepped
    exact ⟨.refl _, linked.referenced, linked.tasks, fun _ member => by contradiction⟩
  | driver label =>
    obtain ⟨driver, moved, own, rfl⟩ := step_driver stepped
    obtain ⟨keeps, tasks⟩ := Driver.step_keeps linked.referenced linked.tasks own moved
    exact ⟨keeps, keeps.referenced linked.referenced, tasks,
      fun handler member => (linked.handlers handler member).mono keeps⟩

theorem step_linked (linked : Linked s) (stepped : (machine tokenForJob).step s l = some t) :
    Linked t :=
  (step_references linked stepped).2

theorem run_linked (path : (machine tokenForJob).run .start labels = some s) : Linked s :=
  Machine.invariant (fun _ _ _ => step_linked) start_linked path

/-- What the programs find where a row names a host, a run or a commit. -/
structure Resolves (db : Db) : Prop where
  artifacts : db.artifacts.References ArtifactRow.runId db.runs
  metrics : db.metrics.References MetricRow.runId db.runs
  commitNames : db.commitNames.References CommitNameRow.commitId db.commits
  /-- the page of a job's metrics is told the host of each run -/
  described : ∀ run row, db.runs.get? run = some row → ∃ desc, Web.hostDesc db (row.withId run) = .ok desc
  /-- a runner on the preferred host gets the id that the run asks for, and with it the run -/
  served : ∀ run row hostId, db.runs.get? run = some row → row.hostPreference = some hostId →
    ∃ info, Hosts.bindable info.cpuInfo.maxFreq = true ∧ db.idForHost info = (db, some hostId) ∧
      (row.state = .pending → ⟨run, row.jobId, row.createdTime⟩ ∈ db.getPendingRuns (some hostId))

theorem Linked.resolves (linked : Linked s) : Resolves s.db where
  artifacts := linked.referenced.artifacts
  metrics := linked.referenced.metrics
  commitNames := linked.referenced.commitNames
  described run row found := by
    unfold Web.hostDesc
    split
    · rename_i hostId ran
      obtain ⟨host, held⟩ := Option.isSome_iff_exists.mp
        (linked.referenced.hostId run row hostId found ran)
      simp only [Web.hostModelInfo, held]
      exact ⟨_, rfl⟩
    · exact ⟨_, rfl⟩
  served run row hostId found prefers := by
    obtain ⟨host, held⟩ := Option.isSome_iff_exists.mp
      (linked.referenced.hostPreference run row hostId found prefers)
    obtain ⟨info, _, stored, known⟩ := linked.referenced.again held
    refine ⟨info, stored, known, fun pending => ?_⟩
    exact Db.mem_getPendingRuns.mpr ⟨row, found, pending, .inl prefers, rfl, rfl⟩

/-- In every run of all programs, reruns of what is not there included: artifacts, metrics
and names belong to rows that are there, every run's host can be shown, and the host that
a run waits for can come back for it. -/
theorem hosts_and_artifacts_resolve (tokenForJob : Nat → String) (labels : List Label) (s : State)
    (path : (machine tokenForJob).run .start labels = some s) : Resolves s.db :=
  (run_linked path).resolves

/-- A job whose run a client takes and reports a metric for, and a rerun of no job. -/
def takenAndRerun : List Label :=
  created "f00d" ++
    ([Driver.connects] ++ Driver.prepares 0 864000000 ++ [Driver.offers 0, Driver.acks 0,
      .task 0 (.call 864000000), .task 0 (.recv (.message (.metric "tests" "5"))),
      .task 0 (.upsert true)]).map .driver ++
    [.ctl (.rerun 5) someEnvironment]

theorem taken_and_rerun_resolves : ∃ s, (machine Driver.someToken).run .start takenAndRerun = some s ∧
    s.db.jobs.get? 5 = none ∧ s.db.metrics.get? 1 = some ⟨1, "tests", "5"⟩ ∧ Resolves s.db :=
  ⟨_, rfl, rfl, rfl, hosts_and_artifacts_resolve Driver.someToken takenAndRerun _ rfl⟩

end System
end BuildOTron
