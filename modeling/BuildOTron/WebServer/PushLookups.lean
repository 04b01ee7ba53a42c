import BuildOTron.Core.Integrity
import BuildOTron.WebServer.Push

/-! What a push handler goes on to refer to is in the database. -/
namespace BuildOTron.WebServer
open Transition

/-- The remote of the job that is still to be added. -/
def PushPhase.remoteId? : PushPhase → Option Nat
  | .commitLookup remoteId _ | .runPreference remoteId _ | .newCommit remoteId _ _ _
  | .newJob remoteId _ _ _ _ => some remoteId
  | _ => none

/-- Its commit. -/
def PushPhase.commitId? : PushPhase → Option Nat
  | .newJob _ _ _ _ commitId => some commitId
  | _ => none

/-- The job of the run that is still to be added. -/
def PushPhase.jobId? : PushPhase → Option Nat
  | .newRun _ jobId _ => some jobId
  | _ => none

structure Grounded (db : Db) (phase : PushPhase) : Prop where
  remote : ∀ remoteId, phase.remoteId? = some remoteId → (db.remotes.get? remoteId).isSome
  commit : ∀ commitId, phase.commitId? = some commitId → (db.commits.get? commitId).isSome
  job : ∀ jobId, phase.jobId? = some jobId → (db.jobs.get? jobId).isSome

variable {db db' : Db} {phase next : PushPhase}

theorem Grounded.mono (grounded : Grounded db phase) (upholds : db.Upholds db') :
    Grounded db' phase where
  remote remoteId held := upholds.remotes _ (grounded.remote remoteId held)
  commit commitId held := upholds.commits _ (grounded.commit commitId held)
  job jobId held := upholds.jobs _ (grounded.job jobId held)

theorem grounded_free (remote : phase.remoteId? = none) (commit : phase.commitId? = none)
    (job : phase.jobId? = none) : Grounded db phase where
  remote _ held := by
    rw [remote] at held
    contradiction
  commit _ held := by
    rw [commit] at held
    contradiction
  job _ held := by
    rw [job] at held
    contradiction

/-- A phase that has a remote and nothing else. -/
theorem grounded_remote (known : ∀ remoteId, phase.remoteId? = some remoteId →
    (db.remotes.get? remoteId).isSome) (commit : phase.commitId? = none)
    (job : phase.jobId? = none) : Grounded db phase where
  remote := known
  commit _ held := by
    rw [commit] at held
    contradiction
  job _ held := by
    rw [job] at held
    contradiction

theorem remoteByGitUrl_known (found : remoteByGitUrl db url = some (remoteId, repoId)) :
    (db.remotes.get? remoteId).isSome := by
  obtain ⟨row, first, same⟩ := Option.map_eq_some_iff.mp found
  cases same
  exact Option.isSome_iff_exists.mpr ⟨_, Table.get?_of_head?_select first⟩

/-- A statement that succeeds keeps every reference, in the database and in its
handler's hands. -/
theorem statement_upholds (grounded : Grounded db phase)
    (called : statement event db now phase = some (.ok (db', next))) :
    db.Upholds db' ∧ Grounded db' next := by
  cases phase with
  | remoteLookup =>
    simp only [statement, Option.some.injEq, Outcome.ok.injEq, Prod.mk.injEq] at called
    obtain ⟨rfl, rfl⟩ := called
    refine ⟨.refl _, ?_⟩
    split
    · rename_i remoteId repoId found
      refine grounded_remote ?_ rfl rfl
      rintro _ ⟨⟩
      exact remoteByGitUrl_known found
    · exact grounded_free rfl rfl rfl
  | commitLookup remoteId repoId =>
    simp only [statement, Option.some.injEq, Outcome.ok.injEq, Prod.mk.injEq] at called
    obtain ⟨rfl, rfl⟩ := called
    refine ⟨.refl _, ?_⟩
    split
    · exact grounded_free rfl rfl rfl
    · exact grounded_remote grounded.remote rfl rfl
  | runPreference remoteId repoId =>
    simp only [statement, Option.some.injEq] at called
    split at called
    · contradiction
    · cases called
      refine ⟨.refl _, ?_⟩
      split
      · exact grounded_remote grounded.remote rfl rfl
      · exact grounded_free rfl rfl rfl
  | newCommit remoteId repoId runPref email =>
    obtain ⟨⟨db'', commitId⟩, made, rest⟩ := Outcome.bind_eq_ok.mp (Option.some.inj called)
    cases rest
    obtain ⟨upholds, known⟩ := Db.newCommit_upholds made
    refine ⟨upholds, ?_, ?_, nofun⟩
    · exact (grounded.mono upholds).remote
    · rintro _ ⟨⟩
      exact known
  | newJob remoteId repoId runPref email commitId =>
    cases called
    refine ⟨Db.insertJob_upholds (grounded.remote _ rfl) (grounded.commit _ rfl) _ _ _, nofun, nofun, ?_⟩
    rintro _ ⟨⟩
    exact Db.insertJob_known _ _ _ _ _ _
  | newRun repoId jobId commitId =>
    cases called
    exact ⟨Db.newRun_upholds (grounded.job _ rfl) _ _, grounded_free rfl rfl rfl⟩
  | remotesByRepo =>
    cases called
    exact ⟨.refl _, grounded_free rfl rfl rfl⟩
  | commitName =>
    cases called
    exact ⟨Db.upholds_aside _ _ _ _ _, grounded_free rfl rfl rfl⟩
  | notifying | notFound | handled | panicked => contradiction

def HandlersGrounded (db : Db) (handlers : List Handler) : Prop :=
  ∀ handler ∈ handlers, Grounded db handler.phase

/-- The same for a step of the server, however it ends. -/
theorem push_upholds (grounded : HandlersGrounded s.db s.handlers)
    (stepped : pushMachine.step s l = some t) :
    s.db.Upholds t.db ∧ HandlersGrounded t.db t.handlers := by
  have ended : Grounded s.db .panicked := grounded_free rfl rfl rfl
  cases push_moves stepped with
  | answers found healthy called =>
    have held := grounded _ (List.mem_of_getElem? found)
    obtain ⟨upholds, next⟩ := statement_upholds held called
    have kept : HandlersGrounded _ s.handlers :=
      fun other member => (grounded other member).mono upholds
    exact ⟨upholds, PushState.setPhase_all kept next _⟩
  | panics found called failed => exact ⟨.refl _, PushState.setPhase_all grounded ended _⟩
  | notified found reached =>
    refine ⟨.refl _, PushState.setPhase_all grounded ?_ _⟩
    split <;> exact grounded_free rfl rfl rfl

end BuildOTron.WebServer
