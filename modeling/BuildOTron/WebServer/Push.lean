import BuildOTron.Core.DbCtx
import BuildOTron.Lib.Json
import BuildOTron.Lib.Machine

/-! `process_push_event`, one database statement at a time, and any number of them
at once on one connection. A statement that panics does so with the lock held and
poisons it for everyone. -/
namespace BuildOTron.WebServer
open Transition

/-- `GithubEvent::Push`. -/
structure PushEvent where
  tip : String
  repoName : String
  headCommit : List (String × Json)
  pusher : List (String × Json)
  refName : String

inductive PushPhase where
  | remoteLookup
  | commitLookup (remoteId repoId : Nat)
  | runPreference (remoteId repoId : Nat)
  | newCommit (remoteId repoId : Nat) (runPref : Option String) (email : String)
  | newJob (remoteId repoId : Nat) (runPref : Option String) (email : String) (commitId : Nat)
  | newRun (repoId jobId commitId : Nat)
  | remotesByRepo (repoId jobId commitId : Nat)
  | notifying (jobId commitId : Nat)
  | commitName (commitId : Nat)
  | notFound
  | handled (commitId : Nat)
  | panicked
  deriving DecidableEq, Repr

structure Handler where
  event : PushEvent
  phase : PushPhase

structure PushState where
  db : Db
  poisoned : Bool
  handlers : List Handler

inductive PushLabel where
  /-- the next statement of a handler -/
  | call (i now : Nat)
  /-- its loop over the notifiers, which either completes or panics -/
  | notify (i : Nat) (completed : Bool)

def remoteUrl (repo : String) : String := "https://www.github.com/" ++ repo ++ ".git"

def remoteByGitUrl (db : Db) (url : String) : Option (Nat × Nat) :=
  (db.remotes.select fun row => row.remoteGitUrl = url).head?.map fun row => (row.1, row.2.repoId)

/-- `COMMIT_TO_ID`. -/
def commitToId (db : Db) (sha : String) : Option Nat :=
  (db.commits.select fun known => known = sha).head?.map Prod.fst

def pusherEmail (event : PushEvent) : Option String :=
  (Json.field? event.pusher "email").bind Json.asStr

def headsPrefix : List Char := "refs/heads/".toList

def shortRefName (refName : String) : String :=
  if headsPrefix.isPrefixOf refName.toList then String.ofList (refName.toList.drop headsPrefix.length)
  else refName

/-- One statement under the lock, and the handler's code up to the next one. -/
def statement (event : PushEvent) (db : Db) (now : Nat) :
    PushPhase → Option (Outcome String (Db × PushPhase))
  | .remoteLookup =>
    some (.ok (db, match remoteByGitUrl db (remoteUrl event.repoName) with
      | some (remoteId, repoId) => .commitLookup remoteId repoId
      | none => .notFound))
  | .commitLookup remoteId repoId =>
    some (.ok (db, match commitToId db event.tip with
      | some id => .commitName id
      | none => .runPreference remoteId repoId))
  | .runPreference remoteId repoId =>
    some (match db.repos.get? repoId with
      | none => .panic
      | some repo => .ok (db, match pusherEmail event with
        | some email => .newCommit remoteId repoId repo.defaultRunPreference email
        | none => .panicked))
  | .newCommit remoteId repoId runPref email =>
    some (do
      let (db, commitId) ← db.newCommit event.tip
      return (db, .newJob remoteId repoId runPref email commitId))
  | .newJob remoteId repoId runPref email commitId =>
    let (db, jobId) := db.insertJob remoteId commitId (some email) runPref now
    some (.ok (db, .newRun repoId jobId commitId))
  | .newRun repoId jobId commitId =>
    let (db, _) := db.newRun jobId none now
    some (.ok (db, .remotesByRepo repoId jobId commitId))
  | .remotesByRepo _ jobId commitId => some (.ok (db, .notifying jobId commitId))
  | .commitName commitId =>
    some (.ok (db.updateCommitName commitId (shortRefName event.refName), .handled commitId))
  | _ => none

namespace PushState

def start (db : Db) (events : List PushEvent) : PushState :=
  ⟨db, false, events.map fun event => ⟨event, .remoteLookup⟩⟩

def setPhase (s : PushState) (i : Nat) (handler : Handler) (phase : PushPhase) : PushState :=
  { s with handlers := s.handlers.set i { handler with phase := phase } }

/-- What holds of every handler still does when one of them has gone on. -/
theorem setPhase_all {P : Handler → Prop} {s : PushState} (all : ∀ other ∈ s.handlers, P other)
    {handler : Handler} (next : P { handler with phase := phase }) (i : Nat) :
    ∀ other ∈ (s.setPhase i handler phase).handlers, P other := by
  intro other member
  rcases List.mem_or_eq_of_mem_set member with old | rfl
  · exact all other old
  · exact next

end PushState

def pushMachine : Machine PushState PushLabel where
  step s
    | .call i now => do
      let handler ← s.handlers[i]?
      let outcome ← statement handler.event s.db now handler.phase
      if s.poisoned then return s.setPhase i handler .panicked
      match outcome with
      | .ok (db, next) => return { s.setPhase i handler next with db := db }
      | _ => return { s.setPhase i handler .panicked with poisoned := true }
    | .notify i completed => do
      let handler ← s.handlers[i]?
      match handler.phase with
      | .notifying _ commitId =>
        return s.setPhase i handler (if completed then .commitName commitId else .panicked)
      | _ => none

/-- Every way a step of the server goes. Who comes to a poisoned lock panics as well. -/
inductive PushMoves (s : PushState) : PushLabel → PushState → Prop where
  | answers (found : s.handlers[i]? = some handler) (healthy : s.poisoned = false)
      (called : statement handler.event s.db now handler.phase = some (.ok (db, next))) :
      PushMoves s (.call i now) { s.setPhase i handler next with db := db }
  | panics (found : s.handlers[i]? = some handler)
      (called : statement handler.event s.db now handler.phase = some outcome)
      (failed : s.poisoned = true ∨ ∀ written, outcome ≠ .ok written) :
      PushMoves s (.call i now) { s.setPhase i handler .panicked with poisoned := true }
  | notified (found : s.handlers[i]? = some handler) (reached : handler.phase = .notifying jobId commitId) :
      PushMoves s (.notify i completed)
        (s.setPhase i handler (if completed then .commitName commitId else .panicked))

theorem push_moves (stepped : pushMachine.step s l = some t) : PushMoves s l t := by
  cases l with
  | call i now =>
    simp only [pushMachine, Option.bind_eq_bind, Option.bind_eq_some_iff] at stepped
    obtain ⟨handler, found, outcome, called, stepped⟩ := stepped
    cases poisoned : s.poisoned with
    | true =>
      rw [poisoned, if_pos rfl] at stepped
      cases stepped
      have same : s.setPhase i handler .panicked =
          { s.setPhase i handler .panicked with poisoned := true } := by
        rw [← poisoned]
        rfl
      rw [same]
      exact .panics found called (.inl poisoned)
    | false =>
      rw [poisoned, if_neg Bool.false_ne_true] at stepped
      cases outcome with
      | ok written =>
        cases stepped
        exact .answers found poisoned called
      | err | panic =>
        cases stepped
        exact .panics found called (.inr (by simp))
  | notify i completed =>
    simp only [pushMachine, Option.bind_eq_bind, Option.bind_eq_some_iff] at stepped
    obtain ⟨⟨event, phase⟩, found, stepped⟩ := stepped
    cases phase with
    | notifying jobId commitId =>
      cases stepped
      exact .notified found rfl
    | _ => contradiction

/-- The sha of a handler that has found it missing and not inserted it yet. -/
def Handler.window? (handler : Handler) : Option String :=
  match handler.phase with
  | .runPreference _ _ | .newCommit _ _ _ _ => some handler.event.tip
  | _ => none

/-- The commit a handler works for, once it has one. -/
def Handler.commit? (handler : Handler) : Option Nat :=
  match handler.phase with
  | .newJob _ _ _ _ commitId | .newRun _ _ commitId | .remotesByRepo _ _ commitId
  | .notifying _ commitId | .commitName commitId | .handled commitId => some commitId
  | _ => none

def Handler.awaitingJob? (handler : Handler) : Option Nat :=
  match handler.phase with
  | .newJob _ _ _ _ commitId => some commitId
  | _ => none

def Handler.awaitingRun? (handler : Handler) : Option Nat :=
  match handler.phase with
  | .newRun _ jobId _ => some jobId
  | _ => none

def Handler.named? (handler : Handler) : Option CommitNameRow :=
  match handler.phase with
  | .handled commitId => some ⟨commitId, shortRefName handler.event.refName, .fresh⟩
  | _ => none

/-- A push to a remote of a known repository, with a pusher's email. -/
structure Registered (db : Db) (event : PushEvent) : Prop where
  remote : ∃ remoteId repoId, remoteByGitUrl db (remoteUrl event.repoName) = some (remoteId, repoId) ∧
    (db.repos.get? repoId).isSome
  email : (pusherEmail event).isSome

end BuildOTron.WebServer
