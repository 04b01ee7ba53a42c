import BuildOTron.Core.Hosts
import BuildOTron.Lib.Hex
import BuildOTron.Lib.JsonScan
import BuildOTron.Native.Notifier
import BuildOTron.WebServer.PushRecords

/-! `handle_repo_event`: what anyone may send to it, the check of the signature, and the
push event that is handled when the check goes well. -/
namespace BuildOTron.WebServer
open Hosts (Connection)
open Transition
open Native (World RemoteNotifier JobStatus Answers loadNotifiers known Loads Accepts Serves)

structure GithubPsk where
  key : String
  ghUser : String

inductive GithubHookError where
  | bodyNotObject
  | missingElement (path : String)
  | badType (path expected : String)
  deriving DecidableEq, Repr

/-- A member that has to be there, and to be what `as_str` or `as_object` looks for. -/
def element (fields : List (String × Json)) (key path expected : String) (asType : Json → Option α) :
    Except GithubHookError α :=
  match Json.field? fields key with
  | none => .error (.missingElement path)
  | some value =>
    match asType value with
    | none => .error (.badType path expected)
    | some element => .ok element

def parsePushEvent (body : Json) : Except GithubHookError PushEvent :=
  match body.asObj with
  | none => .error .bodyNotObject
  | some body => do
    let tip ← element body "after" "after" "str" Json.asStr
    let repository ← element body "repository" "repository" "obj" Json.asObj
    let repoName ← element repository "full_name" "repository/full_name" "str" Json.asStr
    let headCommit ← element body "head_commit" "head_commit" "obj" Json.asObj
    let pusher ← element body "pusher" "pusher" "obj" Json.asObj
    let refName ← element body "ref" "ref" "str" Json.asStr
    return ⟨tip, repoName, headCommit, pusher, refName⟩

/-- `HeaderValue::to_str`, which takes visible ASCII and the tab. -/
def toStr (value : List UInt8) : Option (List Char) :=
  if value.all fun b => (32 ≤ b && b < 127) || b == 9 then
    some (value.map fun b => Char.ofNat b.toNat)
  else none

structure Request where
  /-- in the order in which they came -/
  headers : List (String × List UInt8)
  body : List UInt8

/-- `HeaderMap::get`: the first value of a name. -/
def Request.header (request : Request) (name : String) : Option (List UInt8) :=
  request.headers.lookup name

structure Reply where
  status : Nat
  body : String
  deriving DecidableEq, Repr

def badRequest : Reply := ⟨400, ""⟩

/-- A statement under the lock. Who comes to a poisoned lock panics, and a panic in the
statement poisons it. -/
def locked (statement : Db → Outcome String (Db × α)) : Effect Connection String α := fun s =>
  if s.poisoned then (.panic, s)
  else match statement s.db with
    | .ok (db, value) => (.ok value, { s with db := db })
    | _ => (.panic, { s with poisoned := true })

/-- What each notifier is told; an `Err` is a panic here. -/
def tellPending (sha : String) :
    List RemoteNotifier → (Nat → Answers) → Outcome String (List (String × JobStatus))
  | [], _ => .ok []
  | notifier :: rest, answers => do
    (notifier.tellJobStatus (answers 0)).expect
    let told ← tellPending sha rest fun k => answers (k + 1)
    return (notifier.remotePath, notifier.pendingStatus sha) :: told

/-- The server, and what it meets outside: the decoder of bodies, HMAC-SHA256 of a key and
a message, its clock, and the notifiers' configuration and answers. -/
structure Webhook where
  fromSlice : List UInt8 → Option Json
  hmac : List UInt8 → List UInt8 → List UInt8
  psks : List GithubPsk
  world : World
  jobTime : Nat
  runTime : Nat

namespace Webhook

/-- The commit that is new, with its job and its run. -/
def recordPush (hook : Webhook) (event : PushEvent) (remoteId repoId : Nat) :
    Effect Connection String Nat := do
  let repo ← locked fun db => do
    let repo ← Outcome.expectSome (db.repos.get? repoId)
    return (db, repo)
  let email ← Effect.lift (Outcome.expectSome (pusherEmail event))
  let commitId ← locked fun db => db.newCommit event.tip
  let jobId ← locked fun db =>
    .ok (db.insertJob remoteId commitId (some email) repo.defaultRunPreference hook.jobTime)
  let _ ← locked fun db => .ok (db.newRun jobId none hook.runTime)
  let remotes ← locked fun db => .ok (db, db.remotesByRepo repoId)
  let notifiers ← Effect.lift (loadNotifiers hook.world remotes)
  let _ ← Effect.lift (tellPending event.tip notifiers hook.world.answers)
  return commitId

def processPushEvent (hook : Webhook) (event : PushEvent) : Effect Connection String Nat := do
  let remote ← locked fun db => .ok (db, remoteByGitUrl db (remoteUrl event.repoName))
  match remote with
  | none => return 404
  | some (remoteId, repoId) =>
    let present ← locked fun db => .ok (db, commitToId db event.tip)
    let commitId ← match present with
      | some commitId => pure commitId
      | none => hook.recordPush event remoteId repoId
    locked fun db => .ok (db.updateCommitName commitId (shortRefName event.refName), ())
    return 200

/-- The status that a push is answered with goes unused. -/
def handleGithubEvent (hook : Webhook) (kind : List Char) (body : Json) :
    Effect Connection String Reply :=
  if kind = "push".toList then do
    let event ← Effect.lift (Outcome.unwrap (parsePushEvent body))
    let _ ← hook.processPushEvent event
    return ⟨200, "ok"⟩
  else if kind = "status".toList then pure ⟨200, "ok"⟩
  else pure ⟨200, ""⟩

/-- `&sent_hmac[7..]`, in ASCII. -/
def skipScheme (sentHmac : List Char) : Outcome String (List Char) :=
  if 7 ≤ sentHmac.length then .ok (sentHmac.drop 7) else .panic

/-- The signature is decoded again for each key. -/
def hmacOk (hook : Webhook) (sentHmac : List Char) (body : List UInt8) :
    List GithubPsk → Outcome String Bool
  | [] => .ok false
  | psk :: psks => do
    let result := hook.hmac (Json.utf8 psk.key) body
    let text ← skipScheme sentHmac
    let decoded ← Outcome.expectSome (Hex.decode text)
    if decoded = result then return true else hook.hmacOk sentHmac body psks

def handleRepoEvent (hook : Webhook) (request : Request) : Effect Connection String Reply :=
  match hook.fromSlice request.body with
  | none => pure badRequest
  | some payload =>
    match request.header "x-hub-signature-256" with
    | none => pure badRequest
    | some value => do
      let sentHmac ← Effect.lift (Outcome.expectSome (toStr value))
      let hmacOk ← Effect.lift (hook.hmacOk sentHmac request.body hook.psks)
      if hmacOk then
        match request.header "x-github-event" with
        | none => pure badRequest
        | some value => do
          let kind ← Effect.lift (Outcome.expectSome (toStr value))
          hook.handleGithubEvent kind payload
      else pure badRequest

end Webhook

/-- The signature is that of the body under one of the keys. -/
def Signed (hook : Webhook) (request : Request) (sentHmac : List Char) : Prop :=
  7 ≤ sentHmac.length ∧
    ∃ psk ∈ hook.psks, Hex.Encodes (sentHmac.drop 7) (hook.hmac (Json.utf8 psk.key) request.body)

/-- A signed push that `parse_push_event` accepts. -/
structure Authorized (hook : Webhook) (request : Request) : Prop where
  signature : ∃ value sentHmac, request.header "x-hub-signature-256" = some value ∧
    toStr value = some sentHmac ∧ Signed hook request sentHmac
  kind : ∃ value, request.header "x-github-event" = some value ∧ toStr value = some "push".toList
  body : ∃ payload event, hook.fromSlice request.body = some payload ∧
    parsePushEvent payload = .ok event

structure HandledSafely (hook : Webhook) (request : Request) (s : Connection) : Prop where
  replies : ∃ reply, (hook.handleRepoEvent request s).1 = .ok reply
  authorized : (hook.handleRepoEvent request s).2.db ≠ s.db → Authorized hook request


/-! ### The push -/

section Push
variable {hook : Webhook} {event : PushEvent} {s : Connection}

/-- The configurations of all notifiers load, and each accepts what it is told. -/
structure NotifiersAccept (world : World) (remotes : List Remote) : Prop where
  loads : ∀ remote ∈ known remotes, Loads world remote
  accepts : ∀ (k : Nat) (remote : Remote), (known remotes)[k]? = some remote →
    Accepts remote.remoteApi (world.answers k)

/-- What recording a new commit asks of the database and of the notifiers. -/
structure Recordable (hook : Webhook) (event : PushEvent) (db : Db) (repoId : Nat) : Prop where
  repo : ∃ repo, db.repos.get? repoId = some repo
  email : ∃ email, pusherEmail event = some email
  notifiers : NotifiersAccept hook.world (db.remotesByRepo repoId)

structure PushFits (hook : Webhook) (event : PushEvent) (s : Connection) : Prop where
  healthy : s.poisoned = false
  fresh : ∀ remoteId repoId, remoteByGitUrl s.db (remoteUrl event.repoName) = some (remoteId, repoId) →
    commitToId s.db event.tip = none → Recordable hook event s.db repoId

theorem locked_bind {statement : Db → Outcome String (Db × α)} {next : α → Effect Connection String β}
    (done : statement db = .ok (db', value)) :
    (locked statement >>= next) ⟨db, false⟩ = next value ⟨db', false⟩ :=
  Effect.bind_of_eq (by simp only [locked, done]; rfl)

theorem locked_ok (f : Db → Db × α) (next : α → Effect Connection String β) (db : Db) :
    ((locked fun db => .ok (f db)) >>= next) ⟨db, false⟩ = next (f db).2 ⟨(f db).1, false⟩ :=
  locked_bind rfl

theorem locked_panics {statement : Db → Outcome String (Db × α)} {next : α → Effect Connection String β}
    (failed : ∀ written, statement db ≠ .ok written) :
    (locked statement >>= next) ⟨db, false⟩ = (.panic, ⟨db, true⟩) := by
  have ended : locked statement ⟨db, false⟩ = (.panic, ⟨db, true⟩) := by
    cases done : statement db with
    | ok written => exact absurd done (failed written)
    | err | panic => simp [locked, done]
  rw [Effect.bind_of_panic (congrArg Prod.fst ended), ended]

theorem locked_poisoned (statement : Db → Outcome String (Db × α)) (next : α → Effect Connection String β)
    (db : Db) : (locked statement >>= next) ⟨db, true⟩ = (.panic, ⟨db, true⟩) := rfl

theorem tellPending_ok_iff (sha : String) (notifiers : List RemoteNotifier) (answers : Nat → Answers) :
    (∃ told, tellPending sha notifiers answers = .ok told) ↔
      ∀ (k : Nat) (n : RemoteNotifier), notifiers[k]? = some n → n.tellJobStatus (answers k) = .ok () := by
  induction notifiers generalizing answers with
  | nil => exact iff_of_true ⟨[], rfl⟩ (by simp)
  | cons notifier rest ih =>
    simp only [tellPending, Outcome.exists_bind_eq_ok, Outcome.expect_eq_ok]
    constructor
    · rintro ⟨_, first, told, later, _⟩ k n found
      cases k with
      | zero =>
        cases Option.some.inj found
        exact first
      | succ k => exact (ih _).mp ⟨told, later⟩ k n found
    · intro accept
      obtain ⟨told, later⟩ := (ih _).mpr fun k n found => accept (k + 1) n found
      exact ⟨(), accept 0 notifier rfl, told, later, _, rfl⟩

theorem tellPending_ne_err (sha : String) (notifiers : List RemoteNotifier) (answers : Nat → Answers)
    (error : String) : tellPending sha notifiers answers ≠ .err error := by
  induction notifiers generalizing answers with
  | nil => simp [tellPending]
  | cons notifier rest ih =>
    cases told : notifier.tellJobStatus (answers 0) with
    | ok => simpa [tellPending, told, Outcome.expect, Outcome.bind_eq_err] using ih _
    | err | panic => simp [tellPending, told, Outcome.expect]

/-- The notifiers are loaded and told, every one, or this panics. -/
theorem notify_cases (hook : Webhook) (sha : String) (remotes : List Remote) :
    (NotifiersAccept hook.world remotes ∧ ∃ notifiers told,
        loadNotifiers hook.world remotes = .ok notifiers ∧
        tellPending sha notifiers hook.world.answers = .ok told) ∨
      ¬ NotifiersAccept hook.world remotes ∧ (loadNotifiers hook.world remotes = .panic ∨
        ∃ notifiers, loadNotifiers hook.world remotes = .ok notifiers ∧
          tellPending sha notifiers hook.world.answers = .panic) := by
  obtain ⟨notifiers, loaded, serves, loads⟩ | ⟨panics, missing⟩ :=
    Native.loadNotifiers_cases hook.world remotes
  · have same : NotifiersAccept hook.world remotes ↔
        ∃ told, tellPending sha notifiers hook.world.answers = .ok told := by
      rw [tellPending_ok_iff]
      constructor
      · intro accept k notifier at_k
        obtain ⟨remote, found, mine⟩ := (Native.forall₂_getElem? serves).2 notifier at_k
        exact (mine.accepts _).mpr (accept.accepts k remote found)
      · refine fun told => ⟨loads, fun k remote at_k => ?_⟩
        obtain ⟨notifier, found, mine⟩ := (Native.forall₂_getElem? serves).1 remote at_k
        exact (mine.accepts _).mp (told k notifier found)
    cases tells : tellPending sha notifiers hook.world.answers with
    | ok told => exact .inl ⟨same.mpr ⟨told, tells⟩, notifiers, told, loaded, tells⟩
    | err error => exact absurd tells (tellPending_ne_err sha notifiers _ error)
    | panic => exact .inr ⟨by simp [same, tells], .inr ⟨notifiers, loaded, tells⟩⟩
  · exact .inr ⟨fun accept => missing accept.loads, .inl panics⟩

/-- The tables after a new commit, with its job and its run. -/
def recorded (hook : Webhook) (event : PushEvent) (db : Db) (remoteId : Nat) (email : String)
    (runPref : Option String) : Db :=
  { db with
    commits := db.commits.insert event.tip
    jobs := db.jobs.insert ⟨some email, hook.jobTime, remoteId, db.commits.seq + 1, runPref⟩
    runs := db.runs.insert (Db.pendingRow (db.jobs.seq + 1) none hook.runTime) }

theorem repo_read {db : Db} (found : db.repos.get? repoId = some repo) :
    (do
      let repo ← Outcome.expectSome (db.repos.get? repoId)
      return (db, repo) : Outcome String (Db × RepoRow)) = .ok (db, repo) := by
  rw [found]
  rfl

/-- The statements of a new push, up to where the notifiers are told. -/
theorem recordPush_eq {db : Db} (fresh : event.tip ∉ shas db)
    (found : db.repos.get? repoId = some repo) (sent : pusherEmail event = some email) :
    hook.recordPush event remoteId repoId ⟨db, false⟩ =
      (do
        let notifiers ← Effect.lift (loadNotifiers hook.world (db.remotesByRepo repoId))
        let _ ← Effect.lift (tellPending event.tip notifiers hook.world.answers)
        return db.commits.seq + 1 : Effect Connection String Nat)
      ⟨recorded hook event db remoteId email repo.defaultRunPreference, false⟩ := by
  rw [Webhook.recordPush, locked_bind (repo_read found), sent, Outcome.expectSome_some, Effect.lift_ok_bind,
    locked_bind (newCommit_eq fresh), locked_ok, locked_ok, locked_ok]
  rfl

/-- Every way the recording of a new push ends. -/
inductive RecordEnds (hook : Webhook) (event : PushEvent) (db : Db) (remoteId repoId : Nat) :
    Outcome String Nat × Connection → Prop where
  | repoMissing (missing : db.repos.get? repoId = none) :
    RecordEnds hook event db remoteId repoId (.panic, ⟨db, true⟩)
  | emailMissing (found : db.repos.get? repoId = some repo) (missing : pusherEmail event = none) :
    RecordEnds hook event db remoteId repoId (.panic, ⟨db, false⟩)
  | refused (found : db.repos.get? repoId = some repo) (sent : pusherEmail event = some email)
    (refuses : ¬ NotifiersAccept hook.world (db.remotesByRepo repoId)) :
    RecordEnds hook event db remoteId repoId
      (.panic, ⟨recorded hook event db remoteId email repo.defaultRunPreference, false⟩)
  | recorded (found : db.repos.get? repoId = some repo) (sent : pusherEmail event = some email)
    (accept : NotifiersAccept hook.world (db.remotesByRepo repoId)) :
    RecordEnds hook event db remoteId repoId
      (.ok (db.commits.seq + 1), ⟨recorded hook event db remoteId email repo.defaultRunPreference, false⟩)

theorem recordPush_ends {db : Db} (fresh : event.tip ∉ shas db) (remoteId repoId : Nat) :
    RecordEnds hook event db remoteId repoId (hook.recordPush event remoteId repoId ⟨db, false⟩) := by
  cases found : db.repos.get? repoId with
  | none =>
    rw [Webhook.recordPush, locked_panics (by simp [found])]
    exact .repoMissing found
  | some repo =>
    cases sent : pusherEmail event with
    | none =>
      rw [Webhook.recordPush, locked_bind (repo_read found), sent, Outcome.expectSome_none,
        Effect.lift_panic_bind]
      exact .emailMissing found sent
    | some email =>
      rw [recordPush_eq fresh found sent]
      obtain ⟨accept, notifiers, told, loaded, tells⟩ | ⟨refuses, panics⟩ :=
        notify_cases hook event.tip (db.remotesByRepo repoId)
      · rw [loaded, Effect.lift_ok_bind, tells, Effect.lift_ok_bind]
        exact .recorded found sent accept
      · obtain panics | ⟨notifiers, loaded, panics⟩ := panics
        · rw [panics, Effect.lift_panic_bind]
          exact .refused found sent refuses
        · rw [loaded, Effect.lift_ok_bind, panics, Effect.lift_panic_bind]
          exact .refused found sent refuses

theorem RecordEnds.ok_iff {db : Db} (ends : RecordEnds hook event db remoteId repoId after) :
    (∃ commitId, after.1 = .ok commitId) ↔ Recordable hook event db repoId := by
  cases ends with
  | repoMissing missing =>
    refine iff_of_false (by simp) fun recordable => ?_
    obtain ⟨repo, found⟩ := recordable.repo
    rw [missing] at found
    contradiction
  | emailMissing found missing =>
    refine iff_of_false (by simp) fun recordable => ?_
    obtain ⟨email, sent⟩ := recordable.email
    rw [missing] at sent
    contradiction
  | refused found sent refuses =>
    exact iff_of_false (by simp) fun recordable => refuses recordable.notifiers
  | recorded found sent accept => exact iff_of_true ⟨_, rfl⟩ ⟨⟨_, found⟩, ⟨_, sent⟩, accept⟩

/-- Every way a push event ends. -/
inductive PushEnds (hook : Webhook) (event : PushEvent) :
    Connection → Outcome String Nat × Connection → Prop where
  | poisoned : PushEnds hook event ⟨db, true⟩ (.panic, ⟨db, true⟩)
  | unregistered (unknown : remoteByGitUrl db (remoteUrl event.repoName) = none) :
    PushEnds hook event ⟨db, false⟩ (.ok 404, ⟨db, false⟩)
  | present (known : remoteByGitUrl db (remoteUrl event.repoName) = some (remoteId, repoId))
    (present : commitToId db event.tip = some commitId) :
    PushEnds hook event ⟨db, false⟩
      (.ok 200, ⟨db.updateCommitName commitId (shortRefName event.refName), false⟩)
  | panics (known : remoteByGitUrl db (remoteUrl event.repoName) = some (remoteId, repoId))
    (fresh : commitToId db event.tip = none) (ends : RecordEnds hook event db remoteId repoId (.panic, t)) :
    PushEnds hook event ⟨db, false⟩ (.panic, t)
  | recorded (known : remoteByGitUrl db (remoteUrl event.repoName) = some (remoteId, repoId))
    (fresh : commitToId db event.tip = none)
    (ends : RecordEnds hook event db remoteId repoId (.ok commitId, ⟨db', false⟩)) :
    PushEnds hook event ⟨db, false⟩
      (.ok 200, ⟨db'.updateCommitName commitId (shortRefName event.refName), false⟩)

theorem processPushEvent_ends (hook : Webhook) (event : PushEvent) (s : Connection) :
    PushEnds hook event s (hook.processPushEvent event s) := by
  obtain ⟨db, poisoned⟩ := s
  cases poisoned with
  | true =>
    rw [Webhook.processPushEvent, locked_poisoned]
    exact .poisoned
  | false =>
    rw [Webhook.processPushEvent, locked_ok]
    cases known : remoteByGitUrl db (remoteUrl event.repoName) with
    | none => exact .unregistered known
    | some remote =>
      obtain ⟨remoteId, repoId⟩ := remote
      simp only [locked_ok]
      cases present : commitToId db event.tip with
      | some commitId => exact .present known present
      | none =>
        have ends := @recordPush_ends hook event db (commitToId_eq_none.mp present) remoteId repoId
        generalize ended : hook.recordPush event remoteId repoId ⟨db, false⟩ = after at ends
        obtain ⟨outcome, t⟩ := after
        cases outcome with
        | ok commitId =>
          have healthy : t.poisoned = false := by
            cases ends
            rfl
          obtain ⟨db', poisoned⟩ := t
          cases healthy
          change PushEnds hook event _ ((hook.recordPush event remoteId repoId >>= _) _)
          rw [Effect.bind_of_eq ended, locked_ok]
          exact .recorded known present ends
        | err => cases ends
        | panic =>
          change PushEnds hook event _ ((hook.recordPush event remoteId repoId >>= _) _)
          rw [Effect.bind_of_panic (congrArg Prod.fst ended), ended]
          exact .panics known present ends

/-- A push is answered exactly when it needs nothing that is missing. -/
theorem PushEnds.ok_iff (ends : PushEnds hook event s after) :
    (∃ status, after.1 = .ok status) ↔ PushFits hook event s := by
  cases ends with
  | poisoned => exact iff_of_false (by simp) fun fits => Bool.noConfusion fits.healthy
  | unregistered unknown => exact iff_of_true ⟨_, rfl⟩ ⟨rfl, by simp [unknown]⟩
  | present known present => exact iff_of_true ⟨_, rfl⟩ ⟨rfl, by simp [present]⟩
  | panics known fresh ends =>
    refine iff_of_false (by simp) fun fits => ?_
    obtain ⟨commitId, ended⟩ := ends.ok_iff.mpr (fits.fresh _ _ known fresh)
    contradiction
  | recorded known fresh ends =>
    refine iff_of_true ⟨_, rfl⟩ ⟨rfl, fun remoteId repoId found _ => ?_⟩
    cases known.symm.trans found
    exact ends.ok_iff.mp ⟨_, rfl⟩

/-- How a handler that is through has ended. -/
def PushPhase.outcome? : PushPhase → Option (Outcome String Nat)
  | .notFound => some (.ok 404)
  | .handled _ => some (.ok 200)
  | .panicked => some .panic
  | _ => none

/-- The statements of a new push, up to the notifiers. -/
def Webhook.statements (hook : Webhook) : List PushLabel :=
  [.call 0 0, .call 0 0, .call 0 0, .call 0 0, .call 0 hook.jobTime, .call 0 hook.runTime, .call 0 0]

theorem run_call (called : statement event db now phase = some (.ok (db', next))) (ls : List PushLabel) :
    pushMachine.run ⟨db, false, [⟨event, phase⟩]⟩ (.call 0 now :: ls) =
      pushMachine.run ⟨db', false, [⟨event, next⟩]⟩ ls := by
  have stepped : pushMachine.step ⟨db, false, [⟨event, phase⟩]⟩ (.call 0 now) =
      some ⟨db', false, [⟨event, next⟩]⟩ := by
    simp only [pushMachine, List.getElem?_cons_zero, Option.bind_eq_bind, Option.bind_some, called]
    rfl
  rw [Machine.run, stepped, Option.bind_some]

/-- The two lookups, when the remote is registered and the commit is new. -/
theorem lookups_run {db : Db}
    (known : remoteByGitUrl db (remoteUrl event.repoName) = some (remoteId, repoId))
    (fresh : commitToId db event.tip = none) (ls : List PushLabel) :
    pushMachine.run ⟨db, false, [⟨event, .remoteLookup⟩]⟩ (.call 0 0 :: .call 0 0 :: ls) =
      pushMachine.run ⟨db, false, [⟨event, .runPreference remoteId repoId⟩]⟩ ls := by
  rw [run_call (by simp only [statement, known]; rfl), run_call (by simp only [statement, fresh]; rfl)]

theorem statements_run {db : Db}
    (known : remoteByGitUrl db (remoteUrl event.repoName) = some (remoteId, repoId))
    (fresh : commitToId db event.tip = none) (found : db.repos.get? repoId = some repo)
    (sent : pusherEmail event = some email) :
    pushMachine.run ⟨db, false, [⟨event, .remoteLookup⟩]⟩ hook.statements =
      some ⟨recorded hook event db remoteId email repo.defaultRunPreference, false,
        [⟨event, .notifying (db.jobs.seq + 1) (db.commits.seq + 1)⟩]⟩ := by
  have inserts := newCommit_eq (commitToId_eq_none.mp fresh)
  rw [Webhook.statements, lookups_run known fresh,
    run_call (by simp only [statement, found, sent]; rfl),
    run_call (by simp only [statement, inserts]; rfl), run_call rfl, run_call rfl, run_call rfl]
  rfl

/-- A push ends as its handler does when no other handler runs. -/
theorem PushEnds.lone (ends : PushEnds hook event s after) : ∃ labels phase,
    pushMachine.run ⟨s.db, s.poisoned, [⟨event, .remoteLookup⟩]⟩ labels =
      some ⟨after.2.db, after.2.poisoned, [⟨event, phase⟩]⟩ ∧ phase.outcome? = some after.1 := by
  cases ends with
  | poisoned => exact ⟨[.call 0 0], .panicked, rfl, rfl⟩
  | unregistered unknown =>
    refine ⟨[.call 0 0], .notFound, ?_, rfl⟩
    rw [run_call (by simp only [statement, unknown]; rfl)]
    rfl
  | @present db remoteId repoId commitId known present =>
    refine ⟨[.call 0 0, .call 0 0, .call 0 0], .handled commitId, ?_, rfl⟩
    rw [run_call (by simp only [statement, known]; rfl),
      run_call (by simp only [statement, present]; rfl), run_call rfl]
    rfl
  | panics known fresh ends =>
    cases ends with
    | repoMissing missing =>
      refine ⟨[.call 0 0, .call 0 0, .call 0 0], .panicked, ?_, rfl⟩
      rw [lookups_run known fresh]
      simp [Machine.run, pushMachine, statement, PushState.setPhase, missing]
    | emailMissing found missing =>
      refine ⟨[.call 0 0, .call 0 0, .call 0 0], .panicked, ?_, rfl⟩
      rw [lookups_run known fresh, run_call (by simp only [statement, found, missing]; rfl)]
      rfl
    | refused found sent refuses =>
      refine ⟨hook.statements ++ [.notify 0 false], .panicked, ?_, rfl⟩
      rw [Machine.run_append, statements_run known fresh found sent]
      rfl
  | @recorded db remoteId repoId commitId db' known fresh ends =>
    cases ends with
    | recorded found sent accept =>
      refine ⟨hook.statements ++ [.notify 0 true, .call 0 0], .handled (db.commits.seq + 1), ?_, rfl⟩
      rw [Machine.run_append, statements_run known fresh found sent]
      rfl

/-- The handler of a push by itself computes what the statements do one by one. -/
theorem processPushEvent_lone (hook : Webhook) (event : PushEvent) (s : Connection) :
    ∃ labels phase, pushMachine.run ⟨s.db, s.poisoned, [⟨event, .remoteLookup⟩]⟩ labels =
      some ⟨(hook.processPushEvent event s).2.db, (hook.processPushEvent event s).2.poisoned,
        [⟨event, phase⟩]⟩ ∧ phase.outcome? = some (hook.processPushEvent event s).1 :=
  (processPushEvent_ends hook event s).lone

end Push

/-! ### The request -/

section Request
variable {hook : Webhook} {request : Request} {s : Connection}

/-- The signature can be cut and decoded. -/
def SignatureReads (sentHmac : List Char) : Prop :=
  7 ≤ sentHmac.length ∧ ∃ bytes, Hex.Encodes (sentHmac.drop 7) bytes

/-- The event kind can be read, and a push is one that can be handled. -/
def KindAnswerable (hook : Webhook) (request : Request) (s : Connection) (payload : Json) : Prop :=
  ∀ value, request.header "x-github-event" = some value → ∃ kind, toStr value = some kind ∧
    (kind = "push".toList → ∃ event, parsePushEvent payload = .ok event ∧ PushFits hook event s)

/-- What a request asks of its sender and of the server, up to where it is refused. -/
def Answerable (hook : Webhook) (request : Request) (s : Connection) : Prop :=
  ∀ payload value, hook.fromSlice request.body = some payload →
    request.header "x-hub-signature-256" = some value → ∃ sentHmac, toStr value = some sentHmac ∧
      (hook.psks ≠ [] → SignatureReads sentHmac) ∧
      (Signed hook request sentHmac → KindAnswerable hook request s payload)

theorem hmacOk_reads (hook : Webhook) (body : List UInt8) (long : 7 ≤ sentHmac.length)
    (encodes : Hex.Encodes (sentHmac.drop 7) bytes) (psks : List GithubPsk) :
    hook.hmacOk sentHmac body psks =
      .ok (decide (∃ psk ∈ psks, bytes = hook.hmac (Json.utf8 psk.key) body)) := by
  induction psks with
  | nil => simp [Webhook.hmacOk]
  | cons psk psks ih =>
    rw [Webhook.hmacOk, Webhook.skipScheme, if_pos long, Outcome.ok_bind, Hex.decode_iff.mpr encodes,
      Outcome.expectSome_some, Outcome.ok_bind, ih]
    by_cases same : bytes = hook.hmac (Json.utf8 psk.key) body
    · simp [same]
    · simp [same]

theorem hmacOk_panics (hook : Webhook) (body : List UInt8) (unread : ¬ SignatureReads sentHmac)
    (keyed : psks ≠ []) : hook.hmacOk sentHmac body psks = .panic := by
  obtain ⟨psk, psks, rfl⟩ := List.exists_cons_of_ne_nil keyed
  rw [Webhook.hmacOk, Webhook.skipScheme]
  split
  · rename_i long
    have garbled : Hex.decode (sentHmac.drop 7) = none := by
      rw [Option.eq_none_iff_forall_ne_some]
      exact fun bytes decoded => unread ⟨long, bytes, Hex.decode_iff.mp decoded⟩
    rw [Outcome.ok_bind, garbled]
    rfl
  · rfl

/-- The check of the signature comes to its end when there is nothing to check or the
signature reads, and answers whether one of the keys has signed. -/
theorem hmacOk_cases (hook : Webhook) (request : Request) (sentHmac : List Char) :
    ((hook.psks ≠ [] → SignatureReads sentHmac) ∧ ∃ answer,
      hook.hmacOk sentHmac request.body hook.psks = .ok answer ∧
        (answer = true ↔ Signed hook request sentHmac)) ∨
    ¬ (hook.psks ≠ [] → SignatureReads sentHmac) ∧
      hook.hmacOk sentHmac request.body hook.psks = .panic := by
  by_cases reads : SignatureReads sentHmac
  · obtain ⟨long, bytes, encodes⟩ := reads
    refine .inl ⟨fun _ => ⟨long, bytes, encodes⟩, _, hmacOk_reads hook request.body long encodes _, ?_⟩
    rw [decide_eq_true_eq, Signed, and_iff_right long]
    constructor
    · rintro ⟨psk, listed, rfl⟩
      exact ⟨psk, listed, encodes⟩
    · rintro ⟨psk, listed, signs⟩
      have same := (Hex.decode_iff.mpr encodes).symm.trans (Hex.decode_iff.mpr signs)
      exact ⟨psk, listed, Option.some.inj same⟩
  · by_cases keyed : hook.psks = []
    · refine .inl ⟨fun filled => absurd keyed filled, false, by rw [keyed]; rfl, ?_⟩
      simp [Signed, keyed]
    · exact .inr ⟨fun all => reads (all keyed), hmacOk_panics hook request.body reads keyed⟩

theorem handleGithubEvent_ok_iff (hook : Webhook) (kind : List Char) (payload : Json) (s : Connection) :
    (∃ reply, (hook.handleGithubEvent kind payload s).1 = .ok reply) ↔
      (kind = "push".toList → ∃ event, parsePushEvent payload = .ok event ∧ PushFits hook event s) := by
  unfold Webhook.handleGithubEvent
  by_cases push : kind = "push".toList
  · rw [if_pos push, forall_prop_of_true push]
    cases parsed : parsePushEvent payload with
    | error e => exact iff_of_false (by simp [Effect.lift_panic_bind]) (by simp)
    | ok event =>
      simp only [Except.ok.injEq, exists_eq_left', ← (processPushEvent_ends hook event s).ok_iff]
      rw [Outcome.unwrap_ok, Effect.lift_ok_bind]
      simp only [Effect.bind_eq_ok]
      constructor
      · rintro ⟨_, status, ended, _⟩
        exact ⟨status, ended⟩
      · rintro ⟨status, ended⟩
        exact ⟨_, status, ended, rfl⟩
  · rw [if_neg push]
    refine iff_of_true ?_ fun same => absurd same push
    split
    · exact ⟨_, rfl⟩
    · exact ⟨_, rfl⟩

theorem answerable_iff (decoded : hook.fromSlice request.body = some payload)
    (signature : request.header "x-hub-signature-256" = some value) :
    Answerable hook request s ↔ ∃ sentHmac, toStr value = some sentHmac ∧
      (hook.psks ≠ [] → SignatureReads sentHmac) ∧
      (Signed hook request sentHmac → KindAnswerable hook request s payload) := by
  constructor
  · exact fun answerable => answerable payload value decoded signature
  · intro reads payload' value' decoded' signature'
    cases decoded.symm.trans decoded'
    cases signature.symm.trans signature'
    exact reads

theorem kindAnswerable_iff (kind : request.header "x-github-event" = some value) :
    KindAnswerable hook request s payload ↔ ∃ kind, toStr value = some kind ∧
      (kind = "push".toList → ∃ event, parsePushEvent payload = .ok event ∧ PushFits hook event s) := by
  constructor
  · exact fun answerable => answerable value kind
  · intro reads value' kind'
    cases kind.symm.trans kind'
    exact reads

/-- Nothing is written for an event that is not a push. -/
theorem handleGithubEvent_writes (changed : (hook.handleGithubEvent kind payload s).2 ≠ s) :
    kind = "push".toList ∧ ∃ event, parsePushEvent payload = .ok event := by
  unfold Webhook.handleGithubEvent at changed
  split at changed
  · rename_i push
    refine ⟨push, ?_⟩
    cases parsed : parsePushEvent payload with
    | ok event => exact ⟨event, rfl⟩
    | error e => simp [parsed, Effect.lift_panic_bind] at changed
  split at changed
  · exact absurd rfl changed
  · exact absurd rfl changed

/-- The signature was checked, and the event came to its handler. -/
structure Passed (hook : Webhook) (request : Request) (payload : Json) (kind : List Char) : Prop where
  decoded : hook.fromSlice request.body = some payload
  signature : ∃ value sentHmac, request.header "x-hub-signature-256" = some value ∧
    toStr value = some sentHmac ∧ Signed hook request sentHmac
  kind : ∃ value, request.header "x-github-event" = some value ∧ toStr value = some kind

/-- Every way a request ends. -/
inductive RequestEnds (hook : Webhook) (request : Request) (s : Connection) :
    Outcome String Reply × Connection → Prop where
  | refused (answerable : Answerable hook request s) : RequestEnds hook request s (.ok badRequest, s)
  | panics (garbled : ¬ Answerable hook request s) : RequestEnds hook request s (.panic, s)
  | passed (passed : Passed hook request payload kind)
    (answerable : Answerable hook request s ↔ (kind = "push".toList →
      ∃ event, parsePushEvent payload = .ok event ∧ PushFits hook event s)) :
    RequestEnds hook request s (hook.handleGithubEvent kind payload s)

theorem handleRepoEvent_ends (hook : Webhook) (request : Request) (s : Connection) :
    RequestEnds hook request s (hook.handleRepoEvent request s) := by
  unfold Webhook.handleRepoEvent
  cases decoded : hook.fromSlice request.body with
  | none => exact .refused fun payload _ found => by simp [decoded] at found
  | some payload =>
    cases signature : request.header "x-hub-signature-256" with
    | none => exact .refused fun _ value _ found => by simp [signature] at found
    | some value =>
      have asks := answerable_iff (s := s) decoded signature
      cases visible : toStr value with
      | none =>
        simp only [visible, Outcome.expectSome_none, Effect.lift_panic_bind]
        exact .panics (by simp [asks, visible])
      | some sentHmac =>
        simp only [visible, Outcome.expectSome_some, Effect.lift_ok_bind]
        simp only [visible, Option.some.injEq, exists_eq_left'] at asks
        obtain ⟨reads, answer, checked, signed⟩ | ⟨unread, panics⟩ := hmacOk_cases hook request sentHmac
        · rw [checked, Effect.lift_ok_bind]
          rw [and_iff_right reads, ← signed] at asks
          cases answer with
          | false => exact .refused (asks.mpr nofun)
          | true =>
            rw [forall_prop_of_true rfl] at asks
            rw [if_pos rfl]
            cases event : request.header "x-github-event" with
            | none => exact .refused (asks.mpr fun value found => by simp [event] at found)
            | some named =>
              rw [kindAnswerable_iff event] at asks
              cases shown : toStr named with
              | none =>
                simp only [shown, Outcome.expectSome_none, Effect.lift_panic_bind]
                exact .panics (by simp [asks, shown])
              | some kind =>
                simp only [shown, Outcome.expectSome_some, Effect.lift_ok_bind]
                simp only [shown, Option.some.injEq, exists_eq_left'] at asks
                exact .passed ⟨decoded, ⟨value, sentHmac, signature, visible, signed.mp rfl⟩,
                  named, event, shown⟩ asks
        · rw [panics, Effect.lift_panic_bind]
          exact .panics fun answerable => unread (asks.mp answerable).1

theorem RequestEnds.ok_iff (ends : RequestEnds hook request s after) :
    (∃ reply, after.1 = .ok reply) ↔ Answerable hook request s := by
  cases ends with
  | refused answerable => exact iff_of_true ⟨_, rfl⟩ answerable
  | panics garbled => exact iff_of_false (by simp) garbled
  | passed passed answerable => exact (handleGithubEvent_ok_iff hook _ _ s).trans answerable.symm

/-- Whatever becomes of the request, only an authorized one writes. -/
theorem RequestEnds.authorized (ends : RequestEnds hook request s after) (changed : after.2.db ≠ s.db) :
    Authorized hook request := by
  cases ends with
  | refused | panics => exact absurd rfl changed
  | passed passed _ =>
    obtain ⟨rfl, event, parsed⟩ := handleGithubEvent_writes fun same => changed (congrArg Connection.db same)
    exact ⟨passed.signature, passed.kind, _, event, passed.decoded, parsed⟩

theorem handled_safely_iff (hook : Webhook) (request : Request) (s : Connection) :
    HandledSafely hook request s ↔ Answerable hook request s := by
  have ends := handleRepoEvent_ends hook request s
  rw [← ends.ok_iff]
  exact ⟨HandledSafely.replies, fun replies => ⟨replies, ends.authorized⟩⟩

/-- A server with one key, and what it meets for the body of two braces. -/
def oneKey : Webhook where
  fromSlice := fun _ => some (.obj [])
  hmac := fun _ _ => [173, 216, 83, 177, 3, 251, 204, 147, 106, 25, 79, 158, 177, 94, 41, 196,
    255, 8, 175, 110, 71, 213, 209, 188, 164, 242, 2, 24, 227, 30, 79, 255]
  psks := [⟨"k", "keeper"⟩]
  world := ⟨"config", fun _ => .unreadable "No such file or directory (os error 2)",
    fun _ => ⟨.error "unreachable", .ok (), .ok (), .ok (), .ok true, .ok (), .ok (), .ok (), .ok ()⟩⟩
  jobTime := 0
  runTime := 0

/-- Two braces, under a signature of four characters. -/
def shortSignature : Request := ⟨[("x-hub-signature-256", Json.utf8 "sha=")], Json.utf8 "\x7b\x7d"⟩

theorem short_signature_panics : ¬ ∀ (hook : Webhook) (request : Request) (s : Connection),
    HandledSafely hook request s := by
  intro always
  obtain ⟨reply, answered⟩ := (always oneKey shortSignature ⟨Db.empty, false⟩).replies
  have panics : (oneKey.handleRepoEvent shortSignature ⟨Db.empty, false⟩).1 = .panic := rfl
  rw [panics] at answered
  contradiction

end Request
end BuildOTron.WebServer
