import BuildOTron.Core.DbCtx

/-! `handle_artifact`: a POST to `/api/artifact`, up to the reservation of the
artifact's row and file. -/
namespace BuildOTron.Driver

inductive Header where
  | absent
  | text (value : String)
  /-- a value that is not visible ASCII, on which `to_str().expect(..)` panics -/
  | unreadable
  deriving DecidableEq, Repr

inductive StatusCode where
  | ok
  | badRequest
  | internalServerError
  deriving DecidableEq, Repr

structure ArtifactPost where
  taskToken : Header
  artifactName : Header
  artifactDesc : Header
  deriving DecidableEq, Repr

def Header.read : Header → Outcome StatusCode String
  | .absent => .err .badRequest
  | .text value => .ok value
  | .unreadable => .panic

/-- The run the post is for, once its token has been accepted. -/
def acceptToken (db : Db) (token : String) (now : Nat) : Outcome StatusCode Nat :=
  match db.runForToken token now with
  | some (run, some _, .valid) => .ok run
  | _ => .err .badRequest

/-- The run, name and description of a post whose headers are all in order. -/
def checkPost (db : Db) (post : ArtifactPost) (now : Nat) :
    Outcome StatusCode (Nat × String × String) := do
  let token ← post.taskToken.read
  let run ← acceptToken db token now
  let name ← post.artifactName.read
  let desc ← post.artifactDesc.read
  return (run, name, desc)

/-- `reserve_artifact` inserts the row first and then creates the file, which may fail. -/
def handleArtifact (db : Db) (post : ArtifactPost) (now : Nat) (fileCreated : Bool) :
    Db × Outcome StatusCode Unit :=
  match checkPost db post now with
  | .ok (run, name, desc) =>
    ((db.insertArtifact run name desc now).1,
      if fileCreated then .ok () else .err .internalServerError)
  | .err status => (db, .err status)
  | .panic => (db, .panic)

/-- The same behind the lock of the connection: once it is poisoned, `run_for_token` panics. -/
def answerPost (poisoned : Bool) (db : Db) (post : ArtifactPost) (now : Nat) (fileCreated : Bool) :
    Db × Outcome StatusCode Unit :=
  if poisoned then
    (db, do
      let _ ← post.taskToken.read
      .panic)
  else handleArtifact db post now fileCreated

theorem answerPost_db (poisoned : Bool) (db : Db) (post : ArtifactPost) (now : Nat)
    (fileCreated : Bool) : (answerPost poisoned db post now fileCreated).1 = db ∨
      (answerPost poisoned db post now fileCreated).1 = (handleArtifact db post now fileCreated).1 := by
  cases poisoned with
  | false => exact .inr rfl
  | true => exact .inl rfl

theorem answerPost_writes (poisoned : Bool) (db : Db) (post : ArtifactPost) (now : Nat)
    (fileCreated : Bool) : (answerPost poisoned db post now fileCreated).1 =
      { db with artifacts := (answerPost poisoned db post now fileCreated).1.artifacts } := by
  obtain same | same := answerPost_db poisoned db post now fileCreated
  · rw [same]
  · rw [same, handleArtifact]
    split <;> rfl

theorem answerPost_runs (poisoned : Bool) (db : Db) (post : ArtifactPost) (now : Nat)
    (fileCreated : Bool) : (answerPost poisoned db post now fileCreated).1.runs = db.runs := by
  rw [answerPost_writes]

/-- `finalize_artifact`, which panics behind a poisoned lock. -/
def finalizeArtifact (poisoned : Bool) (db : Db) (artifactId now : Nat) : Db :=
  if poisoned then db else db.finalizeArtifact artifactId now

theorem finalizeArtifact_db (poisoned : Bool) (db : Db) (artifactId now : Nat) :
    finalizeArtifact poisoned db artifactId now = db ∨
      finalizeArtifact poisoned db artifactId now = db.finalizeArtifact artifactId now := by
  cases poisoned with
  | false => exact .inr rfl
  | true => exact .inl rfl

end BuildOTron.Driver
