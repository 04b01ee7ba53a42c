import BuildOTron.Core.DbCtx

/-! `reserve_artifact`: the row first and the file behind it. A row that has been
inserted stays, whatever becomes of the file. -/
namespace BuildOTron.Native

/-- `artifacts/` below the working directory, as far as creating a file there depends on it. -/
structure ArtifactFiles where
  dirs : List Nat
  /-- the directories that nothing may be created in -/
  readOnly : List Nat
  /-- by run and artifact -/
  files : List (Nat × Nat)

/-- `create_new`; `refusal` is whatever else the kernel may refuse it for. -/
def ArtifactFiles.createNew (fs : ArtifactFiles) (runId artifactId : Nat) (refusal : Option String) :
    Except String ArtifactFiles :=
  if runId ∉ fs.dirs then .error "No such file or directory (os error 2)"
  else if (runId, artifactId) ∈ fs.files then .error "File exists (os error 17)"
  else if runId ∈ fs.readOnly then .error "Permission denied (os error 13)"
  else match refusal with
    | some error => .error error
    | none => .ok { fs with files := (runId, artifactId) :: fs.files }

structure ArtifactDescriptor where
  jobId : Nat
  artifactId : Nat
  deriving DecidableEq, Repr

def ArtifactDescriptor.new (fs : ArtifactFiles) (jobId artifactId : Nat) (refusal : Option String) :
    ArtifactFiles × Except String ArtifactDescriptor :=
  let path := "artifacts/" ++ toString jobId ++ "/" ++ toString artifactId
  match fs.createNew jobId artifactId refusal with
  | .ok fs => (fs, .ok ⟨jobId, artifactId⟩)
  | .error e => (fs, .error ("couldn't open artifact file " ++ path ++ ": " ++ e))

/-- What a reservation leaves behind, with its answer. -/
structure Reserved where
  db : Db
  files : ArtifactFiles
  answer : Except String ArtifactDescriptor

/-- `insertError` is the text of the error that SQLite answers the insert with, if any. -/
def reserveArtifact (db : Db) (fs : ArtifactFiles) (runId : Nat) (name desc : String)
    (createdTime : Nat) (insertError refusal : Option String) : Reserved :=
  match insertError with
  | some error => ⟨db, fs, .error error⟩
  | none =>
    let (db, artifactId) := db.insertArtifact runId name desc createdTime
    let (fs, answer) := ArtifactDescriptor.new fs runId artifactId refusal
    ⟨db, fs, answer⟩

/-- The file can be created. -/
structure Creatable (fs : ArtifactFiles) (runId artifactId : Nat) (refusal : Option String) : Prop where
  dir : runId ∈ fs.dirs
  fresh : (runId, artifactId) ∉ fs.files
  writable : runId ∉ fs.readOnly
  granted : refusal = none

instance (fs : ArtifactFiles) (runId artifactId : Nat) (refusal : Option String) :
    Decidable (Creatable fs runId artifactId refusal) :=
  decidable_of_iff (runId ∈ fs.dirs ∧ (runId, artifactId) ∉ fs.files ∧ runId ∉ fs.readOnly ∧ refusal = none)
    ⟨fun ⟨dir, fresh, writable, granted⟩ => ⟨dir, fresh, writable, granted⟩,
      fun ⟨dir, fresh, writable, granted⟩ => ⟨dir, fresh, writable, granted⟩⟩

/-- A refused reservation leaves the table alone; an accepted one has added its row, and
its file is new. -/
structure AllOrNothing (db : Db) (fs : ArtifactFiles) (runId : Nat) (name desc : String)
    (createdTime : Nat) (after : Reserved) : Prop where
  refused : ∀ error, after.answer = .error error → after.db.artifacts = db.artifacts
  reserved : ∀ artifact, after.answer = .ok artifact →
    artifact = ⟨runId, db.artifacts.seq + 1⟩ ∧
    after.db = { db with artifacts := db.artifacts.insert ⟨runId, name, desc, createdTime, none⟩ } ∧
    (runId, db.artifacts.seq + 1) ∉ fs.files ∧
    after.files = { fs with files := (runId, db.artifacts.seq + 1) :: fs.files }

variable {fs : ArtifactFiles} {runId artifactId : Nat} {refusal : Option String}

theorem new_created (creatable : Creatable fs runId artifactId refusal) :
    ArtifactDescriptor.new fs runId artifactId refusal =
      ({ fs with files := (runId, artifactId) :: fs.files }, .ok ⟨runId, artifactId⟩) := by
  obtain ⟨dir, fresh, writable, rfl⟩ := creatable
  have created : fs.createNew runId artifactId none =
      .ok { fs with files := (runId, artifactId) :: fs.files } := by
    unfold ArtifactFiles.createNew
    rw [if_neg (not_not.mpr dir), if_neg fresh, if_neg writable]
  simp only [ArtifactDescriptor.new, created]

theorem new_refused (refused : ¬ Creatable fs runId artifactId refusal) :
    ∃ error, ArtifactDescriptor.new fs runId artifactId refusal = (fs, .error error) := by
  obtain ⟨error, failed⟩ : ∃ error, fs.createNew runId artifactId refusal = .error error := by
    unfold ArtifactFiles.createNew
    split
    · exact ⟨_, rfl⟩
    split
    · exact ⟨_, rfl⟩
    split
    · exact ⟨_, rfl⟩
    cases refusal with
    | some error => exact ⟨error, rfl⟩
    | none => exact absurd ⟨not_not.mp ‹_›, ‹_›, ‹_›, rfl⟩ refused
  unfold ArtifactDescriptor.new
  rw [failed]
  exact ⟨_, rfl⟩

/-- No file is lost to another's creation. -/
theorem new_keeps (fs : ArtifactFiles) (runId artifactId : Nat) (refusal : Option String)
    (present : file ∈ fs.files) : file ∈ (ArtifactDescriptor.new fs runId artifactId refusal).1.files := by
  by_cases creatable : Creatable fs runId artifactId refusal
  · rw [new_created creatable]
    exact List.mem_cons_of_mem _ present
  · obtain ⟨error, failed⟩ := new_refused creatable
    rwa [failed]

/-- One reservation, in every state of the files: all or nothing exactly when the row is
refused or the file can be created. -/
theorem reserve_allOrNothing (db : Db) (fs : ArtifactFiles) (runId : Nat) (name desc : String)
    (createdTime : Nat) (insertError refusal : Option String) :
    AllOrNothing db fs runId name desc createdTime
        (reserveArtifact db fs runId name desc createdTime insertError refusal) ↔
      insertError.isSome ∨ Creatable fs runId (db.artifacts.seq + 1) refusal := by
  cases insertError with
  | some error =>
    refine iff_of_true ⟨fun _ _ => rfl, ?_⟩ (.inl rfl)
    intro artifact accepted
    cases accepted
  | none =>
    by_cases creatable : Creatable fs runId (db.artifacts.seq + 1) refusal
    · refine iff_of_true ?_ (.inr creatable)
      simp only [reserveArtifact, Db.insertArtifact, new_created creatable]
      refine ⟨?_, ?_⟩
      · intro error refused
        cases refused
      · intro artifact accepted
        cases accepted
        exact ⟨rfl, rfl, creatable.fresh, rfl⟩
    · refine iff_of_false ?_ (by simp [creatable])
      intro whole
      obtain ⟨error, failed⟩ := new_refused creatable
      simp only [reserveArtifact, Db.insertArtifact, failed] at whole
      exact Table.insert_ne _ _ (whole.refused error rfl)

end BuildOTron.Native
