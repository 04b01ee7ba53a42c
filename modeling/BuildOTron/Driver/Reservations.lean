import BuildOTron.Driver.ArtifactPosts
import BuildOTron.Native.DbctxExt

/-! The driver with the artifact directory beside it. A post's reservation is two steps,
between which the other tasks, other programs and a restart may come. -/
namespace BuildOTron.Driver
open Transition Native

structure Reserving where
  driver : State
  files : ArtifactFiles
  /-- the reservations whose row is inserted and whose file is not yet created -/
  underWay : List ArtifactDescriptor

inductive ReserveLabel where
  /-- any step but a post -/
  | driver (l : Label)
  /-- `handle_artifact` up to the insert -/
  | insert (post : ArtifactPost) (now : Nat) (insertError : Option String)
  | create (artifact : ArtifactDescriptor) (refusal : Option String)
  | finalize (artifactId now : Nat)
  /-- what others do to the directory, short of removing a file -/
  | files (dirs readOnly : List Nat) (added : List (Nat × Nat))

def Label.isPost : Label → Bool
  | .post .. => true
  | _ => false

def Label.isRestart : Label → Bool
  | .restart => true
  | _ => false

def Reserving.insert (s : Reserving) (post : ArtifactPost) (now : Nat) (insertError : Option String) :
    Option Reserving :=
  match s.driver.poisoned, checkPost s.driver.db post now, insertError with
  | false, .ok (run, name, desc), none =>
    let (db, artifactId) := s.driver.db.insertArtifact run name desc now
    some ⟨{ s.driver with db := db }, s.files, ⟨run, artifactId⟩ :: s.underWay⟩
  | _, _, _ => some s

def reservations (tokenForJob : Nat → String) : Machine Reserving ReserveLabel where
  step s
    | .driver l =>
      if l.isPost then none
      else ((machine tokenForJob).step s.driver l).map fun driver =>
        ⟨driver, s.files, if l.isRestart then [] else s.underWay⟩
    | .insert post now insertError => s.insert post now insertError
    | .create artifact refusal =>
      if artifact ∈ s.underWay then
        some ⟨s.driver, (ArtifactDescriptor.new s.files artifact.jobId artifact.artifactId refusal).1,
          s.underWay.erase artifact⟩
      else none
    | .finalize artifactId now =>
      some { s with driver := { s.driver with
        db := finalizeArtifact s.driver.poisoned s.driver.db artifactId now } }
    | .files dirs readOnly added =>
      some { s with files := ⟨dirs, readOnly, added ++ s.files.files⟩ }

/-- Every artifact whose reservation has come to its end has its file. -/
def Backed (s : Reserving) : Prop :=
  ∀ id row, s.driver.db.artifacts.get? id = some row →
    (row.runId, id) ∈ s.files.files ∨ ⟨row.runId, id⟩ ∈ s.underWay

/-- A reservation that has inserted its row comes to its file. -/
def Finishes (s : Reserving) : ReserveLabel → Prop
  | .create artifact refusal => artifact ∈ s.underWay →
    Creatable s.files artifact.jobId artifact.artifactId refusal ∨
      (artifact.jobId, artifact.artifactId) ∈ s.files.files
  | .driver .restart => ∀ artifact ∈ s.underWay, (artifact.jobId, artifact.artifactId) ∈ s.files.files
  | _ => True

/-- Besides, what is under way is in the table. -/
structure Shelved (s : Reserving) : Prop where
  backed : Backed s
  rows : ∀ artifact ∈ s.underWay, ∃ row, s.driver.db.artifacts.get? artifact.artifactId = some row ∧
    row.runId = artifact.jobId
  distinct : s.underWay.Nodup

variable {tokenForJob : Nat → String} {s t : Reserving}

/-! ### One step -/

theorem step_driver (stepped : (reservations tokenForJob).step s (.driver l) = some t) :
    t.driver.db.artifacts = s.driver.db.artifacts ∧ t.files = s.files ∧
      t.underWay = if l.isRestart then [] else s.underWay := by
  simp only [reservations, Option.ite_none_left_eq_some, Option.map_eq_some_iff] at stepped
  obtain ⟨other, driver, moved, rfl⟩ := stepped
  refine ⟨step_artifacts moved ?_, rfl, rfl⟩
  rintro post now fileCreated rfl
  exact other rfl

theorem insert_cases (inserted : s.insert post now insertError = some t) : t = s ∨
    ∃ row, t.driver.db.artifacts = s.driver.db.artifacts.insert row ∧ t.files = s.files ∧
      t.underWay = ⟨row.runId, s.driver.db.artifacts.seq + 1⟩ :: s.underWay := by
  unfold Reserving.insert at inserted
  split at inserted
  · cases inserted
    exact .inr ⟨_, rfl, rfl, rfl⟩
  · exact .inl (Option.some.inj inserted).symm

theorem Shelved.inserted (shelved : Shelved s) {row : ArtifactRow}
    (artifacts : t.driver.db.artifacts = s.driver.db.artifacts.insert row) (files : t.files = s.files)
    (underWay : t.underWay = ⟨row.runId, s.driver.db.artifacts.seq + 1⟩ :: s.underWay) : Shelved t := by
  refine ⟨?_, ?_, ?_⟩
  · intro id row' found
    rw [artifacts, Table.get?_insert] at found
    rw [files, underWay]
    split at found
    · rename_i same
      cases found
      exact .inr (same ▸ List.mem_cons_self)
    · exact (shelved.backed id row' found).imp_right (List.mem_cons_of_mem _)
  · rw [underWay, artifacts]
    refine List.forall_mem_cons.mpr ⟨⟨row, Table.get?_insert_self _ _, rfl⟩, ?_⟩
    intro artifact member
    obtain ⟨old, found, run⟩ := shelved.rows artifact member
    exact ⟨old, Table.get?_insert_of_some found _, run⟩
  · rw [underWay, List.nodup_cons]
    refine ⟨fun member => ?_, shelved.distinct⟩
    obtain ⟨old, found, _⟩ := shelved.rows _ member
    have low := Table.le_seq found
    simp only at low
    omega

/-- What is no longer under way has its file. -/
theorem Shelved.fewer (shelved : Shelved s)
    (artifacts : ∀ id, (t.driver.db.artifacts.get? id).map ArtifactRow.runId =
      (s.driver.db.artifacts.get? id).map ArtifactRow.runId)
    (files : ∀ file ∈ s.files.files, file ∈ t.files.files) (underWay : t.underWay.Sublist s.underWay)
    (finished : ∀ artifact ∈ s.underWay, artifact ∉ t.underWay →
      (artifact.jobId, artifact.artifactId) ∈ t.files.files) : Shelved t := by
  refine ⟨?_, ?_, shelved.distinct.sublist underWay⟩
  · intro id row found
    have same := artifacts id
    rw [found] at same
    obtain ⟨old, found', run⟩ := Option.map_eq_some_iff.mp same.symm
    rw [← run]
    obtain file | member := shelved.backed id old found'
    · exact .inl (files _ file)
    · by_cases still : ⟨old.runId, id⟩ ∈ t.underWay
      · exact .inr still
      · exact .inl (finished _ member still)
  · intro artifact member
    obtain ⟨row, found, run⟩ := shelved.rows artifact (underWay.subset member)
    have same := artifacts artifact.artifactId
    rw [found] at same
    obtain ⟨row', found', run'⟩ := Option.map_eq_some_iff.mp same
    exact ⟨row', found', run'.trans run⟩

theorem Shelved.step (shelved : Shelved s) (finishes : Finishes s l)
    (stepped : (reservations tokenForJob).step s l = some t) : Shelved t := by
  cases l with
  | driver l =>
    obtain ⟨artifacts, files, underWay⟩ := step_driver stepped
    refine shelved.fewer (fun id => by rw [artifacts]) (by simp [files]) ?_ ?_
    · rw [underWay]
      split <;> simp
    · intro artifact member gone
      rw [files]
      cases l with
      | restart => exact finishes artifact member
      | _ => exact absurd (underWay ▸ member) gone
  | insert post now insertError =>
    obtain rfl | ⟨row, artifacts, files, underWay⟩ := insert_cases stepped
    · exact shelved
    · exact shelved.inserted artifacts files underWay
  | create artifact refusal =>
    simp only [reservations, Option.ite_none_right_eq_some, Option.some.injEq] at stepped
    obtain ⟨member, rfl⟩ := stepped
    refine shelved.fewer (fun _ => rfl) (fun _ => new_keeps _ _ _ _) List.erase_sublist ?_
    intro other present gone
    obtain rfl : other = artifact := by
      by_contra different
      exact gone ((List.mem_erase_of_ne different).mpr present)
    obtain creatable | there := finishes member
    · rw [new_created creatable]
      exact List.mem_cons_self
    · exact new_keeps _ _ _ _ there
  | finalize artifactId now =>
    cases stepped
    refine shelved.fewer ?_ (fun _ file => file) (.refl _) fun artifact member gone => absurd member gone
    intro id
    obtain same | same := finalizeArtifact_db s.driver.poisoned s.driver.db artifactId now <;> rw [same]
    simp only [Db.finalizeArtifact, Table.get?_update]
    split
    · rw [Option.map_map]
      rfl
    · rfl
  | files dirs readOnly added =>
    cases stepped
    exact shelved.fewer (fun _ => rfl) (fun _ file => List.mem_append_right added file) (.refl _)
      fun artifact member gone => absurd member gone

/-- An artifact whose reservation has ended without its file. -/
theorem Shelved.not_backed (shelved : Shelved s) (member : artifact ∈ s.underWay)
    (artifacts : t.driver.db.artifacts = s.driver.db.artifacts)
    (missing : (artifact.jobId, artifact.artifactId) ∉ t.files.files) (ended : artifact ∉ t.underWay) :
    ¬ Backed t := by
  intro backed
  obtain ⟨row, found, run⟩ := shelved.rows artifact member
  rw [← artifacts] at found
  rcases backed artifact.artifactId row found with file | still
  · rw [run] at file
    exact missing file
  · rw [run] at still
    exact ended still

/-- A reservation that comes to its end without its file shows in the table at once. -/
theorem unfinished_shows (shelved : Shelved s) (unfinished : ¬ Finishes s l) :
    ∃ t, (reservations tokenForJob).step s l = some t ∧ ¬ Backed t := by
  cases l with
  | create artifact refusal =>
    simp only [Finishes, not_forall, not_or] at unfinished
    obtain ⟨member, refused, missing⟩ := unfinished
    obtain ⟨error, failed⟩ := new_refused refused
    refine ⟨_, if_pos member, shelved.not_backed member rfl ?_ shelved.distinct.not_mem_erase⟩
    rwa [failed]
  | driver l =>
    cases l with
    | restart =>
      simp only [Finishes, not_forall] at unfinished
      obtain ⟨artifact, member, missing⟩ := unfinished
      exact ⟨_, rfl, shelved.not_backed member rfl missing List.not_mem_nil⟩
    | _ => exact absurd trivial unfinished
  | insert | finalize | files => exact absurd trivial unfinished

/-- Back to back, the two steps of a post are `reserve_artifact`, and `handle_artifact`
as the driver's machine has it. -/
theorem reserves_in_two_steps (s : Reserving) (healthy : s.driver.poisoned = false)
    (checked : checkPost s.driver.db post now = .ok (run, name, desc)) (refusal : Option String) :
    let reserved := reserveArtifact s.driver.db s.files run name desc now none refusal
    (reservations tokenForJob).run s [.insert post now none,
      .create ⟨run, s.driver.db.artifacts.seq + 1⟩ refusal] =
        some ⟨{ s.driver with db := reserved.db }, reserved.files, s.underWay⟩ ∧
      ∀ fileCreated,
        (answerPost s.driver.poisoned s.driver.db post now fileCreated).1 = reserved.db := by
  refine ⟨?_, fun fileCreated => ?_⟩
  · simp only [Machine.run, reservations, Reserving.insert, healthy, checked, Db.insertArtifact,
      Option.bind_some, List.mem_cons_self, if_true, reserveArtifact, List.erase_cons_head]
  · rw [healthy]
    simp only [answerPost, handleArtifact, checked]
    rfl

/-- Over every database, artifact directory and reservation: one reservation is all or
nothing exactly when its insert fails or its file can be created. Over every run from a
state in which the artifacts have their files: the artifacts have them in every state of
the run, apart from those being reserved right then, exactly when every reservation that
has inserted its row comes to its file. -/
theorem reservation_whole_iff (tokenForJob : Nat → String) (db : Db) (fs : ArtifactFiles)
    (runId : Nat) (name desc : String) (createdTime : Nat) (insertError refusal : Option String)
    (s : Reserving) (labels : List ReserveLabel) (idle : s.underWay = [])
    (complete : ∀ id row, s.driver.db.artifacts.get? id = some row → (row.runId, id) ∈ s.files.files) :
    (AllOrNothing db fs runId name desc createdTime
        (reserveArtifact db fs runId name desc createdTime insertError refusal) ↔
      insertError.isSome ∨ Creatable fs runId (db.artifacts.seq + 1) refusal) ∧
    ((reservations tokenForJob).Guarded Finishes s labels ↔
      (reservations tokenForJob).Throughout Backed s labels) := by
  refine ⟨reserve_allOrNothing db fs runId name desc createdTime insertError refusal, ?_⟩
  have shelved : Shelved s := by
    refine ⟨fun id row found => .inl (complete id row found), ?_, ?_⟩
    · simp [idle]
    · simp [idle]
  have free : (reservations tokenForJob).Guarded (fun _ _ => True) s labels :=
    Machine.guarded_of_forall fun _ _ _ => trivial
  exact Machine.guarded_iff_throughout (fun s l t shelved _ finishes stepped => shelved.step finishes stepped)
    (fun s shelved => shelved.backed) (fun s l shelved _ unfinished => unfinished_shows shelved unfinished)
    shelved free

/-- The directory of the first run. -/
def firstRunDir : ArtifactFiles := ⟨[1], [], []⟩

/-- A post of the first run's client, accepted and reserved. -/
def postReserved : List ReserveLabel := [.insert postsStdout 9 none, .create ⟨1, 1⟩ none]

theorem post_backed : ∃ s t, (machine someToken).run (.start .empty 0) activatedRun = some s ∧
    (reservations someToken).run ⟨s, firstRunDir, []⟩ postReserved = some t ∧
    t.driver.db.artifacts.get? 1 = some ⟨1, "cargo build", "stdout", 9, none⟩ ∧ Backed t := by
  obtain ⟨s, t, path, reserved, row, empty⟩ : ∃ s t,
      (machine someToken).run (.start .empty 0) activatedRun = some s ∧
      (reservations someToken).run ⟨s, firstRunDir, []⟩ postReserved = some t ∧
      t.driver.db.artifacts.get? 1 = some ⟨1, "cargo build", "stdout", 9, none⟩ ∧
      s.db.artifacts = .empty := ⟨_, _, rfl, rfl, rfl, rfl⟩
  have complete : ∀ id row, s.db.artifacts.get? id = some row → (row.runId, id) ∈ firstRunDir.files := by
    simp [empty]
  have whole := reservation_whole_iff someToken .empty firstRunDir 1 "cargo build" "stdout" 9 none none
    ⟨s, firstRunDir, []⟩ postReserved rfl complete
  refine ⟨s, t, path, reserved, row, (whole.2.mp ⟨trivial, fun t inserted => ?_⟩).ends reserved⟩
  refine ⟨fun _ => .inl ?_, fun _ _ => trivial⟩
  have files : t.files = firstRunDir := by
    obtain rfl | ⟨_, _, files, _⟩ := insert_cases inserted
    · rfl
    · exact files
  rw [files]
  decide

/-- Without the run's directory the call is an `Err`, and the row is there. -/
theorem missing_dir_keeps_row : ¬ ∀ (db : Db) (fs : ArtifactFiles) (runId : Nat) (name desc : String)
    (createdTime : Nat) (insertError refusal : Option String),
    AllOrNothing db fs runId name desc createdTime
      (reserveArtifact db fs runId name desc createdTime insertError refusal) := by
  intro whole
  have first := whole .empty ⟨[], [], []⟩ 1 "cargo build" "stdout" 9 none none
  have creatable := (reserve_allOrNothing .empty ⟨[], [], []⟩ 1 "cargo build" "stdout" 9 none none).mp first
  revert creatable
  decide

end BuildOTron.Driver
