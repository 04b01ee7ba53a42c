import BuildOTron.Lib.AsyncWrite

/-! `ArtifactDescriptor::store_all`, a chunk of the body after another, into a file whose
writes are done by another thread: a write that was taken is on its way to the disk, and
an error of it is what the next write is answered. -/
namespace BuildOTron.Native

/-- The most that one write takes. -/
def maxBufSize : Nat := 2 * 1024 * 1024

/-- `tokio::fs::File`, opened for writing. -/
structure File where
  /-- history: all that was taken -/
  taken : List UInt8
  onDisk : List UInt8
  inFlight : List UInt8
  /-- of the last write, until it is reported -/
  error : Option String
  /-- history: a write has failed -/
  failed : Bool
  whole : failed = false → taken = onDisk ++ inFlight

inductive DiskEvent where
  /-- so many bytes more can be read -/
  | lands (stored : Nat)
  | written
  /-- after so many bytes -/
  | fails (stored : Nat) (error : String)
  deriving DecidableEq, Repr

namespace File

def created : File := ⟨[], [], [], none, false, fun _ => rfl⟩

/-- A write that is begun, with none before it under way. -/
def take (file : File) (idle : file.inFlight = []) (bytes : List UInt8) : File where
  taken := file.taken ++ bytes
  onDisk := file.onDisk
  inFlight := bytes
  error := file.error
  failed := file.failed
  whole sound := by rw [file.whole sound, idle, List.append_nil]

/-- A write waits for the one before it. -/
def pollWrite (file : File) (buf : List UInt8) : Poll Nat × File :=
  match file.error with
  | some error => (.ready (.error error), { file with error := none })
  | none =>
    if idle : file.inFlight = [] then
      (.ready (.ok (buf.take maxBufSize).length), file.take idle (buf.take maxBufSize))
    else (.pending, file)

def event (file : File) : DiskEvent → File
  | .lands stored => { file with
      onDisk := file.onDisk ++ file.inFlight.take stored
      inFlight := file.inFlight.drop stored
      whole := by
        intro sound
        rw [file.whole sound, List.append_assoc, List.take_append_drop] }
  | .written => { file with
      onDisk := file.onDisk ++ file.inFlight
      inFlight := []
      whole := by
        intro sound
        rw [file.whole sound, List.append_nil] }
  | .fails stored error =>
    if file.inFlight = [] then file
    else { file with
      onDisk := file.onDisk ++ file.inFlight.take stored
      inFlight := []
      error := some error
      failed := true
      whole := by simp }

def writer : AsyncWrite UInt8 File Unit DiskEvent where
  pollWrite file _ buf := file.pollWrite buf
  event := event
  taken := taken
  takes := by
    intro file _ buf n ready
    unfold pollWrite at ready ⊢
    cases error : file.error with
    | some error => simp [error] at ready
    | none =>
      rw [error] at ready
      by_cases idle : file.inFlight = []
      · rw [dif_pos idle] at ready ⊢
        cases ready
        simp [take, List.take_eq_take_iff]
      · rw [dif_neg idle] at ready
        contradiction
  declines := by
    intro file _ buf declined
    unfold pollWrite at declined ⊢
    cases error : file.error with
    | some error => rfl
    | none =>
      rw [error] at declined
      by_cases idle : file.inFlight = []
      · rw [dif_pos idle] at declined
        exact absurd rfl (declined _)
      · rw [dif_neg idle]
  steady := by
    intro file e
    cases e with
    | lands | written => rfl
    | fails stored error =>
      simp only [event]
      split <;> rfl

/-- A poll that takes bytes puts them in flight. -/
theorem pollWrite_file (file : File) (buf : List UInt8) : (file.pollWrite buf).2.onDisk = file.onDisk ∧
    (file.pollWrite buf).2.failed = file.failed := by
  unfold pollWrite
  split
  · exact ⟨rfl, rfl⟩
  · split <;> exact ⟨rfl, rfl⟩

end File

/-- What `data.next()` comes back with. -/
inductive BodyChunk where
  | bytes (chunk : List UInt8)
  | failed (error : String)
  | ended
  deriving DecidableEq, Repr

/-- `store_all`, at its two awaits. -/
inductive StorePhase where
  | reading
  | writing (rest : List UInt8)
  | returned (result : Except String Unit)
  deriving DecidableEq

structure Store where
  phase : StorePhase
  file : File

namespace Store

def start : Store := ⟨.reading, .created⟩

/-- `write_all` of nothing is done at once. -/
def next (s : Store) : BodyChunk → Store
  | .bytes [] => s
  | .bytes chunk => { s with phase := .writing chunk }
  | .failed error => { s with phase := .returned (.error s!"error reading: {error}") }
  | .ended => { s with phase := .returned (.ok ()) }

def afterWrite (s : Store) : WriteAll UInt8 × File → Store
  | (.wrote, file) => { s with phase := .reading, file := file }
  | (.left rest, file) => { s with phase := .writing rest, file := file }
  | (.failed error, file) => { s with phase := .returned (.error s!"failed to write: {error}"), file := file }

def write (s : Store) (rest : List UInt8) : Store := s.afterWrite (File.writer.writeTurn s.file () rest)

theorem afterWrite_file (s : Store) (turned : WriteAll UInt8 × File) :
    (s.afterWrite turned).file = turned.2 := by
  obtain ⟨_ | _ | _, _⟩ := turned <;> rfl

theorem next_file (s : Store) (chunk : BodyChunk) : (s.next chunk).file = s.file := by
  cases chunk with
  | bytes chunk => cases chunk <;> rfl
  | failed | ended => rfl

/-- A turn of `write_all` changes nothing on the disk. -/
theorem write_file (s : Store) (rest : List UInt8) : (s.write rest).file.onDisk = s.file.onDisk ∧
    (s.write rest).file.failed = s.file.failed := by
  rw [write, afterWrite_file, AsyncWrite.writeTurn_polls]
  exact s.file.pollWrite_file rest

/-- What was read and not yet taken. -/
def hand (s : Store) : List UInt8 :=
  match s.phase with
  | .writing rest => rest
  | _ => []

end Store

/-- All that came in was taken, is in hand, or was lost with an error. -/
structure Stores (received : List UInt8) (s : Store) : Prop where
  conserved : ∃ lost, received = s.file.taken ++ s.hand ++ lost ∧
    ((∀ error, s.phase ≠ .returned (.error error)) → lost = [])

theorem Stores.nothing_lost {s : Store} (stores : Stores received s)
    (running : ∀ error, s.phase ≠ .returned (.error error)) : received = s.file.taken ++ s.hand := by
  obtain ⟨lost, conserved, none⟩ := stores.conserved
  rw [conserved, none running, List.append_nil]

theorem Stores.begins {s : Store} (stores : Stores received s) : s.file.taken <+: received := by
  obtain ⟨lost, conserved, _⟩ := stores.conserved
  rw [conserved, List.append_assoc]
  exact List.prefix_append _ _

theorem stores_start : Stores [] .start := ⟨[], rfl, fun _ => rfl⟩

theorem Stores.next {s : Store} (stores : Stores received s) (phase : s.phase = .reading)
    (chunk : List UInt8) : Stores (received ++ chunk) (s.next (.bytes chunk)) := by
  have whole := stores.nothing_lost (by simp [phase])
  rw [Store.hand, phase, List.append_nil] at whole
  refine ⟨[], ?_, fun _ => rfl⟩
  rw [List.append_nil, whole]
  cases chunk with
  | nil => simp [Store.next, Store.hand, phase]
  | cons byte rest => rfl

/-- A body that is over, well or not. -/
theorem Stores.over {s : Store} (stores : Stores received s) (phase : s.phase = .reading)
    (result : Except String Unit) : Stores received { s with phase := .returned result } := by
  have whole := stores.nothing_lost (by simp [phase])
  rw [Store.hand, phase, List.append_nil] at whole
  exact ⟨[], by simp [Store.hand, whole], fun _ => rfl⟩

theorem Stores.write {s : Store} (stores : Stores received s) (phase : s.phase = .writing rest) :
    Stores received (s.write rest) := by
  obtain ⟨now, later, parts, taken, wrote, left⟩ := File.writer.writeTurn_taken s.file () rest
  have whole := stores.nothing_lost (by simp [phase])
  rw [Store.hand, phase, parts, ← List.append_assoc] at whole
  unfold Store.write
  generalize File.writer.writeTurn s.file () rest = turned at taken wrote left ⊢
  obtain ⟨_ | rest' | error, file⟩ := turned
  · rw [wrote rfl, List.append_nil] at whole
    refine ⟨[], ?_, fun _ => rfl⟩
    rw [List.append_nil, Store.afterWrite, Store.hand, List.append_nil, whole]
    exact taken.symm
  · rw [(left rest' rfl).1] at whole
    refine ⟨[], ?_, fun _ => rfl⟩
    rw [List.append_nil, Store.afterWrite, Store.hand, whole]
    exact congrArg (· ++ rest') taken.symm
  · refine ⟨later, ?_, fun running => absurd rfl (running _)⟩
    rw [Store.afterWrite, Store.hand, List.append_nil, whole]
    exact congrArg (· ++ later) taken.symm

theorem Stores.event {s : Store} (stores : Stores received s) (e : DiskEvent) :
    Stores received { s with file := s.file.event e } := by
  obtain ⟨lost, conserved, none⟩ := stores.conserved
  have steady : (s.file.event e).taken = s.file.taken := File.writer.steady s.file e
  exact ⟨lost, conserved.trans (congrArg (· ++ s.hand ++ lost) steady.symm), none⟩

/-- A failed write is answered to the next one, which ends `store_all`: nothing is written
behind a gap. -/
structure Gapless (s : Store) : Prop where
  begins : s.file.onDisk ++ s.file.inFlight <+: s.file.taken
  answered : s.file.failed = true →
    s.file.error.isSome = true ∨ ∃ error, s.phase = .returned (.error error)

theorem gapless_start : Gapless .start := ⟨List.prefix_rfl, by simp [Store.start, File.created]⟩

theorem gapless_of_unfailed {s : Store} (unfailed : s.file.failed = false) : Gapless s where
  begins := (s.file.whole unfailed).symm ▸ List.prefix_rfl
  answered failed := by
    rw [unfailed] at failed
    contradiction

theorem Gapless.next {s : Store} (gapless : Gapless s) (phase : s.phase = .reading)
    (chunk : BodyChunk) : Gapless (s.next chunk) := by
  refine ⟨by rw [Store.next_file]; exact gapless.begins, ?_⟩
  intro failed
  rw [Store.next_file] at failed ⊢
  obtain waiting | ⟨error, returned⟩ := gapless.answered failed
  · exact .inl waiting
  · rw [phase] at returned
    contradiction

/-- A write that finds an error of the one before it is the last. -/
theorem write_answered {s : Store} (waiting : s.file.error = some error) (rest : List UInt8) :
    s.write rest = ⟨.returned (.error s!"failed to write: {error}"), { s.file with error := none }⟩ := by
  have polled : File.writer.pollWrite s.file () rest =
      (.ready (.error error), { s.file with error := none }) := by
    show s.file.pollWrite rest = _
    simp only [File.pollWrite, waiting]
  rw [Store.write, AsyncWrite.writeTurn, polled]
  rfl

theorem Gapless.write {s : Store} (gapless : Gapless s) (phase : s.phase = .writing rest) :
    Gapless (s.write rest) := by
  cases waiting : s.file.error with
  | some error =>
    rw [write_answered waiting]
    exact ⟨gapless.begins, fun _ => .inr ⟨_, rfl⟩⟩
  | none =>
    apply gapless_of_unfailed
    rw [(s.write_file rest).2]
    by_contra failed
    obtain told | ⟨error, returned⟩ := gapless.answered (Bool.not_eq_false _ ▸ failed)
    · rw [waiting] at told
      contradiction
    · rw [phase] at returned
      contradiction

theorem Gapless.event {s : Store} (gapless : Gapless s) (e : DiskEvent) :
    Gapless { s with file := s.file.event e } := by
  have begins := gapless.begins
  cases e with
  | lands stored =>
    refine ⟨?_, gapless.answered⟩
    simpa [File.event, List.append_assoc] using begins
  | written =>
    refine ⟨?_, gapless.answered⟩
    simpa [File.event] using begins
  | fails stored error =>
    by_cases idle : s.file.inFlight = []
    · simp only [File.event, if_pos idle]
      exact gapless
    · simp only [File.event, if_neg idle]
      refine ⟨?_, fun _ => .inl rfl⟩
      have first := (List.prefix_append_right_inj s.file.onDisk).mpr (List.take_prefix stored s.file.inFlight)
      rw [List.append_nil]
      exact first.trans begins

end BuildOTron.Native
