import BuildOTron.Core.DbCtx
import BuildOTron.Native.Io
import BuildOTron.Native.StoreAll
import BuildOTron.Lib.Machine

/-! An artifact streamed while it is still being stored. The streaming task of
`handle_get_artifact` forwards the file to its end, sleeps, and asks the database
whether the artifact is finished; the driver stores the body and then finalizes, with
its last write possibly still on the way to the disk. Whether the stream is whole
depends on where the finalizing and the last write fall between the last end of file
and the question. -/
namespace BuildOTron.WebServer
open Transition Native

/-- The condition under which `handle_get_artifact` streams at all. -/
def isLive (artifact : ArtifactRecord) : Bool :=
  match artifact.completedTime with
  | some completedTime => completedTime < artifact.createdTime
  | none => true

/-- The streaming task, with the record it looked up last. -/
inductive Streaming where
  | test (artifact : ArtifactRecord)
  | forwarding (artifact : ArtifactRecord)
  | sleeping (artifact : ArtifactRecord)
  | ended
  | panicked
  deriving DecidableEq, Repr

structure LiveArtifact where
  db : Db
  /-- the row that the storing task finalizes -/
  artifact : Nat
  /-- `store_all`, with the file that it writes -/
  store : Store
  /-- the same file, read by the streaming task and sent to the client -/
  stream : Conduit UInt8
  finalized : Bool
  phase : Streaming

inductive StreamLabel where
  /-- `store_all` is given a chunk of the request body -/
  | body (chunk : BodyChunk)
  /-- a turn of its `write_all` -/
  | write
  /-- the write that was taken last gets on with its bytes -/
  | lands (stored : Nat)
  /-- the body is done and `finalize_artifact` is called -/
  | finalize (now : Nat)
  /-- the test of the `while` loop -/
  | test
  /-- the steps of `forward_data` -/
  | read (n : Nat)
  | deliver
  | eof
  /-- `lookup_artifact`, after the sleep -/
  | lookup

namespace LiveArtifact

def start (db : Db) (artifact : ArtifactRecord) (store : Store) : LiveArtifact :=
  ⟨db, artifact.id, store, .ofWritten store.file.onDisk, false, .test artifact⟩

/-- The file, once the write under way is done. -/
def content (s : LiveArtifact) : List UInt8 := s.store.file.onDisk ++ s.store.file.inFlight

def land (s : LiveArtifact) (stored : Nat) : LiveArtifact :=
  { s with
    store := { s.store with file := s.store.file.event (.lands stored) }
    stream := s.stream.write (s.store.file.inFlight.take stored) }

end LiveArtifact

inductive GetArtifact where
  | notFound
  | allDone
  | streams (s : LiveArtifact)

/-- `handle_get_artifact` up to the streaming task it spawns, when storing has come so far. -/
def handleGetArtifact (db : Db) (run artifact : Nat) (store : Store) : GetArtifact :=
  match db.lookupArtifact run artifact with
  | none => .notFound
  | some descriptor =>
    if isLive descriptor then .streams (.start db descriptor store) else .allDone

def streamStep (s : LiveArtifact) : Streaming → StreamLabel → Option LiveArtifact
  | .test artifact, .test =>
    some { s with phase := if artifact.completedTime.isNone then .forwarding artifact else .ended }
  | .forwarding _, .read n => (forwardRead s.stream n).map fun stream => { s with stream := stream }
  | .forwarding _, .deliver => s.stream.deliver.map fun stream => { s with stream := stream }
  | .forwarding artifact, .eof =>
    if s.stream.atEof then some { s with phase := .sleeping artifact } else none
  | .sleeping artifact, .lookup =>
    some { s with phase := match s.db.lookupArtifact artifact.runId artifact.id with
      | some next => .test next
      | none => .panicked }
  | _, _ => none

def streamMachine : Machine LiveArtifact StreamLabel where
  step s
    | .body chunk =>
      match s.store.phase with
      | .reading => some { s with store := s.store.next chunk }
      | _ => none
    | .write =>
      match s.store.phase with
      | .writing rest => some { s with store := s.store.write rest }
      | _ => none
    | .lands stored => some (s.land stored)
    | .finalize now =>
      match s.store.phase with
      | .returned (.ok ()) =>
        if s.finalized then none
        else some { s with db := s.db.finalizeArtifact s.artifact now, finalized := true }
      | _ => none
    | l => streamStep s s.phase l

/-- Finalizing does not fall between an end of file and the lookup after it, unless all
was sent by then; and the end of a file that is finalized is met with no write under way. -/
def FinalizedDrained (s : LiveArtifact) : StreamLabel → Prop
  | .finalize _ => match s.phase with
    | .sleeping _ => s.stream.Drained ∧ s.store.file.inFlight = []
    | _ => True
  | .eof => s.finalized = true → s.store.file.inFlight = []
  | _ => True

instance (s : LiveArtifact) : (l : StreamLabel) → Decidable (FinalizedDrained s l)
  | .finalize _ => by
    unfold FinalizedDrained
    cases s.phase <;> infer_instance
  | .eof => inferInstanceAs (Decidable (s.finalized = true → s.store.file.inFlight = []))
  | .body _ | .write | .lands _ | .test | .read _ | .deliver | .lookup => .isTrue trivial

/-- Every step of the two tasks. -/
inductive StreamMoves (s : LiveArtifact) : StreamLabel → LiveArtifact → Prop where
  | body (phase : s.store.phase = .reading) :
      StreamMoves s (.body chunk) { s with store := s.store.next chunk }
  | write (phase : s.store.phase = .writing rest) :
      StreamMoves s .write { s with store := s.store.write rest }
  | lands : StreamMoves s (.lands stored) (s.land stored)
  | finalize (stored : s.store.phase = .returned (.ok ())) (first : s.finalized = false) :
      StreamMoves s (.finalize now)
        { s with db := s.db.finalizeArtifact s.artifact now, finalized := true }
  | again (phase : s.phase = .test artifact) (unfinished : artifact.completedTime = none) :
      StreamMoves s .test { s with phase := .forwarding artifact }
  | ends (phase : s.phase = .test artifact) (finished : artifact.completedTime.isSome) :
      StreamMoves s .test { s with phase := .ended }
  | read (phase : s.phase = .forwarding artifact) (read : forwardRead s.stream n = some stream) :
      StreamMoves s (.read n) { s with stream := stream }
  | deliver (phase : s.phase = .forwarding artifact) (delivered : s.stream.deliver = some stream) :
      StreamMoves s .deliver { s with stream := stream }
  | eof (phase : s.phase = .forwarding artifact) (drained : s.stream.Drained) :
      StreamMoves s .eof { s with phase := .sleeping artifact }
  | lookup (phase : s.phase = .sleeping artifact) : StreamMoves s .lookup
      { s with phase := match s.db.lookupArtifact artifact.runId artifact.id with
        | some next => .test next
        | none => .panicked }

theorem stream_moves (stepped : streamMachine.step s l = some t) : StreamMoves s l t := by
  cases l with
  | body chunk =>
    simp only [streamMachine] at stepped
    split at stepped
    · cases stepped
      exact .body ‹_›
    · contradiction
  | write =>
    simp only [streamMachine] at stepped
    split at stepped
    · cases stepped
      exact .write ‹_›
    · contradiction
  | lands stored =>
    cases stepped
    exact .lands
  | finalize now =>
    simp only [streamMachine] at stepped
    split at stepped
    · split at stepped
      · contradiction
      · cases stepped
        exact .finalize ‹_› (Bool.eq_false_iff.mpr ‹_›)
    · contradiction
  | test =>
    cases phase : s.phase <;> simp only [streamMachine, streamStep, phase, reduceCtorEq] at stepped
    case test artifact =>
      cases stepped
      cases completed : artifact.completedTime with
      | none => exact .again phase completed
      | some time => exact .ends phase (by rw [completed]; rfl)
  | read n =>
    cases phase : s.phase <;> simp only [streamMachine, streamStep, phase, reduceCtorEq] at stepped
    case forwarding artifact =>
      obtain ⟨stream, read, rfl⟩ := Option.map_eq_some_iff.mp stepped
      exact phase ▸ .read phase read
  | deliver =>
    cases phase : s.phase <;> simp only [streamMachine, streamStep, phase, reduceCtorEq] at stepped
    case forwarding artifact =>
      obtain ⟨stream, delivered, rfl⟩ := Option.map_eq_some_iff.mp stepped
      exact phase ▸ .deliver phase delivered
  | eof =>
    cases phase : s.phase <;> simp only [streamMachine, streamStep, phase, reduceCtorEq] at stepped
    case forwarding artifact =>
      simp only [Option.ite_none_right_eq_some, Option.some.injEq] at stepped
      obtain ⟨atEof, rfl⟩ := stepped
      exact .eof phase (Conduit.atEof_iff.mp atEof)
  | lookup =>
    cases phase : s.phase <;> simp only [streamMachine, streamStep, phase, reduceCtorEq] at stepped
    case sleeping artifact =>
      cases stepped
      exact .lookup phase

/-- The record a phase carries. -/
def Streaming.artifact? : Streaming → Option ArtifactRecord
  | .test artifact | .forwarding artifact | .sleeping artifact => some artifact
  | _ => none

/-- The row is finished when the storing task has said so, and what the streaming task
believes finished is. -/
structure InStep (s : LiveArtifact) : Prop where
  row : ∃ row, s.db.artifacts.get? s.artifact = some row ∧
    (row.completedTime.isSome ↔ s.finalized = true) ∧
    ∀ artifact, s.phase.artifact? = some artifact →
      artifact.id = s.artifact ∧ artifact.runId = row.runId
  finished : ∀ artifact, s.phase.artifact? = some artifact → artifact.completedTime.isSome →
    s.finalized = true
  ended : s.phase = .ended → s.finalized = true
  sound : s.phase ≠ .panicked
  stored : s.finalized = true → s.store.phase = .returned (.ok ())
  written : s.stream.written = s.store.file.onDisk
  unfailed : s.store.file.failed = false

theorem InStep.lookup (inStep : InStep s) (held : s.phase.artifact? = some artifact) :
    ∃ next, s.db.lookupArtifact artifact.runId artifact.id = some next ∧ next.id = artifact.id ∧
      next.runId = artifact.runId ∧ (next.completedTime.isSome ↔ s.finalized = true) := by
  obtain ⟨row, found, finished, same⟩ := inStep.row
  obtain ⟨id_eq, run_eq⟩ := same artifact held
  refine ⟨row.withId artifact.id, ?_, rfl, run_eq.symm, finished⟩
  rw [Db.lookupArtifact, id_eq, found]
  exact if_pos run_eq.symm

/-- A task that moves on with the record it had. -/
theorem InStep.move (inStep : InStep s) (phase : Streaming)
    (same : phase.artifact? = s.phase.artifact?) (ended : phase ≠ .ended)
    (sound : phase ≠ .panicked) : InStep { s with phase := phase } := by
  obtain ⟨row, found, finished, held⟩ := inStep.row
  refine ⟨⟨row, found, finished, ?_⟩, ?_, fun done => absurd done ended, sound, inStep.stored,
    inStep.written, inStep.unfailed⟩
  · intro artifact carried
    exact held artifact (same ▸ carried)
  · intro artifact carried
    exact inStep.finished artifact (same ▸ carried)

/-- Storing goes on, as long as the artifact is not finalized, and the reader sees what is
on the disk. -/
theorem InStep.stores (inStep : InStep s) {store : Store} {stream : Conduit UInt8}
    (phase : s.finalized = true → store.phase = .returned (.ok ()))
    (written : stream.written = store.file.onDisk) (unfailed : store.file.failed = false) :
    InStep { s with store := store, stream := stream } :=
  ⟨inStep.row, inStep.finished, inStep.ended, inStep.sound, phase, written, unfailed⟩

/-- Before its end `store_all` has not been finalized. -/
theorem InStep.unfinished (inStep : InStep s) (phase : s.store.phase ≠ .returned (.ok ())) :
    s.finalized ≠ true := mt inStep.stored phase

theorem step_inStep (inStep : InStep s) (stepped : streamMachine.step s l = some t) : InStep t := by
  obtain ⟨row, found, finished, held⟩ := inStep.row
  cases stream_moves stepped with
  | @body chunk phase =>
    have unfinished := inStep.unfinished (by simp [phase])
    refine inStep.stores (fun finalized => absurd finalized unfinished) ?_ ?_ <;> rw [Store.next_file]
    · exact inStep.written
    · exact inStep.unfailed
  | @write rest phase =>
    have unfinished := inStep.unfinished (by simp [phase])
    obtain ⟨onDisk, failed⟩ := s.store.write_file rest
    refine inStep.stores (fun finalized => absurd finalized unfinished) ?_ ?_
    · rw [onDisk]
      exact inStep.written
    · rw [failed]
      exact inStep.unfailed
  | @lands stored =>
    refine inStep.stores (fun finalized => inStep.stored finalized) ?_ inStep.unfailed
    rw [Conduit.written_write, inStep.written]
    rfl
  | read phase read =>
    refine inStep.stores inStep.stored ?_ inStep.unfailed
    rw [(Conduit.read_written read).1]
    exact inStep.written
  | deliver phase delivered =>
    refine inStep.stores inStep.stored ?_ inStep.unfailed
    rw [(Conduit.deliver_eq delivered).1]
    exact inStep.written
  | @finalize now stored first =>
    refine ⟨⟨{ row with completedTime := some now }, ?_, by simp, held⟩, fun _ _ _ => rfl,
      fun _ => rfl, inStep.sound, fun _ => stored, inStep.written, inStep.unfailed⟩
    simp only [Db.finalizeArtifact, Table.get?_update_self, found, Option.map_some]
  | @again artifact phase unfinished =>
    exact inStep.move (.forwarding artifact) (by rw [phase]; rfl) nofun nofun
  | @ends artifact phase completed =>
    exact ⟨⟨row, found, finished, nofun⟩, nofun,
      fun _ => inStep.finished artifact (by rw [phase]; rfl) completed, nofun, inStep.stored,
      inStep.written, inStep.unfailed⟩
  | @eof artifact phase drained =>
    exact inStep.move (.sleeping artifact) (by rw [phase]; rfl) nofun nofun
  | @lookup artifact phase =>
    have carried : s.phase.artifact? = some artifact := by rw [phase]; rfl
    obtain ⟨next, answered, id_eq, run_eq, completed⟩ := inStep.lookup carried
    obtain ⟨id_held, run_held⟩ := held artifact carried
    simp only [answered]
    refine ⟨⟨row, found, finished, ?_⟩, ?_, nofun, nofun, inStep.stored, inStep.written,
      inStep.unfailed⟩
    · rintro _ ⟨⟩
      exact ⟨id_eq.trans id_held, run_eq.trans run_held⟩
    · rintro _ ⟨⟩ done
      exact completed.mp done

/-- All was sent when nothing is left to send, on the disk or on the way there. -/
theorem InStep.sent_iff (inStep : InStep s) : s.stream.delivered = s.content ↔
    s.stream.Drained ∧ s.store.file.inFlight = [] := by
  rw [LiveArtifact.content, ← inStep.written]
  constructor
  · intro same
    have rest := s.stream.conserved
    rw [List.append_assoc] at rest
    rw [rest, List.append_assoc] at same
    obtain ⟨left, inFlight⟩ := List.append_eq_nil_iff.mp (List.self_eq_append_right.mp same)
    exact ⟨List.append_eq_nil_iff.mp left, inFlight⟩
  · rintro ⟨drained, inFlight⟩
    rw [inFlight, List.append_nil]
    exact Conduit.drained_iff.mp drained

/-- The file is finished and the streaming task will not read it again. -/
def Closing (s : LiveArtifact) : Prop :=
  s.finalized = true ∧ match s.phase with
    | .sleeping _ | .ended => True
    | .test artifact => artifact.completedTime.isSome
    | _ => False

theorem land_content (s : LiveArtifact) (stored : Nat) : (s.land stored).content = s.content := by
  show (s.store.file.onDisk ++ s.store.file.inFlight.take stored) ++ s.store.file.inFlight.drop stored = _
  rw [List.append_assoc, List.take_append_drop]
  rfl

theorem Closing.step (closing : Closing s) (inStep : InStep s)
    (stepped : streamMachine.step s l = some t) :
    Closing t ∧ t.stream.delivered = s.stream.delivered ∧ t.content = s.content ∧
      FinalizedDrained s l := by
  obtain ⟨finalized, waiting⟩ := closing
  cases stream_moves stepped with
  | body phase | write phase =>
    rw [inStep.stored finalized] at phase
    contradiction
  | @lands stored => exact ⟨⟨finalized, waiting⟩, rfl, land_content s stored, trivial⟩
  | finalize stored first => rw [finalized] at first; contradiction
  | again phase unfinished => rw [phase] at waiting; simp [unfinished] at waiting
  | ends => exact ⟨⟨finalized, trivial⟩, rfl, rfl, trivial⟩
  | read phase | deliver phase | eof phase => rw [phase] at waiting; contradiction
  | @lookup artifact phase =>
    obtain ⟨next, answered, _, _, completed⟩ := inStep.lookup (by rw [phase]; rfl)
    refine ⟨⟨finalized, ?_⟩, rfl, rfl, trivial⟩
    simp only [answered]
    exact completed.mpr finalized

theorem not_closing_of_storing (storing : s.finalized = false) : ¬ Closing s := by
  rintro ⟨finalized, _⟩
  rw [storing] at finalized
  contradiction

theorem not_closing_of_forwarding (phase : s.phase = .forwarding artifact) : ¬ Closing s := by
  rintro ⟨_, waiting⟩
  rw [phase] at waiting
  contradiction

/-- The step that closes the stream is guarded exactly when it leaves nothing unsent. -/
theorem step_closes (running : ¬ Closing s) (inStep : InStep s)
    (stepped : streamMachine.step s l = some t) : (¬ Closing t ∧ FinalizedDrained s l) ∨
      (Closing t ∧ (FinalizedDrained s l ↔ t.stream.delivered = t.content)) := by
  cases stream_moves stepped with
  | body phase | write phase =>
    refine .inl ⟨?_, trivial⟩
    rintro ⟨finalized, _⟩
    exact inStep.unfinished (by simp [phase]) finalized
  | lands => exact .inl ⟨running, trivial⟩
  | @finalize now stored first =>
    cases phase : s.phase with
    | sleeping artifact =>
      refine .inr ⟨⟨rfl, trivial⟩, ?_⟩
      simp only [FinalizedDrained, phase]
      exact inStep.sent_iff.symm
    | forwarding artifact =>
      refine .inl ⟨not_closing_of_forwarding rfl, ?_⟩
      simp only [FinalizedDrained, phase]
    | test artifact =>
      refine .inl ⟨?_, by simp only [FinalizedDrained, phase]⟩
      rintro ⟨_, waiting⟩
      have finalized := inStep.finished artifact (by rw [phase]; rfl) waiting
      rw [first] at finalized
      contradiction
    | ended =>
      have finalized := inStep.ended phase
      rw [first] at finalized
      contradiction
    | panicked => exact absurd phase inStep.sound
  | again => exact .inl ⟨not_closing_of_forwarding rfl, trivial⟩
  | @ends artifact phase finished =>
    refine absurd ⟨inStep.finished artifact (by rw [phase]; rfl) finished, ?_⟩ running
    rw [phase]
    exact finished
  | read phase => exact .inl ⟨not_closing_of_forwarding phase, trivial⟩
  | deliver phase => exact .inl ⟨not_closing_of_forwarding phase, trivial⟩
  | @eof artifact phase drained =>
    by_cases finalized : s.finalized = true
    · refine .inr ⟨⟨finalized, trivial⟩, ?_⟩
      show (s.finalized = true → s.store.file.inFlight = []) ↔ s.stream.delivered = s.content
      rw [inStep.sent_iff]
      exact ⟨fun landed => ⟨drained, landed finalized⟩, fun sent _ => sent.2⟩
    · exact .inl ⟨fun closing => finalized closing.1, fun done => absurd done finalized⟩
  | @lookup artifact phase =>
    have storing : s.finalized ≠ true := by
      intro finalized
      exact running ⟨finalized, by rw [phase]; trivial⟩
    exact .inl ⟨fun closing => storing closing.1, trivial⟩

theorem closing_run (closing : Closing s) (inStep : InStep s)
    (path : streamMachine.run s labels = some t) : t.stream.delivered = s.stream.delivered ∧
      t.content = s.content ∧ streamMachine.Guarded FinalizedDrained s labels := by
  induction labels generalizing s with
  | nil =>
    cases path
    exact ⟨rfl, rfl, trivial⟩
  | cons l rest ih =>
    obtain ⟨u, stepped, path⟩ := Machine.run_cons.mp path
    obtain ⟨closing', delivered, content, guard⟩ := closing.step inStep stepped
    obtain ⟨delivered', content', guarded⟩ := ih closing' (step_inStep inStep stepped) path
    exact ⟨delivered'.trans delivered, content'.trans content,
      (Machine.guarded_cons stepped).mpr ⟨guard, guarded⟩⟩

theorem guarded_iff_sent (running : ¬ Closing s) (inStep : InStep s)
    (path : streamMachine.run s labels = some t) (closed : Closing t) :
    streamMachine.Guarded FinalizedDrained s labels ↔ t.stream.delivered = t.content := by
  induction labels generalizing s with
  | nil =>
    cases path
    exact absurd closed running
  | cons l rest ih =>
    obtain ⟨u, stepped, path⟩ := Machine.run_cons.mp path
    have next := step_inStep inStep stepped
    rw [Machine.guarded_cons stepped]
    obtain ⟨still, guard⟩ | ⟨closing, exact_guard⟩ := step_closes running inStep stepped
    · rw [ih still next path]
      exact and_iff_right guard
    · obtain ⟨delivered, content, guarded⟩ := closing_run closing next path
      rw [delivered, content, exact_guard]
      exact and_iff_left guarded

theorem start_inStep (found : db.lookupArtifact run artifact = some descriptor)
    (unfinished : descriptor.completedTime = none) {store : Store} (unfailed : store.file.failed = false) :
    InStep (.start db descriptor store) := by
  simp only [Db.lookupArtifact] at found
  split at found
  · rename_i row held
    simp only [Option.ite_none_right_eq_some, Option.some.injEq] at found
    obtain ⟨same, rfl⟩ := found
    simp only [ArtifactRow.withId] at unfinished
    refine ⟨⟨row, held, by simp [unfinished, LiveArtifact.start], ?_⟩, ?_, nofun, nofun, nofun, rfl,
      unfailed⟩
    · rintro _ ⟨⟩
      exact ⟨rfl, rfl⟩
    · rintro _ ⟨⟩ finished
      simp [ArtifactRow.withId, unfinished] at finished
  · contradiction

def Unfinished (db : Db) (run artifact : Nat) : Prop :=
  ∀ descriptor ∈ db.lookupArtifact run artifact, descriptor.completedTime = none

theorem opened_inStep (opened : handleGetArtifact db run artifact store = .streams s)
    (unfinished : Unfinished db run artifact) (unfailed : store.file.failed = false) :
    InStep s ∧ s.finalized = false := by
  unfold handleGetArtifact at opened
  split at opened
  · contradiction
  · rename_i descriptor found
    split at opened
    · cases opened
      exact ⟨start_inStep found (unfinished descriptor found) unfailed, rfl⟩
    · contradiction

/-- However the two tasks and the writes behind them interleave, a stream that was opened on
an unfinished artifact ends after the last write was taken, and what it has sent is the whole
file exactly when finalizing overtook neither a write on its way to the disk nor one that
landed behind an end of file. -/
theorem live_stream_complete_iff (db : Db) (run artifact : Nat) (store : Store)
    (first last : LiveArtifact) (labels : List StreamLabel)
    (opened : handleGetArtifact db run artifact store = .streams first)
    (unfinished : Unfinished db run artifact) (unfailed : store.file.failed = false)
    (path : streamMachine.run first labels = some last) (ended : last.phase = .ended) :
    last.store.phase = .returned (.ok ()) ∧ last.content = last.store.file.taken ∧
      (last.stream.delivered = last.content ↔
        streamMachine.Guarded FinalizedDrained first labels) := by
  obtain ⟨inStep, storing⟩ := opened_inStep opened unfinished unfailed
  have inStep' := Machine.invariant (fun _ _ _ => step_inStep) inStep path
  have closed : Closing last := ⟨inStep'.ended ended, by rw [ended]; trivial⟩
  refine ⟨inStep'.stored closed.1, ?_, ?_⟩
  · exact (last.store.file.whole inStep'.unfailed).symm
  · exact (guarded_iff_sent (not_closing_of_storing storing) inStep path closed).symm

def storingDb : Db := { Db.empty with artifacts := .insert .empty ⟨1, "log", "a log", 5, none⟩ }

/-- Two bytes are on the disk, and the next chunk is awaited. -/
def halfStored : Store := ⟨.reading, (File.created.take rfl [1, 2]).event .written⟩

def opened : LiveArtifact := .start storingDb ⟨1, 1, "log", "a log", 5, none⟩ halfStored

theorem storingDb_unfinished : Unfinished storingDb 1 1 := by
  rintro _ ⟨⟩
  rfl

/-- The last chunk and the finalizing come while the streaming task still reads, and it
meets the end of the file when the chunk is on the disk. -/
def finishedInTime : List StreamLabel :=
  [.test, .read 2, .body (.bytes [3, 4]), .write, .deliver, .body .ended, .finalize 9, .lands 1, .read 1,
    .deliver, .lands 1, .read 1, .deliver, .eof, .lookup, .test]

theorem stream_finished_in_time :
    ∃ s, streamMachine.run opened finishedInTime = some s ∧ s.content = [1, 2, 3, 4] ∧
      s.stream.delivered = [1, 2, 3, 4] ∧ (s.stream.delivered = s.content ↔
        streamMachine.Guarded FinalizedDrained opened finishedInTime) := by
  have runs : (streamMachine.run opened finishedInTime).map
      (fun s => (s.phase, s.content, s.stream.delivered)) = some (.ended, [1, 2, 3, 4], [1, 2, 3, 4]) := rfl
  obtain ⟨s, path, same⟩ := Option.map_eq_some_iff.mp runs
  obtain ⟨ended, same⟩ := Prod.mk.inj same
  obtain ⟨content, delivered⟩ := Prod.mk.inj same
  exact ⟨s, path, content, delivered, (live_stream_complete_iff storingDb 1 1 halfStored opened s
    finishedInTime rfl storingDb_unfinished rfl path ended).2.2⟩

/-- The last chunk and the finalizing come while the streaming task sleeps. -/
def finishedAsleep : List StreamLabel :=
  [.test, .read 2, .deliver, .eof, .body (.bytes [3, 4]), .write, .lands 2, .body .ended, .finalize 9,
    .lookup, .test]

theorem stream_misses_the_end : ¬ ∀ (db : Db) (run artifact : Nat) (store : Store)
    (first last : LiveArtifact) (labels : List StreamLabel),
    handleGetArtifact db run artifact store = .streams first → Unfinished db run artifact →
    store.file.failed = false → streamMachine.run first labels = some last → last.phase = .ended →
    last.stream.delivered = last.content := by
  intro claim
  have runs : (streamMachine.run opened finishedAsleep).map
      (fun s => (s.phase, s.stream.delivered, s.content)) =
        some (.ended, [1, 2], [1, 2, 3, 4]) := rfl
  obtain ⟨s, path, same⟩ := Option.map_eq_some_iff.mp runs
  obtain ⟨ended, same⟩ := Prod.mk.inj same
  obtain ⟨delivered, content⟩ := Prod.mk.inj same
  have whole := claim storingDb 1 1 halfStored opened s finishedAsleep rfl storingDb_unfinished rfl path ended
  rw [delivered, content] at whole
  contradiction

end BuildOTron.WebServer
