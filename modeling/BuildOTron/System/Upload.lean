import BuildOTron.Core.DbCtx
import BuildOTron.Native.Forward
import BuildOTron.Native.StoreAll

/-! An artifact on its way from a command to the driver's disk: the runner's `forward_data`
into the body of its request, and the task that `handle_artifact` spawns, which stores the
body and then finalizes the artifact. Either side may stop at any point, the runtime that
`forward_data` is spawned on may be dropped under it, and the connection may break. -/
namespace BuildOTron.Upload
open Native Transition

structure State where
  db : Db
  artifact : Nat
  forward : Forward ArtifactStream
  /-- `forward_data` was dropped with its runtime -/
  dropped : Bool
  /-- what the driver has read of the body -/
  received : List UInt8
  store : Store
  finalized : Bool

inductive Label where
  | forward (l : ForwardLabel Bool Unit)
  /-- `build_command_impl` returns, and its runtime takes the tasks with it -/
  | drop
  | body (chunk : BodyChunk)
  | write
  | disk (e : DiskEvent)
  | finalize (now : Nat)

namespace State

/-- The artifact is reserved, and both tasks are about to begin. -/
def start (db : Db) (runId : Nat) (name desc : String) (now : Nat) : State :=
  let (db, artifact) := db.insertArtifact runId name desc now
  ⟨db, artifact, .start .new, false, [], .start, false⟩

/-- The sender of the body is dropped, by `forward_data` itself or with it. -/
def closed (s : State) : Bool :=
  s.dropped || match s.forward.phase with
    | .returned _ => true
    | _ => false

/-- A chunk is some of what the runner has sent. The body ends when its sender is dropped, in
whatever way, and it can fail at any time. -/
def gives (s : State) : BodyChunk → Bool
  | .bytes chunk => (s.received ++ chunk).isPrefixOf s.forward.dest.sent.flatten
  | .failed _ => true
  | .ended => s.closed && s.received = s.forward.dest.sent.flatten

def receive (s : State) (chunk : BodyChunk) : State :=
  { s with
    received := match chunk with
      | .bytes chunk => s.received ++ chunk
      | _ => s.received
    store := s.store.next chunk }

end State

/-- `finalize_artifact` comes after a `store_all` that is `unwrap`ped. -/
def machine (source : Source) : Machine State Label where
  step s
    | .forward l =>
      if s.dropped then none
      else ((forwardMachine ArtifactStream.writer source).step s.forward l).map fun forward =>
        { s with forward := forward }
    | .drop => some { s with dropped := true }
    | .body chunk =>
      match s.store.phase with
      | .reading => if s.gives chunk then some (s.receive chunk) else none
      | _ => none
    | .write =>
      match s.store.phase with
      | .writing rest => some { s with store := s.store.write rest }
      | _ => none
    | .disk e => some { s with store := { s.store with file := s.store.file.event e } }
    | .finalize now =>
      match s.store.phase with
      | .returned (.ok ()) =>
        if s.finalized then none
        else some { s with db := s.db.finalizeArtifact s.artifact now, finalized := true }
      | _ => none

variable {source : Source}

/-- The steps of the machine. -/
inductive Moves (source : Source) (s : State) : State → Prop where
  | forward (kept : s.dropped = false)
      (stepped : (forwardMachine ArtifactStream.writer source).step s.forward l = some forward) :
      Moves source s { s with forward := forward }
  | drops : Moves source s { s with dropped := true }
  | bytes (phase : s.store.phase = .reading)
      (sent : s.received ++ chunk <+: s.forward.dest.sent.flatten) :
      Moves source s { s with received := s.received ++ chunk, store := s.store.next (.bytes chunk) }
  | breaks (phase : s.store.phase = .reading) :
      Moves source s { s with store := s.store.next (.failed error) }
  | ends (phase : s.store.phase = .reading) (closed : s.closed = true)
      (whole : s.received = s.forward.dest.sent.flatten) :
      Moves source s { s with store := s.store.next .ended }
  | write (phase : s.store.phase = .writing rest) : Moves source s { s with store := s.store.write rest }
  | disk : Moves source s { s with store := { s.store with file := s.store.file.event e } }
  | finalizes (phase : s.store.phase = .returned (.ok ())) (first : s.finalized = false) :
      Moves source s { s with db := s.db.finalizeArtifact s.artifact now, finalized := true }

theorem body_moves {s : State} (phase : s.store.phase = .reading) (given : s.gives chunk = true) :
    Moves source s (s.receive chunk) := by
  cases chunk with
  | bytes chunk => exact .bytes phase (List.isPrefixOf_iff_prefix.mp given)
  | failed error => exact .breaks phase
  | ended =>
    simp only [State.gives, Bool.and_eq_true, decide_eq_true_eq] at given
    exact .ends phase given.1 given.2

theorem step_moves (stepped : (machine source).step s l = some t) : Moves source s t := by
  cases l with
  | forward l =>
    simp only [machine] at stepped
    split at stepped
    · contradiction
    · rename_i kept
      obtain ⟨forward, moved, rfl⟩ := Option.map_eq_some_iff.mp stepped
      exact .forward (Bool.eq_false_iff.mpr kept) moved
  | drop =>
    cases stepped
    exact .drops
  | body chunk =>
    simp only [machine] at stepped
    split at stepped
    · simp only [Option.ite_none_right_eq_some, Option.some.injEq] at stepped
      obtain ⟨given, rfl⟩ := stepped
      exact body_moves ‹_› given
    · contradiction
  | write =>
    simp only [machine] at stepped
    split at stepped
    · cases stepped
      exact .write ‹_›
    · contradiction
  | disk e =>
    cases stepped
    exact .disk
  | finalize now =>
    simp only [machine] at stepped
    split at stepped
    · split at stepped
      · contradiction
      · cases stepped
        exact .finalizes ‹_› (Bool.eq_false_iff.mpr ‹_›)
    · contradiction

/-! ### The runner's side -/

/-- The `n`th read is where the result comes from. -/
def Stops (source : Source) (n : Nat) : Except String Unit → Prop
  | .ok () => source.read n = .ok []
  | .error told => ∃ error, source.read n = .error error ∧ told = s!"failed to read: {error}"

/-- A body channel never fails: what was read is sent or in hand, and an error is one of
reading. -/
structure Sends (source : Source) (forward : Forward ArtifactStream) : Prop where
  conserved : source.bytes forward.reads = forward.dest.sent.flatten ++ forward.phase.hand
  hand : ∀ rest, forward.phase = .writing rest → rest ≠ []
  stops : ∀ result, forward.phase = .returned result → Stops source forward.reads result
  flows : source.Flows forward.reads

/-- A turn of `write_all` at a body channel. -/
theorem stream_writeTurn (stream : ArtifactStream) (room : Bool) {rest : List UInt8} (more : rest ≠ []) :
    ArtifactStream.writer.writeTurn stream room rest = (.left rest, stream) ∨
      ∃ sent, ArtifactStream.writer.writeTurn stream room rest = (.wrote, sent) ∧
        sent.sent.flatten = stream.sent.flatten ++ rest := by
  cases free : stream.trySendData room rest with
  | none =>
    have polled : ArtifactStream.writer.pollWrite stream room rest = (.pending, stream) := by
      simp only [ArtifactStream.writer, ArtifactStream.pollWrite, free]
    exact .inl (AsyncWrite.writeTurn_pending polled)
  | some sent =>
    have polled : ArtifactStream.writer.pollWrite stream room rest = (.ready (.ok rest.length), sent) := by
      simp only [ArtifactStream.writer, ArtifactStream.pollWrite, free]
    refine .inr ⟨sent, ?_, ?_⟩
    · obtain ⟨n, positive⟩ := Nat.exists_eq_succ_of_ne_zero (mt List.length_eq_zero_iff.mp more)
      rw [positive] at polled
      simp only [AsyncWrite.writeTurn, polled]
      rw [← positive, List.drop_length, if_pos rfl]
    · simp only [ArtifactStream.trySendData] at free
      split at free
      · cases free
        simp
      · contradiction

theorem start_sends (source : Source) : Sends source (.start .new) :=
  ⟨rfl, by simp [Forward.start], by simp [Forward.start], fun _ below => absurd below (Nat.not_lt_zero _)⟩

theorem Sends.step (sends : Sends source forward)
    (stepped : (forwardMachine ArtifactStream.writer source).step forward l = some next) :
    Sends source next ∧ forward.dest.sent.flatten <+: next.dest.sent.flatten := by
  have conserved := sends.conserved
  cases forward_moves stepped with
  | @data chunk phase read more =>
    have same : source.chunk forward.reads = chunk := by rw [Source.chunk, read]
    refine ⟨⟨?_, ?_, by simp, sends.flows.succ (same ▸ more)⟩, List.prefix_rfl⟩
    · rw [Source.bytes, conserved, same, phase]
      simp [ForwardPhase.hand]
    · rintro _ ⟨⟩
      exact more
  | ended phase read =>
    rw [phase] at conserved
    refine ⟨⟨conserved, by simp, ?_, sends.flows⟩, List.prefix_rfl⟩
    rintro _ ⟨⟩
    exact read
  | unreadable phase read =>
    rw [phase] at conserved
    refine ⟨⟨conserved, by simp, ?_, sends.flows⟩, List.prefix_rfl⟩
    rintro _ ⟨⟩
    exact ⟨_, read, rfl⟩
  | @write rest env _ phase turn =>
    subst turn
    rw [phase, ForwardPhase.hand] at conserved
    have more := sends.hand rest phase
    obtain blocked | ⟨sent, wrote, flat⟩ := stream_writeTurn forward.dest env more
    · rw [blocked]
      refine ⟨⟨conserved, ?_, by simp [Forward.afterWrite], sends.flows⟩, List.prefix_rfl⟩
      rintro _ ⟨⟩
      exact more
    · rw [wrote]
      refine ⟨⟨?_, by simp [Forward.afterWrite], by simp [Forward.afterWrite], sends.flows⟩, ?_⟩
      · simpa [Forward.afterWrite, ForwardPhase.hand, flat] using conserved
      · exact ⟨rest, flat.symm⟩
  | event => exact ⟨⟨conserved, sends.hand, sends.stops, sends.flows⟩, List.prefix_rfl⟩

/-- Once it has returned, `forward_data` sends nothing more. -/
theorem returned_stays (returned : forward.phase = .returned result)
    (stepped : (forwardMachine ArtifactStream.writer source).step forward l = some next) :
    next.phase = .returned result ∧ next.dest.sent = forward.dest.sent := by
  cases forward_moves stepped with
  | data phase | ended phase | unreadable phase | write phase =>
    rw [phase] at returned
    contradiction
  | event => exact ⟨returned, rfl⟩

/-! ### Both sides -/

theorem closed_of_returned {s : State} (returned : s.forward.phase = .returned result) : s.closed = true := by
  rw [State.closed, returned, Bool.or_true]

/-- Nothing more is sent once the sender is dropped. -/
theorem closed_stays {s : State} (closed : s.closed = true) (kept : s.dropped = false)
    (stepped : (forwardMachine ArtifactStream.writer source).step s.forward l = some forward) :
    State.closed { s with forward := forward } = true ∧ forward.dest.sent = s.forward.dest.sent := by
  rw [State.closed, kept, Bool.false_or] at closed
  split at closed
  · rename_i result returned
    obtain ⟨still, same⟩ := returned_stays returned stepped
    exact ⟨closed_of_returned still, same⟩
  · contradiction

/-- The row of the artifact, with its time. -/
def Row (s : State) (row : ArtifactRow) (time : Option Nat) : Prop :=
  s.db.artifacts.get? s.artifact = some { row with completedTime := time }

/-- What is true of the two tasks and the row at any time. -/
structure Carries (source : Source) (row : ArtifactRow) (s : State) : Prop where
  sends : Sends source s.forward
  received : s.received <+: s.forward.dest.sent.flatten
  stores : Stores s.received s.store
  gapless : Gapless s.store
  ended : s.store.phase = .returned (.ok ()) →
    s.received = s.forward.dest.sent.flatten ∧ s.closed = true
  row : ∃ time, Row s row time ∧ (time.isSome ↔ s.finalized = true)
  finalized : s.finalized = true → s.store.phase = .returned (.ok ())

theorem start_carries (source : Source) (db : Db) (runId : Nat) (name desc : String) (now : Nat) :
    Carries source ⟨runId, name, desc, now, none⟩ (.start db runId name desc now) where
  sends := start_sends source
  received := List.prefix_rfl
  stores := stores_start
  gapless := gapless_start
  ended := by simp [State.start, Store.start]
  row := ⟨none, Table.get?_insert_self _ _, by simp [State.start]⟩
  finalized := by simp [State.start]

theorem Store.next_phase {s : Store} (phase : s.phase = .reading) (chunk : List UInt8) :
    ∀ result, (s.next (.bytes chunk)).phase ≠ .returned result := by
  cases chunk <;> simp [Store.next, phase]

theorem Store.write_phase (s : Store) (rest : List UInt8) : (s.write rest).phase ≠ .returned (.ok ()) := by
  unfold Store.write
  generalize File.writer.writeTurn s.file () rest = turned
  obtain ⟨_ | _ | _, _⟩ := turned <;> simp [Store.afterWrite]

/-- A storing task that has not come to its end has not finalized. -/
theorem Carries.unfinished {row : ArtifactRow} {s : State} (carries : Carries source row s)
    (phase : s.store.phase ≠ .returned (.ok ())) : s.finalized ≠ true := mt carries.finalized phase

theorem step_carries (carries : Carries source row s) (stepped : (machine source).step s l = some t) :
    Carries source row t := by
  cases step_moves stepped with
  | forward kept moved =>
    obtain ⟨sends, longer⟩ := carries.sends.step moved
    refine ⟨sends, carries.received.trans longer, carries.stores, carries.gapless, ?_, carries.row,
      carries.finalized⟩
    intro stored
    obtain ⟨whole, closed⟩ := carries.ended stored
    obtain ⟨still, same⟩ := closed_stays closed kept moved
    exact ⟨whole.trans (congrArg List.flatten same.symm), still⟩
  | drops => exact ⟨carries.sends, carries.received, carries.stores, carries.gapless,
      fun stored => ⟨(carries.ended stored).1, rfl⟩, carries.row, carries.finalized⟩
  | bytes phase sent =>
    have unfinished := carries.unfinished (by simp [phase])
    refine ⟨carries.sends, sent, carries.stores.next phase _, carries.gapless.next phase _, ?_,
      carries.row, ?_⟩
    · exact fun stored => absurd stored (Store.next_phase phase _ _)
    · exact fun finalized => absurd finalized unfinished
  | breaks phase =>
    have unfinished := carries.unfinished (by simp [phase])
    refine ⟨carries.sends, carries.received, carries.stores.over phase _,
      carries.gapless.next phase (.failed _), by simp [Store.next], carries.row, ?_⟩
    exact fun finalized => absurd finalized unfinished
  | ends phase closed whole =>
    refine ⟨carries.sends, carries.received, carries.stores.over phase _,
      carries.gapless.next phase .ended, ?_, carries.row, fun _ => rfl⟩
    exact fun _ => ⟨whole, closed⟩
  | write phase =>
    have unfinished := carries.unfinished (by simp [phase])
    refine ⟨carries.sends, carries.received, carries.stores.write phase, carries.gapless.write phase,
      ?_, carries.row, ?_⟩
    · exact fun stored => absurd stored (Store.write_phase _ _)
    · exact fun finalized => absurd finalized unfinished
  | disk => exact ⟨carries.sends, carries.received, carries.stores.event _, carries.gapless.event _,
      carries.ended, carries.row, carries.finalized⟩
  | @finalizes now phase first =>
    refine ⟨carries.sends, carries.received, carries.stores, carries.gapless, carries.ended,
      ⟨some now, ?_, by simp⟩, fun _ => phase⟩
    obtain ⟨time, held, _⟩ := carries.row
    simp only [Row, Db.finalizeArtifact, Table.get?_update_self]
    rw [held]
    rfl

/-- What the file has taken is a first part of what the runner read of the command's output,
and what is on the disk, or on its way there, is a first part of that: all of it unless a
write has failed. A body that breaks, and a write that fails with another one after it, leave
the artifact unfinished. Of a finalized artifact the file has taken all that was sent, which
is all that was read but for what `forward_data` had in hand when it was dropped. -/
structure Uploaded (source : Source) (row : ArtifactRow) (s : State) : Prop where
  begins : s.store.file.taken <+: source.bytes s.forward.reads
  onDisk : s.store.file.onDisk ++ s.store.file.inFlight <+: s.store.file.taken
  unfailed : s.store.file.failed = false → s.store.file.taken = s.store.file.onDisk ++ s.store.file.inFlight
  broken : ∀ error, s.store.phase = .returned (.error error) → Row s row none
  unseen : s.store.file.failed = true → Row s row none ∨ s.store.file.error.isSome = true
  finalized : ∀ now, Row s row (some now) →
    source.bytes s.forward.reads = s.store.file.taken ++ s.forward.phase.hand ∧
    source.Flows s.forward.reads ∧ (s.dropped = true ∨ ∃ result, s.forward.phase = .returned result)
  returned : ∀ result, s.forward.phase = .returned result →
    s.forward.phase.hand = [] ∧ Stops source s.forward.reads result

/-- A row without a time, when it is not finalized. -/
theorem Carries.untimed {row : ArtifactRow} {s : State} (carries : Carries source row s)
    (phase : s.store.phase ≠ .returned (.ok ())) : Row s row none := by
  obtain ⟨time, held, finalized⟩ := carries.row
  cases time with
  | none => exact held
  | some now => exact absurd (finalized.mp rfl) (carries.unfinished phase)

theorem Carries.stored {row : ArtifactRow} {s : State} (carries : Carries source row s)
    (held : Row s row (some now)) : s.store.phase = .returned (.ok ()) := by
  by_contra phase
  have none := carries.untimed phase
  rw [Row, held, Option.some.injEq, ArtifactRow.mk.injEq] at none
  simp at none

theorem Carries.uploaded {row : ArtifactRow} {s : State} (carries : Carries source row s) :
    Uploaded source row s where
  begins := by
    rw [carries.sends.conserved]
    exact (carries.stores.begins.trans carries.received).trans (List.prefix_append _ _)
  onDisk := carries.gapless.begins
  unfailed := s.store.file.whole
  broken error phase := carries.untimed (by simp [phase])
  unseen failed := by
    obtain waiting | ⟨error, phase⟩ := carries.gapless.answered failed
    · exact .inr waiting
    · exact .inl (carries.untimed (by simp [phase]))
  finalized now held := by
    have stored := carries.stored held
    obtain ⟨whole, closed⟩ := carries.ended stored
    have taken := carries.stores.nothing_lost (by simp [stored])
    rw [Store.hand, stored, List.append_nil] at taken
    refine ⟨?_, carries.sends.flows, ?_⟩
    · rw [carries.sends.conserved, ← whole, taken]
    · rw [State.closed, Bool.or_eq_true] at closed
      refine closed.imp id fun returned => ?_
      split at returned
      · exact ⟨_, ‹_›⟩
      · contradiction
  returned result phase := ⟨by rw [phase]; rfl, carries.sends.stops result phase⟩

theorem upload_whole_when_finalized (source : Source) (db : Db) (runId : Nat) (name desc : String)
    (now : Nat) (ls : List Label) (s : State)
    (path : (machine source).run (.start db runId name desc now) ls = some s) :
    Uploaded source ⟨runId, name, desc, now, none⟩ s :=
  (Machine.invariant (fun _ _ _ carries stepped => step_carries carries stepped)
    (start_carries source db runId name desc now) path).uploaded

/-- Three bytes, read in two chunks and delivered in two others. -/
def threeBytesSent : List Label :=
  [.forward .read, .forward (.write true), .forward .read, .body (.bytes [7]), .forward (.write true),
    .write, .body (.bytes [8, 9]), .write, .forward .read, .disk .written, .write, .body .ended, .finalize 5]

theorem threeBytes_uploaded : ∃ s, (machine threeBytes).run (.start .empty 1 "stdout" "git" 0)
    threeBytesSent = some s ∧ Row s ⟨1, "stdout", "git", 0, none⟩ (some 5) ∧
    Uploaded threeBytes ⟨1, "stdout", "git", 0, none⟩ s := by
  obtain ⟨s, path, finalized⟩ : ∃ s, (machine threeBytes).run (.start .empty 1 "stdout" "git" 0)
      threeBytesSent = some s ∧ Row s ⟨1, "stdout", "git", 0, none⟩ (some 5) := ⟨_, rfl, rfl⟩
  exact ⟨s, path, finalized, upload_whole_when_finalized threeBytes .empty 1 "stdout" "git" 0 _ s path⟩

end BuildOTron.Upload
