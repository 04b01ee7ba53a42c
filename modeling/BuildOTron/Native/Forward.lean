import BuildOTron.Native.Io
import BuildOTron.Lib.AsyncWrite
import BuildOTron.Lib.Machine

/-! `forward_data`: a read into the buffer, the `write_all` of what was read, and again.
The destination is any writer; here it is `ArtifactStream` or `VecSink`. -/
namespace BuildOTron.Native
open Transition

/-- `hyper::body::Sender`: what was enqueued, and whether the receiver is dropped. -/
structure ArtifactStream where
  sent : List (List UInt8)
  closed : Bool
  deriving DecidableEq, Repr

namespace ArtifactStream

def new : ArtifactStream := ⟨[], false⟩

/-- `try_send_data`, which fails on a full channel and on a closed one. -/
def trySendData (stream : ArtifactStream) (room : Bool) (data : List UInt8) :
    Option ArtifactStream :=
  if room && !stream.closed then some { stream with sent := stream.sent ++ [data] } else none

def pollWrite (stream : ArtifactStream) (room : Bool) (buf : List UInt8) :
    Poll Nat × ArtifactStream :=
  match stream.trySendData room buf with
  | some sent => (.ready (.ok buf.length), sent)
  | none => (.pending, stream)

/-- A stream whose receiver is dropped. -/
def close (stream : ArtifactStream) : ArtifactStream := { stream with closed := true }

theorem pollWrite_closed {stream : ArtifactStream} (closed : stream.closed = true) (room : Bool)
    (buf : List UInt8) : stream.pollWrite room buf = (.pending, stream) := by
  simp [pollWrite, trySendData, closed]

/-- A poll finds room or not; the receiver may be dropped in between. -/
def writer : AsyncWrite UInt8 ArtifactStream Bool Unit where
  pollWrite := pollWrite
  event stream _ := stream.close
  taken stream := stream.sent.flatten
  takes := by
    intro stream room buf n ready
    unfold pollWrite trySendData at ready ⊢
    split at ready
    · rename_i sent free
      split at free
      · cases free
        cases ready
        simp [*]
      · contradiction
    · contradiction
  declines := by
    intro stream room buf pending
    unfold pollWrite at pending ⊢
    split at pending
    · exact absurd rfl (pending _)
    · rfl
  steady _ _ := rfl

end ArtifactStream

/-- A sink takes all it is shown, and nothing else happens to it. -/
def VecSink.writer : AsyncWrite UInt8 VecSink Unit Empty where
  pollWrite sink _ buf := (.ready (.ok buf.length), sink.pollWrite buf)
  event sink _ := sink
  taken := VecSink.body
  takes := by
    intro sink _ buf n ready
    cases ready
    rw [List.take_length]
    rfl
  declines _ _ buf pending := absurd rfl (pending buf.length)
  steady _ _ := rfl

/-- What each read of a stream gives; nothing at its end. -/
structure Source where
  read : Nat → Except String (List UInt8)
  bounded : ∀ n chunk, read n = .ok chunk → chunk.length ≤ bufferSize

namespace Source

def chunk (source : Source) (n : Nat) : List UInt8 :=
  match source.read n with
  | .ok chunk => chunk
  | .error _ => []

/-- The first `n` reads, concatenated. -/
def bytes (source : Source) : Nat → List UInt8
  | 0 => []
  | n + 1 => source.bytes n ++ source.chunk n

/-- The first `n` reads gave data. -/
def Flows (source : Source) (n : Nat) : Prop := ∀ k < n, source.chunk k ≠ []

/-- The stream is the first `n` reads. -/
structure EndsAt (source : Source) (n : Nat) : Prop where
  flows : source.Flows n
  ended : source.read n = .ok []

end Source

inductive ForwardPhase where
  | reading
  | writing (rest : List UInt8)
  | returned (result : Except String Unit)
  deriving DecidableEq

structure Forward (σ : Type) where
  phase : ForwardPhase
  reads : Nat
  dest : σ

inductive ForwardLabel (ε ω : Type) where
  | read
  | write (env : ε)
  /-- what happens to the destination meanwhile -/
  | event (e : ω)

def ForwardLabel.isPoll : ForwardLabel ε ω → Bool
  | .event _ => false
  | _ => true

section Machine
variable {σ ε ω : Type} (w : AsyncWrite UInt8 σ ε ω) (source : Source)

def Forward.start (dest : σ) : Forward σ := ⟨.reading, 0, dest⟩

def Forward.afterRead (s : Forward σ) : Except String (List UInt8) → Forward σ
  | .error error => { s with phase := .returned (.error s!"failed to read: {error}") }
  | .ok [] => { s with phase := .returned (.ok ()) }
  | .ok chunk => { s with phase := .writing chunk, reads := s.reads + 1 }

def Forward.afterWrite (s : Forward σ) : WriteAll UInt8 × σ → Forward σ
  | (.wrote, dest) => { s with phase := .reading, dest := dest }
  | (.left rest, dest) => { s with phase := .writing rest, dest := dest }
  | (.failed error, dest) =>
    { s with phase := .returned (.error s!"failed to write: {error}"), dest := dest }

def forwardMachine : Machine (Forward σ) (ForwardLabel ε ω) where
  step s
    | .read =>
      match s.phase with
      | .reading => some (s.afterRead (source.read s.reads))
      | _ => none
    | .write env =>
      match s.phase with
      | .writing rest => some (s.afterWrite (w.writeTurn s.dest env rest))
      | _ => none
    | .event e => some { s with dest := w.event s.dest e }

/-- What was read and not yet taken. -/
def ForwardPhase.hand : ForwardPhase → List UInt8
  | .writing rest => rest
  | _ => []

/-- A read gives data, the end of the stream or an error; a write takes a part of what is
in hand. -/
inductive ForwardMoves (s : Forward σ) : ForwardLabel ε ω → Forward σ → Prop where
  | data (phase : s.phase = .reading) (read : source.read s.reads = .ok chunk)
      (more : chunk ≠ []) :
      ForwardMoves s .read { s with phase := .writing chunk, reads := s.reads + 1 }
  | ended (phase : s.phase = .reading) (read : source.read s.reads = .ok []) :
      ForwardMoves s .read { s with phase := .returned (.ok ()) }
  | unreadable (phase : s.phase = .reading) (read : source.read s.reads = .error error) :
      ForwardMoves s .read
        { s with phase := .returned (.error s!"failed to read: {error}") }
  | write (phase : s.phase = .writing rest) (turn : w.writeTurn s.dest env rest = turned) :
      ForwardMoves s (.write env) (s.afterWrite turned)
  | event : ForwardMoves s (.event e) { s with dest := w.event s.dest e }

variable {w} {source}

theorem forward_moves (step : (forwardMachine w source).step s l = some t) :
    ForwardMoves w source s l t := by
  cases l with
  | read =>
    simp only [forwardMachine] at step
    split at step
    · rename_i phase
      cases step
      cases read : source.read s.reads with
      | error error => exact .unreadable phase read
      | ok chunk =>
        cases chunk with
        | nil => exact .ended phase read
        | cons byte chunk => exact .data phase read (List.cons_ne_nil _ _)
    · contradiction
  | write env =>
    simp only [forwardMachine] at step
    split at step
    · rename_i rest phase
      cases step
      exact .write phase rfl
    · contradiction
  | event e =>
    cases step
    exact .event

/-- What the reads gave so far is what was taken since the start, what is in hand and what
a failed write left. -/
structure Forwarding (w : AsyncWrite UInt8 σ ε ω) (source : Source) (dest : σ)
    (s : Forward σ) : Prop where
  conserved : ∃ enqueued lost, w.taken s.dest = w.taken dest ++ enqueued ∧
    source.bytes s.reads = enqueued ++ s.phase.hand ++ lost ∧
      ((∀ error, s.phase ≠ .returned (.error error)) → lost = [])
  flows : source.Flows s.reads
  ends : s.phase = .returned (.ok ()) → source.read s.reads = .ok []

theorem forwarding_start (dest : σ) : Forwarding w source dest (.start dest) where
  conserved := ⟨[], [], (List.append_nil _).symm, rfl, fun _ => rfl⟩
  flows _ below := absurd below (Nat.not_lt_zero _)
  ends returned := by contradiction

theorem Source.Flows.succ {n : Nat} (flows : source.Flows n) (more : source.chunk n ≠ []) :
    source.Flows (n + 1) := by
  intro k below
  rcases Nat.lt_succ_iff_lt_or_eq.mp below with earlier | rfl
  · exact flows k earlier
  · exact more

/-- Until it has returned an error, nothing is lost. -/
theorem Forwarding.nothing_lost {dest : σ} (before : Forwarding w source dest s)
    (running : ∀ error, s.phase ≠ .returned (.error error)) :
    ∃ enqueued, w.taken s.dest = w.taken dest ++ enqueued ∧
      source.bytes s.reads = enqueued ++ s.phase.hand := by
  obtain ⟨enqueued, lost, taken, conserved, none⟩ := before.conserved
  rw [none running, List.append_nil] at conserved
  exact ⟨enqueued, taken, conserved⟩

theorem Forwarding.between {dest : σ} (before : Forwarding w source dest s)
    (phase : s.phase = .reading) : w.taken s.dest = w.taken dest ++ source.bytes s.reads := by
  obtain ⟨enqueued, taken, conserved⟩ := before.nothing_lost (by simp [phase])
  rw [phase, ForwardPhase.hand, List.append_nil] at conserved
  · rw [taken, conserved]
  · intro rest
    simp

theorem forwarding_write {dest : σ} (before : Forwarding w source dest s)
    (phase : s.phase = .writing rest) (env : ε) :
    Forwarding w source dest (s.afterWrite (w.writeTurn s.dest env rest)) := by
  obtain ⟨now, later, parts, now_taken, wrote, left⟩ := w.writeTurn_taken s.dest env rest
  obtain ⟨enqueued, taken, conserved⟩ := before.nothing_lost (by simp [phase])
  rw [phase, ForwardPhase.hand, parts, ← List.append_assoc] at conserved
  rw [taken, List.append_assoc] at now_taken
  generalize w.writeTurn s.dest env rest = turned at now_taken wrote left ⊢
  rcases turned with ⟨_ | rest' | error, dest'⟩
  · rw [wrote rfl, ← List.append_nil (_ ++ [])] at conserved
    exact ⟨⟨enqueued ++ now, [], now_taken, conserved, fun _ => rfl⟩, before.flows,
      by simp [Forward.afterWrite]⟩
  · rw [(left rest' rfl).1, ← List.append_nil (_ ++ rest')] at conserved
    exact ⟨⟨enqueued ++ now, [], now_taken, conserved, fun _ => rfl⟩, before.flows,
      by simp [Forward.afterWrite]⟩
  · rw [← List.append_nil (enqueued ++ now)] at conserved
    refine ⟨⟨enqueued ++ now, later, now_taken, conserved, ?_⟩, before.flows,
      by simp [Forward.afterWrite]⟩
    intro running
    exact absurd rfl (running _)

theorem forwarding_step {dest : σ} (before : Forwarding w source dest s)
    (step : (forwardMachine w source).step s l = some t) : Forwarding w source dest t := by
  cases forward_moves step with
  | @data chunk phase read more =>
    have same : source.chunk s.reads = chunk := by rw [Source.chunk, read]
    refine ⟨⟨source.bytes s.reads, [], before.between phase, ?_, fun _ => rfl⟩,
      before.flows.succ (same ▸ more), by simp⟩
    rw [Source.bytes, same]
    exact (List.append_nil _).symm
  | ended phase read =>
    refine ⟨⟨source.bytes s.reads, [], before.between phase, ?_, fun _ => rfl⟩,
      before.flows, fun _ => read⟩
    rw [List.append_nil]
    exact (List.append_nil _).symm
  | unreadable phase read =>
    refine ⟨⟨source.bytes s.reads, [], before.between phase, ?_, fun _ => rfl⟩,
      before.flows, by simp⟩
    rw [List.append_nil]
    exact (List.append_nil _).symm
  | write phase turn =>
    subst turn
    exact forwarding_write before phase _
  | event =>
    obtain ⟨enqueued, lost, taken, conserved⟩ := before.conserved
    exact ⟨⟨enqueued, lost, (w.steady _ _).trans taken, conserved⟩, before.flows, before.ends⟩

theorem forwarding_run {dest : σ} (path : (forwardMachine w source).run (.start dest) ls = some t) :
    Forwarding w source dest t :=
  Machine.invariant (fun _ _ _ before step => forwarding_step before step)
    (forwarding_start dest) path

/-- What the destination took is a first part of what the reads gave; on `Ok` it is all. -/
structure ForwardsExactly (w : AsyncWrite UInt8 σ ε ω) (source : Source) (dest : σ)
    (s : Forward σ) : Prop where
  in_order : ∃ enqueued, w.taken s.dest = w.taken dest ++ enqueued ∧
    enqueued <+: source.bytes s.reads
  flows : source.Flows s.reads
  whole : s.phase = .returned (.ok ()) →
    source.EndsAt s.reads ∧ w.taken s.dest = w.taken dest ++ source.bytes s.reads

theorem Forwarding.forwards_exactly {dest : σ} (after : Forwarding w source dest s) :
    ForwardsExactly w source dest s := by
  refine ⟨?_, after.flows, fun returned => ⟨⟨after.flows, after.ends returned⟩, ?_⟩⟩
  · obtain ⟨enqueued, lost, taken, conserved, _⟩ := after.conserved
    rw [List.append_assoc] at conserved
    exact ⟨enqueued, taken, ⟨_, conserved.symm⟩⟩
  · obtain ⟨enqueued, taken, conserved⟩ := after.nothing_lost (by simp [returned])
    rw [returned] at conserved
    rw [taken, conserved]
    exact congrArg _ (List.append_nil enqueued).symm

end Machine

/-- Under every pattern of full and free, into a body channel or a sink. -/
theorem forward_data_exact (source : Source) :
    (∀ dest ls t, (forwardMachine ArtifactStream.writer source).run (.start dest) ls = some t →
      ForwardsExactly ArtifactStream.writer source dest t) ∧
    (∀ dest ls t, (forwardMachine VecSink.writer source).run (.start dest) ls = some t →
      ForwardsExactly VecSink.writer source dest t) :=
  ⟨fun _ _ _ path => (forwarding_run path).forwards_exactly, fun _ _ _ path => (forwarding_run path).forwards_exactly⟩

/-- Reads of one byte, two bytes and the end. -/
def threeBytes : Source where
  read
    | 0 => .ok [7]
    | 1 => .ok [8, 9]
    | _ => .ok []
  bounded := by
    intro n chunk read
    split at read <;> cases read <;> simp [bufferSize]

theorem full_channel_forwarded :
    ForwardsExactly ArtifactStream.writer threeBytes .new
      ⟨.returned (.ok ()), 2, ⟨[[7], [8, 9]], false⟩⟩ ∧
    ForwardsExactly VecSink.writer threeBytes .new ⟨.returned (.ok ()), 2, ⟨[7, 8, 9]⟩⟩ :=
  ⟨(forward_data_exact threeBytes).1 .new
      [.read, .write false, .write true, .read, .write false, .write false, .write true, .read]
      _ rfl,
    (forward_data_exact threeBytes).2 .new [.read, .write (), .read, .write (), .read] _ rfl⟩

section Closed
variable {source : Source} {dest : ArtifactStream} {s t : Forward ArtifactStream}

def FinitelyPolled (source : Source) (s : Forward ArtifactStream) : Prop :=
  ∃ n, ∀ ls t, (forwardMachine ArtifactStream.writer source).run s ls = some t →
    ls.countP ForwardLabel.isPoll ≤ n

/-- What is owed once the receiver is dropped: finitely many polls, each of which comes to an
answer, and an error if something was not sent. -/
structure GivesUp (source : Source) (dest : ArtifactStream) (s : Forward ArtifactStream) :
    Prop where
  finite : FinitelyPolled source s
  returns : ∀ ls t, (forwardMachine ArtifactStream.writer source).run s ls = some t →
    (∃ result, t.phase = .returned result) ∨ ∃ l, l.isPoll = true ∧
      ((forwardMachine ArtifactStream.writer source).step t l).isSome
  answers : ∀ ls t rest room,
    (forwardMachine ArtifactStream.writer source).run s ls = some t →
    t.phase = .writing rest → (t.dest.pollWrite room rest).1 ≠ .pending
  reports : ∀ ls t, (forwardMachine ArtifactStream.writer source).run s ls = some t →
    t.phase = .returned (.ok ()) →
      ∃ n, source.EndsAt n ∧ t.dest.sent.flatten = dest.sent.flatten ++ source.bytes n

/-- Nothing is in hand, and a read would give no data. -/
def NothingToSend (source : Source) (s : Forward σ) : Prop :=
  match s.phase with
  | .reading => source.chunk s.reads = []
  | .writing _ => False
  | .returned _ => True

/-- The one read that is left. -/
def readsLeft (s : Forward σ) : Nat :=
  match s.phase with
  | .reading => 1
  | _ => 0

theorem nothing_to_send_step (nothing : NothingToSend source s)
    (step : (forwardMachine ArtifactStream.writer source).step s l = some t) :
    NothingToSend source t ∧ readsLeft t + (if l.isPoll = true then 1 else 0) ≤ readsLeft s := by
  cases forward_moves step with
  | data phase read more =>
    rw [NothingToSend, phase] at nothing
    simp [Source.chunk, read, more] at nothing
  | ended phase | unreadable phase => exact ⟨trivial, by simp [readsLeft, phase, ForwardLabel.isPoll]⟩
  | write phase => simp [NothingToSend, phase] at nothing
  | event => exact ⟨nothing, Nat.le_refl _⟩

theorem nothing_to_send_run (nothing : NothingToSend source s)
    (path : (forwardMachine ArtifactStream.writer source).run s ls = some t) :
    NothingToSend source t :=
  Machine.invariant (fun _ _ _ before step => (nothing_to_send_step before step).1) nothing path

/-- Until it has returned, there is something to poll. -/
theorem forward_goes_on (s : Forward ArtifactStream) :
    (∃ result, s.phase = .returned result) ∨ ∃ l, l.isPoll = true ∧
      ((forwardMachine ArtifactStream.writer source).step s l).isSome := by
  cases phase : s.phase with
  | reading => exact .inr ⟨.read, rfl, by simp [forwardMachine, phase]⟩
  | writing rest => exact .inr ⟨.write false, rfl, by simp [forwardMachine, phase]⟩
  | returned result => exact .inl ⟨result, rfl⟩

/-- With something in hand, a dropped receiver is polled again and again. -/
theorem closed_spins (phase : s.phase = .writing rest) (closed : s.dest.closed = true) (n : Nat) :
    (forwardMachine ArtifactStream.writer source).run s (List.replicate n (.write false)) =
      some s := by
  have turn : (forwardMachine ArtifactStream.writer source).step s (.write false) = some s := by
    have pending : ArtifactStream.writer.writeTurn s.dest false rest = (.left rest, s.dest) :=
      AsyncWrite.writeTurn_pending (ArtifactStream.pollWrite_closed closed false rest)
    simp only [forwardMachine, phase, pending, Forward.afterWrite]
    rw [← phase]
  induction n with
  | zero => rfl
  | succ n ih => exact Machine.run_cons.mpr ⟨s, turn, ih⟩

theorem closed_never_finite (phase : s.phase = .writing rest) (closed : s.dest.closed = true) :
    ¬ FinitelyPolled source s := by
  rintro ⟨n, bounded⟩
  have more := bounded _ s (closed_spins phase closed (n + 1))
  simp only [List.countP_replicate, ForwardLabel.isPoll, if_true] at more
  exact Nat.not_succ_le_self n more

theorem FinitelyPolled.step (finite : FinitelyPolled source s)
    (stepped : (forwardMachine ArtifactStream.writer source).step s l = some t) :
    FinitelyPolled source t := by
  obtain ⟨n, bounded⟩ := finite
  refine ⟨n, fun ks u path => ?_⟩
  have longer := bounded (l :: ks) u (Machine.run_cons.mpr ⟨t, stepped, path⟩)
  rw [List.countP_cons] at longer
  exact Nat.le_trans (Nat.le_add_right _ _) longer

theorem data_comes_to_hand {s : Forward ArtifactStream} (phase : s.phase = .reading)
    (data : source.chunk s.reads ≠ []) : ∃ chunk,
      (forwardMachine ArtifactStream.writer source).step s .read =
        some ⟨.writing chunk, s.reads + 1, s.dest⟩ := by
  unfold Source.chunk at data
  cases read : source.read s.reads with
  | error error => simp [read] at data
  | ok chunk =>
    refine ⟨chunk, ?_⟩
    cases chunk with
    | nil => simp [read] at data
    | cons byte rest => simp only [forwardMachine, phase, read, Forward.afterRead]

theorem FinitelyPolled.nothing_to_send {s : Forward ArtifactStream} (finite : FinitelyPolled source s)
    (closed : s.dest.closed = true) : NothingToSend source s := by
  by_contra more
  cases phase : s.phase with
  | reading =>
    rw [NothingToSend, phase] at more
    obtain ⟨chunk, stepped⟩ := data_comes_to_hand phase more
    exact absurd (finite.step stepped) (closed_never_finite rfl closed)
  | writing rest => exact closed_never_finite phase closed finite
  | returned result => exact more (by simp [NothingToSend, phase])

theorem nothing_to_send_finite (nothing : NothingToSend source s) : FinitelyPolled source s := by
  refine ⟨readsLeft s, fun ls t path => ?_⟩
  have bound := Machine.count_le (fun _ _ _ before step => (nothing_to_send_step before step).1)
    (fun _ _ _ before step => (nothing_to_send_step before step).2) nothing path
  exact Nat.le_trans (Nat.le_add_right _ _) bound

theorem gives_up_iff {ls : List (ForwardLabel Bool Unit)}
    (path : (forwardMachine ArtifactStream.writer source).run (.start dest) ls = some s)
    (closed : s.dest.closed = true) : GivesUp source dest s ↔ NothingToSend source s := by
  constructor
  · exact fun owed => owed.finite.nothing_to_send closed
  · intro nothing
    refine ⟨nothing_to_send_finite nothing, fun _ t _ => forward_goes_on t, ?_, ?_⟩
    · intro ls t rest room path phase
      have none := nothing_to_send_run nothing path
      simp [NothingToSend, phase] at none
    · intro ks t path' returned
      have whole : (forwardMachine ArtifactStream.writer source).run (.start dest) (ls ++ ks) =
          some t := by rw [Machine.run_append, path, Option.bind_some, path']
      exact ⟨t.reads, (forwarding_run whole).forwards_exactly.whole returned⟩

/-- Dropped between the last data and the end, the stream comes to its end. -/
theorem late_drop_gives_up :
    GivesUp threeBytes .new ⟨.reading, 2, ⟨[[7], [8, 9]], true⟩⟩ := by
  have path : (forwardMachine ArtifactStream.writer threeBytes).run (.start .new)
      [.read, .write true, .read, .write true, .event ()] =
        some ⟨.reading, 2, ⟨[[7], [8, 9]], true⟩⟩ := rfl
  exact (gives_up_iff path rfl).mpr rfl

/-- Dropped with a byte in hand, it is polled without end. -/
theorem dropped_receiver_spins :
    ¬ ∀ (source : Source) (dest : ArtifactStream) (ls : List (ForwardLabel Bool Unit))
      (s : Forward ArtifactStream),
      (forwardMachine ArtifactStream.writer source).run (.start dest) ls = some s →
      s.dest.closed = true → GivesUp source dest s := by
  intro always
  have owed := always threeBytes .new [.read, .event ()] ⟨.writing [7], 1, ⟨[], true⟩⟩ rfl rfl
  exact closed_never_finite rfl rfl owed.finite

end Closed
end BuildOTron.Native
