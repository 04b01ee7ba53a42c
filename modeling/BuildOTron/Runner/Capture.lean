import BuildOTron.Native.Io
import BuildOTron.Lib.Machine
import Mathlib.Logic.Function.Basic

/-! `execute_command_capture_output`: a child that writes to two pipes, a spawned
forwarder for each, and the caller, which waits for the child alone and then takes
what the sinks hold. -/
namespace BuildOTron.Runner
open Transition Native

/-- A child's exit; there is no code when a signal ended it. -/
structure ExitStatus where
  code : Option Int32
  deriving DecidableEq, Repr

def ExitStatus.success (status : ExitStatus) : Bool := status.code = some 0

structure CommandOutput where
  exitStatus : ExitStatus
  stdout : List UInt8
  stderr : List UInt8
  deriving DecidableEq, Repr

inductive Output where
  | stdout
  | stderr
  deriving DecidableEq, Repr

/-- One of the child's pipes, its forwarder and its sink. -/
structure Forwarded where
  pipe : Conduit UInt8
  reading : Bool
  sink : VecSink

inductive CapturePhase where
  | waiting
  | takeStdout (status : ExitStatus)
  | takeStderr (status : ExitStatus) (stdout : List UInt8)
  | returned (output : CommandOutput)
  deriving DecidableEq, Repr

structure Capture where
  outputs : Output → Forwarded
  child : Option ExitStatus
  phase : CapturePhase

inductive CaptureLabel where
  /-- the child -/
  | write (output : Output) (chunk : List UInt8)
  | exit (status : ExitStatus)
  /-- the forwarders -/
  | read (output : Output) (n : Nat)
  | deliver (output : Output)
  | eof (output : Output)
  /-- the caller -/
  | wait
  | takeStdout
  | takeStderr

namespace Capture

def start : Capture := ⟨fun _ => ⟨.ofWritten [], true, .new⟩, none, .waiting⟩

def set (s : Capture) (output : Output) (forwarded : Forwarded) : Capture :=
  { s with outputs := Function.update s.outputs output forwarded }

end Capture

def forwardStep (s : Capture) (output : Output) : CaptureLabel → Option Forwarded
  | .write _ chunk =>
    if s.child.isNone then
      some { s.outputs output with pipe := (s.outputs output).pipe.write chunk }
    else none
  | .read _ n =>
    if (s.outputs output).reading then
      (forwardRead (s.outputs output).pipe n).map fun pipe => { s.outputs output with pipe := pipe }
    else none
  | .deliver _ =>
    (s.outputs output).pipe.deliver.map fun pipe =>
      { s.outputs output with
        pipe := pipe
        sink := (s.outputs output).sink.pollWrite (s.outputs output).pipe.hand }
  | .eof _ =>
    if (s.outputs output).reading && (s.outputs output).pipe.atEof && s.child.isSome then
      some { s.outputs output with reading := false }
    else none
  | _ => none

/-- A pipe is at its end when it is empty and the child is gone. -/
def captureMachine : Machine Capture CaptureLabel where
  step s
    | .exit status => if s.child.isNone then some { s with child := some status } else none
    | .wait =>
      match s.phase, s.child with
      | .waiting, some status => some { s with phase := .takeStdout status }
      | _, _ => none
    | .takeStdout =>
      match s.phase with
      | .takeStdout status =>
        let (stdout, sink) := (s.outputs .stdout).sink.takeBuf
        some { s.set .stdout { s.outputs .stdout with sink := sink } with
          phase := .takeStderr status stdout }
      | _ => none
    | .takeStderr =>
      match s.phase with
      | .takeStderr status stdout =>
        let (stderr, sink) := (s.outputs .stderr).sink.takeBuf
        some { s.set .stderr { s.outputs .stderr with sink := sink } with
          phase := .returned ⟨status, stdout, stderr⟩ }
      | _ => none
    | .write output chunk => (forwardStep s output (.write output chunk)).map (s.set output)
    | .read output n => (forwardStep s output (.read output n)).map (s.set output)
    | .deliver output => (forwardStep s output (.deliver output)).map (s.set output)
    | .eof output => (forwardStep s output (.eof output)).map (s.set output)

/-- A sink is taken only once its forwarder has passed everything on. -/
def TakenDrained (s : Capture) : CaptureLabel → Prop
  | .takeStdout => (s.outputs .stdout).pipe.Drained
  | .takeStderr => (s.outputs .stderr).pipe.Drained
  | _ => True

instance (s : Capture) : (l : CaptureLabel) → Decidable (TakenDrained s l)
  | .takeStdout => inferInstanceAs (Decidable (s.outputs .stdout).pipe.Drained)
  | .takeStderr => inferInstanceAs (Decidable (s.outputs .stderr).pipe.Drained)
  | .write _ _ | .exit _ | .read _ _ | .deliver _ | .eof _ | .wait => .isTrue trivial

/-- Every step of the child, the two forwarders and the caller. -/
inductive CaptureMoves (s : Capture) : CaptureLabel → Capture → Prop where
  | write (running : s.child = none) : CaptureMoves s (.write output chunk)
      (s.set output { s.outputs output with pipe := (s.outputs output).pipe.write chunk })
  | exit (running : s.child = none) :
      CaptureMoves s (.exit status) { s with child := some status }
  | read (read : forwardRead (s.outputs output).pipe n = some pipe) :
      CaptureMoves s (.read output n) (s.set output { s.outputs output with pipe := pipe })
  | deliver (delivered : (s.outputs output).pipe.deliver = some pipe) :
      CaptureMoves s (.deliver output) (s.set output { s.outputs output with
        pipe := pipe
        sink := (s.outputs output).sink.pollWrite (s.outputs output).pipe.hand })
  | eof : CaptureMoves s (.eof output)
      (s.set output { s.outputs output with reading := false })
  | wait (phase : s.phase = .waiting) (exited : s.child = some status) :
      CaptureMoves s .wait { s with phase := .takeStdout status }
  | takeStdout (phase : s.phase = .takeStdout status) : CaptureMoves s .takeStdout
      { s.set .stdout { s.outputs .stdout with sink := .new } with
        phase := .takeStderr status (s.outputs .stdout).sink.body }
  | takeStderr (phase : s.phase = .takeStderr status stdout) : CaptureMoves s .takeStderr
      { s.set .stderr { s.outputs .stderr with sink := .new } with
        phase := .returned ⟨status, stdout, (s.outputs .stderr).sink.body⟩ }

theorem capture_moves (stepped : captureMachine.step s l = some t) : CaptureMoves s l t := by
  cases l with
  | write output chunk =>
    obtain ⟨forwarded, moved, rfl⟩ := Option.map_eq_some_iff.mp stepped
    simp only [forwardStep, Option.ite_none_right_eq_some, Option.some.injEq,
      Option.isNone_iff_eq_none] at moved
    obtain ⟨running, rfl⟩ := moved
    exact .write running
  | exit status =>
    simp only [captureMachine, Option.ite_none_right_eq_some, Option.some.injEq,
      Option.isNone_iff_eq_none] at stepped
    obtain ⟨running, rfl⟩ := stepped
    exact .exit running
  | read output n =>
    obtain ⟨forwarded, moved, rfl⟩ := Option.map_eq_some_iff.mp stepped
    simp only [forwardStep, Option.ite_none_right_eq_some] at moved
    obtain ⟨pipe, read, rfl⟩ := Option.map_eq_some_iff.mp moved.2
    exact .read read
  | deliver output =>
    obtain ⟨forwarded, moved, rfl⟩ := Option.map_eq_some_iff.mp stepped
    obtain ⟨pipe, delivered, rfl⟩ := Option.map_eq_some_iff.mp moved
    exact .deliver delivered
  | eof output =>
    obtain ⟨forwarded, moved, rfl⟩ := Option.map_eq_some_iff.mp stepped
    simp only [forwardStep, Option.ite_none_right_eq_some, Option.some.injEq] at moved
    obtain ⟨_, rfl⟩ := moved
    exact .eof
  | wait =>
    simp only [captureMachine] at stepped
    split at stepped
    · rename_i status phase exited
      cases stepped
      exact .wait phase exited
    · contradiction
  | takeStdout =>
    simp only [captureMachine] at stepped
    split at stepped
    · rename_i status phase
      cases stepped
      exact .takeStdout phase
    · contradiction
  | takeStderr =>
    simp only [captureMachine] at stepped
    split at stepped
    · rename_i status stdout phase
      cases stepped
      exact .takeStderr phase
    · contradiction

/-- What the caller has taken of an output so far. -/
def CapturePhase.taken? : CapturePhase → Output → Option (List UInt8)
  | .waiting, _ | .takeStdout _, _ | .takeStderr _ _, .stderr => none
  | .takeStderr _ stdout, .stdout => some stdout
  | .returned output, .stdout => some output.stdout
  | .returned output, .stderr => some output.stderr

/-- The caller moves on once the child is gone, and a sink that it has not taken
holds what its forwarder has delivered. -/
structure Capturing (s : Capture) : Prop where
  exited : s.phase = .waiting ∨ s.child.isSome
  sinks : ∀ output, s.phase.taken? output = none →
    (s.outputs output).sink.body = (s.outputs output).pipe.delivered

namespace Capture
variable {s : Capture} {output : Output} {forwarded : Forwarded}

@[simp] theorem set_phase : (s.set output forwarded).phase = s.phase := rfl

@[simp] theorem set_child : (s.set output forwarded).child = s.child := rfl

@[simp] theorem set_self : (s.set output forwarded).outputs output = forwarded :=
  Function.update_self ..

theorem set_other (other : o ≠ output) : (s.set output forwarded).outputs o = s.outputs o :=
  Function.update_of_ne other ..

/-- What holds of each output holds after one of them is replaced. -/
theorem set_forall {P : Output → Forwarded → Prop} (rest : ∀ o, o ≠ output → P o (s.outputs o))
    (replaced : P output forwarded) (o : Output) : P o ((s.set output forwarded).outputs o) := by
  by_cases same : o = output
  · subst same
    rw [set_self]
    exact replaced
  · rw [set_other same]
    exact rest o same

end Capture

/-- A forwarder's step keeps its sink up with its pipe. -/
theorem Capturing.set (capturing : Capturing s)
    (sink : (s.outputs output).sink.body = (s.outputs output).pipe.delivered →
      forwarded.sink.body = forwarded.pipe.delivered) : Capturing (s.set output forwarded) := by
  refine ⟨capturing.exited, ?_⟩
  apply Capture.set_forall (P := fun o f => s.phase.taken? o = none → f.sink.body = f.pipe.delivered)
  · intro o _
    exact capturing.sinks o
  · intro held
    exact sink (capturing.sinks output held)

theorem step_capturing (capturing : Capturing s) (stepped : captureMachine.step s l = some t) :
    Capturing t := by
  cases capture_moves stepped with
  | write | eof => exact capturing.set (fun sink => sink)
  | exit => exact ⟨.inr rfl, capturing.sinks⟩
  | read read =>
    have same := Conduit.read_written read
    exact capturing.set fun sink => sink.trans same.2.symm
  | @deliver output pipe delivered =>
    have moved := Conduit.deliver_eq delivered
    apply capturing.set
    intro sink
    simp only [VecSink.pollWrite]
    rw [sink, moved.2.1]
  | wait phase exited =>
    refine ⟨.inr (by rw [exited]; rfl), ?_⟩
    intro output _
    exact capturing.sinks output (by rw [phase]; rfl)
  | takeStdout phase =>
    have exited := capturing.exited.resolve_left (by rw [phase]; simp)
    refine ⟨.inr exited, ?_⟩
    intro output held
    cases output with
    | stdout => contradiction
    | stderr =>
      have sink := capturing.sinks .stderr (by rw [phase]; rfl)
      exact sink
  | takeStderr phase =>
    have exited := capturing.exited.resolve_left (by rw [phase]; simp)
    refine ⟨.inr exited, ?_⟩
    intro output held
    cases output <;> contradiction

/-- Whatever the caller has taken so far is all that was written. -/
def TakenWhole (s : Capture) : Prop :=
  ∀ output taken, s.phase.taken? output = some taken → taken = (s.outputs output).pipe.written

theorem takenWhole_of_none (untaken : ∀ output, s.phase.taken? output = none) : TakenWhole s := by
  intro output taken held
  rw [untaken output] at held
  contradiction

/-- A forwarder's step does not change what was written. -/
theorem takenWhole_set (same : forwarded.pipe.written = (s.outputs output).pipe.written) :
    TakenWhole (s.set output forwarded) ↔ TakenWhole s := by
  have written : ∀ o, ((s.set output forwarded).outputs o).pipe.written =
      (s.outputs o).pipe.written :=
    Capture.set_forall (P := fun o f => f.pipe.written = (s.outputs o).pipe.written)
      (fun _ _ => rfl) same
  simp only [TakenWhole, written, Capture.set_phase]

/-- A step leaves what is taken whole exactly when it was, and the step takes a
sink only once it is full. -/
theorem step_takenWhole (capturing : Capturing s) (stepped : captureMachine.step s l = some t) :
    TakenWhole t ↔ TakenDrained s l ∧ TakenWhole s := by
  cases capture_moves stepped with
  | @write output chunk running =>
    have waiting : s.phase = .waiting := capturing.exited.resolve_right (by rw [running]; simp)
    have untaken : ∀ output, s.phase.taken? output = none := by
      intro output
      rw [waiting]
      rfl
    exact iff_of_true (takenWhole_of_none untaken) ⟨trivial, takenWhole_of_none untaken⟩
  | exit => exact (and_iff_right trivial).symm
  | read read =>
    rw [takenWhole_set (Conduit.read_written read).1]
    exact (and_iff_right trivial).symm
  | deliver delivered =>
    rw [takenWhole_set (Conduit.deliver_eq delivered).1]
    exact (and_iff_right trivial).symm
  | @eof output =>
    let ended : Forwarded := { s.outputs output with reading := false }
    have same : TakenWhole (s.set output ended) ↔ TakenWhole s := takenWhole_set rfl
    exact same.trans (and_iff_right trivial).symm
  | wait phase exited =>
    refine iff_of_true (takenWhole_of_none fun _ => rfl) ⟨trivial, takenWhole_of_none ?_⟩
    intro output
    rw [phase]
    rfl
  | takeStdout phase =>
    have untaken : ∀ output, s.phase.taken? output = none := by
      intro output
      rw [phase]
      rfl
    have sink := capturing.sinks .stdout (untaken .stdout)
    rw [and_iff_left (takenWhole_of_none untaken), TakenDrained, Conduit.drained_iff, ← sink]
    constructor
    · intro whole
      exact whole .stdout _ rfl
    · intro full output taken held
      cases output with
      | stderr => contradiction
      | stdout =>
        cases held
        exact full
  | @takeStderr status stdout phase =>
    have sink := capturing.sinks .stderr (by rw [phase]; rfl)
    rw [TakenDrained, Conduit.drained_iff, ← sink]
    constructor
    · intro whole
      refine ⟨whole .stderr _ rfl, ?_⟩
      intro output taken held
      rw [phase] at held
      cases output with
      | stderr => contradiction
      | stdout => exact whole .stdout taken held
    · rintro ⟨full, whole⟩ output taken held
      cases output with
      | stderr =>
        cases held
        exact full
      | stdout =>
        have before : s.phase.taken? .stdout = some stdout := by
          rw [phase]
          rfl
        cases held
        exact whole .stdout stdout before

theorem run_takenWhole (capturing : Capturing s) (path : captureMachine.run s labels = some t) :
    TakenWhole t ↔ captureMachine.Guarded TakenDrained s labels ∧ TakenWhole s := by
  induction labels generalizing s with
  | nil =>
    cases path
    exact (and_iff_right trivial).symm
  | cons l rest ih =>
    obtain ⟨u, stepped, path⟩ := Machine.run_cons.mp path
    rw [ih (step_capturing capturing stepped) path, step_takenWhole capturing stepped,
      Machine.guarded_cons stepped]
    tauto

theorem start_capturing : Capturing .start := ⟨.inl rfl, fun _ _ => rfl⟩

theorem returned_takenWhole (returned : s.phase = .returned output) :
    TakenWhole s ↔ output.stdout = (s.outputs .stdout).pipe.written ∧
      output.stderr = (s.outputs .stderr).pipe.written := by
  constructor
  · intro whole
    exact ⟨whole .stdout _ (by rw [returned]; rfl), whole .stderr _ (by rw [returned]; rfl)⟩
  · rintro ⟨stdout, stderr⟩ stream taken held
    rw [returned] at held
    cases stream <;> cases held <;> assumption

/-- However the child, the two forwarders and the caller interleave, the captured
output is what the child wrote exactly when neither sink was taken ahead of its
forwarder. -/
theorem captured_output_complete_iff (labels : List CaptureLabel) (last : Capture)
    (output : CommandOutput) (path : captureMachine.run .start labels = some last)
    (returned : last.phase = .returned output) :
    (output.stdout = (last.outputs .stdout).pipe.written ∧
      output.stderr = (last.outputs .stderr).pipe.written) ↔
      captureMachine.Guarded TakenDrained .start labels := by
  rw [← returned_takenWhole returned, run_takenWhole start_capturing path]
  exact and_iff_left (takenWhole_of_none fun _ => rfl)

/-- Both forwarders are done before the caller hears of the exit. -/
def forwardedFirst : List CaptureLabel :=
  [.write .stdout [104, 105], .read .stdout 2, .write .stderr [33], .deliver .stdout,
    .exit ⟨some 0⟩, .read .stderr 1, .deliver .stderr, .eof .stdout, .eof .stderr,
    .wait, .takeStdout, .takeStderr]

theorem forwarded_output_complete : ∃ s output, captureMachine.run .start forwardedFirst = some s ∧
    s.phase = .returned output ∧ output.exitStatus.success = true ∧
    output.stdout = (s.outputs .stdout).pipe.written ∧ output.stderr = (s.outputs .stderr).pipe.written ∧
    captureMachine.Guarded TakenDrained .start forwardedFirst := by
  have runs : (captureMachine.run .start forwardedFirst).map
      (fun s => (s.phase, (s.outputs .stdout).pipe.written, (s.outputs .stderr).pipe.written)) =
      some (.returned ⟨⟨some 0⟩, [104, 105], [33]⟩, [104, 105], [33]) := rfl
  obtain ⟨s, path, same⟩ := Option.map_eq_some_iff.mp runs
  obtain ⟨returned, same⟩ := Prod.mk.inj same
  obtain ⟨stdout, stderr⟩ := Prod.mk.inj same
  refine ⟨s, _, path, returned, rfl, stdout.symm, stderr.symm, ?_⟩
  exact (captured_output_complete_iff forwardedFirst s _ path returned).mp ⟨stdout.symm, stderr.symm⟩

/-- The child is gone before its forwarder gets to read. -/
def takenFirst : List CaptureLabel :=
  [.write .stdout [104, 105], .exit ⟨some 0⟩, .wait, .takeStdout, .takeStderr]

theorem output_taken_early : ¬ ∀ (labels : List CaptureLabel) (last : Capture)
    (output : CommandOutput), captureMachine.run .start labels = some last →
    last.phase = .returned output → output.exitStatus.success = true →
    output.stdout = (last.outputs .stdout).pipe.written ∧
      output.stderr = (last.outputs .stderr).pipe.written := by
  intro claim
  have runs : (captureMachine.run .start takenFirst).map
      (fun s => (s.phase, (s.outputs .stdout).pipe.written)) =
        some (.returned ⟨⟨some 0⟩, [], []⟩, [104, 105]) := rfl
  obtain ⟨s, path, same⟩ := Option.map_eq_some_iff.mp runs
  obtain ⟨returned, written⟩ := Prod.mk.inj same
  have whole := (claim takenFirst s _ path returned rfl).1
  rw [written] at whole
  contradiction

end BuildOTron.Runner
