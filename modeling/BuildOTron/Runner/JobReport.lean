import BuildOTron.Runner.RunningJob

/-! What `RunningJob::run` reports. Every call only adds commands and metrics to what
was sent, and the status is sent unless some call panics. -/
namespace BuildOTron.Runner

def IsReport : ClientProto → Prop
  | .command _ | .metric _ _ => True
  | _ => False

/-- All that was sent since is commands and metrics. -/
def Reports (s t : RunningJob) : Prop :=
  ∃ reports, t.sent = s.sent ++ reports ∧ ∀ message ∈ reports, IsReport message

theorem reports_of_sent (same : t.sent = s.sent) : Reports s t :=
  ⟨[], by rw [same, List.append_nil], by simp⟩

instance : Std.Refl Reports := ⟨fun _ => reports_of_sent rfl⟩

instance : IsTrans RunningJob Reports where
  trans := by
    rintro s t u ⟨first, sent, all⟩ ⟨later, sent', all'⟩
    refine ⟨first ++ later, by rw [sent', sent, List.append_assoc], ?_⟩
    intro message member
    rcases List.mem_append.mp member with early | late
    · exact all message early
    · exact all' message late

open Effect

theorem sendTyped_reports (report : IsReport message) :
    Keeps Reports (sendTyped message : Effect RunningJob ε Unit) := by
  apply keeps_modify
  intro s
  refine ⟨[message], rfl, ?_⟩
  intro m member
  exact List.mem_singleton.mp member ▸ report

theorem executeCommand_reports :
    Keeps Reports (executeCommand command name execution) := by
  apply Keeps.bind
  · exact keeps_modify fun s => reports_of_sent rfl
  · intro _
    exact keeps_lift _

section
variable {print : Printers} {accepts : String → String → Bool}

theorem executeCommandAndReport_reports :
    Keeps Reports (executeCommandAndReport accepts command name desc execution) := by
  apply Keeps.bind
  · exact (keeps_lift _).map _
  intro _
  apply Keeps.bind
  · exact (keeps_lift _).map _
  intro _
  apply Keeps.bind
  · exact executeCommand_reports
  intro _
  exact keeps_pure _

theorem cloneRemote_reports :
    Keeps Reports (cloneRemote accepts job clone checkout) := by
  apply Keeps.bind
  · exact executeCommandAndReport_reports.map _
  intro _
  apply Keeps.bind
  · exact keeps_lift _
  intro _
  apply Keeps.bind
  · exact executeCommandAndReport_reports.map _
  intro _
  exact keeps_lift _

theorem runWithOutput_reports :
    Keeps Reports (runWithOutput print command workingDir env execution) := by
  apply Keeps.bind
  · exact keeps_lift _
  rintro ⟨cmd, humanName⟩
  apply Keeps.bind
  · exact executeCommand_reports
  intro _
  apply Keeps.bind
  · exact keeps_lift _
  intro _
  exact keeps_pure _

theorem runCommand_reports :
    Keeps Reports (runCommand print accepts command workingDir env execution) := by
  apply Keeps.bind
  · exact sendTyped_reports trivial
  intro _
  apply Keeps.bind
  · exact keeps_lift _
  rintro ⟨cmd, humanName⟩
  apply Keeps.bind
  · exact executeCommandAndReport_reports
  intro _
  apply Keeps.bind
  · exact sendTyped_reports trivial
  intro _
  exact keeps_lift _

theorem artifact_reports :
    Keeps Reports (artifact print accepts path name upload) := by
  apply Keeps.bind
  · exact keeps_lift _
  intro default
  apply Keeps.bind
  · exact (keeps_lift _).map _
  intro _
  cases upload with
  | uploaded => exact keeps_pure _
  | missing => exact keeps_lift _
  | failed error => exact keeps_lift _

theorem call_reports (args : List LuaValue) (function : BuildFunction) :
    Keeps Reports (function.call print accepts args) := by
  cases function with
  | hello => exact keeps_pure _
  | nowMs => exact keeps_pure _
  | luaError message => exact keeps_lift _
  | run execution => exact (keeps_lift _).bind fun _ => runCommand_reports.map _
  | checkOutput execution =>
    apply Keeps.bind
    · exact (keeps_lift _).bind fun _ => runWithOutput_reports.map _
    intro _
    exact keeps_pure _
  | dependencies which => exact (keeps_lift _).bind fun _ => keeps_lift _
  | metric =>
    exact (keeps_lift _).bind fun _ => (keeps_lift _).bind fun _ => sendTyped_reports trivial
  | error => exact (keeps_lift _).bind fun _ => keeps_lift _
  | artifact upload =>
    exact (keeps_lift _).bind fun _ => (keeps_lift _).bind fun _ => artifact_reports
  | environmentHas which =>
    exact (keeps_lift _).bind fun _ => (keeps_lift _).bind fun _ => keeps_pure _
  | environmentSize stat =>
    exact (keeps_lift _).bind fun _ => (keeps_lift _).bind fun _ => keeps_pure _
  | stepStart => exact (keeps_lift _).bind fun _ => keeps_modify fun _ => reports_of_sent rfl
  | stepPush => exact (keeps_lift _).bind fun _ => keeps_modify fun _ => reports_of_sent rfl
  | stepAdvance => exact (keeps_lift _).bind fun _ => keeps_modify fun _ => reports_of_sent rfl

theorem runBuild_reports (script : List ScriptCall) :
    Keeps Reports (runBuild print accepts script) := by
  induction script with
  | nil => exact keeps_pure _
  | cons call rest ih => exact ((call_reports call.args call.function).map _).bind fun _ => ih

theorem runGoodfile_reports (goodfile : Goodfile) :
    Keeps Reports (runGoodfile print accepts goodfile) := by
  cases goodfile with
  | found script => exact ((runBuild_reports script).map _).bind fun _ => keeps_pure _
  | notFound build test =>
    exact ((runBuild_reports (defaultRustGoodfile build test)).map _).bind fun _ => keeps_pure _
  | unreadable => exact keeps_lift _
  | inaccessible => exact keeps_lift _

end

/-! How calls end, by what they are given. -/

def Execution.succeeds : Execution → Bool
  | .exited output => output.exitStatus.success
  | _ => false

/-- The artifacts for both outputs of a command are accepted. -/
def LogsAccepted (accepts : String → String → Bool) (name desc : String) : Prop :=
  accepts s!"{name} (stdout)" s!"{desc} (stdout)" ∧ accepts s!"{name} (stderr)" s!"{desc} (stderr)"

/-- The name and description `run_command` uses for its logs. -/
def CommandLogged (accepts : String → String → Bool) (command : List String) : Prop :=
  let humanName := " ".intercalate command
  LogsAccepted accepts s!"{humanName} log" humanName

section
variable {print : Printers} {accepts : String → String → Bool} {s : RunningJob}

theorem executeCommand_eq_ok :
    (executeCommand command name execution s).1 = .ok output ↔ execution = .exited output := by
  cases execution <;> simp [executeCommand, bind_eq_ok, Execution.wait]

theorem executeCommand_ne_panic : (executeCommand command name execution s).1 ≠ .panic := by
  cases execution <;> simp [executeCommand, bind_eq_panic, Execution.wait]

theorem executeCommandAndReport_eq_ok :
    (executeCommandAndReport accepts command name desc execution s).1 = .ok status ↔
      LogsAccepted accepts name desc ∧ ∃ output, execution = .exited output ∧
        output.exitStatus = status := by
  simp [executeCommandAndReport, createArtifact, bind_eq_ok, Outcome.expect_eq_ok,
    Outcome.ensure_eq_ok, executeCommand_eq_ok, LogsAccepted, and_assoc]

theorem executeCommandAndReport_eq_panic :
    (executeCommandAndReport accepts command name desc execution s).1 = .panic ↔
      ¬ LogsAccepted accepts name desc := by
  cases stdout : accepts s!"{name} (stdout)" s!"{desc} (stdout)" <;>
    simp [executeCommandAndReport, createArtifact, bind_eq_panic, Outcome.expect_eq_ok, stdout,
      Outcome.expect_eq_panic, Outcome.ensure_eq_ok, executeCommand_ne_panic, LogsAccepted]

theorem succeeds_iff {execution : Execution} : execution.succeeds = true ↔
    ∃ output, execution = .exited output ∧ output.exitStatus.success = true := by
  cases execution <;> simp [Execution.succeeds]

theorem cloneRemote_eq_ok : (cloneRemote accepts job clone checkout s).1 = .ok value ↔
    (LogsAccepted accepts "git clone log" s!"git clone {job.remoteUrl} tmpdir" ∧
      clone.succeeds = true) ∧
    LogsAccepted accepts "git checkout log" s!"git checkout {job.commit}" ∧
      checkout.succeeds = true := by
  cases clone <;> simp [cloneRemote, bind_eq_ok, Outcome.mapErr_eq_ok, Outcome.ensure_eq_ok,
    executeCommandAndReport_eq_ok, succeeds_iff, and_assoc]

theorem cloneRemote_eq_panic : (cloneRemote accepts job clone checkout s).1 = .panic ↔
    ¬ LogsAccepted accepts "git clone log" s!"git clone {job.remoteUrl} tmpdir" ∨
    (LogsAccepted accepts "git clone log" s!"git clone {job.remoteUrl} tmpdir" ∧
      clone.succeeds = true) ∧
        ¬ LogsAccepted accepts "git checkout log" s!"git checkout {job.commit}" := by
  cases clone <;> simp [cloneRemote, bind_eq_panic, Outcome.mapErr_eq_ok, Outcome.mapErr_eq_panic,
    Outcome.ensure_eq_ok, Outcome.ensure_ne_panic, executeCommandAndReport_eq_ok,
    executeCommandAndReport_eq_panic, succeeds_iff, and_assoc]

theorem runCommand_eq_ok :
    (runCommand print accepts command workingDir env execution s).1 = .ok value ↔
      command ≠ [] ∧ CommandLogged accepts command ∧ execution.succeeds = true := by
  cases command with
  | nil => simp [runCommand, prepCommand, bind_eq_ok, sendTyped]
  | cons program args =>
    simp [runCommand, prepCommand, bind_eq_ok, sendTyped, Outcome.ensure_eq_ok,
      executeCommandAndReport_eq_ok, succeeds_iff, CommandLogged, and_assoc]

theorem runCommand_eq_panic :
    (runCommand print accepts command workingDir env execution s).1 = .panic ↔
      command = [] ∨ ¬ CommandLogged accepts command := by
  cases command with
  | nil => simp [runCommand, prepCommand, bind_eq_panic, sendTyped]
  | cons program args =>
    simp [runCommand, prepCommand, bind_eq_panic, sendTyped, Outcome.ensure_ne_panic,
      executeCommandAndReport_eq_panic, CommandLogged]

theorem runWithOutput_eq_ok :
    (∃ output, (runWithOutput print command workingDir env execution s).1 = .ok output) ↔
      command ≠ [] ∧ execution.succeeds = true := by
  cases command with
  | nil => simp [runWithOutput, prepCommand, bind_eq_ok]
  | cons program args =>
    simp [runWithOutput, prepCommand, bind_eq_ok, Outcome.ensure_eq_ok, executeCommand_eq_ok,
      succeeds_iff]

theorem runWithOutput_eq_panic :
    (runWithOutput print command workingDir env execution s).1 = .panic ↔ command = [] := by
  cases command with
  | nil => simp [runWithOutput, prepCommand, bind_eq_panic]
  | cons program args =>
    simp [runWithOutput, prepCommand, bind_eq_panic, Outcome.ensure_ne_panic,
      executeCommand_ne_panic]

theorem hasCmd_eq_ok {which : String → Except String Bool} :
    hasCmd which name = .ok found ↔ which name = .ok found := by
  unfold hasCmd
  cases which name <;> simp

theorem hasCmd_ne_panic (which : String → Except String Bool) (name : String) :
    hasCmd which name ≠ .panic := by
  unfold hasCmd
  cases which name <;> simp

theorem missingDeps_eq_nil {which : String → Except String Bool} {commands : List String} :
    missingDeps which commands = .ok [] ↔ ∀ command ∈ commands, which command = .ok true := by
  induction commands with
  | nil => simp [missingDeps]
  | cons command rest ih =>
    simp only [missingDeps, Outcome.bind_eq_ok, hasCmd_eq_ok, Outcome.pure_eq, Outcome.ok.injEq,
      List.forall_mem_cons, ← ih]
    constructor
    · rintro ⟨found, present, missing, later, none_missing⟩
      cases found with
      | false => simp at none_missing
      | true =>
        rw [if_pos rfl] at none_missing
        exact ⟨present, none_missing ▸ later⟩
    · rintro ⟨present, later⟩
      exact ⟨true, present, [], later, rfl⟩

theorem missingDeps_ne_panic (which : String → Except String Bool) (commands : List String) :
    missingDeps which commands ≠ .panic := by
  induction commands with
  | nil => simp [missingDeps]
  | cons command rest ih => simp [missingDeps, Outcome.bind_eq_panic, hasCmd_ne_panic, ih]

theorem checkDependencies_eq_ok {which : String → Except String Bool} {commands : List String} :
    checkDependencies which commands = .ok value ↔
      ∀ command ∈ commands, which command = .ok true := by
  simp [checkDependencies, Outcome.bind_eq_ok, Outcome.ensure_eq_ok, ← missingDeps_eq_nil]

theorem checkDependencies_ne_panic (which : String → Except String Bool) (commands : List String) :
    checkDependencies which commands ≠ .panic := by
  simp [checkDependencies, Outcome.bind_eq_panic, Outcome.ensure_ne_panic, missingDeps_ne_panic]

theorem defaultName_ne_panic (path : String) : defaultName path ≠ .panic := by
  unfold defaultName
  split <;> simp

/-- The artifact of a call for `path` and `name` is accepted. -/
def ArtifactAccepted (accepts : String → String → Bool) (path : String) (name : Option String)
    (default : String) : Prop :=
  let name := name.getD default
  accepts name s!"{name} (from {path})"

theorem artifact_eq_ok : (artifact print accepts path name upload s).1 = .ok value ↔
    ∃ default, defaultName path = .ok default ∧ ArtifactAccepted accepts path name default ∧
      upload = .uploaded := by
  cases upload <;> simp [artifact, createArtifact, bind_eq_ok, Outcome.expect_eq_ok,
    Outcome.ensure_eq_ok, ArtifactAccepted]

theorem artifact_eq_panic : (artifact print accepts path name upload s).1 = .panic ↔
    ∃ default, defaultName path = .ok default ∧
      (¬ ArtifactAccepted accepts path name default ∨ upload = .missing) := by
  cases upload <;> simp [artifact, createArtifact, bind_eq_panic, Outcome.expect_eq_ok,
    Outcome.expect_eq_panic, Outcome.ensure_eq_ok, ArtifactAccepted, defaultName_ne_panic]

end

section
variable (accepts : String → String → Bool)

/-- The calls that panic: for arguments that are read with `expect` or `unwrap`, an empty
command, a refused artifact or a missing file. -/
def BuildFunction.Panics (args : List LuaValue) : BuildFunction → Prop
  | .run _ => CommandGarbled (arg args 0) ∨ ∃ command, CommandReads (arg args 0) command ∧
      (ParamsGarbled (arg args 1) ∨
        ParamsRead (arg args 1) ∧ (command = [] ∨ ¬ CommandLogged accepts command))
  | .checkOutput _ => CommandGarbled (arg args 0) ∨ ∃ command, CommandReads (arg args 0) command ∧
      (ParamsGarbled (arg args 1) ∨ ParamsRead (arg args 1) ∧ command = [])
  | .dependencies _ => (arg args 0).Endless
  | .artifact upload => ∃ path name default, (arg args 0).toText = .ok path ∧
      (arg args 1).toOptionalText = .ok name ∧ defaultName path = .ok default ∧
        (¬ ArtifactAccepted accepts path name default ∨ upload = .missing)
  | _ => False

/-- The calls that return to the script without an error. -/
def BuildFunction.Returns (args : List LuaValue) : BuildFunction → Prop
  | .hello | .nowMs => True
  | .run execution => ∃ command, CommandReads (arg args 0) command ∧ ParamsRead (arg args 1) ∧
      command ≠ [] ∧ CommandLogged accepts command ∧ execution.succeeds
  | .checkOutput execution => ∃ command, CommandReads (arg args 0) command ∧
      ParamsRead (arg args 1) ∧ command ≠ [] ∧ execution.succeeds
  | .dependencies which => ∃ commands, (arg args 0).TextsRead commands ∧
      ∀ command ∈ commands, which command = .ok true
  | .metric => (arg args 0).IsText ∧ (arg args 1).IsText
  | .artifact upload => ∃ path name default, (arg args 0).toText = .ok path ∧
      (arg args 1).toOptionalText = .ok name ∧ defaultName path = .ok default ∧
        ArtifactAccepted accepts path name default ∧ upload = .uploaded
  | .environmentHas which => ∃ name found, (arg args 0).toText = .ok name ∧ which name = .ok found
  | .environmentSize stat => ∃ path size, (arg args 0).toText = .ok path ∧ stat path = some size
  | .stepStart | .stepPush | .stepAdvance => (arg args 0).IsText
  | .error | .luaError _ => False

end

section
variable {print : Printers} {accepts : String → String → Bool} {s : RunningJob}

/-- A callback that reads a command and its parameters first returns on readable ones. -/
theorem collected_eq_ok {next : List String × RunParams → Effect RunningJob LuaError α}
    {Good : List String → Prop}
    (ends : ∀ args params s, (∃ value, (next (args, params) s).1 = .ok value) ↔ Good args) :
    (∃ value, ((.lift (collectBuildArgs print command params) >>= next) s).1 = .ok value) ↔
      ∃ args, CommandReads command args ∧ ParamsRead params ∧ Good args := by
  constructor
  · rintro ⟨value, done⟩
    obtain ⟨⟨args, read⟩, collected, ended⟩ := bind_eq_ok.mp done
    obtain ⟨command_reads, params_read⟩ := (collectBuildArgs_eq_ok print).mp ⟨read, collected⟩
    exact ⟨args, command_reads, params_read, (ends args read s).mp ⟨value, ended⟩⟩
  · rintro ⟨args, command_reads, params_read, good⟩
    obtain ⟨read, collected⟩ := (collectBuildArgs_eq_ok print).mpr ⟨command_reads, params_read⟩
    obtain ⟨value, ended⟩ := (ends args read s).mpr good
    exact ⟨value, bind_eq_ok.mpr ⟨(args, read), collected, ended⟩⟩

theorem collected_eq_panic {next : List String × RunParams → Effect RunningJob LuaError α}
    {Bad : List String → Prop}
    (ends : ∀ args params s, (next (args, params) s).1 = .panic ↔ Bad args) :
    ((.lift (collectBuildArgs print command params) >>= next) s).1 = .panic ↔
      CommandGarbled command ∨ ∃ args, CommandReads command args ∧
        (ParamsGarbled params ∨ ParamsRead params ∧ Bad args) := by
  constructor
  · intro done
    rcases bind_eq_panic.mp done with collecting | ⟨⟨args, read⟩, collected, ended⟩
    · rcases collectBuildArgs_eq_panic.mp collecting with garbled | ⟨⟨args, reads⟩, garbled⟩
      · exact .inl garbled
      · exact .inr ⟨args, reads, .inl garbled⟩
    · obtain ⟨command_reads, params_read⟩ := (collectBuildArgs_eq_ok print).mp ⟨read, collected⟩
      exact .inr ⟨args, command_reads, .inr ⟨params_read, (ends args read s).mp ended⟩⟩
  · intro bad
    apply bind_eq_panic.mpr
    rcases bad with garbled | ⟨args, reads, garbled | ⟨params_read, bad⟩⟩
    · exact .inl (collectBuildArgs_eq_panic.mpr (.inl garbled))
    · exact .inl (collectBuildArgs_eq_panic.mpr (.inr ⟨⟨args, reads⟩, garbled⟩))
    · obtain ⟨read, collected⟩ := (collectBuildArgs_eq_ok print).mpr ⟨reads, params_read⟩
      exact .inr ⟨(args, read), collected, (ends args read s).mpr bad⟩

theorem buildCommandImpl_eq_ok :
    (∃ value, (buildCommandImpl print accepts command params execution s).1 = .ok value) ↔
      ∃ args, CommandReads command args ∧ ParamsRead params ∧ args ≠ [] ∧
        CommandLogged accepts args ∧ execution.succeeds = true := by
  apply collected_eq_ok
  intro args params s
  simp [Outcome.mapErr_eq_ok, runCommand_eq_ok]

theorem buildCommandImpl_eq_panic :
    (buildCommandImpl print accepts command params execution s).1 = .panic ↔
      CommandGarbled command ∨ ∃ args, CommandReads command args ∧ (ParamsGarbled params ∨
        ParamsRead params ∧ (args = [] ∨ ¬ CommandLogged accepts args)) := by
  apply collected_eq_panic
  intro args params s
  simp [Outcome.mapErr_eq_panic, runCommand_eq_panic]

theorem checkOutputImpl_eq_ok :
    (∃ value, (checkOutputImpl print command params execution s).1 = .ok value) ↔
      ∃ args, CommandReads command args ∧ ParamsRead params ∧ args ≠ [] ∧
        execution.succeeds = true := by
  apply collected_eq_ok
  intro args params s
  simp [Outcome.mapErr_eq_ok, runWithOutput_eq_ok]

theorem checkOutputImpl_eq_panic :
    (checkOutputImpl print command params execution s).1 = .panic ↔
      CommandGarbled command ∨ ∃ args, CommandReads command args ∧ (ParamsGarbled params ∨
        ParamsRead params ∧ args = []) := by
  apply collected_eq_panic
  intro args params s
  simp [Outcome.mapErr_eq_panic, runWithOutput_eq_panic]

theorem fileSize_eq_ok {stat : String → Option Nat} :
    fileSize print stat path = .ok size ↔ stat path = some size := by
  unfold fileSize
  cases stat path <;> simp

theorem fileSize_ne_panic (stat : String → Option Nat) (path : String) :
    fileSize print stat path ≠ .panic := by
  unfold fileSize
  cases stat path <;> simp

theorem call_eq_ok {args : List LuaValue} {function : BuildFunction} :
    (function.call print accepts args s).1 = .ok () ↔ function.Returns accepts args := by
  cases function with
  | hello => simp [BuildFunction.call, BuildFunction.Returns]
  | nowMs => simp [BuildFunction.call, BuildFunction.Returns]
  | luaError message => simp [BuildFunction.call, BuildFunction.Returns]
  | error => simp [BuildFunction.call, BuildFunction.Returns, bind_eq_ok]
  | run execution =>
    have ends : (∃ value, (buildCommandImpl print accepts (arg args 0) (arg args 1) execution s).1 =
        .ok value) ↔ _ := buildCommandImpl_eq_ok
    exact (exists_const Unit).symm.trans ends
  | checkOutput execution =>
    have ends : (∃ value, (checkOutputImpl print (arg args 0) (arg args 1) execution s).1 =
        .ok value) ↔ _ := checkOutputImpl_eq_ok
    refine Iff.trans ?_ ends
    simp [BuildFunction.call, bind_eq_ok]
  | dependencies which =>
    simp [BuildFunction.call, BuildFunction.Returns, bind_eq_ok, LuaValue.toTexts_eq_ok,
      checkDependencies_eq_ok]
  | metric =>
    simp [BuildFunction.call, BuildFunction.Returns, bind_eq_ok, metric, sendTyped,
      ← LuaValue.toText_eq_ok]
  | artifact upload =>
    simp [BuildFunction.call, BuildFunction.Returns, bind_eq_ok, artifact_eq_ok]
  | environmentHas which =>
    simp [BuildFunction.call, BuildFunction.Returns, bind_eq_ok, hasCmd_eq_ok]
  | environmentSize stat =>
    simp [BuildFunction.call, BuildFunction.Returns, bind_eq_ok, fileSize_eq_ok]
  | stepStart =>
    simp [BuildFunction.call, BuildFunction.Returns, bind_eq_ok, ← LuaValue.toText_eq_ok]
  | stepPush =>
    simp [BuildFunction.call, BuildFunction.Returns, bind_eq_ok, ← LuaValue.toText_eq_ok]
  | stepAdvance =>
    simp [BuildFunction.call, BuildFunction.Returns, bind_eq_ok, ← LuaValue.toText_eq_ok]

theorem call_eq_panic {args : List LuaValue} {function : BuildFunction} :
    (function.call print accepts args s).1 = .panic ↔ function.Panics accepts args := by
  cases function with
  | run execution => exact buildCommandImpl_eq_panic
  | checkOutput execution =>
    have ends : (checkOutputImpl print (arg args 0) (arg args 1) execution s).1 = .panic ↔ _ :=
      checkOutputImpl_eq_panic
    refine Iff.trans ?_ ends
    simp [BuildFunction.call, bind_eq_panic]
  | dependencies which =>
    simp [BuildFunction.call, BuildFunction.Panics, bind_eq_panic, LuaValue.toTexts_eq_panic,
      checkDependencies_ne_panic]
  | artifact upload =>
    simp [BuildFunction.call, BuildFunction.Panics, bind_eq_panic, artifact_eq_panic,
      LuaValue.toText_ne_panic, LuaValue.toOptionalText_ne_panic]
  | environmentHas which =>
    simp [BuildFunction.call, BuildFunction.Panics, bind_eq_panic, hasCmd_ne_panic,
      LuaValue.toText_ne_panic]
  | environmentSize stat =>
    simp [BuildFunction.call, BuildFunction.Panics, bind_eq_panic, fileSize_ne_panic,
      LuaValue.toText_ne_panic]
  | _ =>
    simp [BuildFunction.call, BuildFunction.Panics, bind_eq_panic, LuaValue.toText_ne_panic, metric,
      sendTyped]

end

section
variable (accepts : String → String → Bool)

/-- No call that the script reaches panics. -/
def ScriptSound : List ScriptCall → Prop
  | [] => True
  | call :: rest => ¬ call.function.Panics accepts call.args ∧
      (call.function.Returns accepts call.args ∨ call.caught = true → ScriptSound rest)

def Goodfile.Sound : Goodfile → Prop
  | .found script => ScriptSound accepts script
  | .unreadable => False
  | .notFound build test => ScriptSound accepts (defaultRustGoodfile build test)
  | .inaccessible => True

def World.checkedOut (world : World) : Bool := world.clone.succeeds && world.checkout.succeeds

/-- A job that comes to report a status. -/
structure JobSound (job : RequestedJob) (world : World) : Prop where
  tmpdir : world.tmpdirReady = true
  cloneLogged : LogsAccepted accepts "git clone log" s!"git clone {job.remoteUrl} tmpdir"
  checkoutLogged : world.clone.succeeds = true →
    LogsAccepted accepts "git checkout log" s!"git checkout {job.commit}"
  arch : world.checkedOut = true → (nativeRustTriple world.arch).isSome
  goodfile : world.checkedOut = true → world.goodfile.Sound accepts

end

/-- A status was sent after commands and metrics, and it is a pass in the one case. -/
def Reported (passed : Prop) (s t : RunningJob) : Prop :=
  ∃ reports status, t.sent = s.sent ++ reports ++ [.taskStatus status] ∧
    (∀ message ∈ reports, IsReport message) ∧ (status = .finished "pass" ↔ passed)

theorem Reports.not_reported (reports : Reports s t) : ¬ Reported passed s t := by
  rintro ⟨before, status, sent, _, _⟩
  obtain ⟨all, sent', kinds⟩ := reports
  rw [sent', List.append_assoc] at sent
  have last := List.append_cancel_left sent
  exact kinds (.taskStatus status) (last ▸ by simp)

theorem Reports.status (reports : Reports s t) (status : TaskInfo)
    (passed : status = .finished "pass" ↔ p) :
    Reported p s (sendTyped (.taskStatus status) t : Outcome ε Unit × RunningJob).2 := by
  obtain ⟨all, sent, kinds⟩ := reports
  refine ⟨all, status, ?_, kinds, passed⟩
  simp [sendTyped, sent]

theorem Reports.reported (reports : Reports s t) (reported : Reported p t u) : Reported p s u := by
  obtain ⟨first, sent, kinds⟩ := reports
  obtain ⟨later, status, sent', kinds', passed⟩ := reported
  refine ⟨first ++ later, status, by simp [sent', sent], ?_, passed⟩
  intro message member
  rcases List.mem_append.mp member with early | late
  · exact kinds message early
  · exact kinds' message late

section
variable {print : Printers} {accepts : String → String → Bool} {s : RunningJob}

theorem scriptCall_eq_panic {call : ScriptCall} :
    (call.run print accepts s).1 = .panic ↔ call.function.Panics accepts call.args := by
  have ends : (call.function.call print accepts call.args s).1 = .panic ↔ _ := call_eq_panic
  rw [← ends]
  unfold ScriptCall.run
  cases call.caught with
  | false => simp
  | true => cases ended : (call.function.call print accepts call.args s).1 <;> simp [pcall, ended]

theorem scriptCall_eq_ok {call : ScriptCall} (sound : ¬ call.function.Panics accepts call.args) :
    (call.run print accepts s).1 = .ok () ↔
      call.function.Returns accepts call.args ∨ call.caught = true := by
  have panics : (call.function.call print accepts call.args s).1 = .panic ↔ _ := call_eq_panic
  have returns : (call.function.call print accepts call.args s).1 = .ok () ↔ _ := call_eq_ok
  rw [← panics] at sound
  rw [← returns]
  unfold ScriptCall.run
  cases call.caught with
  | false => simp
  | true => cases ended : (call.function.call print accepts call.args s).1 <;> simp_all [pcall]

theorem runBuild_eq_panic {script : List ScriptCall} :
    (runBuild print accepts script s).1 = .panic ↔ ¬ ScriptSound accepts script := by
  induction script generalizing s with
  | nil => simp [runBuild, ScriptSound]
  | cons call rest ih =>
    simp only [runBuild, ScriptSound, bind_eq_panic, scriptCall_eq_panic, ih]
    by_cases panics : call.function.Panics accepts call.args
    · simp [panics]
    · simp [panics, scriptCall_eq_ok panics]

theorem runGoodfile_eq_panic {goodfile : Goodfile} :
    (runGoodfile print accepts goodfile s).1 = .panic ↔ ¬ goodfile.Sound accepts := by
  cases goodfile <;> simp [runGoodfile, runScript, Goodfile.Sound, bind_eq_panic,
    Outcome.mapErr_eq_panic, runBuild_eq_panic]

/-- A run that panics has sent no status, and one that comes to its end has sent one. -/
def Ends (passed : Prop) (s : RunningJob) (ended : Outcome Empty Unit × RunningJob) : Prop :=
  ended.1 = .panic ∧ Reports s ended.2 ∨ ended.1 = .ok () ∧ Reported passed s ended.2

theorem Ends.reported_iff_returns (ends : Ends passed s ended) :
    Reported passed s ended.2 ↔ ended.1 ≠ .panic := by
  rcases ends with ⟨panicked, reports⟩ | ⟨returned, reported⟩
  · exact iff_of_false reports.not_reported (by simp [panicked])
  · exact iff_of_true reported (by simp [returned])

theorem Ends.after (ends : Ends passed t ended) (reports : Reports s t) : Ends passed s ended := by
  rcases ends with ⟨panicked, later⟩ | ⟨returned, reported⟩
  · exact .inl ⟨panicked, IsTrans.trans s t _ reports later⟩
  · exact .inr ⟨returned, reports.reported reported⟩

theorem Ends.congr (ends : Ends p s ended) (same : p ↔ q) : Ends q s ended :=
  propext same ▸ ends

theorem Ends.of_status (reports : Reports s t) (status : TaskInfo)
    (passed : status = .finished "pass" ↔ p) : Ends p s (sendTyped (.taskStatus status) t) :=
  .inr ⟨rfl, reports.status status passed⟩

theorem afterCheckout_of_arch {world : World} (known : nativeRustTriple world.arch = some triple) :
    afterCheckout print accepts world (.ok ()) s =
      ((runGoodfile print accepts world.goodfile).map .attempt >>= reportStatus) s := by
  simp only [afterCheckout, known]
  rfl

theorem afterCheckout_of_no_arch {world : World} (unknown : nativeRustTriple world.arch = none) :
    afterCheckout print accepts world (.ok ()) s = (.panic, s) := by
  simp only [afterCheckout, unknown]
  rfl

theorem afterCheckout_ends (world : World) (s : RunningJob) :
    Ends ((runGoodfile print accepts world.goodfile s).1 = .ok "pass") s
      (afterCheckout print accepts world (.ok ()) s) := by
  have reports : Reports s (runGoodfile print accepts world.goodfile s).2 :=
    runGoodfile_reports world.goodfile s
  cases arch : nativeRustTriple world.arch with
  | none =>
    rw [afterCheckout_of_no_arch arch]
    exact .inl ⟨rfl, reports_of_sent rfl⟩
  | some triple =>
    rw [afterCheckout_of_arch arch]
    cases ended : (runGoodfile print accepts world.goodfile s).1 with
    | ok status =>
      rw [attempt_of_ok ended]
      apply Ends.of_status reports
      simp
    | err failure =>
      rw [attempt_of_err ended]
      apply Ends.of_status reports
      simp
    | panic =>
      rw [attempt_of_panic ended]
      exact .inl ⟨rfl, reports⟩

theorem afterCheckout_ne_panic {world : World} :
    (afterCheckout print accepts world (.ok ()) s).1 ≠ .panic ↔
      (nativeRustTriple world.arch).isSome = true ∧ world.goodfile.Sound accepts := by
  have goodfile : (runGoodfile print accepts world.goodfile s).1 ≠ .panic ↔
      world.goodfile.Sound accepts := runGoodfile_eq_panic.not_left
  cases arch : nativeRustTriple world.arch with
  | none => simp [afterCheckout_of_no_arch arch]
  | some triple =>
    rw [afterCheckout_of_arch arch, ← goodfile]
    cases ended : (runGoodfile print accepts world.goodfile s).1 with
    | ok status => simp [attempt_of_ok ended, reportStatus, sendTyped]
    | err failure => simp [attempt_of_err ended, reportStatus, sendTyped]
    | panic => simp [attempt_of_panic ended]

end

section
variable (print : Printers) (accepts : String → String → Bool)

/-- The checkout succeeds and the script returns without an error. -/
def Passes (world : World) : Prop :=
  world.checkedOut = true ∧ ∀ s, (runGoodfile print accepts world.goodfile s).1 = .ok "pass"

/-- `Started`, then only commands and metrics, then one status, which is a pass exactly
when the job passes. -/
def ReportedOnce (job : RequestedJob) (world : World) : Prop :=
  ∃ reports status, (run print accepts job world .start).2.sent =
      .started :: reports ++ [.taskStatus status] ∧
    (∀ message ∈ reports, IsReport message) ∧
    (status = .finished "pass" ↔ Passes print accepts world)

end

section
variable {print : Printers} {accepts : String → String → Bool} {s : RunningJob}

/-- Whether a script returns does not depend on what the job has done before. -/
theorem runBuild_returns {script : List ScriptCall}
    (returned : (runBuild print accepts script s).1 = .ok ()) (t : RunningJob) :
    (runBuild print accepts script t).1 = .ok () := by
  induction script generalizing s t with
  | nil => rfl
  | cons call rest ih =>
    obtain ⟨_, first, later⟩ := bind_eq_ok.mp returned
    have sound : ¬ call.function.Panics accepts call.args := by
      intro panics
      rw [scriptCall_eq_panic.mpr panics] at first
      contradiction
    have again : (call.run print accepts t).1 = .ok () :=
      (scriptCall_eq_ok sound).mpr ((scriptCall_eq_ok sound).mp first)
    exact bind_eq_ok.mpr ⟨(), again, ih later _⟩

theorem runScript_returns {script : List ScriptCall}
    (returned : (runScript print accepts script s).1 = .ok status) (t : RunningJob) :
    (runScript print accepts script t).1 = .ok status := by
  obtain ⟨_, built, passed⟩ := bind_eq_ok.mp returned
  have again := runBuild_returns (Outcome.mapErr_eq_ok.mp built) t
  exact bind_eq_ok.mpr ⟨(), Outcome.mapErr_eq_ok.mpr again, passed⟩

theorem runGoodfile_returns {goodfile : Goodfile}
    (returned : (runGoodfile print accepts goodfile s).1 = .ok status) (t : RunningJob) :
    (runGoodfile print accepts goodfile t).1 = .ok status := by
  cases goodfile with
  | found script => exact runScript_returns returned t
  | notFound build test => exact runScript_returns returned t
  | unreadable => exact returned
  | inaccessible => exact returned

theorem checkedOut_iff {world : World} : world.checkedOut = true ↔
    world.clone.succeeds = true ∧ world.checkout.succeeds = true := by
  simp [World.checkedOut]

/-- A checkout that fails without a panic has had its logs accepted. -/
theorem logged_of_err (failed : (cloneRemote accepts job clone checkout s).1 = .err error) :
    LogsAccepted accepts "git clone log" s!"git clone {job.remoteUrl} tmpdir" ∧
      (clone.succeeds = true →
        LogsAccepted accepts "git checkout log" s!"git checkout {job.commit}") := by
  have sound : (cloneRemote accepts job clone checkout s).1 ≠ .panic := by simp [failed]
  rw [ne_eq, cloneRemote_eq_panic, not_or, not_not] at sound
  obtain ⟨cloneLogged, checkoutLogged⟩ := sound
  refine ⟨cloneLogged, ?_⟩
  intro cloned
  exact not_not.mp (not_and.mp checkoutLogged ⟨cloneLogged, cloned⟩)

theorem not_checkedOut {world : World}
    (failed : (cloneRemote accepts job world.clone world.checkout s).1 = .err error) :
    ¬ world.checkedOut = true := by
  intro checkedOut
  obtain ⟨cloned, checked⟩ := checkedOut_iff.mp checkedOut
  obtain ⟨cloneLogged, checkoutLogged⟩ := logged_of_err failed
  have done : (cloneRemote accepts job world.clone world.checkout s).1 = .ok () :=
    cloneRemote_eq_ok.mpr ⟨⟨cloneLogged, cloned⟩, checkoutLogged cloned, checked⟩
  rw [failed] at done
  contradiction

/-- The job once it has reported its start. -/
def started : RunningJob := ⟨[.started], [], []⟩

theorem run_of_ready {world : World} (ready : world.tmpdirReady = true) :
    run print accepts job world .start =
      ((cloneRemote accepts job world.clone world.checkout).map .attempt >>=
        afterCheckout print accepts world) started := by
  unfold run
  rw [ready]
  rfl

theorem run_of_unready {world : World} (unready : world.tmpdirReady = false) :
    run print accepts job world .start = (.panic, started) := by
  unfold run
  rw [unready]
  rfl

theorem run_ends (job : RequestedJob) (world : World) :
    Ends (Passes print accepts world) started (run print accepts job world .start) := by
  have reports : Reports started
      (cloneRemote accepts job world.clone world.checkout started).2 := cloneRemote_reports started
  cases ready : world.tmpdirReady with
  | false =>
    rw [run_of_unready ready]
    exact .inl ⟨rfl, reports_of_sent rfl⟩
  | true =>
    rw [run_of_ready ready]
    cases ended : (cloneRemote accepts job world.clone world.checkout started).1 with
    | ok value =>
      rw [attempt_of_ok ended]
      obtain ⟨⟨_, cloned⟩, _, checked⟩ := cloneRemote_eq_ok.mp ended
      apply Ends.after _ reports
      apply (afterCheckout_ends world _).congr
      constructor
      · intro returned
        exact ⟨checkedOut_iff.mpr ⟨cloned, checked⟩, runGoodfile_returns returned⟩
      · intro passes
        exact passes.2 _
    | err error =>
      rw [attempt_of_err ended]
      apply Ends.of_status reports
      exact iff_of_false (by simp) fun passes => not_checkedOut ended passes.1
    | panic =>
      rw [attempt_of_panic ended]
      exact .inl ⟨rfl, reports⟩

theorem run_ne_panic {job : RequestedJob} {world : World} :
    (run print accepts job world .start).1 ≠ .panic ↔ JobSound accepts job world := by
  cases ready : world.tmpdirReady with
  | false =>
    rw [run_of_unready ready]
    refine iff_of_false (by simp) ?_
    intro sound
    have tmpdir := sound.tmpdir
    rw [ready] at tmpdir
    contradiction
  | true =>
    rw [run_of_ready ready]
    cases ended : (cloneRemote accepts job world.clone world.checkout started).1 with
    | ok value =>
      obtain ⟨⟨cloneLogged, cloned⟩, checkoutLogged, checked⟩ := cloneRemote_eq_ok.mp ended
      rw [attempt_of_ok ended, afterCheckout_ne_panic]
      constructor
      · rintro ⟨arch, goodfile⟩
        exact ⟨ready, cloneLogged, fun _ => checkoutLogged, fun _ => arch, fun _ => goodfile⟩
      · intro sound
        have checkedOut := checkedOut_iff.mpr ⟨cloned, checked⟩
        exact ⟨sound.arch checkedOut, sound.goodfile checkedOut⟩
    | err error =>
      rw [attempt_of_err ended]
      refine iff_of_true (by simp [afterCheckout, sendTyped]) ?_
      have failed := not_checkedOut ended
      obtain ⟨cloneLogged, checkoutLogged⟩ := logged_of_err ended
      exact ⟨ready, cloneLogged, checkoutLogged, fun done => absurd done failed,
        fun done => absurd done failed⟩
    | panic =>
      rw [attempt_of_panic ended]
      refine iff_of_false (by simp) ?_
      intro sound
      rcases cloneRemote_eq_panic.mp ended with refused | ⟨⟨_, cloned⟩, refused⟩
      · exact refused sound.cloneLogged
      · exact refused (sound.checkoutLogged cloned)

/-- A job is reported once exactly when it meets none of the panics. -/
theorem reported_once_iff (print : Printers) (accepts : String → String → Bool) (job : RequestedJob)
    (world : World) : ReportedOnce print accepts job world ↔ JobSound accepts job world :=
  (run_ends job world).reported_iff_returns.trans run_ne_panic

end

def succeeded : Execution := .exited ⟨⟨some 0⟩, [], []⟩

/-- A job on a machine and a server where everything works. -/
def working (goodfile : Goodfile) : World := ⟨"x86_64", true, succeeded, succeeded, goodfile⟩

/-- The default goodfile passes. -/
example (print : Printers) (job : RequestedJob) :
    (run print (fun _ _ => true) job (working (.notFound succeeded succeeded)) .start).2.sent =
      [.started, .command (.started ["cargo", "build"] none 1), .command (.finished (some 0) 1),
        .command (.started ["cargo", "test"] none 1), .command (.finished (some 0) 1),
        .metric "test metric" "5", .taskStatus (.finished "pass")] := rfl

/-- `pcall(Build.run, {})` -/
def emptyCommand : World := working (.found [⟨.run succeeded, [textTable []], true⟩])

theorem empty_command_unreported : ¬ ∀ (print : Printers) (job : RequestedJob) (world : World),
    world.tmpdirReady = true → (nativeRustTriple world.arch).isSome = true →
    ReportedOnce print (fun _ _ => true) job world := by
  intro claim
  let print : Printers := ⟨fun _ => "", fun _ => "", fun _ => "", fun _ => ""⟩
  let job : RequestedJob := ⟨"f00d", "https://git.example/repo", "token"⟩
  have reported := claim print job emptyCommand rfl rfl
  have panics : (run print (fun _ _ => true) job emptyCommand .start).1 = .panic := rfl
  exact (run_ends job emptyCommand).reported_iff_returns.mp reported panics

end BuildOTron.Runner
