import BuildOTron.Core.Protocol
import BuildOTron.Lib.Effect
import BuildOTron.Lib.UnixPath
import BuildOTron.Runner.Lua

/-! `RunningJob::run`: clone, checkout, the goodfile with its calls back into the
job, and the status that is sent at the end. The connection to the server works;
what the artifact endpoint accepts and how each spawned process fares is given. -/
namespace BuildOTron.Runner

structure Command where
  program : String
  args : List String
  cwd : Option String
  env : List (String × String)
  deriving DecidableEq, Repr

/-- What changes while a job runs. -/
structure RunningJob where
  /-- what the connection to the server has carried -/
  sent : List ClientProto
  /-- the commands that were handed to `spawn` -/
  spawned : List Command
  currentStep : List String
  deriving DecidableEq, Repr

/-- How a spawned process fares. -/
inductive Execution where
  | notSpawned (error : String)
  | notWaited (error : String)
  | exited (output : CommandOutput)
  deriving DecidableEq, Repr

/-- How the file of an artifact is found and read. -/
inductive Upload where
  | missing
  | failed (error : String)
  | uploaded
  deriving DecidableEq, Repr

inductive RepoError where
  | cloneFailedIdk (exitCode : ExitStatus)
  | checkoutFailedIdk (exitCode : ExitStatus)
  | checkoutFailedMissingRef
  deriving DecidableEq, Repr

namespace RunningJob

def start : RunningJob := ⟨[], [], []⟩

def setStep (s : RunningJob) (scopes : List String) : RunningJob := { s with currentStep := scopes }

end RunningJob

def Execution.wait (name : String) : Execution → Outcome String CommandOutput
  | .notSpawned error => .err s!"failed to spawn '{name}', {error}"
  | .notWaited error => .err s!"failed to wait? {error}"
  | .exited output => .ok output

def sendTyped (message : ClientProto) : Effect RunningJob ε Unit :=
  .modify fun s => { s with sent := s.sent ++ [message] }

def executeCommand (command : Command) (name : String) (execution : Execution) :
    Effect RunningJob String CommandOutput := do
  .modify fun s => { s with spawned := s.spawned ++ [command] }
  .lift (execution.wait name)

section
variable (print : Printers) (accepts : String → String → Bool)

def createArtifact (name desc : String) : Effect RunningJob String Unit :=
  .lift (.ensure (accepts name desc) "[-] unable to create artifact")

/-- The outputs go to two artifacts, which the caller expects to be accepted. -/
def executeCommandAndReport (command : Command) (name desc : String) (execution : Execution) :
    Effect RunningJob String ExitStatus := do
  (createArtifact accepts s!"{name} (stdout)" s!"{desc} (stdout)").map .expect
  (createArtifact accepts s!"{name} (stderr)" s!"{desc} (stderr)").map .expect
  let output ← executeCommand command name execution
  return output.exitStatus

def cloneRemote (job : RequestedJob) (clone checkout : Execution) :
    Effect RunningJob RepoError Unit := do
  let gitClone : Command := ⟨"git", ["clone", job.remoteUrl, "tmpdir"], none, []⟩
  let cloneRes ← (executeCommandAndReport accepts gitClone "git clone log"
    s!"git clone {job.remoteUrl} tmpdir" clone).map (.mapErr fun _ => .cloneFailedIdk ⟨some 0⟩)
  .lift (.ensure cloneRes.success (.cloneFailedIdk cloneRes))
  let gitCheckout : Command := ⟨"git", ["checkout", job.commit], some "tmpdir", []⟩
  let checkoutRes ← (executeCommandAndReport accepts gitCheckout "git checkout log"
    s!"git checkout {job.commit}" checkout).map (.mapErr fun _ => .checkoutFailedIdk ⟨some 0⟩)
  .lift (.ensure checkoutRes.success
    (if checkoutRes.code = some 128 then .checkoutFailedIdk checkoutRes
      else .checkoutFailedMissingRef))

/-- The first element of the command is indexed without a check. -/
def prepCommand (command : List String) (workingDir : Option String)
    (env : Option (List (String × String))) : Outcome ε (Command × String) :=
  match command with
  | [] => .panic
  | program :: args =>
    let cwd := match workingDir with
      | some dir => s!"tmpdir/{dir}"
      | none => "tmpdir"
    .ok (⟨program, args, some cwd, env.getD []⟩, " ".intercalate command)

def runWithOutput (command : List String) (workingDir : Option String)
    (env : Option (List (String × String))) (execution : Execution) :
    Effect RunningJob String CommandOutput := do
  let (cmd, humanName) ← .lift (prepCommand command workingDir env)
  let output ← executeCommand cmd s!"{humanName} log" execution
  let shown := print.status output.exitStatus
  .lift (.ensure output.exitStatus.success s!"{humanName} failed: {shown}")
  return output

def runCommand (command : List String) (workingDir : Option String)
    (env : Option (List (String × String))) (execution : Execution) :
    Effect RunningJob String Unit := do
  sendTyped (.command (.started command workingDir 1))
  let (cmd, humanName) ← .lift (prepCommand command workingDir env)
  let status ← executeCommandAndReport accepts cmd s!"{humanName} log" humanName execution
  sendTyped (.command (.finished status.code 1))
  let shown := print.status status
  .lift (.ensure status.success s!"{humanName} failed: {shown}")

/-- The `map_err` of the two commands. -/
def commandError (error : String) : LuaError :=
  let shown := print.text error
  .runtimeError s!"run_command error: {shown}"

def buildCommandImpl (command params : LuaValue) (execution : Execution) :
    Effect RunningJob LuaError Unit := do
  let (args, params) ← .lift (collectBuildArgs print command params)
  (runCommand print accepts args params.cwd params.env execution).map
    (.mapErr (commandError print))

/-- The table that is handed to the script has the two outputs and the exit code. -/
def checkOutputImpl (command params : LuaValue) (execution : Execution) :
    Effect RunningJob LuaError CommandOutput := do
  let (args, params) ← .lift (collectBuildArgs print command params)
  (runWithOutput print args params.cwd params.env execution).map (.mapErr (commandError print))

def hasCmd (which : String → Except String Bool) (name : String) : Outcome LuaError Bool :=
  match which name with
  | .ok found => .ok found
  | .error error => .err (.runtimeError s!"could not fork which? {error}")

def missingDeps (which : String → Except String Bool) : List String → Outcome LuaError (List String)
  | [] => .ok []
  | command :: rest => do
    let found ← hasCmd which command
    let missing ← missingDeps which rest
    return if found then missing else command :: missing

def checkDependencies (which : String → Except String Bool) (commands : List String) :
    Outcome LuaError Unit := do
  let missing ← missingDeps which commands
  let shown := ", ".intercalate missing
  .ensure missing.isEmpty (.runtimeError s!"missing dependencies: {shown}")

def metric (name value : String) : Effect RunningJob LuaError Unit := sendTyped (.metric name value)

def defaultName (path : String) : Outcome LuaError String :=
  match (UnixPath.ofString path).fileName, (UnixPath.ofString path).parent with
  | some name, _ => .ok name
  | none, some parent => .ok parent.toString
  | none, none => .err (.runtimeError s!"cannot infer a default path name for {path}")

/-- Neither a refused artifact nor a missing file is an error of the script. -/
def artifact (path : String) (name : Option String) (upload : Upload) :
    Effect RunningJob LuaError Unit := do
  let default ← .lift (defaultName path)
  let name := name.getD default
  (createArtifact accepts name s!"{name} (from {path})").map .expect
  match upload with
  | .missing => .lift .panic
  | .failed error =>
    let shown := print.text error
    .lift (.err (.runtimeError s!"failed uploading data for {name}: {shown}"))
  | .uploaded => return ()

def fileSize (stat : String → Option Nat) (path : String) : Outcome LuaError Nat :=
  match stat path with
  | some size => .ok size
  | none =>
    let shown := print.text path
    .err (.runtimeError s!"could not stat {shown}")

/-- The functions a script is given, each with what the world makes of the call. -/
inductive BuildFunction where
  | hello
  | run (execution : Execution)
  | dependencies (which : String → Except String Bool)
  | metric
  | error
  | artifact (upload : Upload)
  | nowMs
  | checkOutput (execution : Execution)
  | environmentHas (which : String → Except String Bool)
  | environmentSize (stat : String → Option Nat)
  | stepStart
  | stepPush
  | stepAdvance
  /-- an error of the script's own -/
  | luaError (message : String)

/-- An argument that is not there is nil. -/
def arg (args : List LuaValue) (i : Nat) : LuaValue := args.getD i .nil

/-- A call as the script makes it; what the function returns is left to the script. -/
def BuildFunction.call (args : List LuaValue) : BuildFunction → Effect RunningJob LuaError Unit
  | .hello | .nowMs => return ()
  | .run execution => buildCommandImpl print accepts (arg args 0) (arg args 1) execution
  | .dependencies which => do
    let commands ← .lift (arg args 0).toTexts
    .lift (checkDependencies which commands)
  | .metric => do
    let name ← .lift (arg args 0).toText
    let value ← .lift (arg args 1).toText
    Runner.metric name value
  | .error => do
    let message ← .lift (arg args 0).toText
    .lift (.err (.runtimeError s!"explicit error: {message}"))
  | .artifact upload => do
    let path ← .lift (arg args 0).toText
    let name ← .lift (arg args 1).toOptionalText
    Runner.artifact print accepts path name upload
  | .checkOutput execution => do
    let _ ← checkOutputImpl print (arg args 0) (arg args 1) execution
  | .environmentHas which => do
    let name ← .lift (arg args 0).toText
    let _ ← .lift (hasCmd which name)
  | .environmentSize stat => do
    let path ← .lift (arg args 0).toText
    let _ ← .lift (fileSize print stat path)
  | .stepStart => do
    let name ← .lift (arg args 0).toText
    .modify fun s => s.setStep [name]
  | .stepPush => do
    let name ← .lift (arg args 0).toText
    .modify fun s => s.setStep (s.currentStep ++ [name])
  | .stepAdvance => do
    let name ← .lift (arg args 0).toText
    .modify fun s => s.setStep (s.currentStep.dropLast ++ [name])
  | .luaError message => .lift (.err (.raised message))

structure ScriptCall where
  function : BuildFunction
  args : List LuaValue
  /-- made under `pcall`, which catches errors but no panics -/
  caught : Bool

/-- What `pcall` makes of an ending. -/
def pcall : Outcome LuaError Unit → Outcome LuaError Unit
  | .err _ => .ok ()
  | ended => ended

def ScriptCall.run (call : ScriptCall) : Effect RunningJob LuaError Unit :=
  (call.function.call print accepts call.args).map fun ended =>
    if call.caught then pcall ended else ended

def runBuild : List ScriptCall → Effect RunningJob LuaError Unit
  | [] => return ()
  | call :: rest => do
    call.run print accepts
    runBuild rest

inductive Goodfile where
  | found (script : List ScriptCall)
  /-- `read_to_string` fails -/
  | unreadable
  | notFound (build test : Execution)
  | inaccessible

def textTable (texts : List String) : LuaValue :=
  .table (some texts.length)
    (fun
      | .index i => if 0 < i then some ((texts[(i - 1).toNat]?.map fun text => .string (some text)).getD .nil)
        else some .nil
      | .field _ => some .nil)
    [] (texts.map fun text => .string (some text)) .nil

def stepTable (step : String) : LuaValue :=
  .table (some 0) (fun key => some (if key = .field "step" then .string (some step) else .nil))
    [(.string (some "step"), .string (some step))] [] .nil

/-- `rust.lua` -/
def defaultRustGoodfile (build test : Execution) : List ScriptCall :=
  [⟨.run build, [textTable ["cargo", "build"], stepTable "build"], false⟩,
    ⟨.run test, [textTable ["cargo", "test"], stepTable "test"], false⟩,
    ⟨.metric, [.string (some "test metric"), .number "5"], false⟩]

/-- The script's ending, as the status and the description to report if it fails. -/
def runScript (script : List ScriptCall) : Effect RunningJob (String × String) String := do
  (runBuild print accepts script).map (.mapErr fun error => ("failed", print.error error))
  return "pass"

def runGoodfile : Goodfile → Effect RunningJob (String × String) String
  | .found script => runScript print accepts script
  | .unreadable => .lift .panic
  | .notFound build test => runScript print accepts (defaultRustGoodfile build test)
  | .inaccessible => .lift (.err ("failed", "inaccessible goodfile"))

def nativeRustTriple : String → Option String
  | "x86_64" => some "x86_64-unknown-linux-gnu"
  | "aarch64" => some "aarch64-unknown-linux-gnu"
  | _ => none

/-- What a job meets where it runs. -/
structure World where
  arch : String
  /-- the prior tmpdir can be removed and a new one created -/
  tmpdirReady : Bool
  clone : Execution
  checkout : Execution
  goodfile : Goodfile

def reportStatus : Except (String × String) String → Effect RunningJob Empty Unit
  | .ok status => sendTyped (.taskStatus (.finished status))
  | .error (status, luaErr) => sendTyped (.taskStatus (.interrupted status (some luaErr)))

/-- The part of `run` that follows the checkout. -/
def afterCheckout (world : World) : Except RepoError Unit → Effect RunningJob Empty Unit
  | .error _ => sendTyped (.taskStatus (.finished "bad_ref"))
  | .ok () => do
    let _ ← .lift (.expectSome (nativeRustTriple world.arch))
    let res ← (runGoodfile print accepts world.goodfile).map .attempt
    reportStatus res

def run (job : RequestedJob) (world : World) : Effect RunningJob Empty Unit := do
  sendTyped .started
  .lift (.assert world.tmpdirReady)
  let checkoutRes ← (cloneRemote accepts job world.clone world.checkout).map .attempt
  afterCheckout print accepts world checkoutRes

end

end BuildOTron.Runner
