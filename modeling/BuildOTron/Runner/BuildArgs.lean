import BuildOTron.Runner.JobReport
import Mathlib.Data.List.Induction

/-! `Build.run` and `Build.check_output` on any two Lua values: what is refused, what
becomes of a process, and what takes the runner down. -/
namespace BuildOTron.Runner
open Effect

/-- `spawn` makes a process. -/
def Execution.starts : Execution → Bool
  | .notSpawned _ => false
  | .notWaited _ | .exited _ => true

/-- The processes that a call has made. -/
def processes (execution : Execution) (s t : RunningJob) : List Command :=
  if execution.starts then t.spawned.drop s.spawned.length else []

/-- A parameter that is a string. -/
def paramText (key : String) : LuaValue → Option String
  | .table _ get _ _ _ =>
    match get (.field key) with
    | some (.string text) => text
    | _ => none
  | _ => none

def envEntry : LuaValue × LuaValue → Option (String × String)
  | (.string (some key), .string (some value)) => some (key, value)
  | _ => none

/-- The entries of `env`, string to string. -/
def envEntries : LuaValue → List (String × String)
  | .table _ get _ _ _ =>
    match get (.field "env") with
    | some (.table _ _ pairs _ _) => pairs.filterMap envEntry
    | _ => []
  | _ => []

def lastEntry (entries : List (String × String)) (key : String) : Option String :=
  entries.foldl (fun last entry => if entry.1 = key then some entry.2 else last) none

/-- `env` is absent or has no entry but from strings to strings. -/
def EnvStrings : LuaValue → Prop
  | .table _ get _ _ _ =>
    match get (.field "env") with
    | some (.table _ _ pairs _ _) => ∀ pair ∈ pairs, (envEntry pair).isSome
    | _ => True
  | _ => True

/-- The process that the arguments ask for. -/
structure AsAsked (args : List String) (params : LuaValue) (process : Command) : Prop where
  argv : process.program :: process.args = args
  cwd : process.cwd = some (match paramText "cwd" params with
    | some dir => "tmpdir/" ++ dir
    | none => "tmpdir")
  env : ∀ key value, (key, value) ∈ process.env ↔ lastEntry (envEntries params) key = some value

/-- No panic; a Lua error without a process, or the one process that was asked for. -/
structure CallSound (command params : LuaValue) (execution : Execution) (s : RunningJob)
    (ended : Outcome LuaError α × RunningJob) : Prop where
  no_panic : ended.1 ≠ .panic
  asked : (∃ error, ended.1 = .err error) ∧ processes execution s ended.2 = [] ∨
    ∃ args process, args ≠ [] ∧ CommandReads command args ∧ ParamsRead params ∧
      EnvStrings params ∧ processes execution s ended.2 = [process] ∧ AsAsked args params process

/-- The tables answer, and readable arguments name a program, have an artifact for each of
their logs, and an `env` of strings if there is to be a process. -/
structure ArgsFit (logged : List String → Prop) (execution : Execution)
    (command params : LuaValue) : Prop where
  command_answers : ¬ CommandGarbled command
  params_answer : ∀ args, CommandReads command args → ¬ ParamsGarbled params
  fit : ∀ args, CommandReads command args → ParamsRead params →
    args ≠ [] ∧ logged args ∧ (execution.starts = true → EnvStrings params)

section
variable {print : Printers} {accepts : String → String → Bool} {s : RunningJob}

/-! What is read from the parameters. -/

theorem textParam_reads {get : LuaKey → Option LuaValue}
    (read : textParam get key = .ok found) :
    found = match get (.field key) with
      | some (.string text) => text
      | _ => none := by
  unfold textParam at read
  cases entry : get (.field key) with
  | none => simp [entry] at read
  | some value =>
    cases value with
    | string text => cases text <;> simp_all
    | _ => simp_all

theorem envVar_string {pair : LuaValue × LuaValue} (env : List (String × String))
    (entry : envEntry pair = some (key, value)) :
    envVar print env pair = .ok (insertVar env key value) := by
  unfold envEntry at entry
  split at entry
  · cases entry
    rfl
  · contradiction

theorem envVars_strings {pairs : List (LuaValue × LuaValue)} (env : List (String × String))
    (strings : ∀ pair ∈ pairs, (envEntry pair).isSome) :
    pairs.foldlM (envVar print) env =
      .ok ((pairs.filterMap envEntry).foldl (fun env entry => insertVar env entry.1 entry.2) env) := by
  induction pairs generalizing env with
  | nil => rfl
  | cons pair pairs ih =>
    obtain ⟨⟨key, value⟩, entry⟩ := Option.isSome_iff_exists.mp (strings pair List.mem_cons_self)
    rw [List.foldlM_cons, envVar_string env entry, Outcome.ok_bind,
      ih _ fun other listed => strings other (List.mem_cons_of_mem pair listed),
      List.filterMap_cons_some entry, List.foldl_cons]

theorem mem_insertVar {env : List (String × String)} : (key, value) ∈ insertVar env name text ↔
    if name = key then text = value else (key, value) ∈ env := by
  simp only [insertVar, List.mem_append, List.mem_filter, List.mem_singleton, Prod.mk.injEq,
    decide_eq_true_eq]
  split
  · rename_i same
    simp [same, eq_comm]
  · rename_i other
    simp [Ne.symm other]

theorem mem_insertVars (entries : List (String × String)) (key value : String) :
    (key, value) ∈ entries.foldl (fun env entry => insertVar env entry.1 entry.2) [] ↔
      lastEntry entries key = some value := by
  induction entries using List.reverseRecOn with
  | nil => simp [lastEntry]
  | append_singleton entries entry ih =>
    simp only [lastEntry, List.foldl_append, List.foldl_cons, List.foldl_nil] at ih ⊢
    rw [mem_insertVar]
    split
    · rw [Option.some.injEq]
    · exact ih

theorem envParam_reads {get : LuaKey → Option LuaValue} {len : Option Int}
    {pairs : List (LuaValue × LuaValue)} {sequence : List LuaValue} {ends : SequenceEnd}
    (read : envParam print get = .ok env)
    (strings : EnvStrings (.table len get pairs sequence ends)) :
    env.getD [] = (envEntries (.table len get pairs sequence ends)).foldl
      (fun env entry => insertVar env entry.1 entry.2) [] := by
  unfold envParam at read
  cases entry : get (.field "env") with
  | none => simp [entry] at read
  | some value =>
    rw [entry, Outcome.expectSome_some, Outcome.ok_bind] at read
    simp only [EnvStrings, entry] at strings
    simp only [envEntries, entry]
    cases value with
    | table len entries pairs sequence ends =>
      obtain ⟨vars, folded, rfl⟩ := Outcome.map_eq_ok.mp read
      rw [envVars_strings [] strings] at folded
      cases folded
      rfl
    | nil =>
      cases read
      rfl
    | _ => contradiction

/-- What `run_command` and `run_with_output` take from the parameters. -/
theorem runParams_reads (read : runParams print params = .ok found) :
    found.cwd = paramText "cwd" params ∧ (EnvStrings params → ∀ key value,
      (key, value) ∈ found.env.getD [] ↔ lastEntry (envEntries params) key = some value) := by
  cases params with
  | table len get pairs sequence ends =>
    obtain ⟨step, _, rest⟩ := Outcome.bind_eq_ok.mp read
    obtain ⟨name, _, rest⟩ := Outcome.bind_eq_ok.mp rest
    obtain ⟨cwd, third, rest⟩ := Outcome.bind_eq_ok.mp rest
    obtain ⟨env, fourth, same⟩ := Outcome.bind_eq_ok.mp rest
    cases same
    refine ⟨textParam_reads third, fun strings key value => ?_⟩
    rw [envParam_reads fourth strings]
    exact mem_insertVars _ key value
  | nil =>
    cases read
    exact ⟨rfl, fun _ key value => by simp [envEntries, lastEntry]⟩
  | _ => simp [runParams] at read

/-! What the two functions do with arguments that can be read. -/

def cwdOf (workingDir : Option String) : String :=
  match workingDir with
  | some dir => "tmpdir/" ++ dir
  | none => "tmpdir"

/-- With good arguments the one command is handed to `spawn`, and a refusal is an error;
with others there is a panic. -/
structure Executes (logged : List String → Prop) (execution : Execution) (args : List String)
    (read : RunParams) (s : RunningJob) (ended : Outcome LuaError α × RunningJob) : Prop where
  panics : ended.1 = .panic ↔ args = [] ∨ ¬ logged args
  spawns : ∀ program rest, args = program :: rest → logged args → ended.2.spawned =
    s.spawned ++ [⟨program, rest, some (cwdOf read.cwd), read.env.getD []⟩]
  refused : args ≠ [] → logged args → execution.starts = false → ∃ error, ended.1 = .err error

theorem prepCommand_cons (program : String) (rest : List String) (workingDir : Option String)
    (env : Option (List (String × String))) :
    (prepCommand (program :: rest) workingDir env : Outcome ε _) =
      .ok (⟨program, rest, some (cwdOf workingDir), env.getD []⟩,
        " ".intercalate (program :: rest)) := by
  cases workingDir <;> rfl

/-- Nothing more was handed to `spawn`. -/
def SameSpawned (s t : RunningJob) : Prop := t.spawned = s.spawned

instance : Std.Refl SameSpawned := ⟨fun _ => rfl⟩

instance : IsTrans RunningJob SameSpawned := ⟨fun _ _ _ first later => later.trans first⟩

theorem sendTyped_same (message : ClientProto) :
    Keeps SameSpawned (sendTyped message : Effect RunningJob ε Unit) :=
  keeps_modify fun _ => rfl

theorem sendTyped_bind (message : ClientProto) (next : Unit → Effect RunningJob ε α) :
    (sendTyped message >>= next) s = next () { s with sent := s.sent ++ [message] } := rfl

theorem fails_bind {first : Effect RunningJob ε α} {next : α → Effect RunningJob ε β}
    (fails : ∃ error, (first s).1 = .err error) : ∃ error, ((first >>= next) s).1 = .err error := by
  obtain ⟨error, ended⟩ := fails
  exact ⟨error, by rw [bind_of_err ended]⟩

theorem fails_mapErr {effect : Effect RunningJob ε α} {convert : ε → δ}
    (fails : ∃ error, (effect s).1 = .err error) :
    ∃ error, ((effect.map (.mapErr convert)) s).1 = .err error := by
  obtain ⟨error, ended⟩ := fails
  exact ⟨convert error, by rw [map_fst, ended, Outcome.mapErr]⟩

theorem spawned_bind {first : Effect RunningJob ε α} {next : α → Effect RunningJob ε β}
    (keeps : ∀ value, Keeps SameSpawned (next value)) :
    ((first >>= next) s).2.spawned = (first s).2.spawned := by
  cases ended : (first s).1 with
  | ok value =>
    rw [bind_of_ok ended]
    exact keeps value _
  | err error => rw [bind_of_err ended]
  | panic => rw [bind_of_panic ended]

theorem executeCommand_refused (refused : execution.starts = false) :
    ∃ error, (executeCommand command name execution s).1 = .err error := by
  cases execution with
  | notSpawned error => exact ⟨_, rfl⟩
  | _ => contradiction

theorem executeCommandAndReport_eq (logged : LogsAccepted accepts name desc) :
    executeCommandAndReport accepts command name desc execution s =
      (executeCommand command name execution >>= fun output => pure output.exitStatus) s := by
  have stdout : ((createArtifact accepts s!"{name} (stdout)" s!"{desc} (stdout)").map
      (δ := String) .expect s).1 = .ok () := by
    simp [createArtifact, Outcome.ensure, logged.1, Outcome.expect]
  have stderr : ((createArtifact accepts s!"{name} (stderr)" s!"{desc} (stderr)").map
      (δ := String) .expect s).1 = .ok () := by
    simp [createArtifact, Outcome.ensure, logged.2, Outcome.expect]
  rw [executeCommandAndReport, bind_of_ok stdout]
  exact bind_of_ok stderr

theorem runWithOutput_executes (args : List String) (read : RunParams) (execution : Execution) :
    Executes (fun _ => True) execution args read s
      ((runWithOutput print args read.cwd read.env execution).map
        (.mapErr (commandError print)) s) := by
  refine ⟨?_, ?_, ?_⟩
  · rw [map_fst, Outcome.mapErr_eq_panic, runWithOutput_eq_panic]
    simp
  · rintro program rest rfl _
    rw [map_snd, runWithOutput, prepCommand_cons, lift_ok_bind]
    exact spawned_bind fun _ => (keeps_lift _).bind fun _ => keeps_pure _
  · intro filled _ refused
    cases args with
    | nil => contradiction
    | cons program rest =>
      refine fails_mapErr ?_
      rw [runWithOutput, prepCommand_cons, lift_ok_bind]
      exact fails_bind (executeCommand_refused refused)

theorem runCommand_executes (args : List String) (read : RunParams) (execution : Execution) :
    Executes (CommandLogged accepts) execution args read s
      ((runCommand print accepts args read.cwd read.env execution).map
        (.mapErr (commandError print)) s) := by
  refine ⟨?_, ?_, ?_⟩
  · rw [map_fst, Outcome.mapErr_eq_panic, runCommand_eq_panic]
  · rintro program rest rfl logged
    rw [map_snd, runCommand, sendTyped_bind, prepCommand_cons, lift_ok_bind]
    refine (spawned_bind fun _ => (sendTyped_same _).bind fun _ => keeps_lift _).trans ?_
    rw [executeCommandAndReport_eq logged]
    exact spawned_bind fun _ => keeps_pure _
  · intro filled logged refused
    cases args with
    | nil => contradiction
    | cons program rest =>
      refine fails_mapErr ?_
      rw [runCommand, sendTyped_bind, prepCommand_cons, lift_ok_bind]
      refine fails_bind ?_
      rw [executeCommandAndReport_eq logged]
      exact fails_bind (executeCommand_refused refused)

/-! Both functions, from the Lua values on. -/

theorem commandReads_unique (print : Printers) {command : LuaValue} {args args' : List String}
    (first : CommandReads command args) (second : CommandReads command args') : args = args' := by
  have read := (commandArgs_eq_ok print).mpr first
  exact Outcome.ok.inj (read.symm.trans ((commandArgs_eq_ok print).mpr second))

theorem asAsked_of_reads (read : runParams print params = .ok found) (strings : EnvStrings params)
    (program : String) (rest : List String) : AsAsked (program :: rest) params
      ⟨program, rest, some (cwdOf found.cwd), found.env.getD []⟩ where
  argv := rfl
  cwd := by rw [(runParams_reads read).1]; rfl
  env := (runParams_reads read).2 strings

theorem processes_of_same (same : t.spawned = s.spawned) : processes execution s t = [] := by
  rw [processes, same, List.drop_length, ite_self]

theorem processes_of_spawned (execution : Execution) (spawned : t.spawned = s.spawned ++ [command]) :
    processes execution s t = if execution.starts then [command] else [] := by
  rw [processes, spawned, List.drop_left]

theorem answers_of_collected {command params : LuaValue}
    (collected : collectBuildArgs print command params ≠ .panic) :
    ¬ CommandGarbled command ∧ ∀ args, CommandReads command args → ¬ ParamsGarbled params := by
  rw [ne_eq, collectBuildArgs_eq_panic, not_or, not_and] at collected
  exact ⟨collected.1, fun args reads => collected.2 ⟨args, reads⟩⟩

/-- A command that is executed: what was asked for, unless a process gets an `env` that is
not from strings to strings. -/
theorem executed_sound_iff {command params : LuaValue} {args : List String} {read : RunParams}
    (reads : CommandReads command args)
    (params_read : ParamsRead params) (found : runParams print params = .ok read)
    (executes : Executes logged execution args read s ended) (filled : args ≠ [])
    (accepted : logged args) :
    CallSound command params execution s ended ↔
      (execution.starts = true → EnvStrings params) := by
  obtain ⟨program, rest, rfl⟩ := List.exists_cons_of_ne_nil filled
  have spawned := processes_of_spawned execution
    (executes.spawns program rest rfl accepted)
  have calm : ended.1 ≠ .panic := fun panicked =>
    (executes.panics.mp panicked).elim filled fun refused => refused accepted
  cases starts : execution.starts with
  | false =>
    rw [starts] at spawned
    have failed := executes.refused filled accepted starts
    exact iff_of_true ⟨calm, .inl ⟨failed, spawned⟩⟩ nofun
  | true =>
    rw [starts, if_pos rfl] at spawned
    constructor
    · rintro ⟨_, ⟨_, none⟩ | ⟨_, _, _, _, _, strings, _⟩⟩ _
      · rw [spawned] at none
        contradiction
      · exact strings
    · intro strings
      exact ⟨calm, .inr ⟨_, _, filled, reads, params_read, strings rfl, spawned,
        asAsked_of_reads found (strings rfl) program rest⟩⟩

/-- A function that reads its arguments and then executes them. -/
theorem call_sound_iff {logged : List String → Prop} {command params : LuaValue}
    {next : List String × RunParams → Effect RunningJob LuaError α}
    (executes : ∀ args read s, Executes logged execution args read s (next (args, read) s)) :
    CallSound command params execution s
        ((.lift (collectBuildArgs print command params) >>= next) s) ↔
      ArgsFit logged execution command params := by
  cases collected : collectBuildArgs print command params with
  | panic =>
    refine iff_of_false (fun sound => sound.no_panic (by rw [lift_panic_bind])) fun fit => ?_
    rcases collectBuildArgs_eq_panic.mp collected with garbled | ⟨⟨args, reads⟩, garbled⟩
    · exact fit.command_answers garbled
    · exact fit.params_answer args reads garbled
  | err error =>
    have ended : ((.lift (.err error) >>= next) s) = (.err error, s) := bind_of_err rfl
    obtain ⟨answers, answers'⟩ := answers_of_collected (by rw [collected]; simp)
    refine iff_of_true ⟨by simp [ended], .inl ⟨⟨error, by rw [ended]⟩, ?_⟩⟩
      ⟨answers, answers', fun args reads params_read => ?_⟩
    · rw [ended]
      exact processes_of_same rfl
    · obtain ⟨read, found⟩ := (collectBuildArgs_eq_ok print).mpr ⟨reads, params_read⟩
      exact absurd (collected.symm.trans found) (by simp)
  | ok found =>
    obtain ⟨args, read⟩ := found
    obtain ⟨answers, answers'⟩ := answers_of_collected (by rw [collected]; simp)
    obtain ⟨reads, params_read⟩ := (collectBuildArgs_eq_ok print).mp ⟨read, collected⟩
    have found : runParams print params = .ok read := by
      obtain ⟨_, _, rest⟩ := Outcome.bind_eq_ok.mp collected
      obtain ⟨_, second, same⟩ := Outcome.bind_eq_ok.mp rest
      cases same
      exact second
    have only : ∀ args', CommandReads command args' → args' = args :=
      fun args' reads' => commandReads_unique print reads' reads
    rw [lift_ok_bind]
    by_cases good : args ≠ [] ∧ logged args
    · rw [executed_sound_iff reads params_read found (executes args read s) good.1 good.2]
      constructor
      · intro strings
        refine ⟨answers, answers', fun args' reads' _ => ?_⟩
        rw [only args' reads']
        exact ⟨good.1, good.2, strings⟩
      · exact fun fit => (fit.fit args reads params_read).2.2
    · refine iff_of_false (fun sound => sound.no_panic ?_) fun fit => ?_
      · rw [(executes args read s).panics]
        rwa [not_and_or, not_not] at good
      · obtain ⟨filled, accepted, _⟩ := fit.fit args reads params_read
        exact good ⟨filled, accepted⟩

end

/-- `Build.run` and `Build.check_output`, which has no logs. -/
theorem build_args_sound_iff (print : Printers) (accepts : String → String → Bool)
    (command params : LuaValue) (execution : Execution) (s : RunningJob) :
    (CallSound command params execution s
        (buildCommandImpl print accepts command params execution s) ↔
      ArgsFit (CommandLogged accepts) execution command params) ∧
    (CallSound command params execution s (checkOutputImpl print command params execution s) ↔
      ArgsFit (fun _ => True) execution command params) :=
  ⟨call_sound_iff fun args read _ => runCommand_executes args read execution,
    call_sound_iff fun args read _ => runWithOutput_executes args read execution⟩

/-- `Build.run({})` -/
theorem empty_command_panics : ¬ ∀ (print : Printers) (accepts : String → String → Bool)
    (command params : LuaValue) (execution : Execution) (s : RunningJob),
    CallSound command params execution s (buildCommandImpl print accepts command params execution s) ∧
    CallSound command params execution s (checkOutputImpl print command params execution s) := by
  intro always
  let print : Printers := ⟨fun _ => "", fun _ => "", fun _ => "", fun _ => ""⟩
  have sound := always print (fun _ _ => true) (textTable []) .nil (.notSpawned "") .start
  exact sound.1.no_panic rfl

end BuildOTron.Runner
