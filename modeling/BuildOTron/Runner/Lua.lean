import BuildOTron.Lib.Outcome
import BuildOTron.Runner.Capture
import Mathlib.Data.List.Basic

/-! What the functions of `lua/mod.rs` make of their arguments. A Lua value is what
rlua shows of it: a string is its text where `to_str` finds UTF-8, a number is the
text Lua prints for it, and a table is what its length, its entries and its
iterators answer, metamethods included. -/
namespace BuildOTron.Runner

inductive LuaKey where
  | index (i : Int)
  | field (name : String)
  deriving DecidableEq, Repr

/-- How iterating `t[1]`, `t[2]`, … ends. -/
inductive SequenceEnd where
  | nil
  | raised
  /-- a metamethod never answers nil -/
  | never
  deriving DecidableEq, Repr

inductive LuaValue where
  | nil
  | boolean (value : Bool)
  | number (text : String)
  | string (text : Option String)
  /-- `none` is an error raised by a metamethod -/
  | table (len : Option Int) (get : LuaKey → Option LuaValue) (pairs : List (LuaValue × LuaValue))
      (sequence : List LuaValue) (ends : SequenceEnd)
  /-- functions and threads as well -/
  | userdata

inductive LuaError where
  | runtimeError (message : String)
  | fromLuaConversionError (target : String)
  /-- raised by the script itself, or by Lua -/
  | raised (message : String)
  deriving DecidableEq, Repr

/-- The `Debug` and `Display` texts of other crates' values. -/
structure Printers where
  value : LuaValue → String
  text : String → String
  status : ExitStatus → String
  error : LuaError → String

namespace LuaValue

/-- The `FromLua` of `String`, which takes numbers as well. -/
def toText : LuaValue → Outcome LuaError String
  | .string (some text) => .ok text
  | .string none => .err (.fromLuaConversionError "&str")
  | .number text => .ok text
  | _ => .err (.fromLuaConversionError "String")

/-- Strings that are text, and numbers. -/
def IsText : LuaValue → Prop
  | .string (some _) | .number _ => True
  | _ => False

instance : (value : LuaValue) → Decidable value.IsText
  | .string (some _) | .number _ => .isTrue trivial
  | .string none | .nil | .boolean _ | .table .. | .userdata => .isFalse id

theorem toText_eq_ok {value : LuaValue} : (∃ text, value.toText = .ok text) ↔ value.IsText := by
  cases value with
  | string text => cases text <;> simp [toText, IsText]
  | _ => simp [toText, IsText]

theorem toText_ne_panic (value : LuaValue) : value.toText ≠ .panic := by
  cases value with
  | string text => cases text <;> simp [toText]
  | _ => simp [toText]

def toOptionalText : LuaValue → Outcome LuaError (Option String)
  | .nil => .ok none
  | value => some <$> value.toText

/-- The `FromLua` of `Vec<String>`; collecting an endless sequence ends when memory does. -/
def toTexts : LuaValue → Outcome LuaError (List String)
  | .table _ _ _ sequence ends => do
    let texts ← sequence.mapM toText
    match ends with
    | .nil => .ok texts
    | .raised => .err (.raised "__index")
    | .never => .panic
  | _ => .err (.fromLuaConversionError "Vec")

theorem toOptionalText_ne_panic (value : LuaValue) : value.toOptionalText ≠ .panic := by
  cases value <;> simp [toOptionalText, Outcome.map_eq_panic, toText_ne_panic]

/-- A sequence of texts that ends. -/
def TextsRead : LuaValue → List String → Prop
  | .table _ _ _ sequence .nil, texts => sequence.mapM toText = .ok texts
  | _, _ => False

/-- A sequence of texts that does not end. -/
def Endless : LuaValue → Prop
  | .table _ _ _ sequence .never => ∀ value ∈ sequence, value.IsText
  | _ => False

theorem toTexts_eq_ok {value : LuaValue} {texts : List String} :
    value.toTexts = .ok texts ↔ value.TextsRead texts := by
  cases value with
  | table len get pairs sequence ends =>
    cases ends <;> simp [toTexts, TextsRead, Outcome.bind_eq_ok]
  | _ => simp [toTexts, TextsRead]

theorem toTexts_eq_panic {value : LuaValue} : value.toTexts = .panic ↔ value.Endless := by
  cases value with
  | table len get pairs sequence ends =>
    have converts : sequence.mapM toText ≠ .panic := by
      simp [Outcome.mapM_eq_panic, toText_ne_panic]
    cases ends <;> simp [toTexts, Endless, Outcome.bind_eq_panic, converts, Outcome.exists_mapM_eq_ok,
      toText_eq_ok]
  | _ => simp [toTexts, Endless]

end LuaValue

structure RunParams where
  step : Option String
  name : Option String
  env : Option (List (String × String))
  cwd : Option String
  deriving DecidableEq, Repr

section
variable (print : Printers)

/-- One turn of the loop over the command table. -/
def commandArg (get : LuaKey → Option LuaValue) (i : Nat) : Outcome LuaError String := do
  match ← Outcome.expectSome (get (.index (i + 1))) with
  | .string text => Outcome.expectSome text
  | other =>
    let shown := print.value other
    .err (.runtimeError s!"argument {i} was not a string, was {shown}")

def commandArgs : LuaValue → Outcome LuaError (List String)
  | .table len get _ _ _ => do
    let len ← Outcome.expectSome len
    (List.range len.toNat).mapM (commandArg print get)
  | other =>
    let shown := print.value other
    .err (.runtimeError s!"argument 1 was not a table: {shown}")

def textParam (get : LuaKey → Option LuaValue) (key : String) :
    Outcome LuaError (Option String) := do
  match ← Outcome.expectSome (get (.field key)) with
  | .string (some text) => .ok (some text)
  | .string none => .err (.fromLuaConversionError "&str")
  | .nil => .ok none
  | _ => .err (.runtimeError s!"params[\"{key}\"] must be a string")

/-- `HashMap::insert`. -/
def insertVar (env : List (String × String)) (key value : String) : List (String × String) :=
  env.filter (fun pair => pair.1 ≠ key) ++ [(key, value)]

def envPair (pair : LuaValue × LuaValue) : Outcome LuaError (String × String) := do
  let key ← pair.1.toText
  let value ← pair.2.toText
  return (key, value)

/-- One turn of the loop over the `env` table. -/
def envVar (env : List (String × String)) (pair : LuaValue × LuaValue) :
    Outcome LuaError (List (String × String)) := do
  let (key, value) ← (envPair pair).mapErr fun error =>
    let shown := print.error error
    .runtimeError s!"params[\"env\"] has a key/value pair that is not string to string: {shown}"
  return insertVar env key value

def envParam (get : LuaKey → Option LuaValue) :
    Outcome LuaError (Option (List (String × String))) := do
  match ← Outcome.expectSome (get (.field "env")) with
  | .table _ _ pairs _ _ => some <$> pairs.foldlM (envVar print) []
  | .nil => .ok none
  | _ => .err (.runtimeError "params[\"env\"] must be a table")

def runParams : LuaValue → Outcome LuaError RunParams
  | .table _ get _ _ _ => do
    let step ← textParam get "step"
    let name ← textParam get "name"
    let cwd ← textParam get "cwd"
    let env ← envParam print get
    return ⟨step, name, env, cwd⟩
  | .nil => .ok ⟨none, none, none, none⟩
  | other =>
    let shown := print.value other
    .err (.runtimeError s!"argument 2 was not a table: {shown}")

def collectBuildArgs (command params : LuaValue) : Outcome LuaError (List String × RunParams) := do
  let args ← commandArgs print command
  let params ← runParams print params
  return (args, params)

/-- A table of strings that are all text. -/
def CommandReads : LuaValue → List String → Prop
  | .table len get _ _ _, args => ∃ n : Int, len = some n ∧ n.toNat = args.length ∧
      ∀ i, ∀ bound : i < args.length, get (.index (i + 1)) = some (.string (some args[i]))
  | _, _ => False

/-- A table that does not answer for its length, or whose strings lead to an entry that
it does not answer for or that is not UTF-8. -/
def CommandGarbled : LuaValue → Prop
  | .table len get _ _ _ => len = none ∨ ∃ n : Int, len = some n ∧ ∃ i < n.toNat,
      (get (.index (i + 1)) = none ∨ get (.index (i + 1)) = some (.string none)) ∧
        ∀ j < i, ∃ text, get (.index (j + 1)) = some (.string (some text))
  | _ => False

variable {print} {get : LuaKey → Option LuaValue}

theorem commandArg_eq_ok {i : Nat} : commandArg print get i = .ok text ↔
    get (.index (i + 1)) = some (.string (some text)) := by
  unfold commandArg
  cases get (.index (i + 1)) with
  | none => simp
  | some value => cases value <;> simp

theorem commandArg_eq_panic {i : Nat} : commandArg print get i = .panic ↔
    get (.index (i + 1)) = none ∨ get (.index (i + 1)) = some (.string none) := by
  unfold commandArg
  cases get (.index (i + 1)) with
  | none => simp
  | some value => cases value <;> simp

theorem commandArgs_eq_ok (print : Printers) {command : LuaValue} {args : List String} :
    commandArgs print command = .ok args ↔ CommandReads command args := by
  cases command with
  | table len get pairs sequence ends =>
    cases len with
    | none => simp [commandArgs, CommandReads]
    | some n =>
      simp only [commandArgs, CommandReads, Outcome.expectSome_some, Outcome.ok_bind,
        Outcome.mapM_eq_ok, List.forall₂_iff_get, List.length_range, List.get_eq_getElem,
        List.getElem_range, commandArg_eq_ok, Option.some.injEq, exists_eq_left']
      refine and_congr_right fun length => ?_
      constructor
      · intro each i bound
        exact each i (by omega) bound
      · intro each i _ bound
        exact each i bound
  | _ => simp [commandArgs, CommandReads]

theorem commandArgs_eq_panic {command : LuaValue} :
    commandArgs print command = .panic ↔ CommandGarbled command := by
  cases command with
  | table len get pairs sequence ends =>
    cases len with
    | none => simp [commandArgs, CommandGarbled]
    | some n =>
      simp only [commandArgs, CommandGarbled, Outcome.expectSome_some, Outcome.ok_bind,
        Outcome.mapM_eq_panic, List.length_range, List.getElem_range, commandArg_eq_ok,
        commandArg_eq_panic, Option.some.injEq, exists_eq_left', reduceCtorEq, false_or]
      constructor
      · rintro ⟨i, bound, garbled, ready⟩
        exact ⟨i, bound, garbled, ready⟩
      · rintro ⟨i, bound, garbled, ready⟩
        exact ⟨i, bound, garbled, ready⟩
  | _ => simp [commandArgs, CommandGarbled]

def TextParam (get : LuaKey → Option LuaValue) (key : String) : Prop :=
  get (.field key) = some .nil ∨ ∃ text, get (.field key) = some (.string (some text))

def EnvParam (get : LuaKey → Option LuaValue) : Prop :=
  get (.field "env") = some .nil ∨ ∃ len entries pairs sequence ends,
    get (.field "env") = some (.table len entries pairs sequence ends) ∧
      ∀ pair ∈ pairs, pair.1.IsText ∧ pair.2.IsText

/-- Nothing, or a table whose parameters all have their types. -/
def ParamsRead : LuaValue → Prop
  | .table _ get _ _ _ =>
    TextParam get "step" ∧ TextParam get "name" ∧ TextParam get "cwd" ∧ EnvParam get
  | .nil => True
  | _ => False

/-- Parameters in order lead to one that the table does not answer for. -/
def Unanswered (get : LuaKey → Option LuaValue) : List String → Prop
  | [] => False
  | key :: keys => get (.field key) = none ∨ TextParam get key ∧ Unanswered get keys

def ParamsGarbled : LuaValue → Prop
  | .table _ get _ _ _ => Unanswered get ["step", "name", "cwd", "env"]
  | _ => False

theorem textParam_eq_ok {key : String} :
    (∃ found, textParam get key = .ok found) ↔ TextParam get key := by
  unfold textParam TextParam
  cases get (.field key) with
  | none => simp
  | some value =>
    cases value with
    | string text => cases text <;> simp
    | _ => simp

theorem textParam_eq_panic {key : String} :
    textParam get key = .panic ↔ get (.field key) = none := by
  unfold textParam
  cases get (.field key) with
  | none => simp
  | some value =>
    cases value with
    | string text => cases text <;> simp
    | _ => simp

theorem envPair_eq_ok {pair : LuaValue × LuaValue} :
    (∃ converted, envPair pair = .ok converted) ↔ pair.1.IsText ∧ pair.2.IsText := by
  simp only [envPair, Outcome.bind_eq_ok, ← LuaValue.toText_eq_ok]
  constructor
  · rintro ⟨_, key, first, value, second, _⟩
    exact ⟨⟨key, first⟩, ⟨value, second⟩⟩
  · rintro ⟨⟨key, first⟩, ⟨value, second⟩⟩
    exact ⟨_, key, first, value, second, rfl⟩

theorem envPair_ne_panic (pair : LuaValue × LuaValue) : envPair pair ≠ .panic := by
  simp [envPair, Outcome.bind_eq_panic, LuaValue.toText_ne_panic]

theorem envVar_eq_ok {env : List (String × String)} {pair : LuaValue × LuaValue} :
    (∃ next, envVar print env pair = .ok next) ↔ pair.1.IsText ∧ pair.2.IsText := by
  rw [← envPair_eq_ok]
  simp only [envVar, Outcome.bind_eq_ok, Outcome.mapErr_eq_ok]
  constructor
  · rintro ⟨_, converted, read, _⟩
    exact ⟨converted, read⟩
  · rintro ⟨converted, read⟩
    exact ⟨_, converted, read, rfl⟩

theorem envVar_ne_panic (env : List (String × String)) (pair : LuaValue × LuaValue) :
    envVar print env pair ≠ .panic := by
  simp [envVar, Outcome.bind_eq_panic, Outcome.mapErr_eq_panic, envPair_ne_panic]

theorem envParam_eq_ok (print : Printers) : (∃ env, envParam print get = .ok env) ↔ EnvParam get := by
  unfold envParam EnvParam
  cases get (.field "env") with
  | none => simp
  | some value =>
    cases value with
    | table len entries pairs sequence ends =>
      have folds : (∃ env, pairs.foldlM (envVar print) [] = .ok env) ↔
          ∀ pair ∈ pairs, pair.1.IsText ∧ pair.2.IsText := by
        apply Outcome.foldlM_eq_ok
        intro env pair
        exact envVar_eq_ok
      simpa [Outcome.map_eq_ok] using folds
    | _ => simp

theorem envParam_eq_panic : envParam print get = .panic ↔ get (.field "env") = none := by
  unfold envParam
  cases get (.field "env") with
  | none => simp
  | some value =>
    cases value with
    | table len entries pairs sequence ends =>
      simp [Outcome.map_eq_panic, Outcome.foldlM_ne_panic envVar_ne_panic]
    | _ => simp

theorem runParams_eq_ok (print : Printers) {params : LuaValue} :
    (∃ read, runParams print params = .ok read) ↔ ParamsRead params := by
  cases params with
  | table len get pairs sequence ends =>
    simp only [runParams, ParamsRead, Outcome.bind_eq_ok, ← textParam_eq_ok,
      ← envParam_eq_ok print]
    constructor
    · rintro ⟨_, step, first, name, second, cwd, third, env, fourth, _⟩
      exact ⟨⟨step, first⟩, ⟨name, second⟩, ⟨cwd, third⟩, ⟨env, fourth⟩⟩
    · rintro ⟨⟨step, first⟩, ⟨name, second⟩, ⟨cwd, third⟩, ⟨env, fourth⟩⟩
      exact ⟨_, step, first, name, second, cwd, third, env, fourth, rfl⟩
  | _ => simp [runParams, ParamsRead]

theorem runParams_eq_panic {params : LuaValue} :
    runParams print params = .panic ↔ ParamsGarbled params := by
  cases params with
  | table len get pairs sequence ends =>
    simp [runParams, ParamsGarbled, Unanswered, Outcome.bind_eq_panic, ← textParam_eq_ok,
      textParam_eq_panic, envParam_eq_panic]
  | _ => simp [runParams, ParamsGarbled]

theorem collectBuildArgs_eq_ok (print : Printers) {command params : LuaValue} {args : List String} :
    (∃ read, collectBuildArgs print command params = .ok (args, read)) ↔
      CommandReads command args ∧ ParamsRead params := by
  rw [← commandArgs_eq_ok print, ← runParams_eq_ok print]
  simp only [collectBuildArgs, Outcome.bind_eq_ok, Outcome.pure_eq, Outcome.ok.injEq, Prod.mk.injEq]
  constructor
  · rintro ⟨_, _, first, read, second, rfl, _⟩
    exact ⟨first, read, second⟩
  · rintro ⟨first, read, second⟩
    exact ⟨read, args, first, read, second, rfl, rfl⟩

theorem collectBuildArgs_eq_panic {command params : LuaValue} :
    collectBuildArgs print command params = .panic ↔
      CommandGarbled command ∨ (∃ args, CommandReads command args) ∧ ParamsGarbled params := by
  simp [collectBuildArgs, Outcome.bind_eq_panic, commandArgs_eq_ok print, commandArgs_eq_panic,
    runParams_eq_panic]

end

end BuildOTron.Runner
