import Mathlib.Logic.Basic

/-! The messages of `protocol.rs` that driver and runner exchange. -/
namespace BuildOTron

inductive CommandInfo where
  | started (command : List String) (cwd : Option String) (id : UInt32)
  | finished (exitCode : Option Int32) (id : UInt32)
  deriving DecidableEq, Repr

inductive TaskInfo where
  | finished (status : String)
  | interrupted (status : String) (description : Option String)
  deriving DecidableEq, Repr

structure CpuInfo where
  modelName : String
  microcode : String
  cores : UInt32
  vendorId : String
  family : String
  model : String
  /-- clock speed in khz -/
  maxFreq : UInt64
  deriving DecidableEq, Repr

structure MemoryInfo where
  total : String
  available : String
  deriving DecidableEq, Repr

structure EnvInfo where
  arch : String
  family : String
  os : String
  deriving DecidableEq, Repr

structure HostInfo where
  hostname : String
  cpuInfo : CpuInfo
  memoryInfo : MemoryInfo
  envInfo : EnvInfo
  deriving DecidableEq, Repr

structure RequestedJob where
  commit : String
  remoteUrl : String
  buildToken : String
  deriving DecidableEq, Repr

inductive ClientProto where
  | started
  | artifactCreate
  | newTask (task : RequestedJob)
  | newTaskPlease (allowedPushers : Option (List String)) (hostInfo : HostInfo)
  | metric (name value : String)
  | command (info : CommandInfo)
  | taskStatus (info : TaskInfo)
  | ping
  | pong
  deriving DecidableEq, Repr

end BuildOTron
