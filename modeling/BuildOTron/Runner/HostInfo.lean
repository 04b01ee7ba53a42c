import BuildOTron.Core.Protocol
import BuildOTron.Lib.JsonScan
import BuildOTron.Lib.Lines
import BuildOTron.Lib.Numerals
import BuildOTron.Lib.Outcome

/-! `host_info`: what a runner finds out about the machine it runs on, which the driver
tells it apart from others by. -/
namespace BuildOTron.Runner
open Lines

/-- What the machine answers. A file that cannot be read as text is `none`. -/
structure Surroundings where
  arch : String
  family : String
  os : String
  /-- `/proc/cpuinfo`, and what it holds when it is read once more -/
  cpuinfo : Option String
  cpuinfoAgain : Option String
  /-- `/sys/devices/system/cpu/cpu0/cpufreq/cpuinfo_max_freq` -/
  cpuinfoMaxFreq : Option String
  modelNameOverride : Option String
  /-- `/proc/device-tree/compatible`, if it exists -/
  compatible : Option (Option String)
  meminfo : Option String
  /-- the bytes that `gethostname` was given, if it succeeds -/
  hostnameBytes : Option (List UInt8)

def textLines (text : String) : List (List Char) := text.toList.splitOn '\n'

/-- `line.split(":").last().unwrap().trim()` -/
def lastField (line : List Char) : String := .ofList (trim (lastPart ':' line))

def tryFindLine (lines : List (List Char)) (start : String) : Option String :=
  (lines.find? start.toList.isPrefixOf).map lastField

def findLine (lines : List (List Char)) (start : String) : Outcome String String :=
  Outcome.expectSome (tryFindLine lines start)

def fileLines (file : Option String) : Outcome String (List (List Char)) :=
  Outcome.expectSome (file.map textLines)

def parseFreq (text : String) : Outcome String UInt64 :=
  Outcome.expectSome (Numerals.parseU64 (trim text.toList))

/-- In khz; what `/proc/cpuinfo` has is in MHz. -/
def Surroundings.tryFindingCpuFreq (host : Surroundings) (cpu : Nat) : Outcome String UInt64 :=
  match host.cpuinfoMaxFreq with
  | some freq => parseFreq freq
  | none => do
    let cpuLines ← fileLines host.cpuinfoAgain
    let line ← Outcome.expectSome (cpuLines.filter "cpu MHz".toList.isPrefixOf)[cpu]?
    let mhz ← Outcome.expectSome (line.splitOn ':')[1]?
    let mhz ← Outcome.expectSome (Numerals.parseF64 (trim mhz))
    return (mhz.mul (.finite 1000)).toUInt64

def Surroundings.collectX86 (host : Surroundings) : Outcome String CpuInfo := do
  let cpuLines ← fileLines host.cpuinfo
  let cores := (cpuLines.filter "model name".toList.isPrefixOf).length
  let modelName ← findLine cpuLines "model name"
  let vendorId ← findLine cpuLines "vendor_id"
  let family ← findLine cpuLines "cpu family"
  let model ← findLine cpuLines "model\t"
  let microcode ← findLine cpuLines "microcode"
  let maxFreq ← host.tryFindingCpuFreq 0
  return ⟨modelName, microcode, .ofNat cores, vendorId, family, model, maxFreq⟩

def vendorName : String → String
  | "0x41" => "Arm Limited"
  | "0x42" => "Broadcom Corporation"
  | "0x43" => "Cavium Inc"
  | "0x44" => "Digital Equipment Corporation"
  | "0x46" => "Fujitsu Ltd"
  | "0x49" => "Infineon Technologies AG"
  | "0x4d" => "Motorola"
  | "0x4e" => "NVIDIA Corporation"
  | "0x50" => "Applied Micro Circuits Corporation"
  | "0x51" => "Qualcomm Inc"
  | "0x56" => "Marvell International Ltd"
  | "0x69" => "Intel Corporation"
  | "0xc0" => "Ampere Computing"
  | other => "unknown aarch64 vendor " ++ other

def Surroundings.modelNameOf (host : Surroundings) : Outcome String String :=
  match host.modelNameOverride, host.compatible with
  | some value, _ => .ok value
  | none, some contents => do
    let modelName ← Outcome.expectSome contents
    return .ofList (modelName.toList.map fun c => if c = '\x00' then ';' else c)
  | none, none => .ok "unknown"

def Surroundings.collectAarch64 (host : Surroundings) : Outcome String CpuInfo := do
  let cpuLines ← fileLines host.cpuinfo
  let cores := (cpuLines.filter "processor".toList.isPrefixOf).length
  let modelName ← host.modelNameOf
  let vendorId ← findLine cpuLines "CPU implementer"
  let family ← findLine cpuLines "CPU architecture"
  let model ← findLine cpuLines "CPU part"
  let freq ← Outcome.expectSome host.cpuinfoMaxFreq
  let maxFreq ← parseFreq freq
  return ⟨modelName, "", .ofNat cores, vendorName vendorId, family, model, maxFreq⟩

def Surroundings.collectCpuInfo (host : Surroundings) : Outcome String CpuInfo :=
  if host.arch = "x86" ∨ host.arch = "x86_64" then host.collectX86
  else if host.arch = "aarch64" then host.collectAarch64
  else .panic

def Surroundings.collectMemInfo (host : Surroundings) : Outcome String MemoryInfo := do
  let memLines ← fileLines host.meminfo
  let total ← Outcome.expectSome memLines[0]?
  let available ← Outcome.expectSome memLines[2]?
  return ⟨lastField total, lastField available⟩

/-- Up to the first zero. -/
def Surroundings.hostname (host : Surroundings) : Outcome String String := do
  let bytes ← Outcome.expectSome host.hostnameBytes
  let stop ← Outcome.expectSome (bytes.findIdx? (· = 0))
  Outcome.expectSome (Json.textOf (bytes.take stop))

def Surroundings.collectEnvInfo (host : Surroundings) : EnvInfo := ⟨host.arch, host.family, host.os⟩

def Surroundings.collectHostInfo (host : Surroundings) : Outcome String HostInfo := do
  let cpuInfo ← host.collectCpuInfo
  let memoryInfo ← host.collectMemInfo
  let hostname ← host.hostname
  return ⟨hostname, cpuInfo, memoryInfo, host.collectEnvInfo⟩

end BuildOTron.Runner
