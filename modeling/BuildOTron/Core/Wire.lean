import BuildOTron.Core.Protocol
import BuildOTron.Lib.JsonText

/-! How `protocol.rs` is written as JSON: enums are internally tagged, so a newtype
variant's members stand beside the tag, and `CommandInfo` and `TaskInfo` bring a tag
of their own. It is read from arrays as well: a struct from its fields in their order,
an enum from its tag and then the fields. -/
namespace BuildOTron

def texts (items : List String) : Json := .arr (items.map .str)

def orNull (write : α → Json) : Option α → Json
  | some value => write value
  | none => .null

abbrev Members := List (String × Json)

def CommandInfo.members : CommandInfo → Members
  | .started command cwd i => [("command_info", .str "started"), ("command", texts command),
      ("cwd", orNull .str cwd), ("id", .int i.toNat)]
  | .finished exitCode i => [("command_info", .str "finished"),
      ("exit_code", orNull (fun code => .int code.toInt) exitCode), ("id", .int i.toNat)]

def TaskInfo.members : TaskInfo → Members
  | .finished status => [("task_info", .str "finished"), ("status", .str status)]
  | .interrupted status description => [("task_info", .str "interrupted"), ("status", .str status),
      ("description", orNull .str description)]

def CpuInfo.members (info : CpuInfo) : Members :=
  [("model_name", .str info.modelName), ("microcode", .str info.microcode),
    ("cores", .int info.cores.toNat), ("vendor_id", .str info.vendorId), ("family", .str info.family),
    ("model", .str info.model), ("max_freq", .int info.maxFreq.toNat)]

def MemoryInfo.members (info : MemoryInfo) : Members :=
  [("total", .str info.total), ("available", .str info.available)]

def EnvInfo.members (info : EnvInfo) : Members :=
  [("arch", .str info.arch), ("family", .str info.family), ("os", .str info.os)]

def HostInfo.members (info : HostInfo) : Members :=
  [("hostname", .str info.hostname), ("cpu_info", .obj info.cpuInfo.members),
    ("memory_info", .obj info.memoryInfo.members), ("env_info", .obj info.envInfo.members)]

def RequestedJob.members (job : RequestedJob) : Members :=
  [("commit", .str job.commit), ("remote_url", .str job.remoteUrl),
    ("build_token", .str job.buildToken)]

def ClientProto.members : ClientProto → Members
  | .started => [("kind", .str "started")]
  | .artifactCreate => [("kind", .str "artifact_create")]
  | .newTask task => ("kind", .str "new_task") :: task.members
  | .newTaskPlease allowedPushers hostInfo => [("kind", .str "new_task_please"),
      ("allowed_pushers", orNull texts allowedPushers), ("host_info", .obj hostInfo.members)]
  | .metric name value => [("kind", .str "metric"), ("name", .str name), ("value", .str value)]
  | .command info => ("kind", .str "command") :: info.members
  | .taskStatus info => ("kind", .str "task_status") :: info.members
  | .ping => [("kind", .str "ping")]
  | .pong => [("kind", .str "pong")]

def ClientProto.toJson (message : ClientProto) : Json := .obj message.members

/-- What `send_typed` of either side sends. -/
def ClientProto.encode (message : ClientProto) : List UInt8 := message.toJson.print

namespace Members

/-- A member that is there once; a second one is an error. -/
def required (members : Members) (key : String) : Option Json :=
  match members.filter fun member => member.1 = key with
  | [(_, value)] => some value
  | _ => none

/-- A member of an optional type, which may be absent or null. -/
def optional (members : Members) (key : String) (read : Json → Option α) : Option (Option α) :=
  match members.filter fun member => member.1 = key with
  | [] | [(_, .null)] => some none
  | [(_, value)] => some <$> read value
  | _ => none

def text (members : Members) (key : String) : Option String := (members.required key).bind Json.asStr

end Members

def asTexts : Json → Option (List String)
  | .arr items => items.mapM Json.asStr
  | _ => none

def asUInt32 : Json → Option UInt32
  | .int n => if 0 ≤ n ∧ n < 2 ^ 32 then some (.ofNat n.toNat) else none
  | _ => none

def asInt32 : Json → Option Int32
  | .int n => if -2 ^ 31 ≤ n ∧ n < 2 ^ 31 then some (.ofInt n) else none
  | _ => none

def asUInt64 : Json → Option UInt64
  | .int n => if 0 ≤ n ∧ n < 2 ^ 64 then some (.ofNat n.toNat) else none
  | _ => none

/-- Fields that come without their names. -/
def inOrder (names : List String) (items : List Json) : Option Members :=
  if items.length = names.length then some (names.zip items) else none

/-- The members of a derived struct. -/
def fieldsOf (names : List String) : Json → Option Members
  | .obj members => some members
  | .arr items => inOrder names items
  | _ => none

/-- The tag of an enum inside another one: the name of the variant, or its number. -/
def asVariant (names : List String) : Json → Option String
  | .str name => some name
  | .int n => if 0 ≤ n then names[n.toNat]? else none
  | _ => none

/-- An enum inside another one, its tag first. -/
def variantInOrder (tag : String) (names : List String) (fields : String → List String) :
    List Json → Option Members
  | first :: items => do
    let variant ← asVariant names first
    let members ← inOrder (fields variant) items
    return (tag, .str variant) :: members
  | [] => none

def CommandInfo.variants : List String := ["started", "finished"]

def CommandInfo.fields : String → List String
  | "started" => ["command", "cwd", "id"]
  | "finished" => ["exit_code", "id"]
  | _ => []

def TaskInfo.variants : List String := ["finished", "interrupted"]

def TaskInfo.fields : String → List String
  | "finished" => ["status"]
  | "interrupted" => ["status", "description"]
  | _ => []

def CommandInfo.ofMembers (members : Members) : Option CommandInfo := do
  match ← (← members.required "command_info") |> asVariant variants with
  | "started" =>
    let command ← (← members.required "command") |> asTexts
    let cwd ← members.optional "cwd" Json.asStr
    let i ← (← members.required "id") |> asUInt32
    return .started command cwd i
  | "finished" =>
    let exitCode ← members.optional "exit_code" asInt32
    let i ← (← members.required "id") |> asUInt32
    return .finished exitCode i
  | _ => none

def TaskInfo.ofMembers (members : Members) : Option TaskInfo := do
  match ← (← members.required "task_info") |> asVariant variants with
  | "finished" => return .finished (← members.text "status")
  | "interrupted" =>
    let status ← members.text "status"
    let description ← members.optional "description" Json.asStr
    return .interrupted status description
  | _ => none

def CpuInfo.fields : List String :=
  ["model_name", "microcode", "cores", "vendor_id", "family", "model", "max_freq"]

def CpuInfo.ofMembers (members : Members) : Option CpuInfo := do
  let modelName ← members.text "model_name"
  let microcode ← members.text "microcode"
  let cores ← (← members.required "cores") |> asUInt32
  let vendorId ← members.text "vendor_id"
  let family ← members.text "family"
  let model ← members.text "model"
  let maxFreq ← (← members.required "max_freq") |> asUInt64
  return ⟨modelName, microcode, cores, vendorId, family, model, maxFreq⟩

def MemoryInfo.fields : List String := ["total", "available"]

def MemoryInfo.ofMembers (members : Members) : Option MemoryInfo := do
  let total ← members.text "total"
  let available ← members.text "available"
  return ⟨total, available⟩

def EnvInfo.fields : List String := ["arch", "family", "os"]

def EnvInfo.ofMembers (members : Members) : Option EnvInfo := do
  let arch ← members.text "arch"
  let family ← members.text "family"
  let os ← members.text "os"
  return ⟨arch, family, os⟩

def HostInfo.fields : List String := ["hostname", "cpu_info", "memory_info", "env_info"]

def HostInfo.ofMembers (members : Members) : Option HostInfo := do
  let hostname ← members.text "hostname"
  let cpuInfo ← CpuInfo.ofMembers (← (← members.required "cpu_info") |> fieldsOf CpuInfo.fields)
  let memoryInfo ← MemoryInfo.ofMembers (← (← members.required "memory_info") |> fieldsOf MemoryInfo.fields)
  let envInfo ← EnvInfo.ofMembers (← (← members.required "env_info") |> fieldsOf EnvInfo.fields)
  return ⟨hostname, cpuInfo, memoryInfo, envInfo⟩

def RequestedJob.fields : List String := ["commit", "remote_url", "build_token"]

def RequestedJob.ofMembers (members : Members) : Option RequestedJob := do
  let commit ← members.text "commit"
  let remoteUrl ← members.text "remote_url"
  let buildToken ← members.text "build_token"
  return ⟨commit, remoteUrl, buildToken⟩

def ClientProto.ofMembers (members : Members) : Option ClientProto := do
  match ← members.text "kind" with
  | "started" => return .started
  | "artifact_create" => return .artifactCreate
  | "new_task" => return .newTask (← RequestedJob.ofMembers members)
  | "new_task_please" =>
    let allowedPushers ← members.optional "allowed_pushers" asTexts
    let hostInfo ← HostInfo.ofMembers (← (← members.required "host_info") |> fieldsOf HostInfo.fields)
    return .newTaskPlease allowedPushers hostInfo
  | "metric" =>
    let name ← members.text "name"
    let value ← members.text "value"
    return .metric name value
  | "command" => return .command (← CommandInfo.ofMembers members)
  | "task_status" => return .taskStatus (← TaskInfo.ofMembers members)
  | "ping" => return .ping
  | "pong" => return .pong
  | _ => none

/-- What stands behind the tag of a message that comes as an array. -/
def ClientProto.behind (kind : String) (items : List Json) : Option Members :=
  match kind with
  | "new_task" => inOrder RequestedJob.fields items
  | "new_task_please" => inOrder ["allowed_pushers", "host_info"] items
  | "metric" => inOrder ["name", "value"] items
  | "command" => variantInOrder "command_info" CommandInfo.variants CommandInfo.fields items
  | "task_status" => variantInOrder "task_info" TaskInfo.variants TaskInfo.fields items
  | _ => inOrder [] items

def ClientProto.ofJson : Json → Option ClientProto
  | .obj members => ofMembers members
  | .arr (tag :: items) => do
    let kind ← tag.asStr
    let members ← behind kind items
    ofMembers (("kind", .str kind) :: members)
  | _ => none

theorem asTexts_texts (items : List String) : asTexts (texts items) = some items := by
  rw [texts, asTexts]
  induction items with
  | nil => rfl
  | cons item items ih => simp [Json.asStr, ih]

theorem asUInt32_toNat (n : UInt32) : asUInt32 (.int n.toNat) = some n := by
  have bound := n.toNat_lt
  rw [asUInt32, if_pos (by omega), Int.toNat_natCast, UInt32.ofNat_toNat]

theorem asUInt64_toNat (n : UInt64) : asUInt64 (.int n.toNat) = some n := by
  have bound := n.toNat_lt
  rw [asUInt64, if_pos (by omega), Int.toNat_natCast, UInt64.ofNat_toNat]

theorem asInt32_toInt (n : Int32) : asInt32 (.int n.toInt) = some n := by
  have low := n.le_toInt
  have high := n.toInt_lt
  rw [asInt32, if_pos ⟨low, high⟩, Int32.ofInt_toInt]

theorem cpuInfo_ofMembers (info : CpuInfo) : CpuInfo.ofMembers info.members = some info := by
  have reads (cores maxFreq : Json) : CpuInfo.ofMembers [("model_name", .str info.modelName),
      ("microcode", .str info.microcode), ("cores", cores), ("vendor_id", .str info.vendorId),
      ("family", .str info.family), ("model", .str info.model), ("max_freq", maxFreq)] =
      (asUInt32 cores).bind fun cores => (asUInt64 maxFreq).bind fun maxFreq =>
        some { info with cores := cores, maxFreq := maxFreq } := rfl
  rw [CpuInfo.members, reads, asUInt32_toNat, asUInt64_toNat, Option.bind_some, Option.bind_some]

theorem hostInfo_ofMembers (info : HostInfo) : HostInfo.ofMembers info.members = some info := by
  have reads (cpuInfo : Members) : HostInfo.ofMembers [("hostname", .str info.hostname),
      ("cpu_info", .obj cpuInfo), ("memory_info", .obj info.memoryInfo.members),
      ("env_info", .obj info.envInfo.members)] =
      (CpuInfo.ofMembers cpuInfo).bind fun cpuInfo => some { info with cpuInfo := cpuInfo } := rfl
  rw [HostInfo.members, reads, cpuInfo_ofMembers, Option.bind_some]

/-- An optional member that is written as null or as its value. -/
theorem optional_orNull {read : Json → Option α} {write : α → Json} {members : Members} {key : String}
    (value : Option α) (written : members.filter (fun member => member.1 = key) =
      [(key, orNull write value)]) (reads : ∀ value, read (write value) = some value)
    (nonnull : ∀ value, write value ≠ .null) : members.optional key read = some value := by
  rw [Members.optional, written]
  cases value with
  | none => rfl
  | some value =>
    rw [orNull]
    split
    · contradiction
    · rename_i same
      exact absurd (Prod.mk.inj (List.cons.inj same).1).2 (nonnull value)
    · rename_i same
      obtain ⟨rfl, rfl⟩ := Prod.mk.inj (List.cons.inj same).1
      rw [reads]
      rfl
    · rename_i other
      exact absurd rfl (other key (write value))

/-- Members are read from behind the outer tag as they are without it. -/
theorem commandInfo_ofMembers (info : CommandInfo) :
    CommandInfo.ofMembers (("kind", .str "command") :: info.members) = some info := by
  cases info with
  | started command cwd i =>
    have reads (command cwd i : Json) : CommandInfo.ofMembers [("kind", .str "command"),
        ("command_info", .str "started"), ("command", command), ("cwd", cwd), ("id", i)] =
        (asTexts command).bind fun command =>
          (Members.optional [("cwd", cwd)] "cwd" Json.asStr).bind fun cwd =>
            (asUInt32 i).bind fun i => some (.started command cwd i) := rfl
    rw [CommandInfo.members, reads, asTexts_texts, asUInt32_toNat,
      optional_orNull cwd rfl (fun _ => rfl) (by simp)]
    rfl
  | finished exitCode i =>
    have reads (exitCode i : Json) : CommandInfo.ofMembers [("kind", .str "command"),
        ("command_info", .str "finished"), ("exit_code", exitCode), ("id", i)] =
        (Members.optional [("exit_code", exitCode)] "exit_code" asInt32).bind fun exitCode =>
          (asUInt32 i).bind fun i => some (.finished exitCode i) := rfl
    rw [CommandInfo.members, reads, asUInt32_toNat, optional_orNull exitCode rfl asInt32_toInt (by simp)]
    rfl

theorem ofJson_toJson (message : ClientProto) : ClientProto.ofJson message.toJson = some message := by
  cases message with
  | started => rfl
  | artifactCreate => rfl
  | ping => rfl
  | pong => rfl
  | metric name value => rfl
  | newTask task => rfl
  | newTaskPlease allowedPushers hostInfo =>
    have reads (allowedPushers : Json) (hostInfo : Members) : ClientProto.ofMembers
        [("kind", .str "new_task_please"), ("allowed_pushers", allowedPushers),
          ("host_info", .obj hostInfo)] =
        (Members.optional [("allowed_pushers", allowedPushers)] "allowed_pushers" asTexts).bind
          fun allowedPushers => (HostInfo.ofMembers hostInfo).bind fun hostInfo =>
            some (.newTaskPlease allowedPushers hostInfo) := rfl
    rw [ClientProto.toJson, ClientProto.members, ClientProto.ofJson, reads, hostInfo_ofMembers,
      optional_orNull allowedPushers rfl asTexts_texts (by simp [texts])]
    rfl
  | command info =>
    have reads (members : Members) (once : members.filter (fun member => member.1 = "kind") = []) :
        ClientProto.ofMembers (("kind", .str "command") :: members) =
          (CommandInfo.ofMembers (("kind", .str "command") :: members)).bind fun info =>
            some (.command info) := by
      simp [ClientProto.ofMembers, Members.text, Members.required, once, Json.asStr]
    have once : info.members.filter (fun member => member.1 = "kind") = [] := by cases info <;> rfl
    rw [ClientProto.toJson, ClientProto.members, ClientProto.ofJson, reads _ once,
      commandInfo_ofMembers, Option.bind_some]
  | taskStatus info =>
    cases info with
    | finished status => rfl
    | interrupted status description => cases description <;> rfl

/-- A message is the same without the names of its fields. -/
theorem ofJson_inOrder (message : ClientProto) :
    ClientProto.ofJson (.arr (message.members.map Prod.snd)) = some message := by
  have same : ClientProto.ofJson (.arr (message.members.map Prod.snd)) =
      ClientProto.ofJson message.toJson := by
    cases message with
    | command info => cases info <;> rfl
    | taskStatus info => cases info <;> rfl
    | started | artifactCreate | newTask | newTaskPlease | metric | ping | pong => rfl
  rw [same, ofJson_toJson]

/-! Every message is a text that the parser gives back, as it is or as a `Value`. -/

theorem plain_texts (items : List String) : (texts items).Plain := by
  rw [texts, Json.Plain]
  induction items with
  | nil => trivial
  | cons item items ih => exact ⟨trivial, ih⟩

theorem plain_str (text : String) : (Json.str text).Plain := trivial

theorem plain_orNull {write : α → Json} (plain : ∀ value, (write value).Plain) (value : Option α) :
    (orNull write value).Plain := by
  cases value with
  | none => trivial
  | some value => exact plain value

theorem plain_nat {n : Nat} (bound : n < 2 ^ 64) : (Json.int n).Plain := by
  refine ⟨?_, ?_⟩ <;> omega

theorem plain_uInt32 (n : UInt32) : (Json.int n.toNat).Plain :=
  plain_nat (Nat.lt_trans n.toNat_lt (by decide))

theorem plain_int32 (n : Int32) : (Json.int n.toInt).Plain := by
  have low := n.le_toInt
  have high := n.toInt_lt
  refine ⟨?_, ?_⟩ <;> omega

theorem plain_commandInfo (info : CommandInfo) : Json.PlainFields info.members := by
  cases info with
  | started command cwd i =>
    exact ⟨trivial, plain_texts command, plain_orNull plain_str cwd, plain_uInt32 i, trivial⟩
  | finished exitCode i => exact ⟨trivial, plain_orNull plain_int32 exitCode, plain_uInt32 i, trivial⟩

theorem plain_taskInfo (info : TaskInfo) : Json.PlainFields info.members := by
  cases info with
  | finished status => exact ⟨trivial, trivial, trivial⟩
  | interrupted status description =>
    exact ⟨trivial, trivial, plain_orNull plain_str description, trivial⟩

theorem plain_cpuInfo (info : CpuInfo) : Json.PlainFields info.members :=
  ⟨trivial, trivial, plain_uInt32 info.cores, trivial, trivial, trivial,
    plain_nat info.maxFreq.toNat_lt, trivial⟩

theorem plain_hostInfo (info : HostInfo) : Json.PlainFields info.members :=
  ⟨trivial, plain_cpuInfo info.cpuInfo, ⟨trivial, trivial, trivial⟩,
    ⟨trivial, trivial, trivial, trivial⟩, trivial⟩

theorem plain_members (message : ClientProto) : Json.PlainFields message.members := by
  cases message with
  | started | artifactCreate | ping | pong => exact ⟨trivial, trivial⟩
  | newTask task => exact ⟨trivial, trivial, trivial, trivial, trivial⟩
  | newTaskPlease allowedPushers hostInfo =>
    exact ⟨trivial, plain_orNull plain_texts allowedPushers, plain_hostInfo hostInfo, trivial⟩
  | metric name value => exact ⟨trivial, trivial, trivial, trivial⟩
  | command info => exact ⟨trivial, plain_commandInfo info⟩
  | taskStatus info => exact ⟨trivial, plain_taskInfo info⟩

theorem depth_texts (items : List String) : (texts items).depth ≤ 1 := by
  have flat : Json.depthItems (items.map .str) = 0 := by
    induction items with
    | nil => rfl
    | cons item items ih => rw [List.map_cons, Json.depthItems, ih, Json.depth, Nat.max_self]
  rw [texts, Json.depth, flat]

theorem depth_orNull {write : α → Json} (bound : ∀ value, (write value).depth ≤ n) (value : Option α) :
    (orNull write value).depth ≤ n := by
  cases value with
  | none => exact Nat.zero_le n
  | some value => exact bound value

theorem depth_commandInfo (info : CommandInfo) : Json.depthFields info.members ≤ 1 := by
  cases info with
  | started command cwd i =>
    have words := depth_texts command
    have directory : (orNull Json.str cwd).depth ≤ 0 := depth_orNull (fun _ => Nat.le_refl 0) cwd
    simp only [CommandInfo.members, Json.depthFields, Json.depth]
    omega
  | finished exitCode i =>
    have code : (orNull (fun code : Int32 => Json.int code.toInt) exitCode).depth ≤ 0 :=
      depth_orNull (fun _ => Nat.le_refl 0) exitCode
    simp only [CommandInfo.members, Json.depthFields, Json.depth]
    omega

/-- A message is nowhere near as deep as a text may be. -/
theorem shallow_members (message : ClientProto) : Json.depthFields message.members < Json.maxDepth := by
  cases message with
  | newTaskPlease allowedPushers hostInfo =>
    have pushers := depth_orNull depth_texts allowedPushers
    simp only [ClientProto.members, HostInfo.members, CpuInfo.members, MemoryInfo.members, EnvInfo.members,
      Json.depthFields, Json.depth, Json.maxDepth]
    omega
  | command info =>
    have shallow := depth_commandInfo info
    simp only [ClientProto.members, Json.depthFields, Json.depth, Json.maxDepth]
    omega
  | taskStatus info =>
    cases info with
    | finished status =>
      simp [ClientProto.members, TaskInfo.members, Json.depthFields, Json.depth, Json.maxDepth]
    | interrupted status description =>
      have described : (orNull Json.str description).depth ≤ 0 :=
        depth_orNull (fun _ => Nat.le_refl 0) description
      simp only [ClientProto.members, TaskInfo.members, Json.depthFields, Json.depth, Json.maxDepth]
      omega
  | started | artifactCreate | newTask | metric | ping | pong =>
    simp [ClientProto.members, RequestedJob.members, Json.depthFields, Json.depth, Json.maxDepth]

theorem distinct_texts (items : List String) : (texts items).DistinctKeys := by
  rw [texts, Json.DistinctKeys]
  induction items with
  | nil => trivial
  | cons item items ih => exact ⟨trivial, ih⟩

theorem distinct_str (text : String) : (Json.str text).DistinctKeys := trivial

theorem distinct_int32 (n : Int32) : (Json.int n.toInt).DistinctKeys := trivial

theorem distinct_orNull {write : α → Json} (distinct : ∀ value, (write value).DistinctKeys)
    (value : Option α) : (orNull write value).DistinctKeys := by
  cases value with
  | none => trivial
  | some value => exact distinct value

theorem distinct_cpuInfo (info : CpuInfo) : Json.DistinctFields info.members := by
  simp [CpuInfo.members, Json.DistinctFields, Json.DistinctKeys]

theorem distinct_hostInfo (info : HostInfo) : Json.DistinctFields info.members := by
  simp [HostInfo.members, MemoryInfo.members, EnvInfo.members, Json.DistinctFields,
    Json.DistinctKeys, distinct_cpuInfo]

theorem distinct_commandInfo (info : CommandInfo) :
    Json.DistinctFields (("kind", .str "command") :: info.members) := by
  cases info with
  | started command cwd i =>
    have directory := distinct_orNull distinct_str cwd
    simp [CommandInfo.members, Json.DistinctFields, Json.DistinctKeys, distinct_texts, directory]
  | finished exitCode i =>
    have code := distinct_orNull distinct_int32 exitCode
    simp [CommandInfo.members, Json.DistinctFields, Json.DistinctKeys, code]

theorem distinct_taskInfo (info : TaskInfo) :
    Json.DistinctFields (("kind", .str "task_status") :: info.members) := by
  cases info with
  | finished status => simp [TaskInfo.members, Json.DistinctFields, Json.DistinctKeys]
  | interrupted status description =>
    have described := distinct_orNull distinct_str description
    simp [TaskInfo.members, Json.DistinctFields, Json.DistinctKeys, described]

theorem distinct_members (message : ClientProto) : Json.DistinctFields message.members := by
  cases message with
  | newTaskPlease allowedPushers hostInfo =>
    have pushers := distinct_orNull distinct_texts allowedPushers
    have host := distinct_hostInfo hostInfo
    simp [ClientProto.members, Json.DistinctFields, Json.DistinctKeys, pushers, host]
  | command info => exact distinct_commandInfo info
  | taskStatus info => exact distinct_taskInfo info
  | started | artifactCreate | ping | pong | metric | newTask =>
    simp [ClientProto.members, RequestedJob.members, Json.DistinctFields, Json.DistinctKeys]

/-- No tag stands in the way of another or of a field, so nothing of a message is lost
on the way through a `Value`. -/
theorem asValue_toJson (message : ClientProto) : message.toJson.asValue = message.toJson :=
  Json.asValue_eq _ (distinct_members message)

end BuildOTron
