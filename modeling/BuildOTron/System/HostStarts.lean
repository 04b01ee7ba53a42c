import BuildOTron.Driver.Admission
import BuildOTron.Runner.ProcCpuInfo

/-! Runners start on machines, again and again. The driver tells the machines apart by what
a runner has read off the kernel's files and sent with its first message. -/
namespace BuildOTron.System
open Runner Hosts

/-- What a machine is known by. -/
structure Host where
  name : String
  arch : String
  family : String
  os : String
  vendorId : String
  cpuFamily : String
  model : String
  modelName : String
  microcode : String
  cores : UInt32
  memTotal : String

def Host.info (host : Host) (maxFreq : UInt64) (available : String) : HostInfo :=
  ⟨host.name,
    ⟨host.modelName, host.microcode, host.cores, host.vendorId, host.cpuFamily, host.model, maxFreq⟩,
    ⟨host.memTotal, available⟩, ⟨host.arch, host.family, host.os⟩⟩

inductive Clock where
  /-- of `cpufreq`, the highest there is -/
  | highest (khz : Nat)
  /-- of `/proc/cpuinfo`, at the moment -/
  | momentary (khz : Nat)

def Clock.reading : Clock → UInt64
  | highest khz => .ofNat khz
  | momentary khz => scaledKhz khz

inductive ClockShown (s : Surroundings) : Clock → Prop where
  | highest (small : khz < 2 ^ 64)
    (file : s.cpuinfoMaxFreq = some (.ofList (Nat.toDigits 10 khz ++ ['\n']))) : ClockShown s (.highest khz)
  | momentary {processors : List Processor} (file : s.cpuinfoMaxFreq = none)
    (again : s.cpuinfoAgain = some (cpuinfo (processors.map Processor.toSection)))
    (found : processors.findSome? Processor.khz = some khz) : ClockShown s (.momentary khz)

/-- The kernel prints the processors of this host. -/
inductive CpuShown (host : Host) (s : Surroundings) (clock : Clock) : Prop where
  | x86 {first : Processor} {rest : List Processor} (arch : host.arch = "x86" ∨ host.arch = "x86_64")
    (text : s.cpuinfo = some (cpuinfo ((first :: rest).map Processor.toSection)))
    (modelName : first.modelName.seen = host.modelName) (vendorId : first.vendorId.seen = host.vendorId)
    (family : first.family.seen = host.cpuFamily) (model : first.model.seen = host.model)
    (microcode : ((first :: rest).findSome? Processor.microcode).map Value.seen = some host.microcode)
    (cores : .ofNat (rest.length + 1) = host.cores)
  | aarch64 {first : Core} {rest : List Core} (arch : host.arch = "aarch64") (steady : clock = .highest khz)
    (text : s.cpuinfo = some (cpuinfo ((first :: rest).map Core.toSection)))
    (modelName : s.modelNameOf = .ok host.modelName)
    (vendorId : vendorName first.implementer.seen = host.vendorId)
    (family : first.architecture.seen = host.cpuFamily) (model : first.part.seen = host.model)
    (microcode : host.microcode = "") (cores : .ofNat (rest.length + 1) = host.cores)

/-- A runner's start: the host, what is different from one start to the next, and the
files as they are then. -/
structure Start where
  host : Host
  clock : Clock
  available : String
  surroundings : Surroundings
  arch : surroundings.arch = host.arch
  family : surroundings.family = host.family
  os : surroundings.os = host.os
  clock_shown : ClockShown surroundings clock
  cpu_shown : CpuShown host surroundings clock
  memory : ∃ total free rest more, surroundings.meminfo = some (meminfo total free rest more) ∧
    total.seen = host.memTotal ∧ rest.seen = available
  name : ∃ behind, surroundings.hostnameBytes = some (Json.utf8 host.name ++ 0 :: behind)
  no_zero : 0 ∉ Json.utf8 host.name

def Start.info (start : Start) : HostInfo := start.host.info start.clock.reading start.available

section
variable {host : Host} {s : Surroundings} {clock : Clock}

theorem clock_read (shown : ClockShown s clock) : s.tryFindingCpuFreq 0 = .ok clock.reading := by
  cases shown with
  | highest small file => exact maxFreq_of_file file small
  | momentary file again found =>
    rw [maxFreq_of_cpuinfo file again, found]
    rfl

theorem cpu_read (shown : CpuShown host s clock) (clockShown : ClockShown s clock)
    (arch : s.arch = host.arch) :
    s.collectCpuInfo = .ok ⟨host.modelName, host.microcode, host.cores, host.vendorId, host.cpuFamily,
      host.model, clock.reading⟩ := by
  cases shown with
  | x86 known text modelName vendorId family model microcode cores =>
    obtain ⟨value, found, seen⟩ := Option.map_eq_some_iff.mp microcode
    rw [Surroundings.collectCpuInfo, if_pos (arch ▸ known), collectX86_cpuinfo text, found,
      clock_read clockShown]
    simp only [Outcome.expectSome_some, Outcome.ok_bind, Outcome.pure_eq, modelName, seen, cores, vendorId,
      family, model]
  | aarch64 known steady text modelName vendorId family model microcode cores =>
    have read := clock_read clockShown
    have other : ¬ (s.arch = "x86" ∨ s.arch = "x86_64") := by
      rw [arch, known]
      decide
    subst steady
    cases clockShown with
    | highest small file =>
      simp only [Surroundings.tryFindingCpuFreq, file] at read
      rw [Surroundings.collectCpuInfo, if_neg other, if_pos (arch.trans known), collectAarch64_cpuinfo text]
      simp only [Outcome.expectSome_some, Outcome.ok_bind, Outcome.pure_eq, file, modelName, microcode, cores,
        vendorId, family, model, read]

theorem Start.collects (start : Start) : start.surroundings.collectHostInfo = .ok start.info := by
  obtain ⟨total, free, rest, more, text, memTotal, available⟩ := start.memory
  obtain ⟨behind, bytes⟩ := start.name
  rw [Surroundings.collectHostInfo, cpu_read start.cpu_shown start.clock_shown start.arch,
    collectMemInfo_meminfo text, hostname_bytes start.no_zero bytes, Surroundings.collectEnvInfo, start.arch,
    start.family, start.os, memTotal, available]
  rfl

end

/-- The first message of a runner, and what the driver takes it for. -/
def introduced (allowedPushers : Option (List String)) (s : Surroundings) :
    Outcome Admission.StatusCode (Option (List String) × HostInfo) :=
  match s.collectHostInfo with
  | .ok hostInfo => Admission.workRequest (.bytes (ClientProto.newTaskPlease allowedPushers hostInfo).encode)
  | .err _ | .panic => .panic

theorem Start.introduces (start : Start) (allowedPushers : Option (List String)) :
    introduced allowedPushers start.surroundings = .ok (allowedPushers, start.info) := by
  rw [introduced, start.collects]
  exact Admission.workRequest_encode allowedPushers start.info

theorem hostKey_info {a b : Host} : hostKey (Db.hostRow (a.info f x)) = hostKey (Db.hostRow (b.info g y)) ↔
    a = b := by
  constructor
  · intro same
    obtain ⟨⟩ := a
    obtain ⟨⟩ := b
    simp only [hostKey, Db.hostRow, Host.info, HostRow.mk.injEq, UInt32.toNat_inj] at same
    simp only [Host.mk.injEq]
    tauto
  · rintro rfl
    rfl

/-- All starts on a host read the same clock, and one that can be stored. -/
structure SteadyClocks (starts : List Start) : Prop where
  stored : ∀ start ∈ starts, bindable start.clock.reading = true
  steady : ∀ a ∈ starts, ∀ b ∈ starts, a.host = b.host → a.clock.reading = b.clock.reading

theorem steadyClocks_iff {starts : List Start} :
    OneFrequencyEach (starts.map Start.info) ↔ SteadyClocks starts := by
  constructor
  · rintro ⟨stored, agree⟩
    constructor
    · exact List.forall_mem_map.mp stored
    · intro a memberA b memberB same
      exact agree a.info (List.mem_map_of_mem memberA) b.info (List.mem_map_of_mem memberB)
        (hostKey_info.mpr same)
  · rintro ⟨stored, steady⟩
    constructor
    · exact List.forall_mem_map.mpr stored
    · rw [List.forall_mem_map]
      intro a memberA
      rw [List.forall_mem_map]
      intro b memberB same
      exact steady a memberA b memberB (hostKey_info.mp same)

/-- Each start is given an id, two the same one exactly when they are on one host. -/
def Recognised (db : Db) (starts : List Start) : Prop :=
  ∃ hostIds t, Identified ⟨db, false⟩ (starts.map Start.info) hostIds t ∧
    ∀ a x b y, (a, x) ∈ starts.zip hostIds → (b, y) ∈ starts.zip hostIds →
      (x = y ↔ a.host = b.host)

theorem recognised_iff (db : Db) (none : db.hosts.rows = []) (starts : List Start) :
    Recognised db starts ↔ SteadyClocks starts := by
  have interned : Table.Interned hostKey db.hosts (([] : List HostInfo).map Db.hostRow) :=
    Table.interned_empty none
  rw [← steadyClocks_iff, ← agreeing_iff, ← identified_iff (s := ⟨db, false⟩) rfl interned]
  constructor
  · rintro ⟨hostIds, t, identified, _⟩
    exact ⟨hostIds, t, identified⟩
  · rintro ⟨hostIds, t, identified⟩
    refine ⟨hostIds, t, identified, ?_⟩
    have keyed := (identified.interned rfl interned).keyed
    have row : ∀ a x, (a, x) ∈ starts.zip hostIds → t.db.hosts.get? x = some (Db.hostRow a.info) := by
      intro a x member
      apply identified.rows.2
      rw [List.zip_map_left]
      exact List.mem_map_of_mem member
    intro a x b y memberA memberB
    constructor
    · rintro rfl
      have same := Option.some.inj ((row a x memberA).symm.trans (row b x memberB))
      exact hostKey_info.mp (congrArg hostKey same)
    · intro same
      exact keyed x y _ _ (row a x memberA) (row b y memberB) (hostKey_info.mpr same)

/-- A runner tells the driver what the kernel prints of its host, and of a momentary clock
at most a kHz too little. The driver knows its hosts again, and apart from one another,
exactly as long as the clock of each of them reads the same at every start. -/
theorem hosts_recognised_iff (db : Db) (none : db.hosts.rows = []) (starts : List Start) :
    (∀ start ∈ starts, ∀ allowedPushers,
      introduced allowedPushers start.surroundings = .ok (allowedPushers, start.info)) ∧
    (∀ start ∈ starts, ∀ khz, start.clock = .momentary khz → khz ≤ 2 ^ 51 →
      khz ≤ start.clock.reading.toNat + 1 ∧ start.clock.reading.toNat ≤ khz) ∧
    (Recognised db starts ↔ SteadyClocks starts) := by
  refine ⟨fun start _ => start.introduces, ?_, recognised_iff db none starts⟩
  intro start _ khz momentary small
  rw [momentary]
  exact scaledKhz_near small

/-- A processor with nothing but what is looked for. -/
def someProcessor : Processor where
  number := ⟨['0'], by decide⟩
  vendorId := ⟨"vendor".toList, by decide⟩
  family := ⟨"6".toList, by decide⟩
  model := ⟨"158".toList, by decide⟩
  modelName := ⟨"model".toList, by decide⟩
  stepping := ⟨['0'], by decide⟩
  microcode := some ⟨"0x1".toList, by decide⟩
  khz := none
  others := []
  unasked := by simp

def kilobytes : Value := ⟨"16316412 kB".toList, by decide⟩

/-- A host of one such processor, which `cpufreq` knows the highest clock of. -/
def someStart : Start where
  host := ⟨"host", "x86_64", "unix", "linux", someProcessor.vendorId.seen, someProcessor.family.seen,
    someProcessor.model.seen, someProcessor.modelName.seen, (Value.mk "0x1".toList (by decide)).seen, 1,
    kilobytes.seen⟩
  clock := .highest 4200000
  available := kilobytes.seen
  surroundings := ⟨"x86_64", "unix", "linux", some (cpuinfo [someProcessor.toSection]),
    some (cpuinfo [someProcessor.toSection]), some (.ofList (Nat.toDigits 10 4200000 ++ ['\n'])), none, none,
    some (meminfo kilobytes kilobytes kilobytes []), some (Json.utf8 "host" ++ [0])⟩
  arch := rfl
  family := rfl
  os := rfl
  clock_shown := .highest (by decide) rfl
  cpu_shown := @CpuShown.x86 _ _ _ someProcessor [] (.inr rfl) rfl rfl rfl rfl rfl rfl rfl
  memory := ⟨_, _, _, _, rfl, rfl, rfl⟩
  name := ⟨_, rfl⟩
  no_zero := by decide

theorem restarted_host_recognised : Recognised .empty [someStart, someStart] :=
  (hosts_recognised_iff .empty rfl [someStart, someStart]).2.2.mpr
    ⟨by simp only [List.mem_cons, List.not_mem_nil, or_false, or_self, forall_eq]; rfl, by simp⟩

end BuildOTron.System
