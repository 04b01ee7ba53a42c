import BuildOTron.Core.DbCtx
import BuildOTron.Lib.OnePerKey
import Mathlib.Data.List.Induction
import Mathlib.Logic.Function.Basic

/-! The metrics of a job's runs, one run for each host, and the table they are shown in. -/
namespace BuildOTron.Web

def jobRuns (db : Db) (jobId : Nat) : List Run :=
  (db.runs.select fun row => row.jobId = jobId).map fun row => row.2.withId row.1

/-- One run for each host of the job's runs, the one started last. -/
structure OneLatestPerHost (db : Db) (jobId : Nat) (runs : List Run) : Prop where
  once : (runs.map Run.hostId).Nodup
  hosts : ∀ host, host ∈ runs.map Run.hostId ↔ host ∈ (jobRuns db jobId).map Run.hostId
  ofJob : ∀ run ∈ runs, run ∈ jobRuns db jobId
  latest : ∀ run ∈ runs, ∀ other ∈ jobRuns db jobId, other.hostId = run.hostId →
    Db.nullLe other.startTime run.startTime

/-- No two runs of the job on one host were started at different times. -/
def StartedTogether (db : Db) (jobId : Nat) : Prop :=
  ∀ run ∈ jobRuns db jobId, ∀ other ∈ jobRuns db jobId, other.hostId = run.hostId →
    other.startTime = run.startTime

section Runs
variable {db : Db} {pick : List (Nat × RunRow) → Option (Nat × RunRow)}

theorem runsForJobOnePerHost_perm (pick : List (Nat × RunRow) → Option (Nat × RunRow))
    (jobId : Nat) : (db.runsForJobOnePerHost pick jobId).Perm
      ((onePerKey (fun row => row.2.hostId) pick
        (db.runs.select fun row => row.jobId = jobId)).map fun row => row.2.withId row.1) :=
  (List.perm_insertionSort _ _).map _

theorem mem_runsForJobOnePerHost (picks : Picks pick) {run : Run}
    (shown : run ∈ db.runsForJobOnePerHost pick jobId) : run ∈ jobRuns db jobId := by
  obtain ⟨row, chosen, rfl⟩ := List.mem_map.mp ((runsForJobOnePerHost_perm pick jobId).mem_iff.mp shown)
  exact List.mem_map_of_mem ((OnePerKey.mem_iff picks).mp chosen).1

/-- Whichever rows stand for their hosts, there is one for each. -/
theorem one_run_per_host (db : Db) (picks : Picks pick) (jobId : Nat) :
    ((db.runsForJobOnePerHost pick jobId).map Run.hostId).Perm
      ((jobRuns db jobId).map Run.hostId).dedup := by
  refine ((runsForJobOnePerHost_perm pick jobId).map Run.hostId).trans ?_
  rw [List.map_map, jobRuns, List.map_map]
  exact .of_eq (OnePerKey.map_key picks)

theorem nullLe_antisymm {a b : Option Nat} (up : Db.nullLe a b) (down : Db.nullLe b a) : a = b := by
  cases a with
  | none => cases b with
    | none => rfl
    | some b => contradiction
  | some a => cases b with
    | none => contradiction
    | some b => exact congrArg some (Nat.le_antisymm (of_decide_eq_true up) (of_decide_eq_true down))

theorem nullLe_refl (a : Option Nat) : Db.nullLe a a := by
  cases a with
  | none => rfl
  | some a => exact decide_eq_true (Nat.le_refl a)

/-- The condition in terms of the rows of the table. -/
theorem startedTogether_iff : StartedTogether db jobId ↔
    ∀ a ∈ db.runs.select (fun row => row.jobId = jobId),
      ∀ b ∈ db.runs.select (fun row => row.jobId = jobId), b.2.hostId = a.2.hostId →
        Db.nullLe b.2.startedTime a.2.startedTime := by
  simp only [StartedTogether, jobRuns, List.forall_mem_map, RunRow.withId]
  constructor
  · intro together a listed b listed' same
    rw [together a listed b listed' same]
    exact nullLe_refl _
  · intro level a listed b listed' same
    exact nullLe_antisymm (level a listed b listed' same) (level b listed' a listed same.symm)

/-- Whichever row SQLite picks for a host. -/
theorem one_latest_per_host_iff (db : Db) (jobId : Nat) :
    (∀ pick, Picks pick → OneLatestPerHost db jobId (db.runsForJobOnePerHost pick jobId)) ↔
      StartedTogether db jobId := by
  rw [startedTogether_iff]
  refine Iff.trans (forall₂_congr fun pick picks => ?_) (OnePerKey.greatest_iff
    (fun row : Nat × RunRow => row.2.hostId)
    (fun b a => Db.nullLe b.2.startedTime a.2.startedTime) _)
  constructor
  · intro holds a chosen b listed same
    have shown : a.2.withId a.1 ∈ db.runsForJobOnePerHost pick jobId :=
      (runsForJobOnePerHost_perm pick jobId).mem_iff.mpr (List.mem_map_of_mem chosen)
    exact holds.latest _ shown _ (List.mem_map_of_mem listed) same
  · intro greatest
    have hosts := one_run_per_host db picks jobId
    refine ⟨hosts.nodup_iff.mpr (List.nodup_dedup _), fun host => ?_,
      fun run => mem_runsForJobOnePerHost picks, ?_⟩
    · rw [hosts.mem_iff, List.mem_dedup]
    · intro run shown other listed same
      obtain ⟨a, chosen, rfl⟩ :=
        List.mem_map.mp ((runsForJobOnePerHost_perm pick jobId).mem_iff.mp shown)
      obtain ⟨b, member, rfl⟩ := List.mem_map.mp listed
      exact greatest a chosen b member same

def startedOnHost (hostId startedTime : Nat) : RunRow :=
  { Db.pendingRow 1 none 0 with hostId := some hostId, startedTime := some startedTime }

/-- Two runs on one host, the second started later. -/
def rerunOnHost : Db :=
  { Db.empty with runs := (Table.empty.insert (startedOnHost 1 5)).insert (startedOnHost 1 9) }

theorem earlier_run_stands : ¬ ∀ (db : Db) (jobId : Nat)
    (pick : List (Nat × RunRow) → Option (Nat × RunRow)), Picks pick →
      OneLatestPerHost db jobId (db.runsForJobOnePerHost pick jobId) := by
  intro always
  have latest := (always rerunOnHost 1 List.head? OnePerKey.picks_head).latest
  have above := latest ((startedOnHost 1 5).withId 1) (by decide)
    ((startedOnHost 1 9).withId 2) (by decide) rfl
  contradiction

end Runs

/-! ### The table -/

structure HostDesc where
  hostname : String
  cpuDesc : String
  cpuMaxFreqKhz : Nat
  deriving DecidableEq, Repr

def HostDesc.fromParts (hostname vendorId cpuFamily model : String) (cpuMaxFreqKhz : Nat) : HostDesc :=
  let cpuDesc := match vendorId, cpuFamily, model with
    | "Arm Limited", "8", "0xd03" => "aarch64 A53"
    | "Arm Limited", "8", "0xd0c" => "aarch64 Neoverse N1"
    | "GenuineIntel", "6", "85" => "x86_64 Skylake"
    | "GenuineIntel", "6", "58" => "x86_64 Ivy Bridge"
    | "AuthenticAMD", "23", "113" => "x86_64 Matisse"
    | vendor, family, model => "unknown " ++ vendor ++ ":" ++ family ++ ":" ++ model
  ⟨hostname, cpuDesc, cpuMaxFreqKhz⟩

def hostModelInfo (db : Db) (hostId : Nat) : Outcome String HostRow :=
  match db.hosts.get? hostId with
  | some row => .ok row
  | none => .err "Query returned no rows"

def hostDesc (db : Db) (run : Run) : Outcome String HostDesc :=
  match run.hostId with
  | some hostId => do
    let host ← (hostModelInfo db hostId).expect
    return .fromParts host.hostname host.cpuVendorId host.cpuFamily host.cpuModel host.cpuMaxFreqKhz
  | none => .ok (.fromParts "unknown" "unknown" "0" "0" 0)

structure MetricsInfo where
  allNames : List String
  allMetrics : List ((String → Option String) × HostDesc)

/-- A name that is new goes to the end of the names; a value takes the place of an older one. -/
def gatherMetric (gathered : List String × (String → Option String)) (metric : MetricRecord) :
    List String × (String → Option String) :=
  (if metric.name ∈ gathered.1 then gathered.1 else gathered.1 ++ [metric.name],
    Function.update gathered.2 metric.name (some metric.value))

/-- The closure over `runs.iter()`, which adds to the names of the runs before. -/
def summarizeRuns (db : Db) : List String → List Run → Outcome String MetricsInfo
  | allNames, [] => .ok ⟨allNames, []⟩
  | allNames, run :: runs => do
    let gathered := (db.metricsForRun run.id).foldl gatherMetric (allNames, fun _ => none)
    let host ← hostDesc db run
    let rest ← summarizeRuns db gathered.1 runs
    return ⟨rest.allNames, (gathered.2, host) :: rest.allMetrics⟩

def summarizeJobMetrics (db : Db) (pick : List (Nat × RunRow) → Option (Nat × RunRow))
    (jobId : Nat) : Outcome String MetricsInfo :=
  summarizeRuns db [] (db.runsForJobOnePerHost pick jobId)

/-- What is shown: a column for each host, a row for each name. -/
structure MetricsTable where
  hosts : List HostDesc
  rows : List (String × List String)

def MetricsInfo.table (info : MetricsInfo) : MetricsTable where
  hosts := info.allMetrics.map Prod.snd
  rows := info.allNames.map fun name =>
    (name, info.allMetrics.map fun metrics => (metrics.1 name).getD "")

section Html
variable (ghz : Nat → String)

def headerHtml (host : HostDesc) : String :=
  "<th>" ++ host.hostname ++ "</br>" ++ host.cpuDesc ++ " @ " ++ ghz host.cpuMaxFreqKhz ++ "GHz</th>"

def metricRowHtml (row : String × List String) : String :=
  "<tr><td>" ++ row.1 ++ "</td>" ++
    String.join (row.2.map fun value => "<td>" ++ value ++ "</td>") ++ "</tr>\n"

def MetricsTable.html (table : MetricsTable) : String :=
  "<div>\n<h3>metrics</h3>\n<table style='font-family: monospace;'>\n<tr><th>name</th>" ++
    String.join (table.hosts.map (headerHtml ghz)) ++ "</tr>\n" ++
    String.join (table.rows.map metricRowHtml) ++ "</table>\n</div>\n"

/-- `{:.3}` of the frequency in GHz is `ghz`. -/
def jobMetricsToHtmlTable (info : MetricsInfo) : Option String :=
  if info.allMetrics.isEmpty then none else some (info.table.html ghz)

end Html

/-! ### What the runs have reported -/

/-- `Metric` messages in the order they come in, each with the run it is about. -/
def reportMetrics (db : Db) (reports : List MetricRow) : Db :=
  reports.foldl (fun db report => db.insertMetric report.runId report.name report.value) db

def lastReported (reports : List MetricRow) (runId : Nat) (name : String) : Option String :=
  reports.foldl
    (fun last report => if report.runId = runId ∧ report.name = name then some report.value else last)
    none

/-- A column for each run in order; a row for each name that one of them reported; in each
cell what its run reported last. -/
structure ShowsReports (db : Db) (reports : List MetricRow) (runs : List Run)
    (table : MetricsTable) : Prop where
  columns : runs.map (hostDesc db) = table.hosts.map .ok
  once : (table.rows.map Prod.fst).Nodup
  names : ∀ name, name ∈ table.rows.map Prod.fst ↔
    ∃ run ∈ runs, ∃ report ∈ reports, report.runId = run.id ∧ report.name = name
  cells : ∀ row ∈ table.rows,
    row.2 = runs.map fun run => (lastReported reports run.id row.1).getD ""

section Metrics
variable {db : Db} {reports : List MetricRow} {info : MetricsInfo}

def metricsNamed (db : Db) (runId : Nat) (name : String) : List MetricRow :=
  (db.metrics.select fun row => row.runId = runId ∧ row.name = name).map Prod.snd

theorem metricsNamed_insert (db : Db) (report : MetricRow) (runId : Nat) (name : String) :
    metricsNamed (db.insertMetric report.runId report.name report.value) runId name =
      if report.runId = runId ∧ report.name = name then
        Table.upsertFirst (fun row => decide (row.runId = runId ∧ row.name = name))
          (fun row => { row with value := report.value }) report (metricsNamed db runId name)
      else metricsNamed db runId name := by
  rw [Db.insertMetric_eq]
  unfold metricsNamed
  split
  · rename_i same
    obtain ⟨rfl, rfl⟩ := same
    refine Table.map_select_upsert _ ?_ (by simp)
    intro a hit
    exact ⟨hit, hit⟩
  · rename_i other
    refine congrArg _ (Table.select_upsert_apart _ ?_ (by simpa using other))
    intro a hit
    simp only [decide_eq_true_eq] at hit
    obtain ⟨run, named⟩ := hit
    simp only [run, named, decide_eq_false_iff_not]
    exact ⟨other, other⟩

/-- Each metric has the one row, with the value that came last. -/
theorem metricsNamed_reported (db : Db) (reports : List MetricRow) (runId : Nat) (name : String) :
    metricsNamed (reportMetrics { db with metrics := .empty } reports) runId name =
      (lastReported reports runId name).toList.map fun value => ⟨runId, name, value⟩ := by
  induction reports using List.reverseRecOn with
  | nil => rfl
  | append_singleton reports report ih =>
    simp only [reportMetrics, lastReported, List.foldl_append, List.foldl_cons, List.foldl_nil] at ih ⊢
    rw [metricsNamed_insert, ih]
    split
    · rename_i same
      obtain ⟨rfl, rfl⟩ := same
      cases reports.foldl _ none with
      | none => rfl
      | some value => simp [Table.upsertFirst]
    · rfl

theorem mem_metricsForRun {metric : MetricRecord} : metric ∈ db.metricsForRun runId ↔
    db.metrics.get? metric.id = some ⟨runId, metric.name, metric.value⟩ ∧ metric.runId = runId := by
  simp only [Db.metricsForRun, List.mem_map, Table.mem_select, decide_eq_true_eq]
  constructor
  · rintro ⟨⟨id, row⟩, ⟨found, rfl⟩, rfl⟩
    exact ⟨found, rfl⟩
  · rintro ⟨found, rfl⟩
    exact ⟨(metric.id, _), ⟨found, rfl⟩, rfl⟩

/-- The rows of a run are what it reported last, name by name. -/
theorem metricsForRun_reported (db : Db) (reports : List MetricRow) (runId : Nat)
    (name value : String) :
    (∃ metric ∈ (reportMetrics { db with metrics := .empty } reports).metricsForRun runId,
      metric.name = name ∧ metric.value = value) ↔
      lastReported reports runId name = some value := by
  have listed : (⟨runId, name, value⟩ : MetricRow) ∈
      metricsNamed (reportMetrics { db with metrics := .empty } reports) runId name ↔
        lastReported reports runId name = some value := by
    rw [metricsNamed_reported]
    cases lastReported reports runId name <;> simp [eq_comm]
  rw [← listed]
  simp only [mem_metricsForRun, metricsNamed, List.mem_map, Table.mem_select, decide_eq_true_eq]
  constructor
  · rintro ⟨metric, ⟨found, _⟩, rfl, rfl⟩
    exact ⟨(metric.id, _), ⟨found, rfl, rfl⟩, rfl⟩
  · rintro ⟨⟨id, row⟩, ⟨found, _⟩, rfl⟩
    exact ⟨⟨id, runId, name, value⟩, ⟨found, rfl⟩, rfl, rfl⟩

/-- A name has a last report exactly when it was reported. -/
theorem lastReported_isSome : (lastReported reports runId name).isSome ↔
    ∃ report ∈ reports, report.runId = runId ∧ report.name = name := by
  induction reports using List.reverseRecOn with
  | nil => simp [lastReported]
  | append_singleton reports report ih =>
    simp only [lastReported, List.foldl_append, List.foldl_cons, List.foldl_nil] at ih ⊢
    split
    · rename_i same
      exact iff_of_true rfl ⟨report, by simp, same⟩
    · rename_i other
      rw [ih]
      constructor
      · rintro ⟨earlier, listed, same⟩
        exact ⟨earlier, List.mem_append_left _ listed, same⟩
      · rintro ⟨earlier, listed, same⟩
        rcases List.mem_append.mp listed with listed | last
        · exact ⟨earlier, listed, same⟩
        · cases List.mem_singleton.mp last
          exact absurd same other

/-! What is gathered from the rows of one run. -/

/-- The names before, and those of the rows. -/
theorem gathered_names (metrics : List MetricRecord) (before : List String × (String → Option String))
    (name : String) : name ∈ (metrics.foldl gatherMetric before).1 ↔
      name ∈ before.1 ∨ ∃ metric ∈ metrics, metric.name = name := by
  induction metrics generalizing before with
  | nil => simp
  | cons metric metrics ih =>
    rw [List.foldl_cons, ih]
    have added : name ∈ (gatherMetric before metric).1 ↔ name ∈ before.1 ∨ metric.name = name := by
      unfold gatherMetric
      split
      · rename_i known
        exact ⟨.inl, fun either => either.elim (fun listed => listed) fun same => same ▸ known⟩
      · simp [eq_comm]
    rw [added]
    simp [or_assoc]

theorem gathered_once (metrics : List MetricRecord) (before : List String × (String → Option String))
    (once : before.1.Nodup) : (metrics.foldl gatherMetric before).1.Nodup := by
  induction metrics generalizing before with
  | nil => exact once
  | cons metric metrics ih =>
    refine ih _ ?_
    unfold gatherMetric
    split
    · exact once
    · rename_i new
      exact List.nodup_append.mpr ⟨once, List.nodup_singleton _, by
        intro name listed other same
        cases List.mem_singleton.mp same
        exact fun same => new (same ▸ listed)⟩

/-- A value that is gathered is that of a row. -/
theorem gathered_value (metrics : List MetricRecord) (allNames : List String)
    (gathered : (metrics.foldl gatherMetric (allNames, fun _ => none)).2 name = some value) :
    ∃ metric ∈ metrics, metric.name = name ∧ metric.value = value := by
  induction metrics using List.reverseRecOn with
  | nil => contradiction
  | append_singleton metrics metric ih =>
    simp only [List.foldl_append, List.foldl_cons, List.foldl_nil, gatherMetric,
      Function.update_apply] at gathered
    split at gathered
    · rename_i same
      exact ⟨metric, by simp, same.symm, Option.some.inj gathered⟩
    · obtain ⟨earlier, listed, same⟩ := ih gathered
      exact ⟨earlier, List.mem_append_left _ listed, same⟩

theorem gathered_isSome (metrics : List MetricRecord) (before : List String × (String → Option String))
    (listed : metric ∈ metrics) :
    ((metrics.foldl gatherMetric before).2 metric.name).isSome := by
  induction metrics using List.reverseRecOn with
  | nil => contradiction
  | append_singleton metrics last ih =>
    simp only [List.foldl_append, List.foldl_cons, List.foldl_nil, gatherMetric,
      Function.update_apply]
    split
    · rfl
    · rename_i other
      rcases List.mem_append.mp listed with listed | same
      · exact ih listed
      · cases List.mem_singleton.mp same
        exact absurd rfl other

theorem gathered_reported (db : Db) (reports : List MetricRow) (runId : Nat)
    (allNames : List String) :
    (((reportMetrics { db with metrics := .empty } reports).metricsForRun runId).foldl gatherMetric
      (allNames, fun _ => none)).2 = lastReported reports runId := by
  funext name
  have only : ∀ value, (((reportMetrics { db with metrics := .empty } reports).metricsForRun runId).foldl
      gatherMetric (allNames, fun _ => none)).2 name = some value →
        lastReported reports runId name = some value :=
    fun value gathered => (metricsForRun_reported db reports runId name value).mp
      (gathered_value _ _ gathered)
  cases last : lastReported reports runId name with
  | none =>
    cases gathered : (((reportMetrics { db with metrics := .empty } reports).metricsForRun runId).foldl
        gatherMetric (allNames, fun _ => none)).2 name with
    | none => rfl
    | some value => exact absurd (only value gathered) (by simp [last])
  | some value =>
    obtain ⟨metric, listed, rfl, rfl⟩ := (metricsForRun_reported db reports runId name value).mpr last
    obtain ⟨other, found⟩ := Option.isSome_iff_exists.mp (gathered_isSome _ (allNames, fun _ => none) listed)
    rw [found, ← last, only other found]

theorem gathered_names_reported (db : Db) (reports : List MetricRow) (runId : Nat)
    (allNames : List String) (name : String) :
    name ∈ (((reportMetrics { db with metrics := .empty } reports).metricsForRun runId).foldl
      gatherMetric (allNames, fun _ => none)).1 ↔
        name ∈ allNames ∨ ∃ report ∈ reports, report.runId = runId ∧ report.name = name := by
  rw [gathered_names, ← lastReported_isSome]
  refine or_congr_right ⟨?_, ?_⟩
  · rintro ⟨metric, listed, same⟩
    exact Option.isSome_iff_exists.mpr
      ⟨metric.value, (metricsForRun_reported db reports runId name _).mp ⟨metric, listed, same, rfl⟩⟩
  · intro reported
    obtain ⟨value, last⟩ := Option.isSome_iff_exists.mp reported
    obtain ⟨metric, listed, same, _⟩ := (metricsForRun_reported db reports runId name value).mpr last
    exact ⟨metric, listed, same⟩

/-! What is summarized of all runs. -/

theorem summarizeRuns_ok_iff (db : Db) (allNames : List String) (runs : List Run) :
    (∃ info, summarizeRuns db allNames runs = .ok info) ↔
      ∀ run ∈ runs, ∃ host, hostDesc db run = .ok host := by
  induction runs generalizing allNames with
  | nil =>
    have made : summarizeRuns db allNames [] = .ok ⟨allNames, []⟩ := rfl
    exact iff_of_true ⟨_, made⟩ (by simp)
  | cons run runs ih =>
    simp only [summarizeRuns, Outcome.exists_bind_eq_ok, List.forall_mem_cons]
    generalize List.foldl gatherMetric _ _ = gathered
    constructor
    · rintro ⟨host, described, info, summarized, _⟩
      exact ⟨⟨host, described⟩, (ih gathered.1).mp ⟨info, summarized⟩⟩
    · rintro ⟨⟨host, described⟩, rest⟩
      obtain ⟨info, summarized⟩ := (ih gathered.1).mpr rest
      exact ⟨host, described, info, summarized, _, rfl⟩

structure Summarizes (db : Db) (reports : List MetricRow) (before : List String) (runs : List Run)
    (info : MetricsInfo) : Prop where
  once : info.allNames.Nodup
  names : ∀ name, name ∈ info.allNames ↔ name ∈ before ∨
    ∃ run ∈ runs, ∃ report ∈ reports, report.runId = run.id ∧ report.name = name
  values : info.allMetrics.map Prod.fst = runs.map fun run => lastReported reports run.id
  hosts : runs.map (hostDesc db) = info.allMetrics.map fun metrics => .ok metrics.2

theorem summarizeRuns_spec {shown : Db} {before : List String}
    (reported : shown = reportMetrics { db with metrics := .empty } reports) (once : before.Nodup)
    (summarized : summarizeRuns shown before runs = .ok info) :
    Summarizes shown reports before runs info := by
  induction runs generalizing before info with
  | nil =>
    cases summarized
    exact ⟨once, by simp, rfl, rfl⟩
  | cons run runs ih =>
    obtain ⟨host, described, rest⟩ := Outcome.bind_eq_ok.mp summarized
    obtain ⟨info, those, same⟩ := Outcome.bind_eq_ok.mp rest
    cases same
    have later := ih (gathered_once _ (before, fun _ => none) once) those
    refine ⟨later.once, fun name => ?_, ?_, ?_⟩
    · rw [later.names, reported, gathered_names_reported]
      simp [or_assoc]
    · rw [List.map_cons, List.map_cons, later.values, reported, gathered_reported]
    · rw [List.map_cons, List.map_cons, later.hosts, described]

theorem Summarizes.shows (summary : Summarizes db reports [] runs info) :
    ShowsReports db reports runs info.table := by
  have names : info.table.rows.map Prod.fst = info.allNames := by
    rw [MetricsInfo.table, List.map_map]
    exact List.map_id _
  refine ⟨?_, names ▸ summary.once, fun name => ?_, ?_⟩
  · rw [summary.hosts, MetricsInfo.table, List.map_map]
    rfl
  · rw [names, summary.names]
    simp
  · intro row shown
    obtain ⟨name, _, rfl⟩ := List.mem_map.mp shown
    have cells : (info.allMetrics.map Prod.fst).map (fun values => (values name).getD "") =
        (runs.map fun run => lastReported reports run.id).map fun values => (values name).getD "" :=
      congrArg _ summary.values
    rw [List.map_map, List.map_map] at cells
    exact cells

theorem hostDesc_ok_iff {run : Run} : (∃ host, hostDesc db run = .ok host) ↔
    ∀ hostId, run.hostId = some hostId → (db.hosts.get? hostId).isSome := by
  unfold hostDesc
  cases run.hostId with
  | none => exact iff_of_true ⟨_, rfl⟩ nofun
  | some hostId =>
    simp only [hostModelInfo, Option.some.injEq, forall_eq']
    cases db.hosts.get? hostId with
    | none => exact iff_of_false (by simp [Outcome.expect]) nofun
    | some row => exact iff_of_true ⟨_, rfl⟩ rfl

/-- A report is about the metrics table alone. -/
theorem reportMetrics_rest (db : Db) (reports : List MetricRow) :
    reportMetrics db reports = { db with metrics := (reportMetrics db reports).metrics } := by
  induction reports using List.reverseRecOn with
  | nil => rfl
  | append_singleton reports report ih =>
    rw [reportMetrics, List.foldl_append, List.foldl_cons, List.foldl_nil, ← reportMetrics,
      Db.insertMetric_eq, ih]

theorem hostDesc_reported (db : Db) (reports : List MetricRow) :
    hostDesc (reportMetrics { db with metrics := .empty } reports) = hostDesc db := by
  rw [reportMetrics_rest]
  rfl

theorem runs_reported (db : Db) (reports : List MetricRow)
    (pick : List (Nat × RunRow) → Option (Nat × RunRow)) (jobId : Nat) :
    (reportMetrics { db with metrics := .empty } reports).runsForJobOnePerHost pick jobId =
      db.runsForJobOnePerHost pick jobId := by
  rw [reportMetrics_rest]
  rfl

end Metrics

/-- The table is made unless a run's host is missing, and then it shows what the runs shown
have reported; what other runs have reported is not in it. -/
theorem metrics_table_exact (db : Db) (reports : List MetricRow)
    (pick : List (Nat × RunRow) → Option (Nat × RunRow)) (jobId : Nat) (ghz : Nat → String) :
    ((∃ info, summarizeJobMetrics (reportMetrics { db with metrics := .empty } reports) pick jobId =
        .ok info) ↔
      ∀ run ∈ db.runsForJobOnePerHost pick jobId, ∀ hostId, run.hostId = some hostId →
        (db.hosts.get? hostId).isSome) ∧
    ∀ info, summarizeJobMetrics (reportMetrics { db with metrics := .empty } reports) pick jobId =
        .ok info →
      jobMetricsToHtmlTable ghz info =
        (if db.runsForJobOnePerHost pick jobId = [] then none else some (info.table.html ghz)) ∧
      ShowsReports db reports (db.runsForJobOnePerHost pick jobId) info.table := by
  unfold summarizeJobMetrics
  rw [runs_reported]
  constructor
  · rw [summarizeRuns_ok_iff, hostDesc_reported]
    exact forall₂_congr fun run _ => hostDesc_ok_iff
  · intro info summarized
    have summary := summarizeRuns_spec rfl List.nodup_nil summarized
    have shows := summary.shows
    refine ⟨?_, ?_, shows.once, shows.names, shows.cells⟩
    · unfold jobMetricsToHtmlTable
      have columns := congrArg List.length summary.values
      rw [List.length_map, List.length_map] at columns
      by_cases none : db.runsForJobOnePerHost pick jobId = []
      · rw [none, List.length_nil, List.length_eq_zero_iff] at columns
        rw [if_pos none, if_pos (by rw [columns]; rfl)]
      · rw [if_neg none, if_neg]
        intro empty
        rw [List.isEmpty_iff.mp empty, List.length_nil, eq_comm, List.length_eq_zero_iff] at columns
        exact none columns
    · rw [← hostDesc_reported db reports]
      exact shows.columns

/-- Two hosts, each with a name of its own, and one report that replaces another. -/
def reportedMetrics : List MetricRow := [⟨1, "a", "1"⟩, ⟨2, "b", "2"⟩, ⟨3, "c", "9"⟩, ⟨1, "a", "3"⟩]

def twoHosts : Db :=
  { Db.empty with
    runs := (Table.empty.insert (startedOnHost 1 9)).insert (startedOnHost 2 5)
    hosts := (Table.empty.insert ⟨"big", "AuthenticAMD", "", "23", "113", "", 4200000, 8, "", "", "", ""⟩).insert
      ⟨"small", "Arm Limited", "", "8", "0xd03", "", 1500000, 4, "", "", "", ""⟩ }

theorem two_hosts_shown : ∃ info,
    summarizeJobMetrics (reportMetrics { twoHosts with metrics := .empty } reportedMetrics)
      List.head? 1 = .ok info ∧
    ShowsReports twoHosts reportedMetrics (twoHosts.runsForJobOnePerHost List.head? 1) info.table := by
  have shown := metrics_table_exact twoHosts reportedMetrics List.head? 1 toString
  obtain ⟨info, summarized⟩ := shown.1.mpr (by decide)
  exact ⟨info, summarized, (shown.2 info summarized).2⟩

example : ∃ info,
    summarizeJobMetrics (reportMetrics twoHosts reportedMetrics) List.head? 1 = .ok info ∧
    info.table.rows = [("a", ["3", ""]), ("b", ["", "2"])] := ⟨_, rfl, rfl⟩

end BuildOTron.Web
