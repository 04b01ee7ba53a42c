import BuildOTron.Web.RepoIndex

/-! The rows of the two overview pages, as text. They are made of what other programs
have written: a commit's string is cut at its ninth byte, a run's time goes through the
date formatter, and an ongoing run's start is subtracted from the clock. -/
namespace BuildOTron.Web

/-- What a rendering depends on besides the database. -/
structure Renderer where
  /-- `Utc.timestamp_millis_opt(..).unwrap().to_rfc2822()`, and nothing where it panics -/
  rfc2822 : Nat → Option String
  /-- how the web server was built -/
  overflowChecks : Bool
  /-- `now_ms` -/
  now : Nat

/-- `&text[..n]`: a panic beyond the end and within a character. -/
def takeBytes : Nat → List Char → Outcome String (List Char)
  | 0, _ => .ok []
  | _ + 1, [] => .panic
  | n + 1, c :: rest =>
    if c.utf8Size ≤ n + 1 then do
      let kept ← takeBytes (n + 1 - c.utf8Size) rest
      return c :: kept
    else .panic

/-- `&job_commit[..9]`. -/
def shortCommit (jobCommit : String) : Outcome String String := do
  let kept ← takeBytes 9 jobCommit.toList
  return String.ofList kept

/-- `{:03}`. -/
def threeDigits (n : Nat) : String :=
  (if n < 10 then "00" else if n < 100 then "0" else "") ++ toString n

/-- The seconds stand behind the minutes even when there are none: what is asked before them
is whether there are minutes. -/
def durationAsHumanString (durationMs : Nat) : String :=
  let durationSec := durationMs / 1000
  let durationMin := durationSec / 60
  let durationHours := durationMin / 60
  if durationHours ≠ 0 then
    toString durationHours ++ "h" ++
      (if durationMin % 60 ≠ 0 then toString (durationMin % 60) ++ "m" else "")
  else if durationMin % 60 ≠ 0 then
    toString (durationMin % 60) ++ "m" ++ toString (durationSec % 60) ++ "s"
  else
    toString (durationSec % 60) ++
      (if durationMs % 1000 ≠ 0 then "." ++ threeDigits (durationMs % 1000) else "") ++ "s"

namespace Renderer

/-- `now_ms() - start_time`, which wraps in a build without overflow checks. -/
def since (r : Renderer) (startTime : Nat) : Outcome String Nat :=
  if startTime ≤ r.now then .ok (r.now - startTime)
  else if r.overflowChecks then .panic
  else .ok (r.now + UInt64.size - startTime)

def ongoing (r : Renderer) (startTime : Nat) : Outcome String String := do
  let duration ← r.since startTime
  return durationAsHumanString duration ++ " (ongoing)"

def displayRunTime (r : Renderer) (run : Run) : Outcome String String :=
  match run.startTime, run.completeTime with
  | none, _ => .ok "not yet run"
  | some startTime, some completeTime =>
    if completeTime < startTime then
      if run.state = .started then r.ongoing startTime else .ok "invalid data"
    else .ok (durationAsHumanString (completeTime - startTime))
  | some startTime, none => if run.state ≠ .invalid then r.ongoing startTime else .ok "n/a"

end Renderer

def anchor (url text : String) : String := "<a href=\"" ++ url ++ "\">" ++ text ++ "</a>"

/-- `format!("{:?}", run.state).to_lowercase()`. -/
def statusText : RunState → String
  | .pending => "pending"
  | .started => "started"
  | .finished => "finished"
  | .error => "error"
  | .invalid => "invalid"

def resultText (run : Run) : String :=
  match run.buildResult, run.state with
  | some 0, _ => "<span style='color:green;'>pass</span>"
  | some _, _ => "<span style='color:red;'>fail</span>"
  | none, .pending => "unstarted"
  | none, .started => "<span style='color:darkgoldenrod;'>in progress</span>"
  | none, _ => "<span style='color:red;'>unreported</span>"

def BuildRow.commitHtml (row : BuildRow) : Outcome String String := do
  let short ← shortCommit row.jobCommit
  let job := anchor row.jobUrl short ++ " (job " ++ toString row.job.id ++ ")"
  return match row.niceName with
    | some name => job ++ " " ++ name.stringy
    | none => job

def BuildRow.remoteHtml (row : BuildRow) : String :=
  match row.commitUrl with
  | (source, some url) => anchor url source
  | (source, none) => source

/-- The entries under "last build", "commit/job", "remote", "duration", "status", "result". -/
def Renderer.buildEntries (r : Renderer) (row : BuildRow) : Outcome String (List String) := do
  let commitHtml ← row.commitHtml
  let lastBuildTime ← Outcome.expectSome (r.rfc2822 row.run.createTime)
  let duration ← r.displayRunTime row.run
  return [lastBuildTime, commitHtml, row.remoteHtml, duration, statusText row.run.state,
    resultText row.run]

def rowHtml (entries : List String) : String :=
  String.join (entries.map fun entry => "<td class='row-item'>" ++ entry ++ "</td>")

def repoHtml (repo : Repo) : String := anchor ("/" ++ repo.name) repo.name

/-- The rows of the two tables; what stands around them is the same for every database. -/
structure IndexPage where
  repos : List String
  active : List String

def Renderer.repoRowHtml (r : Renderer) (db : Db) (repo : Repo) : Outcome String String := do
  match ← repoRow db repo with
  | (_, some row) =>
    let entries ← r.buildEntries row
    return rowHtml (repoHtml repo :: entries)
  | (_, none) => return rowHtml (repoHtml repo :: List.replicate 6 "")

def Renderer.activeRowHtml (r : Renderer) (db : Db) (run : Run) : Outcome String String := do
  let (repo, row) ← activeRow db run
  let entries ← r.buildEntries row
  return rowHtml (repoHtml repo :: entries)

/-- `build_repo_index`. -/
def Renderer.repoIndexPage (r : Renderer) (db : Db) : Outcome String IndexPage := do
  let repos ← db.getRepos.mapM (r.repoRowHtml db)
  let active ← db.getActiveRuns.mapM (r.activeRowHtml db)
  return ⟨repos, active⟩

/-- `DEFAULT_ROWS` at least and `MAX_ROWS` at most. -/
def summaryRows (rows : Option Nat) : Nat := max (min (rows.getD 10) 100) 10

/-- The jobs that the summary of a repo lists, newest first. -/
def lastBuilds (db : Db) (repoId rows : Nat) : List Job :=
  (((db.remotesByRepo repoId).flatMap fun remote => db.recentJobsFromRemote remote.id rows).insertionSort
    fun a b => b.createdTime ≤ a.createdTime).take rows

def Renderer.summaryRowHtml (r : Renderer) (db : Db) (job : Job) : Outcome String String := do
  let run ← Outcome.expectSome (db.lastRunForJob job.id)
  let row ← buildRow db job run
  let entries ← r.buildEntries row
  return rowHtml entries

/-- Nothing for a name that no repo has: a 404. -/
def Renderer.handleRepoSummary (r : Renderer) (db : Db) (path : String) (rows : Option Nat) :
    Outcome String (Option (List String)) :=
  match db.repoIdByName path with
  | none => .ok none
  | some repoId => do
    let builds ← (lastBuilds db repoId (summaryRows rows)).mapM (r.summaryRowHtml db)
    return some builds

/-! ### When a row can be rendered -/

def utf8Length : List Char → Nat
  | [] => 0
  | c :: rest => c.utf8Size + utf8Length rest

/-- A character ends at the ninth byte. -/
def Sliceable (commit : String) : Prop :=
  ∃ kept rest, commit.toList = kept ++ rest ∧ utf8Length kept = 9

/-- A character that begins a text is in the part that is cut off, with its bytes. -/
theorem cut_cons_iff {text : List Char} :
    (∃ kept rest, c :: text = kept ++ rest ∧ utf8Length kept = n + 1) ↔ c.utf8Size ≤ n + 1 ∧
      ∃ kept rest, text = kept ++ rest ∧ utf8Length kept = n + 1 - c.utf8Size := by
  constructor
  · rintro ⟨kept, rest, split, long⟩
    cases kept with
    | nil => contradiction
    | cons c' kept =>
      rw [List.cons_append, List.cons.injEq] at split
      obtain ⟨rfl, rfl⟩ := split
      rw [utf8Length] at long
      exact ⟨by omega, kept, rest, rfl, by omega⟩
  · rintro ⟨fits, kept, rest, rfl, long⟩
    refine ⟨c :: kept, rest, rfl, ?_⟩
    rw [utf8Length]
    omega

theorem takeBytes_ok_iff {text : List Char} : (∃ kept, takeBytes n text = .ok kept) ↔
    ∃ kept rest, text = kept ++ rest ∧ utf8Length kept = n := by
  induction text generalizing n with
  | nil =>
    cases n with
    | zero => exact iff_of_true ⟨[], rfl⟩ ⟨[], [], rfl, rfl⟩
    | succ n =>
      refine iff_of_false (by simp [takeBytes]) ?_
      rintro ⟨kept, rest, split, long⟩
      obtain ⟨rfl, _⟩ := List.append_eq_nil_iff.mp split.symm
      contradiction
  | cons c text ih =>
    cases n with
    | zero => exact iff_of_true ⟨[], rfl⟩ ⟨[], c :: text, rfl, rfl⟩
    | succ n =>
      rw [cut_cons_iff, ← ih, takeBytes]
      split
      · rename_i fits
        rw [Outcome.exists_bind_eq_ok, and_iff_right fits]
        exact exists_congr fun kept => and_iff_left ⟨c :: kept, rfl⟩
      · rename_i small
        exact iff_of_false (by simp) fun both => small both.1

theorem shortCommit_ok_iff {commit : String} :
    (∃ short, shortCommit commit = .ok short) ↔ Sliceable commit := by
  rw [shortCommit, Outcome.exists_bind_eq_ok, Sliceable, ← takeBytes_ok_iff]
  constructor
  · rintro ⟨kept, taken, _⟩
    exact ⟨kept, taken⟩
  · rintro ⟨kept, taken⟩
    exact ⟨kept, taken, _, rfl⟩

/-- Its duration is that up to now. -/
def Ongoing (run : Run) : Prop :=
  match run.completeTime with
  | some completeTime => run.state = .started ∧ ∀ startTime, run.startTime = some startTime →
      completeTime < startTime
  | none => run.state ≠ .invalid

/-- A time that the date formatter takes. -/
def Renderer.Formats (r : Renderer) (time : Nat) : Prop := (r.rfc2822 time).isSome

/-- A start that the clock has come to; nothing is asked of one in a build that wraps. -/
def Renderer.Reached (r : Renderer) (startTime : Nat) : Prop := r.overflowChecks = true → startTime ≤ r.now

/-- What a row asks of its commit and its run. -/
structure Renderable (r : Renderer) (commit : String) (run : Run) : Prop where
  commit : Sliceable commit
  created : r.Formats run.createTime
  started : Ongoing run → ∀ startTime, run.startTime = some startTime → r.Reached startTime

theorem ongoing_ok_iff {r : Renderer} : (∃ text, r.ongoing startTime = .ok text) ↔ r.Reached startTime := by
  rw [Renderer.ongoing, Outcome.exists_bind_eq_ok, Renderer.Reached]
  unfold Renderer.since
  split
  · rename_i before
    exact iff_of_true ⟨_, rfl, _, rfl⟩ fun _ => before
  · rename_i after
    cases r.overflowChecks with
    | true => exact iff_of_false (by simp) fun checked => after (checked rfl)
    | false => exact iff_of_true ⟨_, rfl, _, rfl⟩ nofun

theorem displayRunTime_ok_iff {r : Renderer} {run : Run} : (∃ text, r.displayRunTime run = .ok text) ↔
    (Ongoing run → ∀ startTime, run.startTime = some startTime → r.Reached startTime) := by
  unfold Renderer.displayRunTime Ongoing
  cases run.startTime with
  | none => exact iff_of_true ⟨_, rfl⟩ nofun
  | some startTime =>
    cases run.completeTime with
    | none =>
      by_cases valid : run.state = .invalid
      · simp [valid]
      · simp [valid, ongoing_ok_iff]
    | some completeTime =>
      by_cases earlier : completeTime < startTime
      · by_cases active : run.state = .started
        · simp [earlier, active, ongoing_ok_iff]
        · simp [earlier, active]
      · simp [earlier]

theorem buildEntries_ok_iff {r : Renderer} {row : BuildRow} :
    (∃ entries, r.buildEntries row = .ok entries) ↔ Renderable r row.jobCommit row.run := by
  have commit : (∃ html, row.commitHtml = .ok html) ↔ Sliceable row.jobCommit := by
    rw [← shortCommit_ok_iff, BuildRow.commitHtml, Outcome.exists_bind_eq_ok]
    exact exists_congr fun short => and_iff_left ⟨_, rfl⟩
  have created : (∃ time, (Outcome.expectSome (r.rfc2822 row.run.createTime) : Outcome String String) =
      .ok time) ↔ r.Formats row.run.createTime := by
    simp only [Outcome.expectSome_eq_ok, Renderer.Formats, Option.isSome_iff_exists]
  simp only [Renderer.buildEntries, Outcome.exists_bind_eq_ok]
  constructor
  · rintro ⟨html, cut, time, formatted, duration, elapsed, _⟩
    exact ⟨commit.mp ⟨html, cut⟩, created.mp ⟨time, formatted⟩,
      displayRunTime_ok_iff.mp ⟨duration, elapsed⟩⟩
  · rintro ⟨sliceable, formats, reached⟩
    obtain ⟨html, cut⟩ := commit.mpr sliceable
    obtain ⟨time, formatted⟩ := created.mpr formats
    obtain ⟨duration, elapsed⟩ := displayRunTime_ok_iff.mpr reached
    exact ⟨html, cut, time, formatted, duration, elapsed, _, rfl⟩

/-! ### The pages -/

def EveryJobRuns (db : Db) : Prop :=
  ∀ id job, db.jobs.get? id = some job → ∃ run row, db.runs.get? run = some row ∧ row.jobId = id

/-- The index and, with any number of rows, the summary of every repo are pages. -/
structure PagesRender (r : Renderer) (db : Db) : Prop where
  index : ∃ page, r.repoIndexPage db = .ok page
  summary : ∀ repo ∈ db.getRepos, ∀ rows,
    ∃ builds, r.handleRepoSummary db repo.name rows = .ok (some builds)

/-- The rows of the pages. -/
inductive Shown (db : Db) : Job → Run → Prop where
  | newest (listed : repo ∈ db.getRepos) (chosen : mostRecentRun db repo = some (job, run)) : Shown db job run
  | active (listed : run ∈ db.getActiveRuns) (found : db.jobById run.jobId = some job) : Shown db job run
  | recent (listed : repo ∈ db.getRepos) (found : db.repoIdByName repo.name = some repoId)
    (built : job ∈ lastBuilds db repoId (summaryRows rows)) (last : db.lastRunForJob job.id = some run) :
    Shown db job run

section Pages
variable {db : Db} {r : Renderer}

theorem repoIdByName_listed {repo : Repo} (listed : repo ∈ db.getRepos) :
    ∃ repoId, db.repoIdByName repo.name = some repoId := by
  obtain ⟨row, member, rfl⟩ := List.mem_map.mp listed
  rw [← Option.isSome_iff_exists, Db.repoIdByName, Option.isSome_map, List.isSome_head?]
  exact List.ne_nil_of_mem (Table.mem_select.mpr ⟨Table.get?_eq_some.mpr member, decide_eq_true rfl⟩)

theorem lastBuilds_found {job : Job} (built : job ∈ lastBuilds db repoId rows) :
    db.jobById job.id = some job := by
  have member := (List.mem_insertionSort _).mp (List.mem_of_mem_take built)
  obtain ⟨remote, _, recent⟩ := List.mem_flatMap.mp member
  exact recentJobsFromRemote_found recent

theorem lastRunForJob_row {run : Run} (last : db.lastRunForJob jobId = some run) :
    ∃ row, db.runs.get? run.id = some row ∧ run = row.withId run.id := by
  obtain ⟨⟨id, row⟩, first, rfl⟩ := Option.map_eq_some_iff.mp last
  have listed := (List.mem_insertionSort _).mp (List.mem_of_head? first)
  exact ⟨row, (Table.mem_select.mp listed).1, rfl⟩

theorem EveryJobRuns.last (runs : EveryJobRuns db) (found : db.jobById jobId = some job) :
    ∃ run, db.lastRunForJob jobId = some run := by
  obtain ⟨jobRow, held, _⟩ := Db.jobById_eq_some found
  obtain ⟨run, row, started, same⟩ := runs jobId jobRow held
  have listed : (run, row) ∈ db.runs.select fun row => row.jobId = jobId :=
    Table.mem_select.mpr ⟨started, decide_eq_true same⟩
  rw [← Option.isSome_iff_exists, Db.lastRunForJob, Option.isSome_map, List.isSome_head?]
  exact List.ne_nil_of_mem ((List.mem_insertionSort _).mpr listed)

/-- What is shown was read from the tables. -/
theorem Shown.found (shown : Shown db job run) : db.jobById job.id = some job ∧
    ∃ row, db.runs.get? run.id = some row ∧ run = row.withId run.id := by
  cases shown with
  | newest listed chosen =>
    obtain ⟨found, last⟩ := mostRecentRun_found chosen
    exact ⟨found, lastRunForJob_row last⟩
  | active listed found =>
    obtain ⟨row, held, _, same⟩ := Db.mem_getActiveRuns.mp listed
    obtain ⟨jobRow, _, rfl⟩ := Db.jobById_eq_some found
    exact ⟨found, row, held, same⟩
  | recent listed found built last => exact ⟨lastBuilds_found built, lastRunForJob_row last⟩

/-- A row that is built shows the job's commit and the run. -/
theorem buildRow_made (made : buildRow db job run = .ok row) :
    db.commits.get? job.commitId = some row.jobCommit ∧ row.run = run := by
  obtain ⟨commit, read, rest⟩ := Outcome.bind_eq_ok.mp made
  obtain ⟨url, _, rest⟩ := Outcome.bind_eq_ok.mp rest
  obtain ⟨source, _, rest⟩ := Outcome.bind_eq_ok.mp rest
  cases rest
  refine ⟨?_, rfl⟩
  have answer := Outcome.expect_eq_ok.mp read
  unfold Db.commitSha at answer
  split at answer
  · cases answer
    assumption
  · contradiction

theorem buildRow_renders_iff (integral : db.Integral) (found : db.jobById jobId = some job) (run : Run) :
    (∃ row, buildRow db job run = .ok row ∧ ∃ entries, r.buildEntries row = .ok entries) ↔
      ∀ commit, db.commits.get? job.commitId = some commit → Renderable r commit run := by
  obtain ⟨row, built⟩ := buildRow_ok integral found run
  obtain ⟨held, same⟩ := buildRow_made built
  constructor
  · rintro ⟨row', built', renders⟩ commit held'
    cases built.symm.trans built'
    cases held.symm.trans held'
    rw [← same]
    exact buildEntries_ok_iff.mp renders
  · intro renderable
    refine ⟨row, built, buildEntries_ok_iff.mpr ?_⟩
    rw [same]
    exact renderable _ held

/-- Every commit that the job may have can be shown with the run. -/
def RenderableRow (r : Renderer) (db : Db) (job : Job) (run : Run) : Prop :=
  ∀ commit, db.commits.get? job.commitId = some commit → Renderable r commit run

theorem repoRowHtml_ok_iff (integral : db.Integral) (repo : Repo) :
    (∃ html, r.repoRowHtml db repo = .ok html) ↔
      ∀ job run, mostRecentRun db repo = some (job, run) → RenderableRow r db job run := by
  rw [Renderer.repoRowHtml, Outcome.exists_bind_eq_ok]
  cases chosen : mostRecentRun db repo with
  | none =>
    have empty : repoRow db repo = .ok (repo, none) := by simp only [repoRow, chosen]
    refine iff_of_true ⟨(repo, none), empty, rowHtml (repoHtml repo :: List.replicate 6 ""), ?_⟩ ?_
    · simp only [Outcome.pure_eq]
    · intro job run none
      contradiction
  | some newest =>
    obtain ⟨job, run⟩ := newest
    have builds : repoRow db repo = buildRow db job run >>= fun row => .ok (repo, some row) := by
      simp only [repoRow, chosen]
      rfl
    have shows := buildRow_renders_iff (r := r) integral (mostRecentRun_found chosen).1 run
    rw [builds]
    constructor
    · rintro ⟨_, built, renders⟩ _ _ ⟨⟩
      obtain ⟨row, made, same⟩ := Outcome.bind_eq_ok.mp built
      cases same
      obtain ⟨entries, rendered, _⟩ := Outcome.exists_bind_eq_ok.mp renders
      exact shows.mp ⟨row, made, entries, rendered⟩
    · intro renderable
      obtain ⟨row, made, entries, rendered⟩ := shows.mpr (renderable job run rfl)
      exact ⟨(repo, some row), Outcome.bind_eq_ok.mpr ⟨row, made, rfl⟩,
        Outcome.exists_bind_eq_ok.mpr ⟨entries, rendered, _, rfl⟩⟩

theorem activeRowHtml_ok_iff (integral : db.Integral) (active : run ∈ db.getActiveRuns) :
    (∃ html, r.activeRowHtml db run = .ok html) ↔
      ∀ job, db.jobById run.jobId = some job → RenderableRow r db job run := by
  obtain ⟨⟨repo, row⟩, built⟩ := activeRow_ok integral active
  obtain ⟨job, looked, rest⟩ := Outcome.bind_eq_ok.mp built
  obtain ⟨remote, _, rest⟩ := Outcome.bind_eq_ok.mp rest
  obtain ⟨owner, _, rest⟩ := Outcome.bind_eq_ok.mp rest
  obtain ⟨row', made, same⟩ := Outcome.bind_eq_ok.mp rest
  cases same
  have found := Outcome.expectSome_eq_ok.mp looked
  have shows := buildRow_renders_iff (r := r) integral found run
  rw [Renderer.activeRowHtml, built, Outcome.ok_bind, Outcome.exists_bind_eq_ok]
  constructor
  · rintro ⟨entries, rendered, _⟩ job' found'
    cases found.symm.trans found'
    exact shows.mp ⟨row, made, entries, rendered⟩
  · intro renderable
    obtain ⟨row', made', entries, rendered⟩ := shows.mpr (renderable job found)
    cases made.symm.trans made'
    exact ⟨entries, rendered, _, rfl⟩

theorem summaryRowHtml_ok_iff (integral : db.Integral) (found : db.jobById jobId = some job)
    (last : db.lastRunForJob job.id = some run) :
    (∃ html, r.summaryRowHtml db job = .ok html) ↔ RenderableRow r db job run := by
  rw [RenderableRow, ← buildRow_renders_iff integral found run, Renderer.summaryRowHtml, last,
    Outcome.expectSome_some, Outcome.ok_bind, Outcome.exists_bind_eq_ok]
  refine exists_congr fun row => and_congr_right fun _ => ?_
  rw [Outcome.exists_bind_eq_ok]
  exact exists_congr fun entries => and_iff_left ⟨_, rfl⟩

theorem handleRepoSummary_iff (found : db.repoIdByName path = some repoId) (rows : Option Nat) :
    (∃ builds, r.handleRepoSummary db path rows = .ok (some builds)) ↔
      ∀ job ∈ lastBuilds db repoId (summaryRows rows), ∃ html, r.summaryRowHtml db job = .ok html := by
  rw [← Outcome.exists_mapM_eq_ok]
  simp only [Renderer.handleRepoSummary, found, Outcome.bind_eq_ok, Outcome.pure_eq, Outcome.ok.injEq,
    Option.some.injEq]
  exact ⟨fun ⟨_, builds, made, _⟩ => ⟨builds, made⟩, fun ⟨builds, made⟩ => ⟨_, builds, made, rfl⟩⟩

/-- For a database whose references are met and whose jobs all have runs: the pages
render exactly when every row that is shown can be rendered. -/
theorem pages_render_iff (integral : db.Integral) (runs : EveryJobRuns db) :
    PagesRender r db ↔ ∀ job run, Shown db job run → RenderableRow r db job run := by
  constructor
  · rintro ⟨⟨page, index⟩, summary⟩ job run shown
    obtain ⟨repos, listed, rest⟩ := Outcome.bind_eq_ok.mp index
    obtain ⟨actives, active, _⟩ := Outcome.bind_eq_ok.mp rest
    cases shown with
    | newest member chosen =>
      have row := Outcome.exists_mapM_eq_ok.mp ⟨repos, listed⟩ _ member
      exact (repoRowHtml_ok_iff integral _).mp row job run chosen
    | active member found =>
      have row := Outcome.exists_mapM_eq_ok.mp ⟨actives, active⟩ _ member
      exact (activeRowHtml_ok_iff integral member).mp row job found
    | recent member found built last =>
      have row := (handleRepoSummary_iff found _).mp (summary _ member _) job built
      exact (summaryRowHtml_ok_iff integral (lastBuilds_found built) last).mp row
  · intro renderable
    refine ⟨?_, ?_⟩
    · obtain ⟨repos, listed⟩ := Outcome.exists_mapM_eq_ok.mpr fun repo (member : repo ∈ db.getRepos) =>
        (repoRowHtml_ok_iff (r := r) integral repo).mpr fun job run chosen =>
          renderable job run (.newest member chosen)
      obtain ⟨actives, active⟩ := Outcome.exists_mapM_eq_ok.mpr
        fun run (member : run ∈ db.getActiveRuns) =>
          (activeRowHtml_ok_iff (r := r) integral member).mpr fun job found =>
            renderable job run (.active member found)
      exact ⟨⟨repos, actives⟩, Outcome.bind_eq_ok.mpr ⟨repos, listed, by rw [active]; rfl⟩⟩
    · intro repo member rows
      obtain ⟨repoId, found⟩ := repoIdByName_listed member
      refine (handleRepoSummary_iff found rows).mpr fun job built => ?_
      obtain ⟨run, last⟩ := runs.last (lastBuilds_found built)
      exact (summaryRowHtml_ok_iff integral (lastBuilds_found built) last).mpr
        (renderable job run (.recent member found built last))

end Pages

/-! ### Databases that can be shown -/

structure Displayable (r : Renderer) (db : Db) : Prop where
  commits : ∀ id commit, db.commits.get? id = some commit → Sliceable commit
  created : ∀ id row, db.runs.get? id = some row → r.Formats row.createdTime
  started : ∀ id row startTime, db.runs.get? id = some row → row.startedTime = some startTime →
    r.Reached startTime

/-- A write that leaves what can be shown so. -/
def Stays (r : Renderer) (db db' : Db) : Prop := Displayable r db → Displayable r db'

section Displayable
variable {r : Renderer} {db db' : Db}

instance : Std.Refl (Stays r) := ⟨fun _ displayable => displayable⟩

instance : IsTrans Db (Stays r) := ⟨fun _ _ _ first second displayable => second (first displayable)⟩

theorem Displayable.shown (displayable : Displayable r db) (shown : Shown db job run) :
    RenderableRow r db job run := by
  intro commit held
  obtain ⟨_, row, found, same⟩ := shown.found
  refine ⟨displayable.commits _ commit held, ?_, ?_⟩
  · rw [same]
    exact displayable.created _ row found
  · intro _ startTime started
    rw [same] at started
    exact displayable.started _ row startTime found started

/-- A write to other tables. -/
theorem stays_aside (commits : db'.commits = db.commits) (runs : db'.runs = db.runs) : Stays r db db' := by
  intro displayable
  refine ⟨?_, ?_, ?_⟩
  · rw [commits]
    exact displayable.commits
  · rw [runs]
    exact displayable.created
  · rw [runs]
    exact displayable.started

theorem newRun_stays (formats : r.Formats now) (jobId : Nat) (pref : Option Nat) (db : Db) :
    Stays r db (db.newRun jobId pref now).1 := by
  intro displayable
  refine ⟨displayable.commits, ?_, ?_⟩
  · intro id row found
    rw [Db.newRun_runs] at found
    split at found
    · cases found
      exact formats
    · exact displayable.created id row found
  · intro id row startTime found started
    rw [Db.newRun_runs] at found
    split at found
    · cases found
      contradiction
    · exact displayable.started id row startTime found started

theorem newCommit_stays (sliceable : Sliceable commit) (made : db.newCommit commit = .ok (db', commitId)) :
    Stays r db db' := by
  intro displayable
  unfold Db.newCommit at made
  split at made
  · cases made
    refine ⟨?_, displayable.created, displayable.started⟩
    intro id known found
    rw [Table.get?_insert] at found
    split at found
    · cases found
      exact sliceable
    · exact displayable.commits id known found
  · contradiction

/-- An update of one run that leaves its times as they are, or sets a start that can be
shown. -/
theorem updateRun_stays (db : Db) (id : Nat) {f : RunRow → RunRow}
    (created : ∀ row, (f row).createdTime = row.createdTime)
    (started : ∀ row startTime, (f row).startedTime = some startTime →
      row.startedTime = some startTime ∨ r.Reached startTime) :
    Stays r db { db with runs := db.runs.update id f } := by
  intro displayable
  refine ⟨displayable.commits, ?_, ?_⟩
  · intro other row found
    rw [Table.get?_update] at found
    split at found
    · obtain ⟨old, held, rfl⟩ := Option.map_eq_some_iff.mp found
      rw [created]
      exact displayable.created other old held
    · exact displayable.created other row found
  · intro other row startTime found began
    rw [Table.get?_update] at found
    split at found
    · obtain ⟨old, held, rfl⟩ := Option.map_eq_some_iff.mp found
      exact (started old startTime began).elim (displayable.started other old startTime held)
        fun reached => reached
    · exact displayable.started other row startTime found began

end Displayable
end BuildOTron.Web
