import BuildOTron.Lib.JsonScan
import BuildOTron.Web.JobMetrics
import BuildOTron.WebServer.CommitStatus

/-! The page of a commit as text: what `handle_commit_status` makes of its lookups. The
logs of the run are files beside the database, some of which are put on the page whole. -/
namespace BuildOTron

/-- `LAST_ARTIFACTS_FOR_RUN`: the outputs of commands, the newest first. -/
def Db.artifactsForRun (db : Db) (run : Nat) (limit : Option Nat) : List ArtifactRecord :=
  let outputs := db.artifacts.select fun row => row.runId = run ∧
    (Like.sqlLike "%(stderr)%" row.name = true ∨ Like.sqlLike "%(stdout)%" row.name = true)
  ((outputs.insertionSort fun a b => b.1 ≤ a.1).take (limit.getD 65535)).map fun row =>
    row.2.withId row.1

namespace Web

/-- What the system answers of `./artifacts/<run>/<artifact>`, or its errors: a file may have
a size and not be readable. -/
structure ArtifactFiles where
  /-- `std::fs::metadata(..).len()` -/
  metadata : Nat → Nat → Except String Nat
  /-- the bytes that `std::fs::read_to_string` asks to be UTF-8 -/
  read : Nat → Nat → Except String (List UInt8)

/-- The elements for the page and for its description. -/
def statusElem (run : Run) : String × String :=
  match run.state with
  | .pending | .started => ("<span style='color:#660;'>pending</span>", "⌛in progress")
  | .finished =>
    match run.buildResult with
    | some 0 => ("<span style='color:green;'>pass</span>", "✅ passed")
    | some _ => ("<span style='color:red;'>failed</span>", "❌ failed")
    | none => ("<span style='color:red;'>unreported</span>", "❔ missing status")
  | .error => ("<span style='color:red;'>error</span>", "🧯 error, uncompleted")
  | .invalid => ("<span style='color:red;'>(server error)</span>", "dude even i don't know")

/-- Whether logs are put on the page whole. -/
def debugInfo (run : Run) : Bool :=
  run.state = .finished ∧ run.buildResult = some 1 ∨ run.state = .error

namespace Renderer

/-- The logs since the run's start, in the order of their creation. -/
def artifacts (r : Renderer) (db : Db) (run : Run) : List ArtifactRecord :=
  ((db.artifactsForRun run.id none).filter fun artifact =>
    run.startTime.getD r.now ≤ artifact.createdTime).insertionSort
      fun a b => a.createdTime ≤ b.createdTime

/-- `diff_times`. -/
def diffTimes (r : Renderer) (runCompleted : Nat) (artifactCompleted : Option Nat) : Nat :=
  max runCompleted (artifactCompleted.getD r.now) - artifactCompleted.getD r.now

/-- An artifact that ended within a minute of the run's end. -/
def isRecent (r : Renderer) (run : Run) (artifact : ArtifactRecord) : Bool :=
  r.diffTimes (run.completeTime.getD r.now) artifact.completedTime ≤ 60000

def recentArtifacts (r : Renderer) (db : Db) (run : Run) : List ArtifactRecord :=
  (r.artifacts db run).filter (r.isRecent run)

def oldArtifacts (r : Renderer) (db : Db) (run : Run) : List ArtifactRecord :=
  (r.artifacts db run).filter fun artifact => !r.isRecent run artifact

/-- `completed_time.unwrap_or_else(now_ms) - created_time`. -/
def storedFor (r : Renderer) (artifact : ArtifactRecord) : Outcome String Nat :=
  ({ r with now := artifact.completedTime.getD r.now } : Renderer).since artifact.createdTime

def stepHtml (r : Renderer) (artifact : ArtifactRecord) : Outcome String String := do
  let created ← Outcome.expectSome (r.rfc2822 artifact.createdTime)
  return "<div><pre style='display:inline;'>" ++ created ++
    "</pre> step: <pre style='display:inline;'>" ++ artifact.name ++ "</pre></div>\n"

def sizeHtml (size : String) (duration : Nat) : String :=
  "<pre>  " ++ size ++ "kb in " ++ durationAsHumanString duration ++ " </pre>\n"

def kilobytes (len : Nat) : String := toString (len / 1024)

section Files
variable (files : ArtifactFiles)

def oldHtml (r : Renderer) (artifact : ArtifactRecord) : Outcome String String := do
  let step ← r.stepHtml artifact
  let duration ← r.storedFor artifact
  let len ← Outcome.unwrap (files.metadata artifact.runId artifact.id)
  return step ++ sizeHtml (kilobytes len) duration

/-- `read_to_string` asks for UTF-8; only a recent log's size is done without. -/
def recentHtml (r : Renderer) (run : Run) (artifact : ArtifactRecord) : Outcome String String := do
  let step ← r.stepHtml artifact
  if debugInfo run then
    let bytes ← Outcome.unwrap (files.read artifact.runId artifact.id)
    let text ← Outcome.expectSome (Json.textOf bytes)
    return step ++ "<pre>" ++ text ++ "</pre>\n"
  else
    let duration ← r.storedFor artifact
    let size := match files.metadata artifact.runId artifact.id with
      | .ok len => kilobytes len
      | .error e => "[" ++ e ++ "]"
    return step ++ sizeHtml size duration

def artifactsFragment (r : Renderer) (db : Db) (run : Run) : Outcome String String := do
  let old ← (r.oldArtifacts db run).mapM (r.oldHtml files)
  let recent ← (r.recentArtifacts db run).mapM (r.recentHtml files run)
  return String.join old ++ String.join recent

end Files

end Renderer

def headHtml (path : String × String × String) (page : StatusPage) (runTime : String) : String :=
  let of := path.1 ++ "/" ++ path.2.1
  let description := "commit " ++ page.shortSha ++ " of " ++ of ++ ", " ++ (statusElem page.run).2 ++
    " after " ++ runTime
  "<head><title>ci.butactuallyin.space - " ++ page.repoName ++ "</title>\n" ++
    "<meta property=\"og:type\" content=\"website\">\n" ++
    "<meta property=\"og:site_name\" content=\"ci.butactuallyin.space\">\n" ++
    "<meta property=\"og:url\" content=\"/" ++ of ++ "/" ++ page.sha ++ "\">\n" ++
    "<meta property=\"og:title\" contents=\"" ++ of ++ " commit " ++ page.shortSha ++ "\">" ++
    "<meta name=\"description\" content=\"" ++ description ++ "\"\n>" ++
    "<meta property=\"og:description\" content=\"" ++ description ++ "\"\n>" ++ "</head>\n"

def commitLine (path : String × String × String) (page : StatusPage) : String :=
  "commit: " ++ anchor ("https://www.github.com/" ++ path.1 ++ "/" ++ path.2.1 ++ "/commit/" ++ page.sha)
    page.sha ++
    match page.niceName with
    | some name => " aka <b>" ++ name.stringy ++ "</b>"
    | none => ""

/-- The text of the page; `deployed` is a constant. -/
def Renderer.statusHtml (r : Renderer) (files : ArtifactFiles) (ghz : Nat → String)
    (pick : List (Nat × RunRow) → Option (Nat × RunRow)) (db : Db) (path : String × String × String)
    (page : StatusPage) : Outcome String String := do
  let runTime ← r.displayRunTime page.run
  let artifacts ← r.artifactsFragment files db page.run
  let metrics ← (summarizeJobMetrics db pick page.run.jobId).expect
  return "<html>\n  " ++ headHtml path page runTime ++ "\n  <body>\n    <pre>\nrepo: " ++
    anchor ("/" ++ page.repoName) page.repoName ++ "\n" ++ commitLine path page ++ ", run: " ++
    toString page.run.id ++ "\nstatus: " ++ (statusElem page.run).1 ++ " in " ++ runTime ++ "\n" ++
    (match page.run.finalText with
      | some desc => "  description: " ++ desc ++ "\n  "
      | none => "") ++
    "deployed: false\n    </pre>\n" ++
    (if artifacts = "" then "" else "    <div>artifacts</div>\n" ++ artifacts) ++
    (jobMetricsToHtmlTable ghz metrics).getD "" ++ "  </body>\n</html>"

/-- `handle_commit_status`, with the text of the page where one is found. -/
def Renderer.handleCommitStatus (r : Renderer) (files : ArtifactFiles) (ghz : Nat → String)
    (pick : List (Nat × RunRow) → Option (Nat × RunRow)) (picking : Picking) (db : Db)
    (path : String × String × String) : Outcome String String := do
  let page ← picking.handleCommitStatus db path
  r.statusHtml files ghz pick db path page

/-! ### When a page has a text -/

/-- What is asked of a log's file and times. -/
structure LogShown (r : Renderer) (files : ArtifactFiles) (run : Run) (artifact : ArtifactRecord) : Prop where
  created : r.Formats artifact.createdTime
  /-- a log that is put on the page whole is a text -/
  whole : r.isRecent run artifact = true → debugInfo run = true →
    ∃ bytes, files.read artifact.runId artifact.id = .ok bytes ∧ (Json.textOf bytes).isSome
  /-- an old log has not been removed -/
  kept : r.isRecent run artifact = false → ∃ len, files.metadata artifact.runId artifact.id = .ok len
  timed : (r.isRecent run artifact = true → debugInfo run = false) → r.overflowChecks = true →
    artifact.createdTime ≤ artifact.completedTime.getD r.now

section Shown
variable {r : Renderer} {files : ArtifactFiles} {run : Run} {artifact : ArtifactRecord}

theorem since_ok_iff {r : Renderer} :
    (∃ duration, r.since startTime = .ok duration) ↔ r.Reached startTime := by
  rw [← ongoing_ok_iff, Renderer.ongoing, Outcome.exists_bind_eq_ok]
  refine exists_congr fun duration => (and_iff_left ?_).symm
  exact ⟨_, rfl⟩

theorem storedFor_ok_iff : (∃ duration, r.storedFor artifact = .ok duration) ↔
    (r.overflowChecks = true → artifact.createdTime ≤ artifact.completedTime.getD r.now) :=
  since_ok_iff

theorem stepHtml_ok_iff : (∃ step, r.stepHtml artifact = .ok step) ↔ r.Formats artifact.createdTime := by
  rw [Renderer.stepHtml, Outcome.exists_bind_eq_ok, Renderer.Formats, Option.isSome_iff_exists]
  refine exists_congr fun created => ?_
  rw [Outcome.expectSome_eq_ok]
  exact and_iff_left ⟨_, rfl⟩

theorem oldHtml_ok_iff (old : r.isRecent run artifact = false) :
    (∃ html, r.oldHtml files artifact = .ok html) ↔ LogShown r files run artifact := by
  simp only [Renderer.oldHtml, Outcome.exists_bind_eq_ok]
  constructor
  · rintro ⟨step, made, duration, stored, len, found, _⟩
    refine ⟨stepHtml_ok_iff.mp ⟨step, made⟩, ?_, fun _ => ⟨len, Outcome.unwrap_eq_ok.mp found⟩, ?_⟩
    · intro recent
      rw [old] at recent
      contradiction
    · exact fun _ => storedFor_ok_iff.mp ⟨duration, stored⟩
  · intro shown
    obtain ⟨step, made⟩ := stepHtml_ok_iff.mpr shown.created
    obtain ⟨duration, stored⟩ := storedFor_ok_iff.mpr (shown.timed (by simp [old]))
    obtain ⟨len, found⟩ := shown.kept old
    exact ⟨step, made, duration, stored, len, Outcome.unwrap_eq_ok.mpr found, _, rfl⟩

theorem recentHtml_ok_iff (recent : r.isRecent run artifact = true) :
    (∃ html, r.recentHtml files run artifact = .ok html) ↔ LogShown r files run artifact := by
  rw [Renderer.recentHtml, Outcome.exists_bind_eq_ok]
  cases debug : debugInfo run with
  | true =>
    simp only [if_true, Outcome.exists_bind_eq_ok]
    constructor
    · rintro ⟨step, made, bytes, opened, text, read, _⟩
      rw [Outcome.unwrap_eq_ok] at opened
      rw [Outcome.expectSome_eq_ok] at read
      exact ⟨stepHtml_ok_iff.mp ⟨step, made⟩, fun _ _ => ⟨bytes, opened, by rw [read]; rfl⟩,
        by simp [recent], by simp [recent, debug]⟩
    · intro shown
      obtain ⟨step, made⟩ := stepHtml_ok_iff.mpr shown.created
      obtain ⟨bytes, opened, text⟩ := shown.whole recent debug
      obtain ⟨text, read⟩ := Option.isSome_iff_exists.mp text
      exact ⟨step, made, bytes, Outcome.unwrap_eq_ok.mpr opened, text,
        Outcome.expectSome_eq_ok.mpr read, _, rfl⟩
  | false =>
    simp only [Bool.false_eq_true, if_false, Outcome.exists_bind_eq_ok]
    constructor
    · rintro ⟨step, made, duration, stored, _⟩
      refine ⟨stepHtml_ok_iff.mp ⟨step, made⟩, by simp [debug], by simp [recent], fun _ => ?_⟩
      exact storedFor_ok_iff.mp ⟨duration, stored⟩
    · intro shown
      obtain ⟨step, made⟩ := stepHtml_ok_iff.mpr shown.created
      obtain ⟨duration, stored⟩ := storedFor_ok_iff.mpr (shown.timed fun _ => debug)
      exact ⟨step, made, duration, stored, _, rfl⟩

theorem artifactsFragment_ok_iff (db : Db) :
    (∃ html, r.artifactsFragment files db run = .ok html) ↔
      ∀ artifact ∈ r.artifacts db run, LogShown r files run artifact := by
  rw [Renderer.artifactsFragment, Outcome.exists_bind_eq_ok]
  simp only [Outcome.exists_bind_eq_ok]
  constructor
  · rintro ⟨old, oldMade, recent, recentMade, _⟩ artifact member
    have olds := Outcome.exists_mapM_eq_ok.mp ⟨old, oldMade⟩
    have recents := Outcome.exists_mapM_eq_ok.mp ⟨recent, recentMade⟩
    cases when : r.isRecent run artifact with
    | true => exact (recentHtml_ok_iff when).mp (recents artifact (List.mem_filter.mpr ⟨member, when⟩))
    | false =>
      exact (oldHtml_ok_iff when).mp (olds artifact (List.mem_filter.mpr ⟨member, by simp [when]⟩))
  · intro shown
    have olds : ∀ artifact ∈ r.oldArtifacts db run, ∃ html, r.oldHtml files artifact = .ok html := by
      intro artifact listed
      obtain ⟨member, when⟩ := List.mem_filter.mp listed
      rw [Bool.not_eq_true'] at when
      exact (oldHtml_ok_iff when).mpr (shown artifact member)
    have recents : ∀ artifact ∈ r.recentArtifacts db run,
        ∃ html, r.recentHtml files run artifact = .ok html := by
      intro artifact listed
      obtain ⟨member, when⟩ := List.mem_filter.mp listed
      exact (recentHtml_ok_iff when).mpr (shown artifact member)
    obtain ⟨old, oldMade⟩ := Outcome.exists_mapM_eq_ok.mpr olds
    obtain ⟨recent, recentMade⟩ := Outcome.exists_mapM_eq_ok.mpr recents
    exact ⟨old, oldMade, recent, recentMade, _, rfl⟩

/-- The page of a commit has a text when the time of its run, the logs and the hosts of
the job's runs can be shown. -/
theorem statusHtml_ok_iff {page : StatusPage} (ghz : Nat → String)
    (pick : List (Nat × RunRow) → Option (Nat × RunRow)) (db : Db) (path : String × String × String) :
    (∃ html, r.statusHtml files ghz pick db path page = .ok html) ↔
      (Ongoing page.run → ∀ startTime, page.run.startTime = some startTime → r.Reached startTime) ∧
      (∀ artifact ∈ r.artifacts db page.run, LogShown r files page.run artifact) ∧
      ∀ run ∈ db.runsForJobOnePerHost pick page.run.jobId, ∃ host, hostDesc db run = .ok host := by
  rw [← displayRunTime_ok_iff, ← artifactsFragment_ok_iff, ← summarizeRuns_ok_iff db []]
  rw [Renderer.statusHtml, Outcome.exists_bind_eq_ok]
  simp only [Outcome.exists_bind_eq_ok]
  constructor
  · rintro ⟨runTime, told, artifacts, shown, metrics, summed, _⟩
    exact ⟨⟨runTime, told⟩, ⟨artifacts, shown⟩, metrics, Outcome.expect_eq_ok.mp summed⟩
  · rintro ⟨⟨runTime, told⟩, ⟨artifacts, shown⟩, metrics, summed⟩
    exact ⟨runTime, told, artifacts, shown, metrics, Outcome.expect_eq_ok.mpr summed, _, rfl⟩

end Shown

end Web
end BuildOTron
