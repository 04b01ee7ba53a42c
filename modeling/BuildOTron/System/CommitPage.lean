import BuildOTron.Driver.ArtifactTimes
import BuildOTron.System.Pages
import BuildOTron.System.RunTimes
import BuildOTron.WebServer.StatusPage

/-! The page of a commit, over a database that the driver has written. Which of its texts
can be shown, which logs are on it and what may keep it from being shown all follow from
the state of the run. -/
namespace BuildOTron.System
open Transition Web

/-- How the page describes a run. -/
def statusOf : RunState → String
  | .pending | .started => "⌛in progress"
  | .finished => "✅ passed"
  | .error => "🧯 error, uncompleted"
  | .invalid => "dude even i don't know"

/-- What keeps a log off the page: a time that is not formatted, or a file. -/
structure ShowableLog (r : Renderer) (files : ArtifactFiles) (run : Run) (log : ArtifactRecord) : Prop where
  created : r.Formats log.createdTime
  whole : r.isRecent run log = true → run.state = .error →
    ∃ bytes, files.read log.runId log.id = .ok bytes ∧ (Json.textOf bytes).isSome
  kept : r.isRecent run log = false → ∃ len, files.metadata log.runId log.id = .ok len
  /-- only a log that has not ended is measured by the clock of the page, from its creation -/
  ongoing : (r.isRecent run log = true → run.state ≠ .error) → log.completedTime = none →
    r.Reached log.createdTime

/-- What the page says of the run it is about. The page has a text but for a clock that is
behind and for logs that cannot be shown. -/
structure TellsOf (r : Renderer) (files : ArtifactFiles) (ghz : Nat → String)
    (pick : List (Nat × RunRow) → Option (Nat × RunRow)) (picking : Picking) (db : Db)
    (path : String × String × String) (page : StatusPage) : Prop where
  status : (statusElem page.run).2 = statusOf page.run.state
  whole : debugInfo page.run = true ↔ page.run.state = .error
  /-- no log is taken for one of an earlier run -/
  logs : (r.oldArtifacts db page.run ++ r.recentArtifacts db page.run).Perm
    (db.artifactsForRun page.run.id none)
  pending : page.run.state = .pending → db.artifactsForRun page.run.id none = []
  shown : (∃ html, r.handleCommitStatus files ghz pick picking db path = .ok html) ↔
    (page.run.state = .started → ∀ startTime, page.run.startTime = some startTime → r.Reached startTime) ∧
    ∀ log ∈ db.artifactsForRun page.run.id none, ShowableLog r files page.run log

section Row
variable {row : RunRow} {id : Nat}

theorem statusElem_of (coherent : Driver.Coherent row) :
    (statusElem (row.withId id)).2 = statusOf row.state := by
  cases state : row.state with
  | finished =>
    have passed := (coherent.finished state).2
    simp [statusElem, RunRow.withId, state, passed, JobResult.code, statusOf]
  | pending | started | error | invalid => simp [statusElem, RunRow.withId, state, statusOf]

/-- A build that has failed is in error, so that nothing is ever said to have `failed`. -/
theorem debugInfo_iff (coherent : Driver.Coherent row) :
    debugInfo (row.withId id) = true ↔ row.state = .error := by
  cases state : row.state with
  | finished =>
    have passed := (coherent.finished state).2
    simp [debugInfo, RunRow.withId, state, passed, JobResult.code]
  | pending | started | error | invalid => simp [debugInfo, RunRow.withId, state]

theorem displayRunTime_told_iff (coherent : Driver.Coherent row) (timed : Driver.TimedRow latest row)
    (r : Renderer) : (∃ text, r.displayRunTime (row.withId id) = .ok text) ↔
      (row.state = .started → ∀ startTime, row.startedTime = some startTime → r.Reached startTime) := by
  by_cases started : row.state = .started
  · obtain ⟨startTime, start, told⟩ := displayRunTime_started coherent timed started id
    rw [told, ongoing_ok_iff]
    simp [started, start]
  · obtain ⟨text, _, _, told⟩ := displayRunTime_settled coherent timed started id
    exact iff_of_true ⟨text, told r⟩ (absurd · started)

end Row

theorem mem_artifactsForRun {db : Db} {log : ArtifactRecord}
    (listed : log ∈ db.artifactsForRun run limit) : log.runId = run ∧
      ∃ row, db.artifacts.get? log.id = some row ∧ log = row.withId log.id := by
  obtain ⟨⟨id, row⟩, taken, rfl⟩ := List.mem_map.mp listed
  have member := (List.mem_insertionSort _).mp (List.mem_of_mem_take taken)
  obtain ⟨found, output⟩ := Table.mem_select.mp member
  exact ⟨(of_decide_eq_true output).1, row, found, rfl⟩

section Page
variable {s : Driver.Storing.State} {row : RunRow} {id : Nat}

/-- A log of the run was reserved after the run had begun. -/
theorem log_started (timed : Driver.Storing.Timed latest s) (found : s.driver.db.runs.get? id = some row)
    {log : ArtifactRecord} (listed : log ∈ s.driver.db.artifactsForRun id limit) :
    ∃ start, row.startedTime = some start ∧ start ≤ log.createdTime ∧
      ∀ time ∈ log.completedTime, log.createdTime ≤ time := by
  obtain ⟨rfl, artifact, held, same⟩ := mem_artifactsForRun listed
  have times := timed.artifacts _ artifact held
  obtain ⟨row', start, found', started, before⟩ := times.run
  rw [same] at found
  cases Option.some.inj (found.symm.trans found')
  rw [same]
  exact ⟨start, started, before, times.completed⟩

theorem artifacts_perm (timed : Driver.Storing.Timed latest s) (found : s.driver.db.runs.get? id = some row)
    (r : Renderer) : (r.artifacts s.driver.db (row.withId id)).Perm
      (s.driver.db.artifactsForRun id none) := by
  refine (List.perm_insertionSort _ _).trans (List.Perm.of_eq (List.filter_eq_self.mpr ?_))
  intro log listed
  obtain ⟨start, started, before, _⟩ := log_started timed found listed
  simp [RunRow.withId, started, before]

theorem logShown_iff (coherent : Driver.Coherent row) {log : ArtifactRecord}
    (ordered : ∀ time ∈ log.completedTime, log.createdTime ≤ time) (r : Renderer) (files : ArtifactFiles) :
    LogShown r files (row.withId id) log ↔ ShowableLog r files (row.withId id) log := by
  have debug : debugInfo (row.withId id) = true ↔ row.state = .error := debugInfo_iff coherent
  have quiet : debugInfo (row.withId id) = false ↔ row.state ≠ .error := by
    rw [← Bool.not_eq_true, debug]
  constructor
  · intro shown
    refine ⟨shown.created, fun recent error => shown.whole recent (debug.mpr error), shown.kept, ?_⟩
    intro measured unfinished checks
    have timed := shown.timed (fun recent => quiet.mpr (measured recent)) checks
    rwa [unfinished] at timed
  · intro showable
    refine ⟨showable.created, fun recent whole => showable.whole recent (debug.mp whole), showable.kept, ?_⟩
    intro measured checks
    cases ended : log.completedTime with
    | some time => exact ordered time ended
    | none => exact showable.ongoing (fun recent => quiet.mp (measured recent)) ended checks

theorem page_tells (timed : Driver.Storing.Timed latest s) {page : StatusPage} {picking : Picking}
    {path : String × String × String} (made : picking.handleCommitStatus s.driver.db path = .ok page)
    (found : s.driver.db.runs.get? id = some row) (same : page.run = row.withId id) (picks : Picks pick)
    (r : Renderer) (files : ArtifactFiles) (ghz : Nat → String) :
    TellsOf r files ghz pick picking s.driver.db path page := by
  have coherent := timed.driver.records.rows id row found
  have timedRow := timed.driver.rows id row found
  have perm := artifacts_perm timed found r
  have hosts : ∀ run ∈ s.driver.db.runsForJobOnePerHost pick page.run.jobId,
      ∃ host, hostDesc s.driver.db run = .ok host := by
    intro run listed
    obtain ⟨⟨id', row'⟩, selected, rfl⟩ := List.mem_map.mp (mem_runsForJobOnePerHost picks listed)
    exact hostDesc_ok_iff.mpr fun hostId => timed.hosted.runs id' row' hostId (Table.mem_select.mp selected).1
  have shows : r.handleCommitStatus files ghz pick picking s.driver.db path =
      r.statusHtml files ghz pick s.driver.db path page := by
    rw [Renderer.handleCommitStatus, made, Outcome.ok_bind]
  rw [show page = { page with run := row.withId id } by rw [← same]] at shows ⊢
  refine ⟨statusElem_of coherent, debugInfo_iff coherent, ?_, ?_, ?_⟩
  · refine List.perm_append_comm.trans ?_
    exact (List.filter_append_perm _ _).trans perm
  · intro pending
    rw [List.eq_nil_iff_forall_not_mem]
    intro log listed
    obtain ⟨start, started, _⟩ := log_started timed found listed
    rw [(coherent.pending pending).1] at started
    contradiction
  · rw [shows, statusHtml_ok_iff, ← displayRunTime_ok_iff, displayRunTime_told_iff coherent timedRow]
    rw [same] at hosts
    refine and_congr Iff.rfl ((and_iff_left hosts).trans ?_)
    have each : ∀ log ∈ s.driver.db.artifactsForRun id none,
        (LogShown r files (row.withId id) log ↔ ShowableLog r files (row.withId id) log) := by
      intro log listed
      obtain ⟨_, _, _, ordered⟩ := log_started timed found listed
      exact logShown_iff coherent ordered r files
    constructor
    · exact fun shown log listed => (each log listed).mp (shown log (perm.mem_iff.mpr listed))
    · intro showable log listed
      have listed := perm.mem_iff.mp listed
      exact (each log listed).mpr (showable log listed)

end Page

/-- In every run of the driver with what it stores, under a clock that does not go back and
with one activation of each run: what the page of a commit says, by whatever clock and
from whatever is left of the files. -/
theorem commit_page_tells (tokenForJob : Nat → String) (db : Db) (clients : Nat)
    (labels : List Driver.Storing.Label) (s : Driver.Storing.State)
    (once : (Driver.Storing.machine tokenForJob).Guarded Driver.Storing.ActivatesOnce
      (.start { db with runs := .empty, artifacts := .empty } clients) labels)
    (inOrder : (labels.filterMap Driver.Storing.Label.reading).Pairwise (· ≤ ·))
    (path : (Driver.Storing.machine tokenForJob).run
      (.start { db with runs := .empty, artifacts := .empty } clients) labels = some s)
    (picking : Picking) (asked : String × String × String) (page : StatusPage)
    (found : picking.handleCommitStatus s.driver.db asked = .ok page)
    (pick : List (Nat × RunRow) → Option (Nat × RunRow)) (picks : Picks pick)
    (r : Renderer) (files : ArtifactFiles) (ghz : Nat → String) :
    TellsOf r files ghz pick picking s.driver.db asked page := by
  obtain ⟨latest, timed⟩ := Driver.Storing.run_timed tokenForJob db clients labels s once inOrder path
  obtain ⟨_, _, _, _, made⟩ := handleCommitStatus_eq_ok.mp found
  obtain ⟨_, _, run, _, _, _, last, _, rfl⟩ := statusPage_eq_ok.mp made
  obtain ⟨row, held, same⟩ := lastRunForJob_row last
  exact page_tells timed found held same picks r files ghz

/-- A pushed build that prints to its log, ends the log and fails. -/
def failedBuild : List Driver.Storing.Label :=
  ([.outside (.newRepo ⟨"zoo", none⟩), .outside (.newRemote ⟨1, "owner/zoo", "github", "", "", ""⟩),
    .outside (.newJob 1 "f00dfacec0de" none none 0), .outside (.newRun 1 0), Driver.connects] ++
    Driver.prepares 0 7 ++ [Driver.offers 0, Driver.acks 0, .task 0 (.call 7),
      .post ⟨.text (Driver.someToken 0), .text "build (stderr)", .text "cargo"⟩ 8 true]).map .driver ++
  [.finalize 1 9] ++ (Driver.reports 0 10 (.finished "build_failed")).map .driver

theorem failedBuild_once : (Driver.Storing.machine Driver.someToken).Guarded Driver.Storing.ActivatesOnce
    (.start { Db.empty with runs := .empty, artifacts := .empty } 0) failedBuild := by
  decide

theorem failed_build_told : ∃ s page, (Driver.Storing.machine Driver.someToken).run
    (.start { Db.empty with runs := .empty, artifacts := .empty } 0) failedBuild = some s ∧
    Picking.first.handleCommitStatus s.driver.db ("owner", "zoo", "f00dfac") = .ok page ∧
    page.run.state = .error ∧ (s.driver.db.artifactsForRun page.run.id none).length = 1 ∧
    TellsOf someRenderer ⟨fun _ _ => .ok 1, fun _ _ => .ok [255]⟩ toString List.head? Picking.first s.driver.db
      ("owner", "zoo", "f00dfac") page := by
  obtain ⟨s, page, path, found, state, one⟩ : ∃ s page, (Driver.Storing.machine Driver.someToken).run
      (.start { Db.empty with runs := .empty, artifacts := .empty } 0) failedBuild = some s ∧
      Picking.first.handleCommitStatus s.driver.db ("owner", "zoo", "f00dfac") = .ok page ∧
      page.run.state = .error ∧ (s.driver.db.artifactsForRun page.run.id none).length = 1 :=
    ⟨_, _, rfl, rfl, rfl, rfl⟩
  exact ⟨s, page, path, found, state, one, commit_page_tells Driver.someToken .empty 0 failedBuild s
    failedBuild_once (by decide) path Picking.first ("owner", "zoo", "f00dfac") page found List.head?
    OnePerKey.picks_head someRenderer _ toString⟩

end BuildOTron.System
