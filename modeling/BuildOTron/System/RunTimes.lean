import BuildOTron.Driver.RunTimes
import BuildOTron.Web.Duration

/-! Run times on a page. The times of a run are the driver's, and what is under way is
measured by the clock of whichever machine renders the page. -/
namespace BuildOTron.System
open Transition Web

def SaysOngoing (text : String) : Prop := "(ongoing)".toList <:+ text.toList

instance (text : String) : Decidable (SaysOngoing text) :=
  inferInstanceAs (Decidable ("(ongoing)".toList <:+ text.toList))

/-- The time of a run is told: nothing is subtracted from less, so that the text is the same
with overflow checks and without, and it says what the state says. -/
structure TellsRunTime (r : Renderer) (run : Run) (text : String) : Prop where
  no_underflow : ∀ overflowChecks,
    ({ r with overflowChecks := overflowChecks } : Renderer).displayRunTime run = .ok text
  valid : text ≠ "invalid data"
  ongoing : SaysOngoing text ↔ run.state = .started

section
variable {row : RunRow}

theorem duration_not_ongoing (durationMs : Nat) : ¬ SaysOngoing (durationAsHumanString durationMs) := by
  rintro ⟨before, same⟩
  obtain ⟨unit, last⟩ := duration_last durationMs
  have closing : "(ongoing)".toList.getLast? = some ')' := rfl
  rw [← same, List.getLast?_append, closing, Option.some_or] at last
  cases unit <;> contradiction

theorem duration_valid (durationMs : Nat) : durationAsHumanString durationMs ≠ "invalid data" := by
  intro same
  obtain ⟨unit, last⟩ := duration_last durationMs
  rw [same] at last
  cases unit <;> contradiction

theorem says_ongoing (text : String) : SaysOngoing (text ++ " (ongoing)") := by
  refine ⟨text.toList ++ [' '], ?_⟩
  rw [String.toList_append, List.append_assoc]
  rfl

/-- A run that is not under way is told the same by every clock. -/
theorem displayRunTime_settled (coherent : Driver.Coherent row) (timed : Driver.TimedRow latest row)
    (settled : row.state ≠ .started) (id : Nat) : ∃ text, text ≠ "invalid data" ∧ ¬ SaysOngoing text ∧
      ∀ r : Renderer, r.displayRunTime (row.withId id) = .ok text := by
  cases start : row.startedTime with
  | none =>
    refine ⟨"not yet run", by decide, by decide, fun r => ?_⟩
    simp [Renderer.displayRunTime, RunRow.withId, start]
  | some startTime =>
    cases complete : row.completeTime with
    | some completeTime =>
      have ordered := timed.completed startTime start completeTime complete
      refine ⟨_, duration_valid (completeTime - startTime), duration_not_ongoing _, fun r => ?_⟩
      simp [Renderer.displayRunTime, RunRow.withId, start, complete, ordered]
    | none =>
      have invalid : row.state = .invalid := by
        cases state : row.state with
        | pending => simpa [start] using (coherent.pending state).1
        | started => exact absurd state settled
        | finished => simpa [complete] using (coherent.finished state).1
        | error => simpa [complete] using (coherent.error state).1
        | invalid => rfl
      refine ⟨"n/a", by decide, by decide, fun r => ?_⟩
      simp [Renderer.displayRunTime, RunRow.withId, start, complete, invalid]

theorem displayRunTime_started (coherent : Driver.Coherent row) (timed : Driver.TimedRow latest row)
    (started : row.state = .started) (id : Nat) : ∃ startTime, row.startedTime = some startTime ∧
      ∀ r : Renderer, r.displayRunTime (row.withId id) = r.ongoing startTime := by
  obtain ⟨startTime, start⟩ := Option.isSome_iff_exists.mp (coherent.assigned (.inl started)).started
  refine ⟨startTime, start, fun r => ?_⟩
  simp [Renderer.displayRunTime, RunRow.withId, start, timed.ongoing started, started]

theorem ongoing_of_past (r : Renderer) (past : startTime ≤ r.now) :
    r.ongoing startTime = .ok (durationAsHumanString (r.now - startTime) ++ " (ongoing)") := by
  rw [Renderer.ongoing, Renderer.since, if_pos past]
  rfl

theorem ongoing_of_ahead (r : Renderer) (ahead : ¬ startTime ≤ r.now) (checks : r.overflowChecks = true) :
    r.ongoing startTime = .panic := by
  rw [Renderer.ongoing, Renderer.since, if_neg ahead, if_pos checks]
  rfl

theorem tells_iff (coherent : Driver.Coherent row) (timed : Driver.TimedRow latest row) (id : Nat)
    (r : Renderer) : (∃ text, TellsRunTime r (row.withId id) text) ↔
      (row.state = .started → ∀ startTime, row.startedTime = some startTime → startTime ≤ r.now) := by
  by_cases started : row.state = .started
  · obtain ⟨startTime, start, shown⟩ := displayRunTime_started coherent timed started id
    constructor
    · rintro ⟨text, told⟩ _ startTime' start'
      cases Option.some.inj (start.symm.trans start')
      by_contra ahead
      have panics := ongoing_of_ahead { r with overflowChecks := true } ahead rfl
      have answers := (shown _).symm.trans (told.no_underflow true)
      cases panics.symm.trans answers
    · intro past
      have ongoing := says_ongoing (durationAsHumanString (r.now - startTime))
      refine ⟨_, fun _ => ?_, ?_, iff_of_true ongoing started⟩
      · exact (shown _).trans (ongoing_of_past _ (past started startTime start))
      · intro same
        rw [same] at ongoing
        exact absurd ongoing (by decide)
  · obtain ⟨text, valid, silent, shown⟩ := displayRunTime_settled coherent timed started id
    exact iff_of_true ⟨text, fun _ => shown _, valid, iff_of_false silent started⟩ (absurd · started)

/-- Every row that the driver's runs leave behind, read by any clock: only the clock of the
page can be in the way, when it is behind the start of a run that is under way. -/
theorem run_time_told_iff (tokenForJob : Nat → String) (db : Db) (clients : Nat)
    (labels : List Driver.Label) (s : Driver.State)
    (once : (Driver.machine tokenForJob).Guarded Driver.ActivatesOnce
      (.start { db with runs := .empty } clients) labels)
    (inOrder : (labels.filterMap Driver.Label.reading).Pairwise (· ≤ ·))
    (path : (Driver.machine tokenForJob).run (.start { db with runs := .empty } clients) labels = some s)
    (id : Nat) (row : RunRow) (found : s.db.runs.get? id = some row) (r : Renderer) :
    (∃ text, TellsRunTime r (row.withId id) text) ↔
      (row.state = .started → ∀ startTime, row.startedTime = some startTime → startTime ≤ r.now) := by
  obtain ⟨latest, timed⟩ := Driver.run_times_timed tokenForJob db clients labels s once inOrder path
  exact tells_iff (timed.records.rows id row found) (timed.rows id row found) id r

end

/-! One run that is under way, from the push that queues it. -/

def startedRun : List Driver.Label :=
  Driver.pushed ++ [Driver.connects] ++ Driver.prepares 0 7 ++
    [Driver.offers 0, Driver.acks 0, .task 0 (.call 7)]

theorem startedRun_once : (Driver.machine Driver.someToken).Guarded Driver.ActivatesOnce
    (.start { Db.empty with runs := .empty } 0) startedRun := by
  decide

def startedRow : RunRow :=
  ⟨1, some "/root/ixi_ci_server/artifacts/1", .started, some 1, some (Driver.someToken 0), 0, some 7, none,
    none, none, none, none⟩

theorem startedRun_found : ∃ s, (Driver.machine Driver.someToken).run
    (.start { Db.empty with runs := .empty } 0) startedRun = some s ∧
      s.db.runs.get? 1 = some startedRow :=
  ⟨_, rfl, rfl⟩

theorem started_run_told : ∃ text, TellsRunTime ⟨fun _ => none, true, 8⟩ (startedRow.withId 1) text := by
  obtain ⟨s, path, found⟩ := startedRun_found
  refine (run_time_told_iff Driver.someToken .empty 0 startedRun s startedRun_once (by decide) path 1
    startedRow found _).mpr ?_
  rintro _ _ ⟨⟩
  decide

/-- The page is rendered where it is still 6; the run has started at 7. -/
theorem behind_clock_underflows : ¬ ∀ (tokenForJob : Nat → String) (db : Db) (clients : Nat)
    (labels : List Driver.Label) (s : Driver.State),
    (Driver.machine tokenForJob).Guarded Driver.ActivatesOnce (.start { db with runs := .empty } clients)
      labels →
    (labels.filterMap Driver.Label.reading).Pairwise (· ≤ ·) →
    (Driver.machine tokenForJob).run (.start { db with runs := .empty } clients) labels = some s →
    ∀ id row, s.db.runs.get? id = some row → ∀ r : Renderer, ∃ text, TellsRunTime r (row.withId id) text := by
  intro claim
  obtain ⟨s, path, found⟩ := startedRun_found
  obtain ⟨text, told⟩ := claim Driver.someToken .empty 0 startedRun s startedRun_once (by decide) path 1
    startedRow found ⟨fun _ => none, false, 6⟩
  have panics : (⟨fun _ => none, true, 6⟩ : Renderer).displayRunTime (startedRow.withId 1) = .panic := rfl
  cases panics.symm.trans (told.no_underflow true)

end BuildOTron.System
