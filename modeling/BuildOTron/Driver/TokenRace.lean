import BuildOTron.Driver.Assignment

/-! When a runner's token is good. The runner may post artifacts as soon as it has
sent `Started`; the driver reads that and only then writes the token, on another
connection. A post is sure to be accepted when it comes after that write, no second
activation overwrites the row, and the lock is not poisoned. -/
namespace BuildOTron.Driver
open Transition

/-- What a runner holds once it has sent `Started`. -/
structure Begun where
  offer : Offer
  token : String

structure Posted where
  run : Nat
  /-- the start that `activate_run` records -/
  start : Nat
  timeout : Nat
  now : Nat
  answer : Outcome StatusCode Nat

structure Race where
  driver : State
  begun : Nat → Option Begun
  /-- history: the activations whose update was executed, by client -/
  recorded : Nat → Option Offer
  posted : List Posted

inductive RaceLabel where
  | driver (l : Label)
  | sendStarted (c : Nat)
  | post (c now : Nat) (name desc : String) (fileCreated : Bool)

/-- The one step of a task that has read `Started` is its update, or a panic at the lock. -/
def recordedAfter (s : State) (recorded : Nat → Option Offer) : Label → Nat → Option Offer
  | .task c _ =>
    match (s.tasks c).map Task.phase with
    | some (.started offer) =>
      if s.poisoned then recorded else Function.update recorded c (some offer)
    | _ => recorded
  | _ => recorded

def runTimeout (db : Db) (run : Nat) : Nat :=
  ((db.runs.get? run).bind RunRow.runTimeout).getD Db.tokenExpiryMs

/-- The driver, its runners from the `NewTask` they read to the posts they make. -/
def raceMachine (tokenForJob : Nat → String) : Machine Race RaceLabel where
  step s
    | .driver l => do
      let driver ← (machine tokenForJob).step s.driver l
      return { s with driver := driver, recorded := recordedAfter s.driver s.recorded l }
    | .sendStarted c => do
      let task ← s.driver.tasks c
      match task.phase, s.begun c with
      | .awaitStarted offer, none =>
        some { s with begun := Function.update s.begun c (some ⟨offer, task.client.buildToken⟩) }
      | _, _ => none
    | .post c now name desc fileCreated => do
      let begun ← s.begun c
      let post := ⟨.text begun.token, .text name, .text desc⟩
      let driver ← (machine tokenForJob).step s.driver (.post post now fileCreated)
      let run := begun.offer.run.id
      return { s with
        driver := driver
        posted := ⟨run, begun.offer.now, runTimeout s.driver.db run, now,
          if s.driver.poisoned then .panic else acceptToken s.driver.db begun.token now⟩ :: s.posted }

def Race.start (db : Db) : Race := ⟨.start db 0, fun _ => none, fun _ => none, []⟩

def Phase.started? : Phase → Option Offer
  | .started offer => some offer
  | _ => none

/-- A client's post comes after its activation was written and finds the lock sound, and
an activation is written only over a pending row. -/
def RecordedFirst (s : Race) : RaceLabel → Prop
  | .post c _ _ _ _ => (s.recorded c).isSome ∧ s.driver.poisoned = false
  | .driver (.task c _) => ∀ offer ∈ (s.driver.tasks c).bind fun task => task.phase.started?,
      Pending s.driver.db offer.run.id
  | _ => True

instance (s : Race) : (l : RaceLabel) → Decidable (RecordedFirst s l)
  | .post c _ _ _ _ => inferInstanceAs (Decidable
      ((s.recorded c).isSome = true ∧ s.driver.poisoned = false))
  | .driver (.task c _) => inferInstanceAs (Decidable
      (∀ offer ∈ (s.driver.tasks c).bind fun task => task.phase.started?,
        Pending s.driver.db offer.run.id))
  | .driver (.connect _ _) | .driver (.reaper _) | .driver (.post _ _ _) | .driver (.outside _)
  | .driver .restart | .sendStarted _ => .isTrue trivial

def Posted.InTime (post : Posted) : Prop := post.now ≤ post.start + post.timeout

/-- The task has handed its offer over, or is past everything. -/
def After (phase : Phase) : Prop := phase.job?.isSome ∨ phase.isOver = true

def Answering (offer : Offer) (phase : Phase) : Prop :=
  phase = .awaitStarted offer ∨ phase = .started offer ∨ After phase

theorem After.moves (after : After phase) (moves : Moves client db phase action db' next) :
    After next := by
  cases moves with
  | ends ended => exact .inr ended
  | reads within => exact .inl (by rw [within]; rfl)
  | replies | insertMetric | jobById | repoIdByRemote | notifies | records => exact .inl rfl
  | _ => simp [After, Phase.job?, Phase.isOver] at after

theorem Answering.moves (answering : Answering offer phase)
    (moves : Moves client db phase action db' next) : Answering offer next := by
  obtain rfl | rfl | after := answering
  · cases moves with
    | ends ended => exact .inr (.inr (.inr ended))
    | acked => exact .inr (.inl rfl)
  · cases moves with
    | ends ended => exact .inr (.inr (.inr ended))
    | activates => exact .inr (.inr (.inl rfl))
  · exact .inr (.inr (after.moves moves))

/-- The run's row as an activation leaves it. -/
def Held (db : Db) (token : String) (offer : Offer) : Prop :=
  ∃ row, db.runs.get? offer.run.id = some row ∧ row.buildToken = some token ∧
    row.startedTime = some offer.now ∧ row.artifactsPath.isSome ∧ row.state ≠ .pending

theorem Held.not_pending (held : Held db token offer) : ¬ Pending db offer.run.id := by
  rintro ⟨row, found, pending⟩
  obtain ⟨row', found', _, _, _, settled⟩ := held
  cases Option.some.inj (found.symm.trans found')
  exact settled pending

/-- No other writer touches the columns of an activation. -/
theorem Held.step {s : State} (held : Held s.db token offer) (write : RunsWrite s l db.runs)
    (other : ∀ c action task offer', l = .task c action → s.tasks c = some task →
      task.phase = .started offer' → offer'.run.id ≠ offer.run.id) : Held db token offer := by
  obtain ⟨row, found, token, started, artifacts, settled⟩ := held
  obtain ⟨row', found', wrote⟩ := write.forward _ row found
  refine ⟨row', found', ?_⟩
  cases wrote with
  | kept => exact ⟨token, started, artifacts, settled⟩
  | activated step found acked same => exact absurd same (other _ _ _ _ step found acked)
  | recorded => exact ⟨token, started, artifacts, taskResult_ne_pending _⟩
  | reaped => exact ⟨token, started, artifacts, nofun⟩

/-- A row with a token after a step had it before, or the step wrote its activation. -/
theorem token_written {s : State} (write : RunsWrite s l runs) (held : runs.get? run = some row')
    (drawn : row'.buildToken = some token) :
    (∃ row, s.db.runs.get? run = some row ∧ row.buildToken = some token) ∨
      ∃ c action task offer, l = .task c action ∧ s.tasks c = some task ∧
        task.phase = .started offer ∧ offer.run.id = run ∧ token = task.client.buildToken := by
  cases old : s.db.runs.get? run with
  | none =>
    obtain ⟨_, _, _, _, rfl⟩ := write.backward run row' held old
    simp [Db.pendingRow] at drawn
  | some row =>
    obtain ⟨row'', held', step⟩ := write.forward run row old
    cases Option.some.inj (held'.symm.trans held)
    cases step with
    | activated step found acked same =>
      exact .inr ⟨_, _, _, _, step, found, acked, same, (Option.some.inj drawn).symm⟩
    | kept | recorded | reaped => exact .inl ⟨_, rfl, drawn⟩

structure Granted (tokenForJob : Nat → String) (db₀ : Db) (s : Race) : Prop where
  known : Known s.driver
  tokens : ∀ c task, s.driver.tasks c = some task → task.client.buildToken = tokenForJob c
  begun : ∀ c begun, s.begun c = some begun → c < s.driver.clients ∧
    begun.token = tokenForJob c ∧ (∀ offer, s.recorded c = some offer → offer = begun.offer) ∧
    ∀ task, s.driver.tasks c = some task → Answering begun.offer task.phase
  recorded : ∀ c offer, s.recorded c = some offer → c < s.driver.clients ∧
    Held s.driver.db (tokenForJob c) offer ∧
    ∀ task, s.driver.tasks c = some task → After task.phase
  rows : ∀ run row token, s.driver.db.runs.get? run = some row → row.buildToken = some token →
    (∃ run₀ row₀, db₀.runs.get? run₀ = some row₀ ∧ row₀.buildToken = some token) ∨
      ∃ c offer, s.recorded c = some offer ∧ offer.run.id = run ∧ token = tokenForJob c
  posted : ∀ post ∈ s.posted, post.InTime → post.answer = .ok post.run

/-- Either this step is an activation, or the history of activations stays and the runs are
written in another way. -/
theorem recordedAfter_cases {s : State} (recorded : Nat → Option Offer)
    (stepped : (machine tokenForJob).step s l = some t) :
    (∃ c action task offer, l = .task c action ∧ s.tasks c = some task ∧
      task.phase = .started offer ∧ s.poisoned = false ∧
      recordedAfter s recorded l = Function.update recorded c (some offer)) ∨
    recordedAfter s recorded l = recorded ∧ ∃ l', RunsWrite s l' t.db.runs ∧
      ∀ c action task offer, l' = .task c action → s.tasks c = some task →
        task.phase ≠ .started offer := by
  have write := step_runsWrite stepped
  cases l with
  | task c action =>
    obtain ⟨task, db, next, found, moved, rfl⟩ := step_attempt stepped
    by_cases acked : ∃ offer, task.phase = .started offer
    · obtain ⟨offer, acked⟩ := acked
      obtain ⟨_, ⟨healthy, _⟩ | ⟨poisoned, rfl, _⟩⟩ := attempt_started moved acked
      · exact .inl ⟨c, action, task, offer, rfl, found, acked, healthy,
          by simp [recordedAfter, found, acked, healthy]⟩
      · refine .inr ⟨by simp [recordedAfter, found, acked, poisoned], .restart, ?_, by simp⟩
        rw [moveTask_db]
        exact .unchanged s _
    · refine .inr ⟨?_, _, write, ?_⟩
      · simp only [recordedAfter, found, Option.map_some]
        split
        · rename_i offer same
          exact absurd ⟨offer, Option.some.inj same⟩ acked
        · rfl
      · rintro _ _ task' offer ⟨⟩ held started
        cases Option.some.inj (found.symm.trans held)
        exact acked ⟨offer, started⟩
  | connect | reaper | post | outside | restart => exact .inr ⟨rfl, _, write, by simp⟩

section Step
variable {tokenForJob : Nat → String} {db₀ : Db} {s : Race} {l l' : Label} {driver : State}

theorem Granted.step_tokens (granted : Granted tokenForJob db₀ s)
    (stepped : (machine tokenForJob).step s.driver l = some driver) :
    ∀ c task, driver.tasks c = some task → task.client.buildToken = tokenForJob c := by
  intro c task found
  obtain ⟨_, token, _⟩ | ⟨old, _⟩ | ⟨task', _, held, _, same, _⟩ := step_tasks stepped found
  · exact token
  · exact granted.tokens c task old
  · rw [same]
    exact granted.tokens c task' held

/-- A driver step that is not an activation. -/
theorem Granted.step_other (granted : Granted tokenForJob db₀ s)
    (stepped : (machine tokenForJob).step s.driver l = some driver)
    (write : RunsWrite s.driver l' driver.db.runs)
    (other : ∀ c action task offer, l' = .task c action → s.driver.tasks c = some task →
      task.phase ≠ .started offer) :
    Granted tokenForJob db₀ { s with driver := driver } := by
  have clients := step_clients stepped
  refine ⟨step_known granted.known stepped, granted.step_tokens stepped, ?_, ?_, ?_, granted.posted⟩
  · intro c begun held
    obtain ⟨before, token, same, answering⟩ := granted.begun c begun held
    exact ⟨Nat.lt_of_lt_of_le before clients, token, same,
      step_phase (fun _ _ _ _ _ _ => Answering.moves) stepped before answering⟩
  · intro c offer held
    obtain ⟨before, row, after⟩ := granted.recorded c offer held
    refine ⟨Nat.lt_of_lt_of_le before clients, row.step write ?_,
      step_phase (fun _ _ _ _ _ _ => After.moves) stepped before after⟩
    exact fun c' action task offer' step found acked => absurd acked (other c' action task offer' step found)
  · intro run row' token found drawn
    obtain ⟨row, old, drawn₀⟩ | ⟨c, action, task, offer, step, held, acked, _⟩ :=
      token_written write found drawn
    · exact granted.rows run row token old drawn₀
    · exact absurd acked (other c action task offer step held)

/-- The step that writes an activation. -/
theorem step_writes (stepped : (machine tokenForJob).step s.driver (.task c action) = some driver)
    (found : s.driver.tasks c = some task) (acked : task.phase = .started offer)
    (healthy : s.driver.poisoned = false) :
    ∃ next, driver = s.driver.moveTask c task action (activate s.driver.db task.client offer) next ∧
      After next := by
  obtain ⟨task', db, next, found', moved, rfl⟩ := step_attempt stepped
  cases Option.some.inj (found.symm.trans found')
  obtain ⟨_, ⟨_, rfl, rfl⟩ | ⟨poisoned, _⟩⟩ := attempt_started moved acked
  · exact ⟨_, rfl, .inl rfl⟩
  · rw [healthy] at poisoned
    contradiction

theorem activate_held (client : RunnerClient) (pending : Pending db offer.run.id) :
    Held (activate db client offer) client.buildToken offer := by
  obtain ⟨row, held, _⟩ := pending
  refine ⟨startedRow row client offer, ?_, rfl, rfl, rfl, by simp [startedRow]⟩
  exact activate_row _ _ held

/-- A task that is yet to write its activation is not past it. -/
theorem started_not_after (acked : phase = .started offer) : ¬ After phase := by
  rw [acked]
  simp [After, Phase.job?, Phase.isOver]

theorem Granted.unrecorded (granted : Granted tokenForJob db₀ s) (found : s.driver.tasks c = some task)
    (acked : task.phase = .started offer) : s.recorded c = none := by
  cases written : s.recorded c with
  | none => rfl
  | some offer' => exact absurd ((granted.recorded c offer' written).2.2 task found) (started_not_after acked)

/-- The activation that a task writes is the one it was answered for. -/
theorem Granted.writes_begun (granted : Granted tokenForJob db₀ s) (found : s.driver.tasks c = some task)
    (acked : task.phase = .started offer) (held : s.begun c = some activation) :
    offer = activation.offer := by
  obtain waiting | started | past := (granted.begun c activation held).2.2.2 task found
  · rw [acked] at waiting
    contradiction
  · rw [acked] at started
    exact Phase.started.inj started
  · exact absurd past (started_not_after acked)

/-- Another task's row stays held. -/
theorem Held.beside {s : State} (held : Held s.db token offer') (write : RunsWrite s (.task c action) db.runs)
    (found : s.tasks c = some task) (acked : task.phase = .started offer)
    (pending : Pending s.db offer.run.id) : Held db token offer' := by
  refine held.step write ?_
  rintro _ _ task' offer'' ⟨⟩ found' started clash
  cases Option.some.inj (found.symm.trans found')
  rw [acked] at started
  cases started
  rw [clash] at pending
  exact held.not_pending pending

/-- The step that writes an activation over a pending row. -/
theorem Granted.step_activates (granted : Granted tokenForJob db₀ s)
    (stepped : (machine tokenForJob).step s.driver (.task c action) = some driver)
    (found : s.driver.tasks c = some task) (acked : task.phase = .started offer)
    (healthy : s.driver.poisoned = false) (pending : Pending s.driver.db offer.run.id) :
    Granted tokenForJob db₀
      { s with driver := driver, recorded := Function.update s.recorded c (some offer) } := by
  have write := step_runsWrite stepped
  have clients := step_clients stepped
  have token := granted.tokens c task found
  obtain ⟨next, same, after⟩ := step_writes stepped found acked healthy
  refine ⟨step_known granted.known stepped, granted.step_tokens stepped, ?_, ?_, ?_, granted.posted⟩
  · intro c' begun held
    obtain ⟨before, drawn, same, answering⟩ := granted.begun c' begun held
    refine ⟨Nat.lt_of_lt_of_le before clients, drawn, ?_,
      step_phase (fun _ _ _ _ _ _ => Answering.moves) stepped before answering⟩
    intro offer' written
    by_cases here : c' = c
    · subst here
      simp only [Function.update_self, Option.some.injEq] at written
      rw [← written]
      exact granted.writes_begun found acked held
    · simp only [Function.update_of_ne here] at written
      exact same offer' written
  · intro c' offer' written
    by_cases here : c' = c
    · subst here
      simp only [Function.update_self, Option.some.injEq] at written
      subst written
      have recorded := activate_held task.client pending
      subst same
      refine ⟨Nat.lt_of_lt_of_le (granted.known.clients c' task found) clients, ?_, ?_⟩
      · rw [moveTask_db, ← token]
        exact recorded
      · intro task' held
        obtain ⟨_, rfl⟩ | ⟨other, _⟩ := moveTask_cases held
        · exact after
        · exact absurd rfl other
    · simp only [Function.update_of_ne here] at written
      obtain ⟨before, row, past⟩ := granted.recorded c' offer' written
      exact ⟨Nat.lt_of_lt_of_le before clients, row.beside write found acked pending,
        step_phase (fun _ _ _ _ _ _ => After.moves) stepped before past⟩
  · intro run row' token' held drawn
    obtain ⟨row, old, drawn₀⟩ | ⟨_, _, _, _, ⟨⟩, found', acked', mine, rfl⟩ :=
      token_written write held drawn
    · obtain held₀ | ⟨c', offer', written, rest⟩ := granted.rows run row token' old drawn₀
      · exact .inl held₀
      · have other : c' ≠ c := by
          rintro rfl
          rw [granted.unrecorded found acked] at written
          contradiction
        exact .inr ⟨c', offer', (Function.update_of_ne other _ _).trans written, rest⟩
    · cases Option.some.inj (found.symm.trans found')
      cases acked.symm.trans acked'
      exact .inr ⟨c, offer, Function.update_self .., mine, token⟩

theorem Granted.step_driver (granted : Granted tokenForJob db₀ s)
    (stepped : (machine tokenForJob).step s.driver l = some driver)
    (guard : RecordedFirst s (.driver l)) :
    Granted tokenForJob db₀
      { s with driver := driver, recorded := recordedAfter s.driver s.recorded l } := by
  obtain ⟨c, action, task, offer, rfl, found, acked, healthy, same⟩ | ⟨same, l', write, other⟩ :=
    recordedAfter_cases s.recorded stepped
  · rw [same]
    have pending := guard offer (by simp [found, acked, Phase.started?])
    exact granted.step_activates stepped found acked healthy pending
  · rw [same]
    exact granted.step_other stepped write other

end Step

/-- The first row with a token is the only one. -/
theorem runForToken_eq {db : Db} (found : db.runs.get? run = some row)
    (held : row.buildToken = some token)
    (only : ∀ run' row', db.runs.get? run' = some row' → row'.buildToken = some token → run' = run)
    (started : row.startedTime = some start) (now : Nat) :
    db.runForToken token now = some (run, row.artifactsPath,
      if start + row.runTimeout.getD Db.tokenExpiryMs < now then .expired else .valid) := by
  have first := Table.head?_select (p := fun row => row.buildToken = some token) found
    (decide_eq_true held) fun run' row' found' same => only run' row' found' (of_decide_eq_true same)
  simp only [Db.runForToken, first, started]

/-- A post with the token of a written activation, within its time, is accepted. -/
theorem Granted.accepts (granted : Granted tokenForJob db₀ s)
    (distinct : ∀ a b, a < s.driver.clients → b < s.driver.clients →
      tokenForJob a = tokenForJob b → a = b)
    (fresh : ∀ c, c < s.driver.clients → ∀ run row, db₀.runs.get? run = some row →
      row.buildToken ≠ some (tokenForJob c))
    (written : s.recorded c = some offer)
    (inTime : now ≤ offer.now + runTimeout s.driver.db offer.run.id) :
    acceptToken s.driver.db (tokenForJob c) now = .ok offer.run.id := by
  obtain ⟨drawn, ⟨row, found, token, started, artifacts, _⟩, _⟩ := granted.recorded c offer written
  have only : ∀ run' row', s.driver.db.runs.get? run' = some row' →
      row'.buildToken = some (tokenForJob c) → run' = offer.run.id := by
    intro run' row' found' held
    obtain ⟨run₀, row₀, old, held₀⟩ | ⟨c', offer', written', rfl, same⟩ :=
      granted.rows run' row' _ found' held
    · exact absurd held₀ (fresh c drawn run₀ row₀ old)
    · cases distinct c c' drawn (granted.recorded c' offer' written').1 same
      cases Option.some.inj (written'.symm.trans written)
      rfl
  simp only [runTimeout, found, Option.bind_some] at inTime
  obtain ⟨path, artifacts⟩ := Option.isSome_iff_exists.mp artifacts
  rw [acceptToken, runForToken_eq found token only started, if_neg (by omega), artifacts]

theorem start_granted (tokenForJob : Nat → String) (db : Db) :
    Granted tokenForJob db (.start db) :=
  ⟨start_known _ _, by simp [Race.start], by simp [Race.start], by simp [Race.start],
    fun run row token found held => .inl ⟨run, row, found, held⟩, by simp [Race.start]⟩

section RaceStep
variable {tokenForJob : Nat → String} {s t : Race} {l : RaceLabel}

theorem race_driver (stepped : (raceMachine tokenForJob).step s (.driver l') = some t) :
    ∃ driver, (machine tokenForJob).step s.driver l' = some driver ∧
      t = { s with driver := driver, recorded := recordedAfter s.driver s.recorded l' } := by
  simp only [raceMachine, Option.bind_eq_bind, Option.bind_eq_some_iff, Option.pure_def,
    Option.some.injEq] at stepped
  obtain ⟨driver, stepped, rfl⟩ := stepped
  exact ⟨driver, stepped, rfl⟩

theorem race_sendStarted (stepped : (raceMachine tokenForJob).step s (.sendStarted c) = some t) :
    ∃ task offer, s.driver.tasks c = some task ∧ task.phase = .awaitStarted offer ∧
      t = { s with begun := Function.update s.begun c (some ⟨offer, task.client.buildToken⟩) } := by
  simp only [raceMachine, Option.bind_eq_bind, Option.bind_eq_some_iff] at stepped
  obtain ⟨task, found, stepped⟩ := stepped
  split at stepped
  · rename_i offer waiting _
    exact ⟨task, offer, found, waiting, (Option.some.inj stepped).symm⟩
  · contradiction

theorem race_post
    (stepped : (raceMachine tokenForJob).step s (.post c now name desc fileCreated) = some t) :
    ∃ begun post driver, s.begun c = some begun ∧
      (machine tokenForJob).step s.driver (.post post now fileCreated) = some driver ∧
      t = { s with
        driver := driver
        posted := ⟨begun.offer.run.id, begun.offer.now, runTimeout s.driver.db begun.offer.run.id,
          now, if s.driver.poisoned then .panic else acceptToken s.driver.db begun.token now⟩ ::
            s.posted } := by
  simp only [raceMachine, Option.bind_eq_bind, Option.bind_eq_some_iff, Option.pure_def] at stepped
  obtain ⟨begun, held, driver, stepped, same⟩ := stepped
  exact ⟨begun, _, driver, held, stepped, (Option.some.inj same).symm⟩

theorem race_clients (stepped : (raceMachine tokenForJob).step s l = some t) :
    s.driver.clients ≤ t.driver.clients := by
  cases l with
  | driver l' =>
    obtain ⟨driver, moved, rfl⟩ := race_driver stepped
    exact step_clients moved
  | sendStarted c =>
    obtain ⟨_, _, _, _, rfl⟩ := race_sendStarted stepped
    exact Nat.le_refl _
  | post c now name desc fileCreated =>
    obtain ⟨_, _, driver, _, moved, rfl⟩ := race_post stepped
    exact step_clients moved

theorem Granted.sendStarted (granted : Granted tokenForJob db₀ s)
    (found : s.driver.tasks c = some task) (waiting : task.phase = .awaitStarted offer) :
    Granted tokenForJob db₀
      { s with begun := Function.update s.begun c (some ⟨offer, task.client.buildToken⟩) } := by
  refine ⟨granted.known, granted.tokens, ?_, granted.recorded, granted.rows, granted.posted⟩
  intro c' begun held
  by_cases here : c' = c
  · subst here
    simp only [Function.update_self, Option.some.injEq] at held
    subst held
    refine ⟨granted.known.clients c' task found, granted.tokens c' task found, ?_, ?_⟩
    · intro offer' written
      have past := (granted.recorded c' offer' written).2.2 task found
      rw [waiting] at past
      simp [After, Phase.job?, Phase.isOver] at past
    · intro task' found'
      cases Option.some.inj (found.symm.trans found')
      exact .inl waiting
  · simp only [Function.update_of_ne here] at held
    exact granted.begun c' begun held

theorem Granted.race_step (granted : Granted tokenForJob db₀ s)
    (distinct : ∀ a b, a < s.driver.clients → b < s.driver.clients →
      tokenForJob a = tokenForJob b → a = b)
    (fresh : ∀ c, c < s.driver.clients → ∀ run row, db₀.runs.get? run = some row →
      row.buildToken ≠ some (tokenForJob c))
    (guard : RecordedFirst s l) (stepped : (raceMachine tokenForJob).step s l = some t) :
    Granted tokenForJob db₀ t := by
  cases l with
  | driver l' =>
    obtain ⟨driver, moved, rfl⟩ := race_driver stepped
    exact granted.step_driver moved guard
  | sendStarted c =>
    obtain ⟨task, offer, found, waiting, rfl⟩ := race_sendStarted stepped
    exact granted.sendStarted found waiting
  | post c now name desc fileCreated =>
    obtain ⟨begun, post, driver, held, moved, rfl⟩ := race_post stepped
    have next := granted.step_other moved (step_runsWrite moved) (by simp)
    obtain ⟨_, drawn, same, _⟩ := granted.begun c begun held
    obtain ⟨recorded, healthy⟩ := guard
    obtain ⟨offer, written⟩ := Option.isSome_iff_exists.mp recorded
    cases same offer written
    refine ⟨next.known, next.tokens, next.begun, next.recorded, next.rows, ?_⟩
    intro post member inTime
    rcases List.mem_cons.mp member with rfl | old
    · simp only [healthy, Bool.false_eq_true, if_false]
      rw [drawn]
      exact granted.accepts distinct fresh written inTime
    · exact granted.posted post old inTime

end RaceStep

/-- Tokens that were never drawn twice, nor held by a row before. -/
structure FreshTokens (tokenForJob : Nat → String) (db : Db) (clients : Nat) : Prop where
  distinct : ∀ a b, a < clients → b < clients → tokenForJob a = tokenForJob b → a = b
  fresh : ∀ c, c < clients → ∀ run row, db.runs.get? run = some row →
    row.buildToken ≠ some (tokenForJob c)

/-- Every post in time is accepted for the run its token was sent with, if the
activation was written first and written over a pending row, and the lock is sound. -/
theorem started_token_accepted (tokenForJob : Nat → String) (db : Db) (labels : List RaceLabel)
    (s : Race) (tokens : FreshTokens tokenForJob db s.driver.clients)
    (first : (raceMachine tokenForJob).Guarded RecordedFirst (.start db) labels)
    (path : (raceMachine tokenForJob).run (.start db) labels = some s) :
    ∀ post ∈ s.posted, post.InTime → post.answer = .ok post.run := by
  have granted : s.driver.clients ≤ s.driver.clients → Granted tokenForJob db s :=
    Machine.guarded_invariant
      (P := fun t => t.driver.clients ≤ s.driver.clients → Granted tokenForJob db t)
      (fun t l u granted guard stepped within => by
        have before := Nat.le_trans (race_clients stepped) within
        exact (granted before).race_step
          (fun a b ha hb => tokens.distinct a b (Nat.lt_of_lt_of_le ha before)
            (Nat.lt_of_lt_of_le hb before))
          (fun c hc => tokens.fresh c (Nat.lt_of_lt_of_le hc before)) guard stepped)
      (fun _ => start_granted tokenForJob db) first path
  exact (granted (Nat.le_refl _)).posted

/-- One runner, up to its `Started`. -/
def untilStarted : List RaceLabel :=
  (oneClient ++ [offers 0]).map .driver ++ [.sendStarted 0]

/-- The driver reads that `Started` and writes the activation. -/
def activation : List RaceLabel := [.driver (acks 0), .driver (.task 0 (.call 0))]

def postsLog : RaceLabel := .post 0 1 "stdout" "stdout of git clone" true

theorem someToken_fresh (clients : Nat) (one : clients = 1) : FreshTokens someToken .empty clients := by
  subst one
  exact ⟨by intro a b; omega, by simp [Db.empty]⟩

theorem late_post_accepted : ∃ s, (raceMachine someToken).run (.start .empty)
    (untilStarted ++ activation ++ [postsLog]) = some s ∧ s.posted.length = 1 ∧
      ∀ post ∈ s.posted, post.InTime → post.answer = .ok post.run := by
  have runs : ((raceMachine someToken).run (.start .empty)
      (untilStarted ++ activation ++ [postsLog])).map (fun s => (s.driver.clients, s.posted.length)) =
        some (1, 1) := rfl
  obtain ⟨s, path, same⟩ := Option.map_eq_some_iff.mp runs
  obtain ⟨clients, posted⟩ := Prod.mk.inj same
  exact ⟨s, path, posted, started_token_accepted someToken .empty _ s (someToken_fresh _ clients)
    (of_decide_eq_true rfl) path⟩

/-- The post comes between the runner's `Started` and the driver's update. -/
theorem early_post_refused : ¬ ∀ (tokenForJob : Nat → String) (db : Db) (labels : List RaceLabel)
    (s : Race), FreshTokens tokenForJob db s.driver.clients →
    (raceMachine tokenForJob).run (.start db) labels = some s →
    ∀ post ∈ s.posted, post.InTime → post.answer = .ok post.run := by
  intro claim
  have runs : ((raceMachine someToken).run (.start .empty) (untilStarted ++ [postsLog])).map
      (fun s => (s.driver.clients, s.posted)) =
        some (1, [⟨1, 0, 1800000, 1, .err .badRequest⟩]) := rfl
  obtain ⟨s, path, same⟩ := Option.map_eq_some_iff.mp runs
  obtain ⟨clients, posted⟩ := Prod.mk.inj same
  have accepted := claim someToken .empty _ s (someToken_fresh _ clients) path
    ⟨1, 0, 1800000, 1, .err .badRequest⟩ (by rw [posted]; exact List.mem_cons_self)
    (by simp [Posted.InTime])
  contradiction

end BuildOTron.Driver
