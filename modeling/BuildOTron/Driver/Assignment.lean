import BuildOTron.Driver.Steps

/-! Who is given a run. Choosing a pending run, sending `NewTask`, reading
`Started` and marking the row are separate steps, and nothing holds a run for one
task in between: two tasks can carry the same run to two clients. A run is handed
out once when `NewTask` goes out only for a pending run nobody else has on offer. -/
namespace BuildOTron.Driver
open Transition

def Settled (db : Db) (run : Nat) : Prop :=
  ∃ row, db.runs.get? run = some row ∧ row.state ≠ .pending

def Pending (db : Db) (run : Nat) : Prop :=
  ∃ row, db.runs.get? run = some row ∧ row.state = .pending

instance (db : Db) (run : Nat) : Decidable (Pending db run) :=
  decidable_of_iff ((db.runs.get? run).map RunRow.state = some .pending)
    (by simp [Pending, Option.map_eq_some_iff])

theorem Settled.not_pending (settled : Settled db run) : ¬ Pending db run := by
  rintro ⟨row, found, pending⟩
  obtain ⟨row', found', done⟩ := settled
  cases Option.some.inj (found.symm.trans found')
  exact done pending

theorem taskResult_ne_pending (info : TaskInfo) : (taskResult info).2 ≠ .pending := by
  cases info with
  | finished status => by_cases passed : status = "pass" <;> simp [taskResult, passed]
  | interrupted status description => simp [taskResult]

/-- No writer puts a run back in the queue. -/
theorem Settled.step {s : State} (settled : Settled s.db run) (write : RunsWrite s l db.runs) :
    Settled db run := by
  obtain ⟨row, found, done⟩ := settled
  obtain ⟨row', found', wrote⟩ := write.forward run row found
  refine ⟨row', found', ?_⟩
  cases wrote with
  | kept => exact done
  | activated => simp [startedRow]
  | recorded => exact taskResult_ne_pending _
  | reaped => simp

/-- Task `c` may send `NewTask` for `run`. -/
structure FreeToOffer (s : State) (c run : Nat) : Prop where
  pending : Pending s.db run
  alone : ∀ c' task, c' ≠ c → s.tasks c' = some task → task.phase.offer? ≠ some run

/-- `NewTask` is sent only for a free run, and between reading `Started` and marking the
row the driver is not stopped, nor its lock poisoned. -/
def OffersFree (s : State) : Label → Prop
  | .task c (.send true) => ∀ task offer, s.tasks c = some task → task.phase = .submit offer →
      FreeToOffer s c offer.run.id
  | .task c (.call _) => ∀ task offer, s.tasks c = some task → task.phase = .started offer →
      s.poisoned = false
  | .restart => ∀ c task offer, s.tasks c = some task → task.phase ≠ .started offer
  | _ => True

structure Exclusive (s : State) : Prop where
  known : Known s
  alone : ∀ c task c' task' run, s.tasks c = some task → s.tasks c' = some task' →
    task.phase.offer? = some run → task'.phase.offer? = some run → c = c'
  unacked : ∀ c task offer, s.tasks c = some task → task.phase = .awaitStarted offer →
    offer.run.id ∉ s.acked.map Prod.snd
  acked : ∀ entry ∈ s.acked, Settled s.db entry.2 ∨ ∃ task offer,
    s.tasks entry.1 = some task ∧ task.phase = .started offer ∧ offer.run.id = entry.2
  distinct : (s.acked.map Prod.snd).Nodup

section Moves
variable {client : RunnerClient} {db db' : Db} {phase next : Phase} {action : Action}

theorem moves_offer (moves : Moves client db phase action db' next)
    (offered : next.offer? = some run) : phase.offer? = some run ∨
      ∃ offer, phase = .submit offer ∧ action = .send true ∧ offer.run.id = run := by
  cases moves with
  | ends ended => cases next <;> simp_all [Phase.isOver, Phase.offer?]
  | reads within => cases next <;> simp_all [Phase.job?, Phase.offer?]
  | offers => exact .inr ⟨_, rfl, rfl, Option.some.inj offered⟩
  | acked => exact .inl offered
  | _ => simp [Phase.offer?] at offered

theorem moves_awaitStarted (moves : Moves client db phase action db' (.awaitStarted offer)) :
    phase = .submit offer ∧ action = .send true := by
  cases moves with
  | ends ended => simp [Phase.isOver] at ended
  | reads within => simp [Phase.job?] at within
  | offers => exact ⟨rfl, rfl⟩

theorem moves_started (moves : Moves client db phase action db' (.started offer)) :
    phase = .awaitStarted offer := by
  cases moves with
  | ends ended => simp [Phase.isOver] at ended
  | reads within => simp [Phase.job?] at within
  | acked => rfl

end Moves

theorem activate_settled (known : (db.runs.get? offer.run.id).isSome) (client : RunnerClient) :
    Settled (activate db client offer) offer.run.id := by
  obtain ⟨row, found⟩ := Option.isSome_iff_exists.mp known
  refine ⟨startedRow row client offer, ?_, by simp [startedRow]⟩
  exact activate_row _ _ found

/-- A task that reads `Started` is the one new entry of the history. -/
theorem moveTask_acked_eq {s : State} {db : Db} {next : Phase}
    (moves : Moves task.client s.db task.phase action db next) :
    (s.moveTask c task action db next).acked = s.acked ∧ (∀ offer, next ≠ .started offer) ∨
      ∃ offer, task.phase = .awaitStarted offer ∧ next = .started offer ∧
        (s.moveTask c task action db next).acked = (c, offer.run.id) :: s.acked := by
  by_cases started : ∃ offer, next = .started offer
  · obtain ⟨offer, rfl⟩ := started
    have waited := moves_started moves
    exact .inr ⟨offer, waited, rfl, by simp [State.moveTask, State.creates, waited]⟩
  · have other : ∀ offer, next ≠ .started offer := fun offer same => started ⟨offer, same⟩
    refine .inl ⟨?_, other⟩
    unfold State.moveTask
    split
    · rfl
    · rename_i run created
      obtain ⟨offer, same, _⟩ := creates_eq_some created
      exact absurd same (other offer)

/-- The history after a step: what it was, and the task that has just read `Started`. -/
theorem step_history (stepped : (machine tokenForJob).step s l = some t)
    (member : entry ∈ t.acked) : entry ∈ s.acked ∨ ∃ task offer, s.tasks entry.1 = some task ∧
      task.phase = .awaitStarted offer ∧ offer.run.id = entry.2 ∧
      t.tasks entry.1 = some { task with phase := .started offer } := by
  cases l with
  | connect hostInfo accepted =>
    cases stepped
    rw [connect_acked] at member
    exact .inl member
  | task c action =>
    obtain ⟨task, db, next, found, moves, rfl⟩ := step_task stepped
    obtain ⟨same, _⟩ | ⟨offer, waited, rfl, same⟩ := moveTask_acked_eq (c := c) moves
    · rw [same] at member
      exact .inl member
    · rw [same] at member
      rcases List.mem_cons.mp member with rfl | old
      · refine .inr ⟨task, offer, found, waited, rfl, ?_⟩
        rw [moveTask_tasks, Function.update_self]
      · exact .inl old
  | reaper now =>
    obtain ⟨db, reaper, _, rfl⟩ := step_reaper stepped
    exact .inl member
  | post | outside | restart =>
    cases stepped
    exact .inl member

section Move
variable {s : State} {c : Nat} {task : Task} {action : Action} {db : Db} {next : Phase}

theorem Exclusive.moved_alone (exclusive : Exclusive s) (guard : OffersFree s (.task c action))
    (found : s.tasks c = some task) (moves : Moves task.client s.db task.phase action db next)
    (offered : next.offer? = some run) (other : c' ≠ c) (found' : s.tasks c' = some task') :
    task'.phase.offer? ≠ some run := by
  intro offered'
  obtain before | ⟨offer, submit, rfl, rfl⟩ := moves_offer moves offered
  · exact other (exclusive.alone c' task' c task run found' found offered' before)
  · exact (guard task offer found submit).alone c' task' other found' offered'

/-- A run that may be offered has not been acknowledged. -/
theorem Exclusive.free_unacked (exclusive : Exclusive s) (free : FreeToOffer s c run)
    (found : s.tasks c = some task) (idle : ∀ offer, task.phase ≠ .started offer) :
    run ∉ s.acked.map Prod.snd := by
  intro member
  obtain ⟨entry, acked, rfl⟩ := List.mem_map.mp member
  obtain settled | ⟨task', offer, found', started, same⟩ := exclusive.acked entry acked
  · exact settled.not_pending free.pending
  · by_cases mine : entry.1 = c
    · rw [mine] at found'
      cases Option.some.inj (found'.symm.trans found)
      exact idle offer started
    · exact free.alone entry.1 task' mine found' (by rw [started, ← same]; rfl)

theorem Exclusive.move_alone (exclusive : Exclusive s) (guard : OffersFree s (.task c action))
    (found : s.tasks c = some task) (moves : Moves task.client s.db task.phase action db next)
    (found₁ : (s.moveTask c task action db next).tasks c₁ = some task₁)
    (found₂ : (s.moveTask c task action db next).tasks c₂ = some task₂)
    (offered₁ : task₁.phase.offer? = some run) (offered₂ : task₂.phase.offer? = some run) : c₁ = c₂ := by
  obtain ⟨rfl, rfl⟩ | ⟨other₁, old₁⟩ := moveTask_cases found₁
  · obtain ⟨rfl, _⟩ | ⟨other₂, old₂⟩ := moveTask_cases found₂
    · rfl
    · exact absurd offered₂ (exclusive.moved_alone guard found moves offered₁ other₂ old₂)
  · obtain ⟨rfl, rfl⟩ | ⟨other₂, old₂⟩ := moveTask_cases found₂
    · exact absurd offered₁ (exclusive.moved_alone guard found moves offered₂ other₁ old₁)
    · exact exclusive.alone c₁ task₁ c₂ task₂ run old₁ old₂ offered₁ offered₂

theorem Exclusive.move_unacked (exclusive : Exclusive s) (guard : OffersFree s (.task c action))
    (found : s.tasks c = some task) (moves : Moves task.client s.db task.phase action db next)
    (found' : (s.moveTask c task action db next).tasks c' = some task')
    (waiting : task'.phase = .awaitStarted offer) :
    offer.run.id ∉ (s.moveTask c task action db next).acked.map Prod.snd := by
  have history := moveTask_acked_eq (c := c) moves
  obtain ⟨rfl, rfl⟩ | ⟨other, old⟩ := moveTask_cases found'
  · -- the offer has just gone out, so the guard speaks of this very run
    cases waiting
    obtain ⟨submit, rfl⟩ := moves_awaitStarted moves
    obtain ⟨same, _⟩ | ⟨_, _, started, _⟩ := history
    · rw [same]
      exact exclusive.free_unacked (guard task offer found submit) found (by simp [submit])
    · contradiction
  · obtain ⟨same, _⟩ | ⟨offer', waited, _, same⟩ := history
    · rw [same]
      exact exclusive.unacked c' task' offer old waiting
    · rw [same, List.map_cons, List.mem_cons, not_or]
      refine ⟨?_, exclusive.unacked c' task' offer old waiting⟩
      intro clash
      exact other (exclusive.alone c' task' c task _ old found (by rw [waiting]; rfl)
        (by rw [waited, Phase.offer?, clash]))

/-- A run whose row is not marked yet is with the task that will mark it. -/
theorem Exclusive.move_acked (exclusive : Exclusive s) (found : s.tasks c = some task)
    (moves : Moves task.client s.db task.phase action db next)
    (marks : ∀ offer, task.phase = .started offer → db = activate s.db task.client offer)
    (old : entry ∈ s.acked) :
    Settled db entry.2 ∨ ∃ task' offer, (s.moveTask c task action db next).tasks entry.1 = some task' ∧
      task'.phase = .started offer ∧ offer.run.id = entry.2 := by
  obtain settled | ⟨task', offer, found', started, same⟩ := exclusive.acked entry old
  · exact .inl (settled.step (moves_runsWrite found moves))
  · by_cases here : entry.1 = c
    · rw [here] at found'
      cases Option.some.inj (found'.symm.trans found)
      cases marks offer started
      have known := exclusive.known.acked entry old
      rw [← same] at known ⊢
      exact .inl (activate_settled known _)
    · refine .inr ⟨task', offer, ?_, started, same⟩
      rw [moveTask_tasks, Function.update_of_ne here, found']

theorem Exclusive.moveTask (exclusive : Exclusive s) (guard : OffersFree s (.task c action))
    (found : s.tasks c = some task) (moves : Moves task.client s.db task.phase action db next)
    (marks : ∀ offer, task.phase = .started offer → db = activate s.db task.client offer) :
    Exclusive (s.moveTask c task action db next) := by
  have history := moveTask_acked_eq (c := c) moves
  refine ⟨exclusive.known.moveTask found moves, ?_, ?_, ?_, ?_⟩
  · intro c₁ task₁ c₂ task₂ run found₁ found₂
    exact exclusive.move_alone guard found moves found₁ found₂
  · intro c' task' offer found' waiting
    exact exclusive.move_unacked guard found moves found' waiting
  · intro entry member
    rw [moveTask_db]
    obtain ⟨same, _⟩ | ⟨offer, _, started, same⟩ := history
    · rw [same] at member
      exact exclusive.move_acked found moves marks member
    · rw [same] at member
      rcases List.mem_cons.mp member with rfl | old
      · refine .inr ⟨{ task with phase := next }, offer, ?_, started, rfl⟩
        rw [moveTask_tasks, Function.update_self]
      · exact exclusive.move_acked found moves marks old
  · obtain ⟨same, _⟩ | ⟨offer, waited, _, same⟩ := history
    · rw [same]
      exact exclusive.distinct
    · rw [same, List.map_cons, List.nodup_cons]
      exact ⟨exclusive.unacked c task offer found waited, exclusive.distinct⟩

end Move

/-- A step that leaves tasks and history alone keeps the exclusion. -/
theorem Exclusive.frame {s t : State} (exclusive : Exclusive s) (known : Known t)
    (write : RunsWrite s l t.db.runs) (tasks : t.tasks = s.tasks) (acked : t.acked = s.acked) :
    Exclusive t := by
  refine ⟨known, ?_, ?_, ?_, ?_⟩
  · rw [tasks]
    exact exclusive.alone
  · rw [tasks, acked]
    exact exclusive.unacked
  · rw [tasks, acked]
    exact fun entry member => (exclusive.acked entry member).imp_left fun old => old.step write
  · rw [acked]
    exact exclusive.distinct

theorem connect_tasks_of_lt {s : State} (earlier : c < s.clients) :
    (s.connect tokenForJob hostInfo accepted).tasks c = s.tasks c := by
  have outcome := connect_connected tokenForJob s hostInfo accepted
  generalize s.connect tokenForJob hostInfo accepted = t at outcome
  cases outcome with
  | refused | unknown => rfl
  | queued => exact Function.update_of_ne (Nat.ne_of_lt earlier) ..

/-- A new task has no run yet. -/
theorem Exclusive.connect {s : State} (exclusive : Exclusive s)
    (write : RunsWrite s l (s.connect tokenForJob hostInfo accepted).db.runs)
    (known : Known (s.connect tokenForJob hostInfo accepted)) :
    Exclusive (s.connect tokenForJob hostInfo accepted) := by
  have offering : ∀ c task run, (s.connect tokenForJob hostInfo accepted).tasks c = some task →
      task.phase.offer? = some run → s.tasks c = some task := by
    intro c task run found offered
    obtain ⟨_, fresh, _⟩ | old := connect_cases found
    · simp [fresh, Phase.offer?] at offered
    · exact old
  refine ⟨known, ?_, ?_, ?_, ?_⟩
  · intro c task c' task' run found found' offered offered'
    exact exclusive.alone c task c' task' run (offering c task run found offered)
      (offering c' task' run found' offered') offered offered'
  · intro c task offer found waiting
    rw [connect_acked]
    have old := offering c task offer.run.id found (by rw [waiting]; rfl)
    exact exclusive.unacked c task offer old waiting
  · intro entry member
    rw [connect_acked] at member
    obtain settled | ⟨task, offer, found, started, same⟩ := exclusive.acked entry member
    · exact .inl (settled.step write)
    · refine .inr ⟨task, offer, ?_, started, same⟩
      rw [connect_tasks_of_lt (exclusive.known.clients entry.1 task found), found]
  · rw [connect_acked]
    exact exclusive.distinct

theorem Exclusive.restart {s : State} (exclusive : Exclusive s) (guard : OffersFree s .restart)
    (known : Known { State.start s.db s.clients with acked := s.acked }) :
    Exclusive { State.start s.db s.clients with acked := s.acked } := by
  refine ⟨known, by simp, by simp, ?_, exclusive.distinct⟩
  intro entry member
  obtain settled | ⟨task, offer, found, started, _⟩ := exclusive.acked entry member
  · exact .inl settled
  · exact absurd started (guard entry.1 task offer found)

theorem step_exclusive (exclusive : Exclusive s) (guard : OffersFree s l)
    (stepped : (machine tokenForJob).step s l = some t) : Exclusive t := by
  have write := step_runsWrite stepped
  have known := step_known exclusive.known stepped
  cases l with
  | connect hostInfo accepted =>
    cases stepped
    exact exclusive.connect write known
  | task c action =>
    obtain ⟨task, db, next, found, moved, rfl⟩ := step_attempt stepped
    refine exclusive.moveTask guard found (attempt_moves moved) ?_
    intro offer started
    obtain ⟨⟨now, rfl⟩, ⟨_, marks, _⟩ | ⟨poisoned, _⟩⟩ := attempt_started moved started
    · exact marks
    · rw [guard task offer found started] at poisoned
      contradiction
  | reaper now =>
    obtain ⟨db, reaper, _, rfl⟩ := step_reaper stepped
    exact exclusive.frame known write rfl rfl
  | post | outside =>
    cases stepped
    exact exclusive.frame known write rfl rfl
  | restart =>
    cases stepped
    exact exclusive.restart guard known

theorem start_exclusive (db : Db) (clients : Nat) : Exclusive (.start db clients) :=
  ⟨start_known _ _, by simp, by simp, by simp, List.nodup_nil⟩

/-- On any database, with any number of clients, offers that go out only for free
runs give each run to one client at most. -/
theorem exclusive_assignment (tokenForJob : Nat → String) (db : Db) (clients : Nat)
    (labels : List Label) (s : State)
    (free : (machine tokenForJob).Guarded OffersFree (.start db clients) labels)
    (path : (machine tokenForJob).run (.start db clients) labels = some s) :
    (s.acked.map Prod.snd).Nodup :=
  (Machine.guarded_invariant (fun _ _ _ => step_exclusive) (start_exclusive db clients) free
    path).distinct

/-- A single client that takes the one queued run. -/
def oneClient : List Label := pushed ++ [connects] ++ prepares 0 0

theorem oneClient_guarded (db : Db) :
    (machine someToken).Guarded OffersFree (.start db 0) oneClient := by
  have sound : ∀ l ∈ oneClient, l.poisons = false := by decide
  refine Machine.guarded_of_invariant (P := fun s => s.poisoned = false) ?_ ?_ rfl
  · exact fun s l t member healthy => step_healthy healthy (sound l member)
  · intro s l member healthy
    simp only [oneClient, pushed, connects, prepares, List.cons_append, List.nil_append,
      List.mem_cons, List.not_mem_nil, or_false] at member
    rcases member with rfl | rfl | rfl | rfl | rfl | rfl | rfl | rfl | rfl | rfl | rfl <;>
      first | trivial | exact fun _ _ _ _ => healthy

theorem one_client_assignment : ∃ s, (machine someToken).run (.start .empty 0)
    (oneClient ++ [offers 0, acks 0]) = some s ∧ s.acked = [(0, 1)] ∧
      (s.acked.map Prod.snd).Nodup := by
  have free : (machine someToken).Guarded OffersFree (.start .empty 0)
      (oneClient ++ [offers 0, acks 0]) := by
    refine Machine.guarded_append.mpr ⟨oneClient_guarded _, ?_⟩
    intro s path
    have known := (Machine.invariant (fun _ _ _ => step_known) (start_known .empty 0) path).clients
    cases path
    refine ⟨?_, fun _ _ => ⟨trivial, fun _ _ => trivial⟩⟩
    intro task offer found submit
    cases found
    cases submit
    refine ⟨⟨_, rfl, rfl⟩, ?_⟩
    intro c task other found
    exact absurd (Nat.lt_one_iff.mp (known c task found)) other
  exact ⟨_, rfl, rfl, exclusive_assignment someToken .empty 0 _ _ free rfl⟩

/-- Both tasks read the queue before either has marked the row. -/
theorem double_assignment : ¬ ∀ (tokenForJob : Nat → String) (db : Db) (clients : Nat)
    (labels : List Label) (s : State),
    (machine tokenForJob).run (.start db clients) labels = some s →
      (s.acked.map Prod.snd).Nodup := by
  intro claim
  have twice := claim someToken .empty 0
    (pushed ++ [connects, connects] ++ prepares 0 0 ++ prepares 1 0 ++
      [offers 0, offers 1, acks 0, acks 1]) _ rfl
  exact absurd twice (by decide)

end BuildOTron.Driver
