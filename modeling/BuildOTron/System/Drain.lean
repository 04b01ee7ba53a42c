import BuildOTron.Driver.Serving
import BuildOTron.System.References

/-! Nothing that is queued is stuck. From every state of the programs in which no rerun
has named a job that is not there, new clients alone can take the queue to its end, and
after a restart every run that was under way has ended as well. -/
namespace BuildOTron.System
open Transition

/-- A step of the driver, of this kind. -/
def OfDriver (kind : Driver.Label → Prop) : Label → Prop
  | .driver label => kind label
  | _ => False

/-- Whatever the driver does without others' writes, it does among the programs. -/
theorem driver_reaches {kind : Driver.Label → Prop} (own : ∀ l, kind l → ∀ write, l ≠ .outside write)
    (reaches : (Driver.machine tokenForJob).Reaches kind s.driver driver) :
    (machine tokenForJob).Reaches (OfDriver kind) s { s with driver := driver } := by
  obtain ⟨labels, kinds, path⟩ := reaches
  induction labels generalizing s with
  | nil =>
    cases path
    exact .refl s
  | cons l labels ih =>
    obtain ⟨next, stepped, rest⟩ := Machine.run_cons.mp path
    have here : (machine tokenForJob).step s (.driver l) = some { s with driver := next } := by
      cases l with
      | outside write => exact absurd rfl (own _ (kinds _ List.mem_cons_self) write)
      | _ => simp only [machine, stepped, Option.map_some]
    have later := ih (s := { s with driver := next })
      (fun l member => kinds l (List.mem_cons_of_mem _ member)) rest
    refine Machine.Reaches.trans ⟨[.driver l], ?_, Machine.run_cons.mpr ⟨_, here, rfl⟩⟩ later
    rintro _ member
    rw [List.mem_singleton.mp member]
    exact kinds l List.mem_cons_self

/-- What is there for a client to find. -/
structure Ready (s : State) : Prop where
  intact : Intact s
  linked : Linked s

theorem step_ready (ready : Ready s) (named : NamesJob s l)
    (stepped : (machine tokenForJob).step s l = some t) : Ready t :=
  ⟨step_intact tokenForJob s l t ready.intact named stepped, step_linked ready.linked stepped⟩

theorem reaches_ready (ready : Ready s) (reaches : (machine tokenForJob).Reaches (OfDriver kind) s t) :
    Ready t := by
  refine reaches.keeps (fun s l t ready driver stepped => step_ready ready ?_ stepped) ready
  cases l with
  | driver => trivial
  | ctl | push | web | restartWeb => contradiction

/-- Some runner gets an id, the one that a given run prefers if it prefers one. -/
theorem newcomer_finds (ready : Ready s) (found : s.db.runs.get? run = some row)
    (pending : row.state = .pending) : ∃ info hostId,
      Hosts.bindable info.cpuInfo.maxFreq = true ∧ (s.db.idForHost info).2 = some hostId ∧
      (s.db.idForHost info).1.getPendingRuns (some hostId) ≠ [] := by
  have runs : ∀ info, (s.db.idForHost info).1.runs = s.db.runs := fun _ => rfl
  have listed : ∀ info hostId, row.hostPreference = some hostId ∨ row.hostPreference = none →
      (s.db.idForHost info).1.getPendingRuns (some hostId) ≠ [] := by
    intro info hostId preferred
    refine List.ne_nil_of_mem (a := ⟨run, row.jobId, row.createdTime⟩) ?_
    refine Db.mem_getPendingRuns.mpr ⟨row, ?_, pending, preferred, rfl, rfl⟩
    rw [runs]
    exact found
  cases prefers : row.hostPreference with
  | some hostId =>
    obtain ⟨info, stored, known, _⟩ := ready.linked.resolves.served run row hostId found prefers
    exact ⟨info, hostId, stored, by rw [known], listed info hostId (.inl prefers)⟩
  | none =>
    by_cases hosts : ∃ hostId host, s.db.hosts.get? hostId = some host
    · obtain ⟨hostId, host, held⟩ := hosts
      obtain ⟨info, _, stored, known⟩ := ready.linked.referenced.again held
      exact ⟨info, hostId, stored, by rw [known], listed info hostId (.inr prefers)⟩
    · have apart : ∀ j b, s.db.hosts.get? j = some b →
          Hosts.hostKey b ≠ Hosts.hostKey (Db.hostRow Driver.someHost) :=
        fun j b held => absurd ⟨j, b, held⟩ hosts
      have added : (s.db.hosts.intern Hosts.hostKey (Db.hostRow Driver.someHost)).2 = _ :=
        congrArg Prod.snd (Table.intern_new apart)
      refine ⟨Driver.someHost, s.db.hosts.seq + 1, rfl, ?_, listed _ _ (.inr prefers)⟩
      rw [Hosts.idForHost_eq]
      exact added

instance : Std.Refl fun s t : State => Driver.Served s.db t.db := ⟨fun s => .refl s.db⟩

instance : IsTrans State fun s t => Driver.Served s.db t.db := ⟨fun _ _ _ => .trans⟩

theorem clients_own (l : Driver.Label) (kind : Driver.ByClients earliest l) :
    ∀ write, l ≠ .outside write := by
  rintro write rfl
  exact kind

/-- New clients alone take every queued run to a pass and leave all other runs as they are. -/
theorem queue_drains (tokenForJob : Nat → String) (ready : Ready s)
    (healthy : s.driver.poisoned = false) (earliest : Nat) :
    ∃ t, (machine tokenForJob).Reaches (OfDriver (Driver.ByClients earliest)) s t ∧
      (Ready t ∧ t.driver.poisoned = false) ∧ Driver.Served s.db t.db ∧ Driver.pendingCount t.db = 0 := by
  refine Machine.reaches_of_descent (P := fun s => Ready s ∧ s.driver.poisoned = false)
    (R := fun s t => Driver.Served s.db t.db) (fun s => Driver.pendingCount s.db) ?_ ⟨ready, healthy⟩
  rintro s ⟨ready, healthy⟩ some
  obtain ⟨⟨run, row⟩, selected⟩ :=
    List.exists_mem_of_ne_nil _ (List.ne_nil_of_length_pos (Nat.pos_of_ne_zero some))
  obtain ⟨found, pending⟩ := Table.mem_select.mp selected
  obtain ⟨info, hostId, stored, host, waiting⟩ := newcomer_finds ready found (of_decide_eq_true pending)
  obtain ⟨driver, reaches, still, serves, fewer⟩ :=
    Driver.newcomer_serves tokenForJob healthy ready.intact.integral stored host waiting earliest
  have among := driver_reaches clients_own reaches
  exact ⟨_, among, ⟨reaches_ready ready among, still⟩, serves, fewer⟩

/-- On a poisoned lock they do nothing. -/
theorem poisoned_drains_none (poisoned : s.driver.poisoned = true)
    (reaches : (machine tokenForJob).Reaches (OfDriver (Driver.ByClients earliest)) s t) :
    t.db = s.db := by
  refine (reaches.keeps (P := fun t => t.driver.poisoned = true ∧ t.db = s.db) ?_ ⟨poisoned, rfl⟩).2
  rintro u l v ⟨poisoned, same⟩ kind stepped
  cases l with
  | driver label =>
    obtain ⟨driver, moved, _, rfl⟩ := step_driver stepped
    obtain ⟨still, kept⟩ := Driver.poisoned_stuck poisoned kind moved
    exact ⟨still, kept.trans same⟩
  | ctl | push | web | restartWeb => contradiction

/-- What can become of the runs, with clocks that go on from `earliest`. -/
structure CanEnd (tokenForJob : Nat → String) (earliest : Nat) (s : State) : Prop where
  /-- by new clients alone -/
  queued : s.driver.poisoned = false →
    ∃ t, (machine tokenForJob).Reaches (OfDriver (Driver.ByClients earliest)) s t ∧
      Driver.Served s.db t.db ∧ ∀ run row, t.db.runs.get? run = some row → row.state ≠ .pending
  /-- by new clients alone, once a panic has poisoned the driver's lock -/
  poisoned : s.driver.poisoned = true →
    ∀ t, (machine tokenForJob).Reaches (OfDriver (Driver.ByClients earliest)) s t → t.db = s.db
  /-- by a restart and new clients -/
  all : ∃ t, (machine tokenForJob).Reaches
      (OfDriver fun l => Driver.ByReaper earliest l ∨ Driver.ByClients earliest l) s t ∧
    (∀ run row, t.db.runs.get? run = some row → row.state.isComplete = true) ∧
    ∀ run row, s.db.runs.get? run = some row → ∃ row', t.db.runs.get? run = some row' ∧
      (row.state = .pending → row'.state = .finished) ∧ (row.state = .started → row'.state = .invalid) ∧
      (row.state.isComplete = true → row' = row)

theorem reaper_own (l : Driver.Label) (kind : Driver.ByReaper earliest l) :
    ∀ write, l ≠ .outside write := by
  rintro write rfl
  exact kind

/-- Once the runs under way are cleared and the queue is drained, no run is left. -/
theorem cleared_and_served (clears : Driver.Clears a b) (serves : Driver.Served b c)
    (found : a.runs.get? run = some row) : ∃ row', c.runs.get? run = some row' ∧
      row'.state ≠ .started ∧ (row.state = .pending → row'.state = .pending ∨ row'.state = .finished) ∧
      (row.state = .started → row'.state = .invalid) ∧ (row.state.isComplete = true → row' = row) := by
  by_cases started : row.state = .started
  · have cleared := clears.started run row found started
    obtain ⟨row', found', kept | ⟨pending, _⟩⟩ := serves.runs run _ cleared
    · have invalid : row'.state = .invalid := by rw [kept]; rfl
      refine ⟨row', found', ?_, ?_, fun _ => invalid, ?_⟩ <;> simp [started, invalid, RunState.isComplete]
    · contradiction
  · have kept := clears.kept run row found started
    obtain ⟨row', found', same | ⟨pending, finished, _⟩⟩ := serves.runs run row kept
    · subst same
      exact ⟨row', found', started, .inl, fun began => absurd began started, fun _ => rfl⟩
    · refine ⟨row', found', ?_, fun _ => .inr finished, fun began => absurd began started, ?_⟩ <;>
        simp [pending, finished, RunState.isComplete]

theorem complete_of {state : RunState} (started : state ≠ .started) (pending : state ≠ .pending) :
    state.isComplete = true := by
  cases state with
  | pending => exact absurd rfl pending
  | started => exact absurd rfl started
  | finished | error | invalid => rfl

theorem Ready.canEnd (tokenForJob : Nat → String) (ready : Ready s) (earliest : Nat) :
    CanEnd tokenForJob earliest s where
  queued healthy := by
    obtain ⟨t, reaches, _, serves, none⟩ := queue_drains tokenForJob ready healthy earliest
    exact ⟨t, reaches, serves, fun run row found => Driver.pendingCount_zero none found⟩
  poisoned poisoned t reaches := poisoned_drains_none poisoned reaches
  all := by
    obtain ⟨driver, restarts, healthy, clears⟩ := Driver.restart_clears tokenForJob s.driver earliest
    have first := driver_reaches reaper_own restarts
    obtain ⟨t, later, _, serves, none⟩ :=
      queue_drains tokenForJob (reaches_ready ready first) healthy earliest
    have idle : ∀ run row, t.db.runs.get? run = some row → row.state ≠ .pending :=
      fun run row found => Driver.pendingCount_zero none found
    refine ⟨t, (first.mono ?_).trans (later.mono ?_), ?_, ?_⟩
    · intro l kind
      cases l with
      | driver => exact .inl kind
      | ctl | push | web | restartWeb => contradiction
    · intro l kind
      cases l with
      | driver => exact .inr kind
      | ctl | push | web | restartWeb => contradiction
    · intro run row found
      have known : s.db.runs.get? run ≠ Option.none := by
        intro missing
        rw [serves.absent run (clears.absent run missing)] at found
        contradiction
      obtain ⟨before, found'⟩ := Option.ne_none_iff_exists'.mp known
      obtain ⟨row', same, ended, _⟩ := cleared_and_served clears serves found'
      cases found.symm.trans same
      exact complete_of ended (idle run row found)
    · intro run row found
      obtain ⟨row', found', _, pending, started, complete⟩ := cleared_and_served clears serves found
      refine ⟨row', found', ?_, started, complete⟩
      exact fun queued => (pending queued).resolve_left (idle run row' found')

/-- In every run of all programs whose reruns name jobs that are there, and from whatever
time on: new clients can take every queued run to a pass, touching no other, if the
driver's lock is sound, and can do nothing if it is poisoned; and after a restart no run is
left that has not ended. -/
theorem every_run_can_end (tokenForJob : Nat → String) (labels : List Label) (s : State)
    (named : (machine tokenForJob).Guarded NamesJob .start labels)
    (path : (machine tokenForJob).run .start labels = some s) (earliest : Nat) :
    CanEnd tokenForJob earliest s := by
  have ready : Ready s := Machine.guarded_invariant (fun _ _ _ => step_ready)
    ⟨start_intact, start_linked⟩ named path
  exact ready.canEnd tokenForJob earliest

theorem created_can_end : ∃ s, (machine Driver.someToken).run .start (created "f00d") = some s ∧
    Driver.pendingCount s.db = 1 ∧ CanEnd Driver.someToken 864000000 s := by
  refine ⟨_, rfl, rfl, every_run_can_end Driver.someToken (created "f00d") _ ?_ rfl 864000000⟩
  refine Machine.guarded_of_forall fun l member s => ?_
  simp only [created, List.mem_cons, List.not_mem_nil, or_false] at member
  rcases member with rfl | rfl <;> exact fun _ reruns => by contradiction

end BuildOTron.System
