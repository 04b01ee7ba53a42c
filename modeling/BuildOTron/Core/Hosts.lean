import BuildOTron.Core.DbCtx
import BuildOTron.Lib.Effect
import BuildOTron.Lib.Intern

/-! `id_for_host` on one connection, call after call. The insert is left out when a row
has the same eleven columns, and the select that follows asks for all twelve: a host
that reports another maximum frequency is neither added nor found. -/
namespace BuildOTron.Hosts

/-- The connection behind its mutex. -/
structure Connection where
  db : Db
  poisoned : Bool

/-- SQLite's integers are signed: a larger value is refused as a parameter. -/
def bindable (n : UInt64) : Bool := n < 0x8000000000000000

/-- A refused parameter fails the insert, whose `expect` panics with the lock held. -/
def idForHost (hostInfo : HostInfo) : Effect Connection String Nat := fun s =>
  if s.poisoned then (.panic, s)
  else if bindable hostInfo.cpuInfo.maxFreq then
    match s.db.idForHost hostInfo with
    | (db, some id) => (.ok id, { s with db := db })
    | (db, none) => (.err "Query returned no rows", { s with db := db })
  else (.panic, { s with poisoned := true })

/-- Calls that all return, each with the id of a row that holds its twelve values, and
that leave the rows before it as they were. -/
inductive Identified : Connection → List HostInfo → List Nat → Connection → Prop where
  | none (s : Connection) : Identified s [] [] s
  | next (answered : idForHost info s = (.ok hostId, t))
      (row : t.db.hosts.get? hostId = some (Db.hostRow info))
      (unchanged : s.db.hosts.Grown t.db.hosts) (rest : Identified t infos hostIds u) :
      Identified s (info :: infos) (hostId :: hostIds) u

/-- Two of these calls got one id exactly when their hosts agree in all twelve values. -/
def SameIdSameHost (infos : List HostInfo) (hostIds : List Nat) : Prop :=
  ∀ a x b y, (a, x) ∈ infos.zip hostIds → (b, y) ∈ infos.zip hostIds →
    (x = y ↔ Db.hostRow a = Db.hostRow b)

def HostIdentity (s : Connection) (infos : List HostInfo) : Prop :=
  ∃ hostIds t, Identified s infos hostIds t ∧ SameIdSameHost infos hostIds

/-- The columns of the UNIQUE list. -/
def hostKey (row : HostRow) : HostRow := { row with cpuMaxFreqKhz := 0 }

/-- No two of these hosts differ in their maximum frequency alone. -/
structure OneFrequencyEach (infos : List HostInfo) : Prop where
  stored : ∀ info ∈ infos, bindable info.cpuInfo.maxFreq = true
  agree : ∀ a ∈ infos, ∀ b ∈ infos, hostKey (Db.hostRow a) = hostKey (Db.hostRow b) →
    a.cpuInfo.maxFreq = b.cpuInfo.maxFreq

variable {s t : Connection} {infos seen : List HostInfo} {hostIds : List Nat}

theorem hostKeyMatches_eq (a b : HostRow) : Db.hostKeyMatches a b = decide (hostKey b = hostKey a) := by
  refine decide_eq_decide.mpr ⟨fun same => (congrArg hostKey same).symm, fun same => ?_⟩
  exact (congrArg (fun row : HostRow => { row with cpuMaxFreqKhz := a.cpuMaxFreqKhz }) same).symm

theorem idForHost_eq (db : Db) (info : HostInfo) : db.idForHost info =
    ({ db with hosts := (db.hosts.intern hostKey (Db.hostRow info)).1 },
      (db.hosts.intern hostKey (Db.hostRow info)).2) := by
  have matching : Db.hostKeyMatches (Db.hostRow info) =
      fun row => decide (hostKey row = hostKey (Db.hostRow info)) :=
    funext fun row => hostKeyMatches_eq _ row
  simp only [Db.idForHost, Table.intern, matching]

theorem idForHost_refused {info : HostInfo}
    (refused : s.poisoned = true ∨ bindable info.cpuInfo.maxFreq = false) :
    idForHost info s = (.panic, { s with poisoned := true }) := by
  obtain ⟨db, _ | _⟩ := s
  · simp [idForHost, refused.resolve_left Bool.false_ne_true]
  · rfl

theorem idForHost_answers (healthy : s.poisoned = false) {info : HostInfo}
    (stored : bindable info.cpuInfo.maxFreq = true) : idForHost info s =
      (match (s.db.idForHost info).2 with
        | some hostId => .ok hostId
        | none => .err "Query returned no rows", { s with db := (s.db.idForHost info).1 }) := by
  simp only [idForHost, healthy, stored, Bool.false_eq_true, if_false, if_true]
  obtain ⟨db, _ | hostId⟩ := s.db.idForHost info <;> rfl

/-- The id that is answered is that of a row. -/
theorem idForHost_known {db : Db} {info : HostInfo} (answered : (db.idForHost info).2 = some hostId) :
    ((db.idForHost info).1.hosts.get? hostId).isSome := by
  rw [idForHost_eq] at answered ⊢
  rw [Table.intern_found (Prod.ext rfl answered)]
  rfl

theorem idForHost_ok (healthy : s.poisoned = false) : idForHost info s = (.ok hostId, t) ↔
    bindable info.cpuInfo.maxFreq = true ∧ ∃ hosts,
      s.db.hosts.intern hostKey (Db.hostRow info) = (hosts, some hostId) ∧
      t = { s with db := { s.db with hosts := hosts } } := by
  simp only [idForHost, healthy, Bool.false_eq_true, if_false, idForHost_eq]
  obtain ⟨hosts, answer⟩ := s.db.hosts.intern hostKey (Db.hostRow info)
  cases bindable info.cpuInfo.maxFreq <;> cases answer <;> simp [eq_comm]

/-- One call, from a table of hosts that are all told apart by their keys. -/
theorem idForHost_identifies (healthy : s.poisoned = false)
    (interned : Table.Interned hostKey s.db.hosts (seen.map Db.hostRow)) {info : HostInfo}
    (stored : bindable info.cpuInfo.maxFreq = true)
    (agrees : ∀ other ∈ seen.map Db.hostRow, hostKey other = hostKey (Db.hostRow info) →
      other = Db.hostRow info) :
    ∃ hostId t, idForHost info s = (.ok hostId, t) ∧ t.poisoned = false ∧
      t.db.hosts.get? hostId = some (Db.hostRow info) ∧ s.db.hosts.Grown t.db.hosts ∧
      Table.Interned hostKey t.db.hosts ((seen ++ [info]).map Db.hostRow) := by
  obtain ⟨hosts, hostId, answered, row, grown, next⟩ := interned.intern agrees
  refine ⟨hostId, _, (idForHost_ok healthy).mpr ⟨stored, hosts, answered, rfl⟩, healthy, row, grown, ?_⟩
  rwa [List.map_append]

/-- A call that returns has a storable frequency, and no host before it differs from its
own in the frequency alone. -/
theorem idForHost_agrees (healthy : s.poisoned = false)
    (interned : Table.Interned hostKey s.db.hosts (seen.map Db.hostRow)) {info : HostInfo}
    (answered : idForHost info s = (.ok hostId, t)) : bindable info.cpuInfo.maxFreq = true ∧
      ∀ other ∈ seen.map Db.hostRow, hostKey other = hostKey (Db.hostRow info) →
        other = Db.hostRow info := by
  obtain ⟨stored, hosts, found, _⟩ := (idForHost_ok healthy).mp answered
  refine ⟨stored, interned.found_iff.mp ?_⟩
  rw [found]
  rfl

/-- After a call that returns the host is one of those that the table tells apart. -/
theorem idForHost_interns (healthy : s.poisoned = false)
    (interned : Table.Interned hostKey s.db.hosts (seen.map Db.hostRow)) {info : HostInfo}
    (answered : idForHost info s = (.ok hostId, t)) : t.poisoned = false ∧
      Table.Interned hostKey t.db.hosts ((seen ++ [info]).map Db.hostRow) := by
  have agrees := idForHost_agrees healthy interned answered
  obtain ⟨hostId', t', answered', healthy', _, _, next⟩ :=
    idForHost_identifies healthy interned agrees.1 agrees.2
  rw [answered] at answered'
  cases answered'
  exact ⟨healthy', next⟩

/-- The condition on what is yet to come, given the hosts seen so far. -/
def Agreeing (seen infos : List HostInfo) : Prop :=
  (∀ info ∈ infos, bindable info.cpuInfo.maxFreq = true) ∧
    Table.Consistent hostKey (seen.map Db.hostRow) (infos.map Db.hostRow)

theorem agreeing_cons {info : HostInfo} : Agreeing seen (info :: infos) ↔
    (bindable info.cpuInfo.maxFreq = true ∧ ∀ other ∈ seen.map Db.hostRow,
      hostKey other = hostKey (Db.hostRow info) → other = Db.hostRow info) ∧
    Agreeing (seen ++ [info]) infos := by
  simp only [Agreeing, List.forall_mem_cons, List.map_cons, Table.consistent_cons, List.map_append,
    List.map_nil]
  constructor
  · rintro ⟨⟨stored, later⟩, agrees, rest⟩
    exact ⟨⟨stored, agrees⟩, later, rest⟩
  · rintro ⟨⟨stored, agrees⟩, later, rest⟩
    exact ⟨⟨stored, later⟩, agrees, rest⟩

theorem identified_iff (healthy : s.poisoned = false)
    (interned : Table.Interned hostKey s.db.hosts (seen.map Db.hostRow)) :
    (∃ hostIds t, Identified s infos hostIds t) ↔ Agreeing seen infos := by
  induction infos generalizing s seen with
  | nil => exact iff_of_true ⟨[], s, .none s⟩ ⟨by simp, by simp [Table.Consistent]⟩
  | cons info infos ih =>
    rw [agreeing_cons]
    constructor
    · rintro ⟨hostIds, u, identified⟩
      cases identified with
      | next answered _ _ rest =>
        obtain ⟨healthy', next⟩ := idForHost_interns healthy interned answered
        exact ⟨idForHost_agrees healthy interned answered, (ih healthy' next).mp ⟨_, _, rest⟩⟩
    · rintro ⟨⟨stored, agrees⟩, later⟩
      obtain ⟨hostId, t, answered, healthy', row, grown, next⟩ :=
        idForHost_identifies healthy interned stored agrees
      obtain ⟨hostIds, u, rest⟩ := (ih healthy' next).mpr later
      exact ⟨_, _, .next answered row grown rest⟩

/-- What was answered still stands at the end of the calls. -/
theorem Identified.rows (identified : Identified s infos hostIds t) :
    s.db.hosts.Grown t.db.hosts ∧
      ∀ info hostId, (info, hostId) ∈ infos.zip hostIds →
        t.db.hosts.get? hostId = some (Db.hostRow info) := by
  induction identified with
  | none s => exact ⟨.refl _, by simp⟩
  | next _ row unchanged _ ih =>
    refine ⟨unchanged.trans ih.1, ?_⟩
    intro info hostId member
    rw [List.zip_cons_cons] at member
    rcases List.mem_cons.mp member with first | later
    · cases first
      exact ih.1.get? row
    · exact ih.2 info hostId later

theorem Identified.interned (identified : Identified s infos hostIds t) (healthy : s.poisoned = false)
    (interned : Table.Interned hostKey s.db.hosts (seen.map Db.hostRow)) :
    Table.Interned hostKey t.db.hosts ((seen ++ infos).map Db.hostRow) := by
  induction identified generalizing seen with
  | none s => rwa [List.append_nil]
  | @next info hostId s t infos _ u answered _ _ _ ih =>
    obtain ⟨healthy', next⟩ := idForHost_interns healthy interned answered
    have last := ih healthy' next
    rwa [List.append_assoc] at last

theorem hostRow_eq_iff {a b : HostInfo} : Db.hostRow a = Db.hostRow b ↔
    hostKey (Db.hostRow a) = hostKey (Db.hostRow b) ∧ a.cpuInfo.maxFreq = b.cpuInfo.maxFreq := by
  constructor
  · intro same
    have freq : a.cpuInfo.maxFreq.toNat = b.cpuInfo.maxFreq.toNat :=
      congrArg HostRow.cpuMaxFreqKhz same
    exact ⟨congrArg hostKey same, UInt64.toNat_inj.mp freq⟩
  · rintro ⟨keys, freq⟩
    have rows : Db.hostRow a = { Db.hostRow b with cpuMaxFreqKhz := a.cpuInfo.maxFreq.toNat } :=
      congrArg (fun row : HostRow => { row with cpuMaxFreqKhz := a.cpuInfo.maxFreq.toNat }) keys
    rw [rows, freq]
    rfl

theorem agreeing_iff : Agreeing [] infos ↔ OneFrequencyEach infos := by
  simp only [Agreeing, Table.Consistent, List.map_nil, List.nil_append, List.forall_mem_map]
  constructor
  · rintro ⟨stored, agree⟩
    exact ⟨stored, fun a memberA b memberB keys =>
      (hostRow_eq_iff.mp (agree b memberB a memberA keys)).2⟩
  · rintro ⟨stored, agree⟩
    exact ⟨stored, fun a memberA b memberB keys =>
      hostRow_eq_iff.mpr ⟨keys, agree b memberB a memberA keys⟩⟩

/-- From an empty table of hosts: every call returns the id of a row that holds what the
host reports, two calls the same id exactly when they report the same, and no row ever
changes, exactly when no two reports differ in the maximum frequency alone and none is
too large to be stored. -/
theorem host_identity_iff (db : Db) (none : db.hosts.rows = []) (infos : List HostInfo) :
    HostIdentity ⟨db, false⟩ infos ↔ OneFrequencyEach infos := by
  have interned : Table.Interned hostKey db.hosts (([] : List HostInfo).map Db.hostRow) :=
    Table.interned_empty none
  rw [← agreeing_iff, ← identified_iff (s := ⟨db, false⟩) rfl interned]
  constructor
  · rintro ⟨hostIds, t, identified, _⟩
    exact ⟨hostIds, t, identified⟩
  · rintro ⟨hostIds, t, identified⟩
    refine ⟨hostIds, t, identified, ?_⟩
    obtain ⟨_, found⟩ := identified.rows
    have keyed := (identified.interned rfl interned).keyed
    intro a x b y memberA memberB
    have rowA := found a x memberA
    have rowB := found b y memberB
    constructor
    · rintro rfl
      exact Option.some.inj (rowA.symm.trans rowB)
    · intro same
      exact keyed x y _ _ rowA rowB (congrArg hostKey same)

def someHost (maxFreq : UInt64) : HostInfo :=
  ⟨"host", ⟨"model", "0x1", 8, "vendor", "6", "158", maxFreq⟩, ⟨"16 GB", "8 GB"⟩,
    ⟨"x86_64", "unix", "linux"⟩⟩

def otherHost : HostInfo := { someHost 4100000 with hostname := "other" }

/-- One host twice, and another one with another clock. -/
theorem steady_host_identified :
    HostIdentity ⟨.empty, false⟩ [someHost 4200000, otherHost, someHost 4200000] := by
  have steady : OneFrequencyEach [someHost 4200000, otherHost, someHost 4200000] :=
    ⟨by decide, by decide⟩
  exact (host_identity_iff .empty rfl _).mpr steady

/-- A host that comes back with another reading of its frequency gets no id. -/
theorem changed_frequency_unidentified : ¬ ∀ (db : Db) (infos : List HostInfo), db.hosts.rows = [] →
    HostIdentity ⟨db, false⟩ infos := by
  intro claim
  obtain ⟨hostIds, t, identified, _⟩ := claim .empty [someHost 4200000, someHost 4100000] rfl
  have interned : Table.Interned hostKey Db.empty.hosts (([] : List HostInfo).map Db.hostRow) :=
    Table.interned_empty rfl
  have steady := agreeing_iff.mp
    ((identified_iff (s := ⟨.empty, false⟩) rfl interned).mp ⟨hostIds, t, identified⟩)
  have same := steady.agree _ List.mem_cons_self _ (List.mem_cons_of_mem _ List.mem_cons_self) rfl
  contradiction

end BuildOTron.Hosts
