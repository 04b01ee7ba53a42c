import BuildOTron.WebServer.Redelivery

/-! The names that pushes leave commits with. Every push records its ref as a fresh
name of its commit and no name is ever made stale, so the name shown for a commit is
that of the first push of it. -/
namespace BuildOTron.WebServer
open Transition

/-- Pushes processed to their ends, one after another. -/
inductive HandledInTurn : Db → List PushEvent → Db → Prop where
  | none (db : Db) : HandledInTurn db [] db
  | next (path : deliveryMachine.run (.start db [event]) labels = some s)
      (handled : s.handlers = [⟨event, .handled commitId⟩])
      (rest : HandledInTurn s.db events db') : HandledInTurn db (event :: events) db'

variable {db db' : Db} {events before : List PushEvent}

/-- The tip of the latest of these pushes to a ref. -/
def latestTip (events : List PushEvent) (name : String) : Option String :=
  ((events.filter fun event => shortRefName event.refName = name).getLast?).map PushEvent.tip

def IsTip (db : Db) (events : List PushEvent) (name : String) (commitId : Nat) : Prop :=
  ∃ sha, db.commits.get? commitId = some sha ∧ latestTip events name = some sha

/-- A name is shown as fresh only for the tip of its ref. -/
def ShownCurrent (events : List PushEvent) (db : Db) : Prop :=
  ∀ commitId name, db.niceNameForCommit commitId = some ⟨name, .fresh⟩ → IsTip db events name commitId

/-- A name that its commit has lost is not on record as fresh. -/
def LostStale (events : List PushEvent) (db : Db) : Prop :=
  ∀ id row, db.commitNames.get? id = some row → ¬ IsTip db events row.name row.commitId →
    row.nameState ≠ .fresh

/-- All pushes to one ref have one tip. -/
def NoRefMoves (events : List PushEvent) : Prop :=
  ∀ a ∈ events, ∀ b ∈ events, shortRefName a.refName = shortRefName b.refName → a.tip = b.tip

/-- The ref that a sha was first pushed to has not moved on. -/
def FirstRefsStay (events : List PushEvent) : Prop :=
  ∀ sha event, (events.find? fun event => event.tip = sha) = some event →
    latestTip events (shortRefName event.refName) = some sha

/-! ### Lists that match element by element -/

section Matching
variable {α β γ : Type} {R : α → β → Prop} {xs : List α} {ys : List β}

theorem matching_left (matching : List.Forall₂ R xs ys) (member : x ∈ xs) : ∃ y ∈ ys, R x y := by
  induction matching with
  | nil => contradiction
  | cons related _ ih =>
    rcases List.mem_cons.mp member with rfl | later
    · exact ⟨_, List.mem_cons_self, related⟩
    · obtain ⟨y, among, related⟩ := ih later
      exact ⟨y, List.mem_cons_of_mem _ among, related⟩

theorem matching_right (matching : List.Forall₂ R xs ys) (member : y ∈ ys) : ∃ x ∈ xs, R x y :=
  matching_left matching.flip member

/-- The first that meets the one test matches the first that meets the other. -/
theorem find?_matching {p : α → Bool} {q : β → Bool} {f : α → γ} {g : β → γ}
    (matching : List.Forall₂ R xs ys) (meets : ∀ x y, R x y → p x = q y)
    (reads : ∀ x y, R x y → f x = g y) : (ys.find? q).map g = (xs.find? p).map f := by
  induction matching with
  | nil => rfl
  | @cons x y xs ys related _ ih =>
    simp only [List.find?_cons, meets x y related]
    cases q y with
    | true => simp only [Option.map_some, reads x y related]
    | false => exact ih

end Matching

/-! ### What is on record -/

/-- The names are those of the pushes, in turn, and all of them are fresh. -/
structure NamesOnRecord (events : List PushEvent) (db : Db) : Prop where
  unique : (shas db).Nodup
  names : List.Forall₂ (fun event row => row.2.nameState = .fresh ∧
    row.2.name = shortRefName event.refName ∧ db.commits.get? row.2.commitId = some event.tip)
    events db.commitNames.rows

theorem commit_unique (unique : (shas db).Nodup) (first : db.commits.get? a = some sha)
    (second : db.commits.get? b = some sha) : a = b := by
  have same := List.inj_on_of_nodup_map unique (Table.get?_eq_some.mp first)
    (Table.get?_eq_some.mp second) rfl
  exact congrArg Prod.fst same

/-- What a push that is processed to its end does to commits and names. -/
theorem handled_names {event : PushEvent} {labels : List DeliveryLabel} {s : PushState}
    (path : deliveryMachine.run (.start db [event]) labels = some s)
    (handled : s.handlers = [⟨event, .handled commitId⟩]) :
    s.db.commitNames = db.commitNames.insert ⟨commitId, shortRefName event.refName, .fresh⟩ ∧
      s.db.commits.get? commitId = some event.tip ∧
      (s.db.commits = db.commits ∨
        event.tip ∉ shas db ∧ s.db.commits = db.commits.insert event.tip) := by
  by_cases known : event.tip ∈ shas db
  · obtain ⟨found, written⟩ := repeated_names known path handled
    rw [written]
    exact ⟨rfl, commitToId_eq_some found, .inl rfl⟩
  · obtain ⟨phase, alone, progress⟩ := delivery_progress known path
    rw [handled] at alone
    cases alone
    generalize s.db = d at progress
    cases progress with
    | searching | ran => contradiction
    | named => exact ⟨rfl, Table.get?_insert_self _ _, .inr ⟨known, rfl⟩⟩

theorem NamesOnRecord.next {event : PushEvent} {labels : List DeliveryLabel} {s : PushState}
    (record : NamesOnRecord before db)
    (path : deliveryMachine.run (.start db [event]) labels = some s)
    (handled : s.handlers = [⟨event, .handled commitId⟩]) : NamesOnRecord (before ++ [event]) s.db := by
  obtain ⟨names, commit, commits⟩ := handled_names path handled
  have kept : ∀ id sha, db.commits.get? id = some sha → s.db.commits.get? id = some sha := by
    intro id sha found
    rcases commits with same | ⟨_, inserted⟩
    · rwa [same]
    · rw [inserted]
      exact Table.get?_insert_of_some found _
  refine ⟨?_, ?_⟩
  · rcases commits with same | ⟨fresh, inserted⟩
    · rw [shas, same]
      exact record.unique
    · have added : shas s.db = shas db ++ [event.tip] := by simp [shas, inserted, Table.insert]
      rw [added]
      exact record.unique.append (List.nodup_singleton _) (by simpa using fresh)
  · rw [names]
    refine List.rel_append (record.names.imp ?_) (.cons ⟨rfl, rfl, commit⟩ .nil)
    rintro event row ⟨fresh, name, found⟩
    exact ⟨fresh, name, kept _ _ found⟩

theorem HandledInTurn.onRecord (handled : HandledInTurn db events db')
    (record : NamesOnRecord before db) : NamesOnRecord (before ++ events) db' := by
  induction handled generalizing before with
  | none db => simpa only [List.append_nil] using record
  | @next db event _ _ _ events _ path handled _ ih =>
    have later := ih (record.next path handled)
    rwa [List.append_assoc] at later

/-! ### The name that is shown -/

theorem foldl_settled {rows : List (Nat × CommitNameRow)} {best : CommitName} (fresh : best.state = .fresh) :
    rows.foldl (fun bestName row => if bestName.all CommitName.stale
      then some ⟨row.2.name, row.2.nameState⟩ else bestName) (some best) = some best := by
  induction rows with
  | nil => rfl
  | cons row rows ih => simpa [CommitName.stale, fresh] using ih

/-- Among fresh names the first one is shown. -/
theorem niceName_first (allFresh : ∀ row ∈ db.commitNames.rows, row.2.nameState = .fresh)
    (commitId : Nat) : db.niceNameForCommit commitId =
      ((db.commitNames.select fun row => row.commitId = commitId).head?).map fun row =>
        ⟨row.2.name, .fresh⟩ := by
  unfold Db.niceNameForCommit
  cases rows : db.commitNames.select fun row => row.commitId = commitId with
  | nil => rfl
  | cons row rest =>
    have member : row ∈ db.commitNames.select fun row => row.commitId = commitId :=
      rows ▸ List.mem_cons_self
    have fresh := allFresh row (List.mem_of_mem_filter member)
    rw [List.foldl_cons, fresh]
    exact foldl_settled rfl

theorem NamesOnRecord.allFresh (record : NamesOnRecord events db) :
    ∀ row ∈ db.commitNames.rows, row.2.nameState = .fresh := by
  intro row member
  obtain ⟨event, _, fresh, _⟩ := matching_right record.names member
  exact fresh

/-- The name shown is the ref of the first push of the commit. -/
theorem NamesOnRecord.niceName (record : NamesOnRecord events db) (commitId : Nat) :
    db.niceNameForCommit commitId =
      (events.find? fun event => db.commits.get? commitId = some event.tip).map fun event =>
        ⟨shortRefName event.refName, .fresh⟩ := by
  rw [niceName_first record.allFresh, Table.select, List.head?_filter]
  refine find?_matching record.names ?_ ?_
  · rintro event row ⟨_, _, found⟩
    refine decide_eq_decide.mpr ⟨fun same => ?_, fun same => ?_⟩
    · exact commit_unique record.unique found same
    · rwa [← same]
  · rintro event row ⟨_, name, _⟩
    rw [name]

/-! ### When names are current -/

theorem latestTip_exists {event : PushEvent} (pushed : event ∈ events) :
    ∃ latest ∈ events, shortRefName latest.refName = shortRefName event.refName ∧
      latestTip events (shortRefName event.refName) = some latest.tip := by
  have member : event ∈ events.filter fun other =>
      shortRefName other.refName = shortRefName event.refName :=
    List.mem_filter.mpr ⟨pushed, decide_eq_true rfl⟩
  obtain ⟨latest, last⟩ := Option.isSome_iff_exists.mp
    (List.getLast?_isSome.mpr (List.ne_nil_of_mem member))
  obtain ⟨among, same⟩ := List.mem_filter.mp (List.mem_of_getLast? last)
  exact ⟨latest, among, of_decide_eq_true same, by rw [latestTip, last, Option.map_some]⟩

/-- No ref has moved when every push is the latest to its ref, tip for tip. -/
theorem noRefMoves_iff : NoRefMoves events ↔
    ∀ event ∈ events, latestTip events (shortRefName event.refName) = some event.tip := by
  constructor
  · intro stays event pushed
    obtain ⟨latest, among, same, last⟩ := latestTip_exists pushed
    rw [last, stays latest among event pushed same]
  · intro latest a amongA b amongB same
    have tip := latest a amongA
    rw [same, latest b amongB] at tip
    exact (Option.some.inj tip).symm

theorem NamesOnRecord.lostStale_iff (record : NamesOnRecord events db) :
    LostStale events db ↔ NoRefMoves events := by
  rw [noRefMoves_iff]
  constructor
  · intro stale event pushed
    obtain ⟨⟨id, row⟩, among, fresh, name, found⟩ := matching_left record.names pushed
    have current : IsTip db events row.name row.commitId := by
      by_contra lost
      exact stale id row (Table.get?_eq_some.mpr among) lost fresh
    obtain ⟨sha, held, tip⟩ := current
    rw [← name, tip, ← held, found]
  · intro current id row held lost _
    obtain ⟨event, pushed, _, name, found⟩ := matching_right record.names (Table.get?_eq_some.mp held)
    refine lost ⟨event.tip, found, ?_⟩
    rw [name, current event pushed]

/-- The shown name is current as long as the first ref of each commit is. -/
theorem NamesOnRecord.shownCurrent_iff (record : NamesOnRecord events db) :
    ShownCurrent events db ↔ FirstRefsStay events := by
  have asked : ∀ {commitId sha}, db.commits.get? commitId = some sha →
      (events.find? fun event => db.commits.get? commitId = some event.tip) =
        events.find? fun event => event.tip = sha := by
    intro commitId sha found
    simp only [found, Option.some.injEq, eq_comm]
  constructor
  · intro current sha event first
    have meets := List.find?_some first
    obtain rfl : event.tip = sha := of_decide_eq_true meets
    obtain ⟨row, _, _, _, found⟩ := matching_left record.names (List.mem_of_find?_eq_some first)
    have shown := record.niceName row.2.commitId
    rw [asked found, first] at shown
    obtain ⟨sha, held, tip⟩ := current _ _ shown
    rw [tip, ← held, found]
  · intro stays commitId name shown
    rw [record.niceName, Option.map_eq_some_iff] at shown
    obtain ⟨event, first, same⟩ := shown
    cases same
    have meets := List.find?_some first
    have found : db.commits.get? commitId = some event.tip := of_decide_eq_true meets
    rw [asked found] at first
    exact ⟨event.tip, found, stays event.tip event first⟩

theorem NoRefMoves.firstRefsStay (stays : NoRefMoves events) : FirstRefsStay events := by
  intro sha event first
  have meets := List.find?_some first
  obtain rfl : event.tip = sha := of_decide_eq_true meets
  exact noRefMoves_iff.mp stays event (List.mem_of_find?_eq_some first)

/-- After pushes to a repository without names, handled one after another: names are
current, and lost names stale, exactly when no ref was ever moved. What is shown is
current, lost names aside, exactly when no commit has lost the ref it was first pushed
to. -/
theorem ref_names_current_iff (db db' : Db) (events : List PushEvent)
    (unique : (shas db).Nodup) (unnamed : db.commitNames.rows = [])
    (handled : HandledInTurn db events db') :
    (ShownCurrent events db' ∧ LostStale events db' ↔ NoRefMoves events) ∧
      (ShownCurrent events db' ↔ FirstRefsStay events) := by
  have none : NamesOnRecord [] db := ⟨unique, unnamed ▸ .nil⟩
  have record : NamesOnRecord events db' := handled.onRecord none
  refine ⟨?_, record.shownCurrent_iff⟩
  rw [record.shownCurrent_iff, record.lostStale_iff]
  exact ⟨And.right, fun stays => ⟨stays.firstRefsStay, stays⟩⟩

/-- The same ref, pushed with another tip. -/
def forcePush : PushEvent := { mainPush with tip := "beef" }

def afterMain : Db :=
  { oneRemote with
    commits := .insert .empty "f00d", jobs := .insert .empty ⟨some "dev@server", 1, 1, 1, none⟩,
    runs := .insert .empty (Db.pendingRow 1 none 1),
    commitNames := .insert .empty ⟨1, "main", .fresh⟩ }

def afterForce : Db :=
  { afterMain with
    commits := afterMain.commits.insert "beef",
    jobs := afterMain.jobs.insert ⟨some "dev@server", 1, 1, 2, none⟩,
    runs := afterMain.runs.insert (Db.pendingRow 2 none 1),
    commitNames := afterMain.commitNames.insert ⟨2, "main", .fresh⟩ }

def undisturbed : List DeliveryLabel := statements 7 ++ [.push (.notify 0 true)] ++ statements 1

theorem pushes_handled : HandledInTurn oneRemote [mainPush, forcePush] afterForce := by
  have first : deliveryMachine.run (.start oneRemote [mainPush]) undisturbed =
    some ⟨afterMain, false, [⟨mainPush, .handled 1⟩]⟩ := rfl
  have second : deliveryMachine.run (.start afterMain [forcePush]) undisturbed =
    some ⟨afterForce, false, [⟨forcePush, .handled 2⟩]⟩ := rfl
  exact .next first rfl (.next second rfl (.none afterForce))

theorem moved_ref_judged :
    (ShownCurrent [mainPush, forcePush] afterForce ∧ LostStale [mainPush, forcePush] afterForce ↔
      NoRefMoves [mainPush, forcePush]) ∧
    (ShownCurrent [mainPush, forcePush] afterForce ↔ FirstRefsStay [mainPush, forcePush]) :=
  ref_names_current_iff oneRemote afterForce _ .nil rfl pushes_handled

/-- The commit that the ref has left is still shown under its name. -/
theorem lost_name_stays_fresh : ¬ ∀ (db db' : Db) (events : List PushEvent), (shas db).Nodup →
    db.commitNames.rows = [] → HandledInTurn db events db' →
    ShownCurrent events db' ∧ LostStale events db' := by
  intro claim
  obtain ⟨current, _⟩ := claim oneRemote afterForce _ .nil rfl pushes_handled
  obtain ⟨sha, found, tip⟩ := current 1 "main" rfl
  cases found
  contradiction

end BuildOTron.WebServer
