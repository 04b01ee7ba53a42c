import BuildOTron.Ctl.Command

/-! `ci-ctl add repo` with a remote. The repo, the check of the config and the remote are
three steps, and the second may fail after the first. -/
namespace BuildOTron.Ctl
open Native

structure RepoArgs where
  name : String
  remote : String
  remoteKind : String
  config : String

def RepoArgs.add (args : RepoArgs) (env : Environment) : Effect Db String Unit :=
  addRepo env args.name (some args.remote) (some args.remoteKind) (some args.config)

def NameFree (db : Db) (name : String) : Prop :=
  ∀ id row, db.repos.get? id = some row → row.repoName ≠ name

def GithubConfig (env : Environment) (config : String) : Prop :=
  ∃ token webhookToken, env.files (env.configPath ++ "/" ++ config) = .config (.gitHub token webhookToken)

/-- Neither the repo nor its remote, or both. -/
def Together (args : RepoArgs) (db db' : Db) : Prop :=
  (db'.repos = db.repos ∧ db'.remotes = db.remotes) ∨
    ∃ row, Db.remoteRow (db.repos.seq + 1) args.remote args.remoteKind args.config = some row ∧
      db'.repos = db.repos.insert ⟨args.name, none⟩ ∧ db'.remotes = db.remotes.insert row

/-- A file that a failed attempt would have succeeded with makes the next one succeed. -/
structure AddsWhole (args : RepoArgs) (env : Environment) (db : Db) : Prop where
  together : Together args db (args.add env db).2
  retries : (args.add env db).1 ≠ .ok () → ∀ corrected, (args.add corrected db).1 = .ok () →
    (args.add corrected (args.add env db).2).1 = .ok ()

/-- Every way the command ends. -/
inductive AddEnds (args : RepoArgs) (env : Environment) (db : Db) : Outcome String Unit × Db → Prop where
  | unknownKind (kind : args.remoteKind ≠ "github") : AddEnds args env db (.err error, db)
  | taken (taken : ¬ NameFree db args.name) : AddEnds args env db (.err error, db)
  | unchecked (kind : args.remoteKind = "github") (free : NameFree db args.name)
    (bad : ¬ GithubConfig env args.config) :
    AddEnds args env db (.panic, { db with repos := db.repos.insert ⟨args.name, none⟩ })
  | added (kind : args.remoteKind = "github") (free : NameFree db args.name)
    (loads : GithubConfig env args.config)
    (made : Db.remoteRow (db.repos.seq + 1) args.remote args.remoteKind args.config = some row) :
    AddEnds args env db (.ok (), { db with
      repos := db.repos.insert ⟨args.name, none⟩, remotes := db.remotes.insert row })

section
variable {args : RepoArgs} {env : Environment} {db : Db}

theorem nameFree_iff :
    (db.repos.select fun row => row.repoName = name).isEmpty = true ↔ NameFree db name := by
  rw [List.isEmpty_iff, List.eq_nil_iff_forall_not_mem]
  constructor
  · exact fun none id row found same => none (id, row) (Table.mem_select.mpr ⟨found, decide_eq_true same⟩)
  · rintro free ⟨id, row⟩ member
    obtain ⟨found, same⟩ := Table.mem_select.mp member
    exact free id row found (of_decide_eq_true same)

theorem newRepo_of_free (free : NameFree db name) :
    newRepo name db = (.ok (db.repos.seq + 1), { db with repos := db.repos.insert ⟨name, none⟩ }) := by
  rw [newRepo, Effect.call, Db.newRepo, if_pos (nameFree_iff.mpr free)]
  rfl

theorem newRepo_of_taken (taken : ¬ NameFree db name) :
    newRepo name db = (.err ("[!] repo '" ++ name ++ "' already exists"), db) := by
  rw [newRepo, Effect.call, Db.newRepo, if_neg (mt nameFree_iff.mp taken)]
  rfl

theorem checkConfig_of_github (loads : GithubConfig env config) :
    ∃ loaded, checkConfig env "github" config = .ok loaded := by
  obtain ⟨token, webhookToken, file⟩ := loads
  refine ⟨.gitHub token webhookToken, ?_⟩
  show Outcome.unwrap (githubFromFile _ (env.files _)) = _
  rw [file]
  rfl

theorem checkConfig_of_other (bad : ¬ GithubConfig env config) :
    checkConfig env "github" config = .panic := by
  show Outcome.unwrap (githubFromFile _ (env.files _)) = _
  cases file : env.files (env.configPath ++ "/" ++ config) with
  | unreadable | undecodable => rfl
  | config found =>
    cases found with
    | gitHub token webhookToken => exact absurd ⟨token, webhookToken, file⟩ bad
    | email => rfl

theorem add_ends (args : RepoArgs) (env : Environment) (db : Db) :
    AddEnds args env db (args.add env db) := by
  obtain ⟨name, remote, remoteKind, config⟩ := args
  unfold RepoArgs.add addRepo
  by_cases kind : remoteKind = "github"
  · subst kind
    have described : remoteConfig (some remote) (some "github") (some config) =
        .ok (some (remote, "github", config)) := rfl
    rw [described, Effect.lift_ok_bind]
    by_cases free : NameFree db name
    · rw [Effect.bind_of_eq (newRepo_of_free free)]
      by_cases loads : GithubConfig env config
      · obtain ⟨loaded, checked⟩ := checkConfig_of_github loads
        simp only [checked, Effect.lift_ok_bind]
        exact .added rfl free loads rfl
      · simp only [checkConfig_of_other loads, Effect.lift_panic_bind]
        exact .unchecked rfl free loads
    · rw [Effect.bind_of_err (congrArg Prod.fst (newRepo_of_taken free)), newRepo_of_taken free]
      exact .taken free
  · have unknown : remoteConfig (some remote) (some remoteKind) (some config) =
        .err ("unknown remote kind: " ++ remote) := if_pos kind
    rw [unknown, Effect.bind_of_err rfl]
    exact .unknownKind kind

theorem AddEnds.ok_iff (ends : AddEnds args env db after) : after.1 = .ok () ↔
    args.remoteKind = "github" ∧ NameFree db args.name ∧ GithubConfig env args.config := by
  cases ends with
  | unknownKind kind => exact iff_of_false (by simp) fun ok => kind ok.1
  | taken taken => exact iff_of_false (by simp) fun ok => taken ok.2.1
  | unchecked kind free bad => exact iff_of_false (by simp) fun ok => bad ok.2.2
  | added kind free loads => exact iff_of_true rfl ⟨kind, free, loads⟩

/-- The name that has just been added is taken. -/
theorem added_taken (db : Db) (name : String) :
    ¬ NameFree { db with repos := db.repos.insert ⟨name, none⟩ } name :=
  fun free => free _ _ (Table.get?_insert_self _ _) rfl

/-- A repo without its remote is left exactly where the config is looked at and is bad. -/
theorem together_iff : Together args db (args.add env db).2 ↔
    (args.remoteKind = "github" → NameFree db args.name → GithubConfig env args.config) := by
  have ends := add_ends args env db
  generalize args.add env db = after at ends
  cases ends with
  | unknownKind kind => exact iff_of_true (.inl ⟨rfl, rfl⟩) fun same => absurd same kind
  | taken taken => exact iff_of_true (.inl ⟨rfl, rfl⟩) fun _ free => absurd free taken
  | unchecked kind free bad =>
    refine iff_of_false ?_ fun fits => bad (fits kind free)
    rintro (⟨repos, _⟩ | ⟨row, _, _, remotes⟩)
    · exact Table.insert_ne _ _ repos
    · exact Table.insert_ne _ _ remotes.symm
  | added kind free loads made => exact iff_of_true (.inr ⟨_, made, rfl, rfl⟩) fun _ _ => loads

/-- The attempt that a bad config stops has taken the name away from every later one. -/
theorem retries_iff : ((args.add env db).1 ≠ .ok () → ∀ corrected, (args.add corrected db).1 = .ok () →
      (args.add corrected (args.add env db).2).1 = .ok ()) ↔
    (args.remoteKind = "github" → NameFree db args.name → GithubConfig env args.config) := by
  constructor
  · intro retries kind free
    by_contra bad
    have left : args.add env db = (.panic, { db with repos := db.repos.insert ⟨args.name, none⟩ }) := by
      have ends := add_ends args env db
      generalize args.add env db = after at ends
      cases ends with
      | unknownKind unknown => exact absurd kind unknown
      | taken taken => exact absurd free taken
      | unchecked => rfl
      | added _ _ loads => exact absurd loads bad
    let corrected : Environment := { env with files := fun _ => .config (.gitHub "" "") }
    have first := (add_ends args corrected db).ok_iff.mpr ⟨kind, free, "", "", rfl⟩
    rw [left] at retries
    have again := (add_ends args corrected _).ok_iff.mp (retries nofun corrected first)
    exact added_taken db args.name again.2.1
  · intro fits failed corrected ok
    obtain ⟨kind, free, _⟩ := (add_ends args corrected db).ok_iff.mp ok
    exact absurd ((add_ends args env db).ok_iff.mpr ⟨kind, free, fits kind free⟩) failed

/-- The attempt is of all or nothing, and can be repeated, exactly when there is no bad
config behind a name that is free. -/
theorem add_repo_atomic_iff (args : RepoArgs) (env : Environment) (db : Db) :
    AddsWhole args env db ↔
      (args.remoteKind = "github" → NameFree db args.name → GithubConfig env args.config) := by
  constructor
  · exact fun whole => together_iff.mp whole.together
  · exact fun fits => ⟨together_iff.mpr fits, retries_iff.mpr fits⟩

end

/-- A config that is not there: the repo stays, and is in the way of the next attempt. -/
theorem add_repo_without_config : ¬ ∀ args env db, AddsWhole args env db := by
  intro claim
  let args : RepoArgs := ⟨"zoo", "owner/zoo", "github", "zoo.json"⟩
  let env : Environment := ⟨"/etc/ci", fun _ => .unreadable "no such file", 0, 0⟩
  let corrected : Environment := ⟨"/etc/ci", fun _ => .config (.gitHub "token" "secret"), 0, 0⟩
  have again : (args.add corrected (args.add env Db.empty).2).1 = .ok () :=
    (claim args env Db.empty).retries (by decide) corrected (by decide)
  exact absurd again (by decide)

end BuildOTron.Ctl
