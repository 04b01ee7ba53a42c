import BuildOTron.Core.DbCtx

/-! `notifier.rs` and `notifiers_by_repo`: telling a repository's remotes about a
job. What a config file decodes to and what web and mail servers answer is given
from outside; which of it ends in `Err` and which in a panic is the source's. -/
namespace BuildOTron.Native

inductive NotifierConfig where
  | gitHub (token webhookToken : String)
  | email (username password mailserver fromAddr toAddr : String)
  deriving DecidableEq, Repr

/-- A config file as `std::fs::read` and `serde_json::from_slice` see it. -/
inductive ConfigFile where
  | unreadable (error : String)
  | undecodable (error : String)
  | config (config : NotifierConfig)
  deriving DecidableEq, Repr

/-- The common part of `github_from_file` and `email_from_file`. -/
def configFromFile (matching : NotifierConfig → Bool) (kind path : String) :
    ConfigFile → Except String NotifierConfig
  | .unreadable error => .error ("can't read notifier config at " ++ path ++ ": " ++ error)
  | .undecodable error => .error ("can't deserialize notifier config at " ++ path ++ ": " ++ error)
  | .config config =>
    if matching config then .ok config
    else .error ("config at " ++ path ++ " doesn't look like " ++ kind ++
      " config (but was otherwise valid?)")

def githubFromFile : String → ConfigFile → Except String NotifierConfig :=
  configFromFile (fun | .gitHub .. => true | .email .. => false) "a github"

def emailFromFile : String → ConfigFile → Except String NotifierConfig :=
  configFromFile (fun | .gitHub .. => false | .email .. => true) "an email"

structure RemoteNotifier where
  remotePath : String
  notifier : NotifierConfig
  deriving DecidableEq, Repr

/-- The arguments of `tell_job_status` that end up in a message. -/
structure JobStatus where
  sha : String
  state : String
  desc : String
  targetUrl : String
  deriving DecidableEq, Repr

structure Response where
  status : Nat
  shown : String
  deriving DecidableEq, Repr

/-- Each step of sending one mail, in order; `auth` answers whether the server's
reply is positive. -/
structure Mail where
  tls : Except String Unit
  connect : Except String Unit
  starttls : Except String Unit
  auth : Except String Bool
  fromAddr : Except String Unit
  toAddr : Except String Unit
  message : Except String Unit
  send : Except String Unit

/-- What comes back when a notifier is used, whichever kind it is. -/
structure Answers where
  http : Except String Response
  mail : Mail

def postStatus : Except String Response → Outcome String Unit
  | .ok res =>
    if res.status = 200 ∨ res.status = 201 then .ok ()
    else .err ("bad response: " ++ toString res.status ++ ", response data: " ++ res.shown)
  | .error e => .err ("failure sending request: " ++ e)

/-- Everything before the last step is `unwrap`ped; only a refused message is an `Err`. -/
def sendMail (mail : Mail) : Outcome String Unit := do
  Outcome.unwrap mail.tls
  Outcome.unwrap mail.connect
  Outcome.unwrap mail.starttls
  let positive ← Outcome.unwrap mail.auth
  Outcome.assert positive
  Outcome.unwrap mail.fromAddr
  Outcome.unwrap mail.toAddr
  Outcome.unwrap mail.message
  match mail.send with
  | .ok () => .ok ()
  | .error e => .err e

namespace RemoteNotifier

def targetUrl (notifier : RemoteNotifier) (sha : String) : String :=
  "https://ci.butactuallyin.space/" ++ notifier.remotePath ++ "/" ++ sha

def tellJobStatus (notifier : RemoteNotifier) (answers : Answers) : Outcome String Unit :=
  match notifier.notifier with
  | .gitHub _ _ => postStatus answers.http
  | .email _ _ _ _ _ => sendMail answers.mail

def pendingStatus (notifier : RemoteNotifier) (sha : String) : JobStatus :=
  ⟨sha, "pending", "build is queued", notifier.targetUrl sha⟩

def completeStatus (notifier : RemoteNotifier) (sha : String) : Except String String → JobStatus
  | .ok status => ⟨sha, "success", status, notifier.targetUrl sha⟩
  | .error status => ⟨sha, "failure", status, notifier.targetUrl sha⟩

end RemoteNotifier

/-- `PathBuf::push`. -/
def pushPath (dir path : String) : String :=
  if path.startsWith "/" then path
  else if dir.endsWith "/" then dir ++ path
  else dir ++ "/" ++ path

/-- What a notifier run is handed: the configuration directory, the files in it,
and the answers to the notifiers in the order they are used. -/
structure World where
  configPath : String
  files : String → ConfigFile
  answers : Nat → Answers

/-- How a remote's config is loaded, for the two api kinds that are known. -/
def loader (remoteApi : String) : Option (String → ConfigFile → Except String NotifierConfig) :=
  if remoteApi = "github" then some githubFromFile
  else if remoteApi = "email" then some emailFromFile
  else none

def World.config (world : World) (remote : Remote) : Option (Except String NotifierConfig) :=
  let path := pushPath world.configPath remote.notifierConfigPath
  (loader remote.remoteApi).map fun load => load path (world.files path)

/-- The loop of `notifiers_by_repo`; an unknown api kind is passed over. -/
def loadNotifiers (world : World) : List Remote → Outcome String (List RemoteNotifier)
  | [] => .ok []
  | remote :: rest =>
    match world.config remote with
    | none => loadNotifiers world rest
    | some loaded => do
      let config ← Outcome.unwrap loaded
      let notifiers ← loadNotifiers world rest
      return ⟨remote.remotePath, config⟩ :: notifiers

def notifiersByRepo (db : Db) (world : World) (repoId : Nat) :
    Outcome String (List RemoteNotifier) :=
  loadNotifiers world (db.remotesByRepo repoId)

/-- The loop that tells every notifier `status`: what each was told, and whether
the loop got through. An `Err` is logged and passed over. -/
def tellAll (status : RemoteNotifier → JobStatus) :
    List RemoteNotifier → (Nat → Answers) → List (String × JobStatus) × Outcome String Unit
  | [], _ => ([], .ok ())
  | notifier :: rest, answers =>
    let told := (notifier.remotePath, status notifier)
    match notifier.tellJobStatus (answers 0) with
    | .panic => ([told], .panic)
    | _ =>
      let (later, outcome) := tellAll status rest fun k => answers (k + 1)
      (told :: later, outcome)

/-! Which notifiers get through. -/

/-- No step before the last one fails. -/
structure Mail.Reaches (mail : Mail) : Prop where
  tls : mail.tls = .ok ()
  connect : mail.connect = .ok ()
  starttls : mail.starttls = .ok ()
  auth : mail.auth = .ok true
  fromAddr : mail.fromAddr = .ok ()
  toAddr : mail.toAddr = .ok ()
  message : mail.message = .ok ()

/-- For a remote's api kind, whether telling it can be trusted not to panic. -/
def Passes (remoteApi : String) (answers : Answers) : Prop :=
  remoteApi = "email" → answers.mail.Reaches

/-- For a remote's api kind, whether telling it succeeds. -/
def Accepts (remoteApi : String) (answers : Answers) : Prop :=
  (remoteApi = "github" →
    ∃ res, answers.http = .ok res ∧ (res.status = 200 ∨ res.status = 201)) ∧
  (remoteApi = "email" → answers.mail.Reaches ∧ answers.mail.send = .ok ())

theorem postStatus_ne_panic (http : Except String Response) : postStatus http ≠ .panic := by
  cases http with
  | error e => simp [postStatus]
  | ok res =>
    by_cases accepted : res.status = 200 ∨ res.status = 201 <;> simp [postStatus, accepted]

theorem sendMail_ne_panic {mail : Mail} : sendMail mail ≠ .panic ↔ mail.Reaches := by
  simp only [sendMail, Outcome.unwrap_bind_ne_panic, Outcome.assert_bind_ne_panic]
  constructor
  · rintro ⟨_, tls, _, connect, _, starttls, _, auth, rfl, _, fromAddr, _, toAddr, _, message, _⟩
    exact ⟨tls, connect, starttls, auth, fromAddr, toAddr, message⟩
  · rintro ⟨tls, connect, starttls, auth, fromAddr, toAddr, message⟩
    refine ⟨_, tls, _, connect, _, starttls, _, auth, rfl, _, fromAddr, _, toAddr, _, message, ?_⟩
    cases mail.send <;> simp

/-- The remotes that have a notifier. -/
def known (remotes : List Remote) : List Remote :=
  remotes.filter fun remote => remote.remoteApi = "github" ∨ remote.remoteApi = "email"

section TellAll
variable {status : RemoteNotifier → JobStatus} {notifier : RemoteNotifier}
  {rest : List RemoteNotifier} {answers : Nat → Answers}

theorem tellAll_cons_of_panic (panics : notifier.tellJobStatus (answers 0) = .panic) :
    tellAll status (notifier :: rest) answers = ([(notifier.remotePath, status notifier)], .panic) := by
  simp only [tellAll, panics]

theorem tellAll_cons (passes : notifier.tellJobStatus (answers 0) ≠ .panic) :
    tellAll status (notifier :: rest) answers =
      ((notifier.remotePath, status notifier) :: (tellAll status rest fun k => answers (k + 1)).1,
        (tellAll status rest fun k => answers (k + 1)).2) := by
  cases told : notifier.tellJobStatus (answers 0) with
  | panic => exact absurd told passes
  | ok | err => simp only [tellAll, told]

/-- The loop ends in a panic or has told everyone; which, is a matter of each
notifier by itself. -/
theorem tellAll_eq (notifiers : List RemoteNotifier) (answers : Nat → Answers)
    (passes : ∀ (k : Nat) (n : RemoteNotifier), notifiers[k]? = some n →
      n.tellJobStatus (answers k) ≠ .panic) :
    tellAll status notifiers answers =
      (notifiers.map fun n => (n.remotePath, status n), .ok ()) := by
  induction notifiers generalizing answers with
  | nil => rfl
  | cons notifier rest ih =>
    rw [tellAll_cons (passes 0 notifier rfl), ih _ fun k n found => passes (k + 1) n found]
    rfl

theorem tellAll_passes (notifiers : List RemoteNotifier) (answers : Nat → Answers)
    (through : (tellAll status notifiers answers).2 ≠ .panic) :
    ∀ (k : Nat) (n : RemoteNotifier), notifiers[k]? = some n → n.tellJobStatus (answers k) ≠ .panic := by
  induction notifiers generalizing answers with
  | nil => simp
  | cons notifier rest ih =>
    have first : notifier.tellJobStatus (answers 0) ≠ .panic := by
      intro panics
      exact through (by rw [tellAll_cons_of_panic panics])
    rw [tellAll_cons first] at through
    intro k n found
    cases k with
    | zero =>
      cases Option.some.inj found
      exact first
    | succ k => exact ih _ through k n found

end TellAll

/-- The notifier that was loaded for a remote. -/
structure Serves (remote : Remote) (notifier : RemoteNotifier) : Prop where
  path : notifier.remotePath = remote.remotePath
  kind : (∃ token webhookToken, notifier.notifier = .gitHub token webhookToken) ∧
      remote.remoteApi = "github" ∨
    (∃ username password mailserver fromAddr toAddr,
      notifier.notifier = .email username password mailserver fromAddr toAddr) ∧
      remote.remoteApi = "email"

theorem Serves.panics (serves : Serves remote notifier) (answers : Answers) :
    notifier.tellJobStatus answers ≠ .panic ↔ Passes remote.remoteApi answers := by
  obtain ⟨⟨_, _, github⟩, api⟩ | ⟨⟨_, _, _, _, _, email⟩, api⟩ := serves.kind
  · simp only [RemoteNotifier.tellJobStatus, github, Passes, api]
    simp [postStatus_ne_panic]
  · simp only [RemoteNotifier.tellJobStatus, email, Passes, api, forall_const]
    exact sendMail_ne_panic

theorem postStatus_eq_ok {http : Except String Response} : postStatus http = .ok () ↔
    ∃ res, http = .ok res ∧ (res.status = 200 ∨ res.status = 201) := by
  cases http with
  | error e => simp [postStatus]
  | ok res =>
    by_cases accepted : res.status = 200 ∨ res.status = 201 <;> simp [postStatus, accepted]

theorem sendMail_eq_ok {mail : Mail} : sendMail mail = .ok () ↔ mail.Reaches ∧ mail.send = .ok () := by
  constructor
  · intro sent
    have reaches := sendMail_ne_panic.mp (by rw [sent]; nofun)
    refine ⟨reaches, ?_⟩
    obtain ⟨tls, connect, starttls, auth, fromAddr, toAddr, message⟩ := reaches
    simp only [sendMail, tls, connect, starttls, auth, fromAddr, toAddr, message, Outcome.unwrap_ok,
      Outcome.ok_bind, Outcome.assert] at sent
    cases answer : mail.send with
    | ok => rfl
    | error e => simp [answer] at sent
  · rintro ⟨⟨tls, connect, starttls, auth, fromAddr, toAddr, message⟩, sent⟩
    simp [sendMail, tls, connect, starttls, auth, fromAddr, toAddr, message, sent, Outcome.assert]

theorem Serves.accepts (serves : Serves remote notifier) (answers : Answers) :
    notifier.tellJobStatus answers = .ok () ↔ Accepts remote.remoteApi answers := by
  obtain ⟨⟨_, _, github⟩, api⟩ | ⟨⟨_, _, _, _, _, email⟩, api⟩ := serves.kind
  · simp only [RemoteNotifier.tellJobStatus, github, Accepts, api, postStatus_eq_ok]
    simp
  · simp only [RemoteNotifier.tellJobStatus, email, Accepts, api, sendMail_eq_ok]
    simp

theorem configFromFile_ok {matching : NotifierConfig → Bool} {file : ConfigFile}
    (loaded : configFromFile matching kind path file = .ok config) : matching config = true := by
  cases file with
  | unreadable | undecodable => simp [configFromFile] at loaded
  | config found =>
    by_cases same : matching found = true
    · simp only [configFromFile, same, if_true, Except.ok.injEq] at loaded
      exact loaded ▸ same
    · simp [configFromFile, same] at loaded

theorem config_eq_none {world : World} : world.config remote = none ↔
    ¬ (remote.remoteApi = "github" ∨ remote.remoteApi = "email") := by
  by_cases github : remote.remoteApi = "github"
  · simp [World.config, loader, github]
  · by_cases email : remote.remoteApi = "email" <;> simp [World.config, loader, github, email]

theorem config_serves {world : World} (loaded : world.config remote = some (.ok config)) :
    Serves remote ⟨remote.remotePath, config⟩ := by
  refine ⟨rfl, ?_⟩
  by_cases github : remote.remoteApi = "github"
  · simp only [World.config, loader, github, if_true, Option.map_some, Option.some.injEq] at loaded
    have same := configFromFile_ok loaded
    cases config with
    | gitHub token webhookToken => exact .inl ⟨⟨_, _, rfl⟩, github⟩
    | email => contradiction
  · by_cases email : remote.remoteApi = "email"
    · simp only [World.config, loader, email, String.reduceEq, if_true, if_false, Option.map_some,
        Option.some.injEq] at loaded
      have same := configFromFile_ok loaded
      cases config with
      | gitHub => contradiction
      | email => exact .inr ⟨⟨_, _, _, _, _, rfl⟩, email⟩
    · simp [World.config, loader, github, email] at loaded

def Loads (world : World) (remote : Remote) : Prop :=
  ∃ config, world.config remote = some (.ok config)

theorem known_cons_of_none {world : World} (unknown : world.config remote = none) :
    known (remote :: rest) = known rest := by
  simp [known, config_eq_none.mp unknown]

theorem known_cons_of_some {world : World} (kind : world.config remote = some loaded) :
    known (remote :: rest) = remote :: known rest := by
  have api : remote.remoteApi = "github" ∨ remote.remoteApi = "email" := by
    by_contra unknown
    rw [config_eq_none.mpr unknown] at kind
    contradiction
  simp [known, api]

/-- Either every known remote's config loads, and each has its notifier in turn,
or loading panics. -/
theorem loadNotifiers_cases (world : World) (remotes : List Remote) :
    (∃ notifiers, loadNotifiers world remotes = .ok notifiers ∧
        List.Forall₂ Serves (known remotes) notifiers ∧ ∀ remote ∈ known remotes, Loads world remote) ∨
      loadNotifiers world remotes = .panic ∧ ¬ ∀ remote ∈ known remotes, Loads world remote := by
  induction remotes with
  | nil => exact .inl ⟨[], rfl, .nil, by simp [known]⟩
  | cons remote rest ih =>
    cases kind : world.config remote with
    | none =>
      rw [known_cons_of_none kind]
      simpa only [loadNotifiers, kind] using ih
    | some loaded =>
      rw [known_cons_of_some kind]
      cases loaded with
      | error e =>
        refine .inr ⟨by simp [loadNotifiers, kind], ?_⟩
        intro loads
        obtain ⟨config, ok⟩ := loads remote List.mem_cons_self
        simp [kind] at ok
      | ok config =>
        obtain ⟨notifiers, ok, serves, loads⟩ | ⟨panics, missing⟩ := ih
        · refine .inl ⟨⟨remote.remotePath, config⟩ :: notifiers, by simp [loadNotifiers, kind, ok],
            .cons (config_serves kind) serves, ?_⟩
          exact List.forall_mem_cons.mpr ⟨⟨config, kind⟩, loads⟩
        · refine .inr ⟨by simp [loadNotifiers, kind, panics], ?_⟩
          exact fun loads => missing (List.forall_mem_cons.mp loads).2

theorem forall₂_getElem? {R : α → β → Prop} (related : List.Forall₂ R xs ys) {k : Nat} :
    (∀ x, xs[k]? = some x → ∃ y, ys[k]? = some y ∧ R x y) ∧
      ∀ y, ys[k]? = some y → ∃ x, xs[k]? = some x ∧ R x y := by
  induction related generalizing k with
  | nil => simp
  | cons first _ ih =>
    cases k with
    | zero => simpa using first
    | succ k => simpa using ih

end BuildOTron.Native
