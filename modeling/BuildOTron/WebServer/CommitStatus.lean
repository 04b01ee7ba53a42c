import BuildOTron.Lib.Like
import BuildOTron.Lib.OnePerKey
import BuildOTron.Web.Pages

/-! `handle_commit_status`, up to where it renders. The remote, the commit and the job are
looked up by three queries, and the one for the commit takes a pattern made of what was
asked for. -/
namespace BuildOTron.Web

/-- Which rows SQLite answers to the queries that order nothing and read one row. -/
structure Picking where
  remote : List (Nat × RemoteRow) → Option (Nat × RemoteRow)
  commit : List (Nat × String) → Option (Nat × String)
  job : List (Nat × JobRow) → Option (Nat × JobRow)
  remotePicks : Picks remote
  commitPicks : Picks commit
  jobPicks : Picks job

structure StatusPage where
  sha : String
  shortSha : String
  niceName : Option CommitName
  job : Job
  run : Run
  repoName : String

def noSuchRemote : String := "<html><body>no such remote</body></html>"

def noSuchCommit : String := "<html><body>no such commit</body></html>"

def shaPattern (sha : String) : String := sha ++ "%"

/-- `SQLITE_MAX_LIKE_PATTERN_LENGTH`, at its default. -/
def PatternFits (sha : String) : Prop := (shaPattern sha).utf8ByteSize ≤ 50000

instance (sha : String) : Decidable (PatternFits sha) :=
  inferInstanceAs (Decidable (_ ≤ _))

/-- A pattern that is too long is an error at the first row that it is put to. -/
def commitsLike (db : Db) (sha : String) : Outcome String (List (Nat × String)) :=
  if PatternFits sha then .ok (db.commits.select (Like.sqlLike (shaPattern sha)))
  else if db.commits.rows.isEmpty then .ok []
  else .panic

namespace Picking

def remoteByPath (picking : Picking) (db : Db) (remotePath : String) : Option (Nat × Nat) :=
  (queryRow picking.remote (db.remotes.select fun row => row.remotePath = remotePath)).map
    fun row => (row.1, row.2.repoId)

def jobByCommitId (picking : Picking) (db : Db) (commitId : Nat) : Option Job :=
  (queryRow picking.job (db.jobs.select fun row => row.commitId = commitId)).map
    fun row => row.2.withId row.1

def lookUpCommit (picking : Picking) (db : Db) (sha : String) : Outcome String (Nat × String) :=
  if 7 ≤ sha.utf8ByteSize then do
    let rows ← commitsLike db sha
    match queryRow picking.commit rows with
    | some commit => .ok commit
    | none => .err noSuchCommit
  else .err noSuchCommit

/-- The repo, and the commit that was found for the string. -/
def lookUp (picking : Picking) (db : Db) (path : String × String × String) :
    Outcome String (Nat × Nat × String) :=
  match picking.remoteByPath db (path.1 ++ "/" ++ path.2.1) with
  | none => .err noSuchRemote
  | some (_, repoId) => do
    let commit ← picking.lookUpCommit db path.2.2
    return (repoId, commit)

def statusPage (picking : Picking) (db : Db) (repoId commitId : Nat) (sha : String) :
    Outcome String StatusPage := do
  let shortSha ← shortCommit sha
  let job ← Outcome.expectSome (picking.jobByCommitId db commitId)
  let run ← Outcome.expectSome (db.lastRunForJob job.id)
  let repo ← Outcome.expectSome (db.repoById repoId)
  return ⟨sha, shortSha, db.niceNameForCommit commitId, job, run, repo.name⟩

/-- An error is the body of a NOT_FOUND. -/
def handleCommitStatus (picking : Picking) (db : Db) (path : String × String × String) :
    Outcome String StatusPage := do
  let (repoId, commitId, sha) ← picking.lookUp db path
  picking.statusPage db repoId commitId sha

end Picking

/-- There is a commit that begins with the string and has a job from a remote of the repo. -/
def Asked (db : Db) (repoId : Nat) (asked : String) : Prop :=
  ∃ commitId sha jobId job, db.commits.get? commitId = some sha ∧ asked.toList <+: sha.toList ∧
    db.jobs.get? jobId = some job ∧ job.commitId = commitId ∧
    db.repoIdByRemote job.remoteId = some repoId

structure ShowsAskedFor (picking : Picking) (db : Db) (path : String × String × String) : Prop where
  sha : ∀ repoId commitId sha, picking.lookUp db path = .ok (repoId, commitId, sha) →
    path.2.2.toList <+: sha.toList
  job : ∀ repoId commitId sha page, picking.lookUp db path = .ok (repoId, commitId, sha) →
    picking.handleCommitStatus db path = .ok page →
      db.repoIdByRemote page.job.remoteId = some repoId
  absent : (∀ remoteId repoId,
      picking.remoteByPath db (path.1 ++ "/" ++ path.2.1) = some (remoteId, repoId) →
        ¬ Asked db repoId path.2.2) →
    ∃ html, picking.handleCommitStatus db path = .err html

/-- The commit meets the pattern. -/
def Matched (db : Db) (asked : String) (commitId : Nat) (sha : String) : Prop :=
  PatternFits asked ∧ db.commits.get? commitId = some sha ∧
    Like.Likes (Like.upToNul (shaPattern asked)) (Like.upToNul sha)

def TooComplex (db : Db) (asked : String) : Prop :=
  ¬ PatternFits asked ∧ ∃ commitId sha, db.commits.get? commitId = some sha

/-- What meets the pattern was asked for: it begins with the string and, where a page can be
made of it, is of this repo; and where anything meets it, something was asked for. -/
structure Fits (db : Db) (repoId : Nat) (asked : String) : Prop where
  sha : ∀ commitId sha, Matched db asked commitId sha → asked.toList <+: sha.toList
  job : ∀ commitId sha, Matched db asked commitId sha → Sliceable sha →
    (db.repoById repoId).isSome → ∀ jobId job, db.jobs.get? jobId = some job →
      job.commitId = commitId → (db.lastRunForJob jobId).isSome →
        db.repoIdByRemote job.remoteId = some repoId
  found : (∃ commitId sha, Matched db asked commitId sha) ∨ TooComplex db asked →
    Asked db repoId asked

def StatusFits (db : Db) (remotePath asked : String) : Prop :=
  7 ≤ asked.utf8ByteSize → ∀ remoteId remote, db.remotes.get? remoteId = some remote →
    remote.remotePath = remotePath → Fits db remote.repoId asked

section Lookups
variable {db : Db} {picking : Picking} {asked : String}

theorem mem_commits_like {commitId : Nat} {sha : String} (fits : PatternFits asked) :
    (commitId, sha) ∈ db.commits.select (Like.sqlLike (shaPattern asked)) ↔
      Matched db asked commitId sha := by
  rw [Table.mem_select, Like.sqlLike, Like.like_iff, Matched, and_iff_right fits]

theorem lookUpCommit_of_fits (long : 7 ≤ asked.utf8ByteSize) (fits : PatternFits asked) :
    picking.lookUpCommit db asked =
      match queryRow picking.commit (db.commits.select (Like.sqlLike (shaPattern asked))) with
      | some commit => .ok commit
      | none => .err noSuchCommit := by
  rw [Picking.lookUpCommit, if_pos long, commitsLike, if_pos fits, Outcome.ok_bind]

theorem lookUpCommit_complex (long : 7 ≤ asked.utf8ByteSize) (complex : TooComplex db asked) :
    picking.lookUpCommit db asked = .panic := by
  obtain ⟨tooLong, commitId, sha, held⟩ := complex
  have filled : db.commits.rows.isEmpty = false := by
    rw [List.isEmpty_eq_false_iff]
    exact List.ne_nil_of_mem (Table.get?_eq_some.mp held)
  rw [Picking.lookUpCommit, if_pos long, commitsLike, if_neg tooLong, filled]
  rfl

theorem lookUpCommit_found (picking : Picking) (long : 7 ≤ asked.utf8ByteSize)
    (matched : Matched db asked commitId sha) :
    ∃ commit, picking.lookUpCommit db asked = .ok commit := by
  have fits := matched.1
  have listed := (mem_commits_like fits).mpr matched
  obtain ⟨commit, _, found⟩ := OnePerKey.exists_queryRow picking.commitPicks (List.ne_nil_of_mem listed)
  rw [lookUpCommit_of_fits long fits, found]
  exact ⟨commit, rfl⟩

theorem lookUpCommit_absent (unmatched : ¬ ∃ commitId sha, Matched db asked commitId sha)
    (simple : ¬ TooComplex db asked) : picking.lookUpCommit db asked = .err noSuchCommit := by
  by_cases long : 7 ≤ asked.utf8ByteSize
  · by_cases fits : PatternFits asked
    · have none : db.commits.select (Like.sqlLike (shaPattern asked)) = [] := by
        rw [List.eq_nil_iff_forall_not_mem]
        exact fun commit listed => unmatched ⟨_, _, (mem_commits_like fits).mp listed⟩
      rw [lookUpCommit_of_fits long fits, none]
      rfl
    · have empty : db.commits.rows.isEmpty = true := by
        rw [List.isEmpty_iff, List.eq_nil_iff_forall_not_mem]
        exact fun commit held => simple ⟨fits, _, _, Table.get?_eq_some.mpr held⟩
      rw [Picking.lookUpCommit, if_pos long, commitsLike, if_neg fits, if_pos empty]
      rfl
  · rw [Picking.lookUpCommit, if_neg long]

/-- A commit that is found meets the pattern. -/
theorem lookUpCommit_matched (found : picking.lookUpCommit db asked = .ok (commitId, sha)) :
    7 ≤ asked.utf8ByteSize ∧ Matched db asked commitId sha := by
  by_cases long : 7 ≤ asked.utf8ByteSize
  · refine ⟨long, ?_⟩
    by_cases fits : PatternFits asked
    · rw [lookUpCommit_of_fits long fits] at found
      split at found
      · rename_i chosen
        cases found
        exact (mem_commits_like fits).mp (OnePerKey.mem_of_queryRow picking.commitPicks chosen)
      · contradiction
    · by_cases filled : ∃ commitId sha, db.commits.get? commitId = some sha
      · rw [lookUpCommit_complex long ⟨fits, filled⟩] at found
        contradiction
      · rw [lookUpCommit_absent (fun ⟨_, _, matched⟩ => fits matched.1)
          (fun complex => filled complex.2)] at found
        contradiction
  · rw [Picking.lookUpCommit, if_neg long] at found
    contradiction

theorem lookUp_eq_ok {path : String × String × String} :
    picking.lookUp db path = .ok (repoId, commitId, sha) ↔
      ∃ remoteId, picking.remoteByPath db (path.1 ++ "/" ++ path.2.1) = some (remoteId, repoId) ∧
        picking.lookUpCommit db path.2.2 = .ok (commitId, sha) := by
  unfold Picking.lookUp
  cases picking.remoteByPath db (path.1 ++ "/" ++ path.2.1) with
  | none => simp
  | some remote =>
    obtain ⟨remoteId, repo⟩ := remote
    simp [Outcome.bind_eq_ok, and_comm]

theorem remoteByPath_found (found : picking.remoteByPath db remotePath = some (remoteId, repoId)) :
    ∃ remote, db.remotes.get? remoteId = some remote ∧ remote.remotePath = remotePath ∧
      remote.repoId = repoId := by
  obtain ⟨row, chosen, same⟩ := Option.map_eq_some_iff.mp found
  cases same
  have listed := Table.mem_select.mp (OnePerKey.mem_of_queryRow picking.remotePicks chosen)
  exact ⟨row.2, listed.1, of_decide_eq_true listed.2, rfl⟩

theorem jobByCommitId_found {job : Job} (found : picking.jobByCommitId db commitId = some job) :
    ∃ row, db.jobs.get? job.id = some row ∧ row.commitId = commitId ∧ row.remoteId = job.remoteId := by
  obtain ⟨row, chosen, rfl⟩ := Option.map_eq_some_iff.mp found
  have listed := Table.mem_select.mp (OnePerKey.mem_of_queryRow picking.jobPicks chosen)
  exact ⟨row.2, listed.1, of_decide_eq_true listed.2, rfl⟩

theorem statusPage_eq_ok {page : StatusPage} :
    picking.statusPage db repoId commitId sha = .ok page ↔ ∃ shortSha job run repo,
      shortCommit sha = .ok shortSha ∧ picking.jobByCommitId db commitId = some job ∧
        db.lastRunForJob job.id = some run ∧ db.repoById repoId = some repo ∧
        page = ⟨sha, shortSha, db.niceNameForCommit commitId, job, run, repo.name⟩ := by
  simp only [Picking.statusPage, Outcome.bind_eq_ok, Outcome.expectSome_eq_ok, Outcome.pure_eq,
    Outcome.ok.injEq]
  constructor
  · rintro ⟨shortSha, cut, job, found, run, last, repo, named, rfl⟩
    exact ⟨shortSha, job, run, repo, cut, found, last, named, rfl⟩
  · rintro ⟨shortSha, job, run, repo, cut, found, last, named, rfl⟩
    exact ⟨shortSha, cut, job, found, run, last, repo, named, rfl⟩

/-- A page that is rendered has been found for the string. -/
theorem handleCommitStatus_eq_ok {path : String × String × String} {page : StatusPage} :
    picking.handleCommitStatus db path = .ok page ↔ ∃ repoId commitId sha,
      picking.lookUp db path = .ok (repoId, commitId, sha) ∧
        picking.statusPage db repoId commitId sha = .ok page := by
  simp only [Picking.handleCommitStatus, Outcome.bind_eq_ok, Prod.exists]

theorem takeBytes_ne_err (n : Nat) (text : List Char) (error : String) :
    takeBytes n text ≠ .err error := by
  induction text generalizing n with
  | nil => cases n <;> simp [takeBytes]
  | cons c text ih =>
    cases n with
    | zero => simp [takeBytes]
    | succ n =>
      unfold takeBytes
      split
      · rw [Ne, Outcome.bind_eq_err]
        rintro (failed | ⟨kept, _, returned⟩)
        · exact ih _ failed
        · contradiction
      · simp

theorem statusPage_ne_err (picking : Picking) (db : Db) (repoId commitId : Nat) (sha html : String) :
    picking.statusPage db repoId commitId sha ≠ .err html := by
  simp only [Picking.statusPage, shortCommit, ne_eq, Outcome.bind_eq_err, takeBytes_ne_err,
    Outcome.expectSome_ne_err, false_or, Outcome.pure_eq, reduceCtorEq, and_false, exists_false,
    not_false_eq_true]

/-- The answer NOT_FOUND is given by the first two lookups only. -/
theorem handleCommitStatus_eq_err {path : String × String × String} :
    picking.handleCommitStatus db path = .err html ↔ picking.lookUp db path = .err html := by
  rw [Picking.handleCommitStatus, Outcome.bind_eq_err]
  refine or_iff_left ?_
  rintro ⟨found, _, failed⟩
  exact statusPage_ne_err _ _ _ _ _ _ failed

end Lookups

section Status
variable {db : Db} {path : String × String × String} {asked : String}

theorem shows_asked_for (fits : StatusFits db (path.1 ++ "/" ++ path.2.1) path.2.2)
    (picking : Picking) : ShowsAskedFor picking db path := by
  have fitting : ∀ repoId commitId sha, picking.lookUp db path = .ok (repoId, commitId, sha) →
      Fits db repoId path.2.2 ∧ Matched db path.2.2 commitId sha := by
    intro repoId commitId sha found
    obtain ⟨remoteId, chosen, lookedUp⟩ := lookUp_eq_ok.mp found
    obtain ⟨remote, held, here, rfl⟩ := remoteByPath_found chosen
    obtain ⟨long, matched⟩ := lookUpCommit_matched lookedUp
    exact ⟨fits long remoteId remote held here, matched⟩
  refine ⟨fun repoId commitId sha found => ?_, fun repoId commitId sha page found shown => ?_,
    fun none => ?_⟩
  · obtain ⟨fits, matched⟩ := fitting repoId commitId sha found
    exact fits.sha commitId sha matched
  · obtain ⟨fits, matched⟩ := fitting repoId commitId sha found
    obtain ⟨_, _, _, found', rendered⟩ := handleCommitStatus_eq_ok.mp shown
    cases found.symm.trans found'
    obtain ⟨shortSha, job, run, repo, cut, chosen, last, named, rfl⟩ := statusPage_eq_ok.mp rendered
    obtain ⟨row, held, same, remote⟩ := jobByCommitId_found chosen
    rw [← remote]
    exact fits.job commitId sha matched (shortCommit_ok_iff.mp ⟨shortSha, cut⟩)
      (Option.isSome_of_eq_some named) job.id row held same (Option.isSome_of_eq_some last)
  · simp only [handleCommitStatus_eq_err]
    unfold Picking.lookUp
    cases chosen : picking.remoteByPath db (path.1 ++ "/" ++ path.2.1) with
    | none => exact ⟨noSuchRemote, rfl⟩
    | some remote =>
      obtain ⟨remoteId, repoId⟩ := remote
      obtain ⟨remote, held, here, rfl⟩ := remoteByPath_found chosen
      refine ⟨noSuchCommit, ?_⟩
      by_cases long : 7 ≤ path.2.2.utf8ByteSize
      · have absent := mt (fits long remoteId remote held here).found (none remoteId _ chosen)
        rw [not_or] at absent
        simp only [lookUpCommit_absent absent.1 absent.2, Outcome.err_bind]
      · simp only [Picking.lookUpCommit, if_neg long, Outcome.err_bind]

/-- Any remote with the path, any commit that meets the pattern and any job of a commit may
be the ones answered. -/
theorem exists_picking (remote : Option (Nat × RemoteRow)) (commit : Option (Nat × String))
    (job : Option (Nat × JobRow)) : ∃ picking : Picking,
      (∀ a ∈ remote, ∀ rows, a ∈ rows → queryRow picking.remote rows = some a) ∧
      (∀ a ∈ commit, ∀ rows, a ∈ rows → queryRow picking.commit rows = some a) ∧
      ∀ a ∈ job, ∀ rows, a ∈ rows → queryRow picking.job rows = some a := by
  obtain ⟨pickRemote, remotePicks, takesRemote⟩ := OnePerKey.picks_row remote
  obtain ⟨pickCommit, commitPicks, takesCommit⟩ := OnePerKey.picks_row commit
  obtain ⟨pickJob, jobPicks, takesJob⟩ := OnePerKey.picks_row job
  exact ⟨⟨pickRemote, pickCommit, pickJob, remotePicks, commitPicks, jobPicks⟩, takesRemote,
    takesCommit, takesJob⟩

theorem remoteByPath_of_takes {picking : Picking} (held : db.remotes.get? remoteId = some remote)
    (here : remote.remotePath = remotePath)
    (takes : ∀ rows, (remoteId, remote) ∈ rows → queryRow picking.remote rows = some (remoteId, remote)) :
    picking.remoteByPath db remotePath = some (remoteId, remote.repoId) := by
  rw [Picking.remoteByPath, takes _ (Table.mem_select.mpr ⟨held, decide_eq_true here⟩)]
  rfl

theorem lookUpCommit_of_takes {picking : Picking} (long : 7 ≤ asked.utf8ByteSize)
    (matched : Matched db asked commitId sha)
    (takes : ∀ rows, (commitId, sha) ∈ rows → queryRow picking.commit rows = some (commitId, sha)) :
    picking.lookUpCommit db asked = .ok (commitId, sha) := by
  rw [lookUpCommit_of_fits long matched.1, takes _ ((mem_commits_like matched.1).mpr matched)]

theorem fits_of_shown (shown : ∀ picking : Picking, ShowsAskedFor picking db path) :
    StatusFits db (path.1 ++ "/" ++ path.2.1) path.2.2 := by
  intro long remoteId remote held here
  refine ⟨fun commitId sha matched => ?_, fun commitId sha matched sliceable known jobId job heldJob
    ofCommit started => ?_, fun found => ?_⟩
  · obtain ⟨picking, takesRemote, takesCommit, _⟩ :=
      exists_picking (some (remoteId, remote)) (some (commitId, sha)) none
    have remoteFound := remoteByPath_of_takes held here (takesRemote _ rfl)
    have commitFound := lookUpCommit_of_takes long matched (takesCommit _ rfl)
    exact (shown picking).sha _ _ _ (lookUp_eq_ok.mpr ⟨remoteId, remoteFound, commitFound⟩)
  · obtain ⟨picking, takesRemote, takesCommit, takesJob⟩ :=
      exists_picking (some (remoteId, remote)) (some (commitId, sha)) (some (jobId, job))
    have remoteFound := remoteByPath_of_takes held here (takesRemote _ rfl)
    have commitFound := lookUpCommit_of_takes long matched (takesCommit _ rfl)
    have lookedUp := lookUp_eq_ok.mpr ⟨remoteId, remoteFound, commitFound⟩
    have jobFound : picking.jobByCommitId db commitId = some (job.withId jobId) := by
      rw [Picking.jobByCommitId, takesJob _ rfl _ (Table.mem_select.mpr ⟨heldJob, decide_eq_true ofCommit⟩)]
      rfl
    obtain ⟨shortSha, cut⟩ := shortCommit_ok_iff.mpr sliceable
    obtain ⟨run, last⟩ := Option.isSome_iff_exists.mp started
    obtain ⟨repo, named⟩ := Option.isSome_iff_exists.mp known
    exact (shown picking).job _ _ _ _ lookedUp (handleCommitStatus_eq_ok.mpr
      ⟨_, _, _, lookedUp, statusPage_eq_ok.mpr ⟨_, _, _, _, cut, jobFound, last, named, rfl⟩⟩)
  · by_contra unasked
    obtain ⟨picking, takesRemote, _⟩ := exists_picking (some (remoteId, remote)) none none
    have remoteFound := remoteByPath_of_takes held here (takesRemote _ rfl)
    obtain ⟨html, missing⟩ := (shown picking).absent (by
      intro remoteId' repoId' chosen
      cases remoteFound.symm.trans chosen
      exact unasked)
    rw [handleCommitStatus_eq_err, Picking.lookUp, remoteFound] at missing
    rcases found with ⟨commitId, sha, matched⟩ | complex
    · obtain ⟨commit, found⟩ := lookUpCommit_found picking long matched
      simp [found] at missing
    · simp [lookUpCommit_complex long complex] at missing

/-- Whichever rows SQLite answers. -/
theorem status_page_exact_iff (db : Db) (path : String × String × String) :
    (∀ picking : Picking, ShowsAskedFor picking db path) ↔
      StatusFits db (path.1 ++ "/" ++ path.2.1) path.2.2 :=
  ⟨fits_of_shown, shows_asked_for⟩

/-- A repo, and a commit that begins with another string than the one asked for below. -/
def oneCommit : Db :=
  { Db.empty with
    repos := Table.empty.insert ⟨"app", none⟩
    remotes := Table.empty.insert ⟨1, "mine/app", "github", "", "", ""⟩
    commits := Table.empty.insert "0123456789"
    jobs := Table.empty.insert ⟨none, 0, 1, 1, none⟩
    runs := Table.empty.insert (Db.pendingRow 1 none 0) }

/-- The answers are those of a scan of the table. -/
def Picking.first : Picking where
  remote := List.head?
  commit := List.head?
  job := List.head?
  remotePicks := OnePerKey.picks_head
  commitPicks := OnePerKey.picks_head
  jobPicks := OnePerKey.picks_head

theorem wildcards_show_another : ¬ ∀ (picking : Picking) (db : Db) (path : String × String × String),
    ShowsAskedFor picking db path := by
  intro always
  have found : Picking.first.lookUp oneCommit ("mine", "app", "_______") = .ok (1, 1, "0123456789") := by
    decide
  have begins := (always Picking.first oneCommit ("mine", "app", "_______")).sha 1 1 "0123456789" found
  contradiction

example : ∃ page, Picking.first.handleCommitStatus oneCommit ("mine", "app", "_______") = .ok page :=
  ⟨_, rfl⟩

end Status
end BuildOTron.Web
