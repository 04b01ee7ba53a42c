import BuildOTron.Lib.OpenFiles
import BuildOTron.Lib.Machine

/-! `LocalRunner::create_artifact`: an artifact of a local job is a file of the working
directory, named after the artifact, opened without truncation and written from its start. -/
namespace BuildOTron.Runner
open Transition

def replaceChar (c : Char) (text : String) : String :=
  String.ofList (text.toList.map fun d => if d = c then '_' else d)

/-- `name.replace("/", "_").replace("\\", "_")`. -/
def artifactFileName (name : String) : String := replaceChar '\\' (replaceChar '/' name)

/-- How opening a file of the working directory for writing fails. -/
inductive OpenError where
  | isADirectory
  | nulByte
  | tooLong
  deriving DecidableEq, Repr

/-- `{:?}`. -/
def OpenError.debug : OpenError → String
  | .isADirectory => "Os \x7b code: 21, kind: IsADirectory, message: \"Is a directory\" \x7d"
  | .nulByte =>
    "Error \x7b kind: InvalidInput, message: \"file name contained an unexpected NUL byte\" \x7d"
  | .tooLong => "Os \x7b code: 36, kind: InvalidFilename, message: \"File name too long\" \x7d"

/-- The directory holds nothing but artifacts, so `create` meets no other obstacle. The path
of an empty name is the directory. -/
def openError (file : String) : Option OpenError :=
  if Char.ofNat 0 ∈ file.toList then some .nulByte
  else if file = "" ∨ file = "." ∨ file = ".." then some .isADirectory
  else if 255 < file.utf8ByteSize then some .tooLong
  else none

/-- The files of `ci_working_dir`, and the errors of the artifacts that were not created. -/
structure LocalRunner where
  workingDir : OpenFiles String UInt8
  errors : List String

inductive LocalLabel where
  | create (name : String)
  /-- a write of the forwarder of the `i`-th artifact -/
  | write (i : Nat) (chunk : List UInt8)

namespace LocalRunner

def start : LocalRunner := ⟨.empty, []⟩

def createArtifact (s : LocalRunner) (name : String) : LocalRunner :=
  match openError (artifactFileName name) with
  | some error =>
    { s with errors := s.errors ++
        ["error opening file to store artifact " ++ name ++ ": " ++ error.debug] }
  | none => { s with workingDir := s.workingDir.openFile (artifactFileName name) }

end LocalRunner

def localMachine : Machine LocalRunner LocalLabel where
  step s
    | .create name => some (s.createArtifact name)
    | .write i chunk => (s.workingDir.write i chunk).map fun dir => { s with workingDir := dir }

/-- The names of the artifacts that a run creates. -/
def artifactNames : List LocalLabel → List String
  | [] => []
  | .create name :: ls => name :: artifactNames ls
  | .write _ _ :: ls => artifactNames ls

/-- A file of the working directory itself. -/
def Inside (file : String) : Prop := '/' ∉ file.toList ∧ file ≠ "" ∧ file ≠ "." ∧ file ≠ ".."

/-- Every artifact is in a file of its own in the working directory, which holds what was
written to it. -/
structure Kept (s : LocalRunner) : Prop where
  created : s.errors = []
  inside : ∀ artifact ∈ s.workingDir.opened, Inside artifact.1
  own : (s.workingDir.opened.map Prod.fst).Nodup
  content : ∀ artifact ∈ s.workingDir.opened,
    s.workingDir.files artifact.1 = some artifact.2

/-- The file names of the artifacts can be opened and are all different. -/
structure NamesApart (names : List String) : Prop where
  openable : ∀ name ∈ names, openError (artifactFileName name) = none
  apart : (names.map artifactFileName).Nodup

section
variable {s t : LocalRunner} {names : List String}

theorem slash_not_mem (name : String) : '/' ∉ (artifactFileName name).toList := by
  simp only [artifactFileName, replaceChar, String.toList_ofList, List.mem_map, not_exists, not_and]
  rintro c ⟨d, _, rfl⟩
  split <;> split <;> simp_all

theorem inside_of_openable (openable : openError (artifactFileName name) = none) :
    Inside (artifactFileName name) := by
  have plain : ¬ (artifactFileName name = "" ∨ artifactFileName name = "." ∨
      artifactFileName name = "..") := by
    intro special
    rw [openError, if_pos special] at openable
    split at openable <;> cases openable
  simp only [not_or] at plain
  exact ⟨slash_not_mem name, plain⟩

/-- What the run so far has made of its names. -/
structure Tracks (names : List String) (s : LocalRunner) : Prop where
  files : s.workingDir.opened.map Prod.fst =
    (names.map artifactFileName).filter fun file => (openError file).isNone
  failed : s.errors = [] ↔ ∀ name ∈ names, openError (artifactFileName name) = none
  owned : s.workingDir.Owned
  separate : NamesApart names → s.workingDir.Separate

theorem tracks_start : Tracks [] .start where
  files := rfl
  failed := by simp [LocalRunner.start]
  owned := OpenFiles.owned_empty
  separate _ := OpenFiles.separate_empty

theorem NamesApart.init (apart : NamesApart (names ++ [name])) : NamesApart names where
  openable other listed := apart.openable other (List.mem_append_left _ listed)
  apart := by
    have all := apart.apart
    rw [List.map_append] at all
    exact all.of_append_left

theorem tracks_create (tracks : Tracks names s) (name : String) :
    Tracks (names ++ [name]) (s.createArtifact name) := by
  unfold LocalRunner.createArtifact
  split
  · rename_i error refused
    refine ⟨?_, ?_, tracks.owned, fun apart => tracks.separate apart.init⟩
    · rw [List.map_append, List.filter_append, ← tracks.files]
      simp [refused]
    · refine iff_of_false (by simp) fun all => ?_
      have openable := all name (by simp)
      exact Option.some_ne_none error (refused.symm.trans openable)
  · rename_i openable
    refine ⟨?_, ?_, OpenFiles.owned_open tracks.owned _, fun apart => ?_⟩
    · rw [OpenFiles.names_open, tracks.files, List.map_append, List.filter_append]
      simp [openable]
    · rw [tracks.failed, List.forall_mem_append]
      simp [openable]
    · refine OpenFiles.separate_open (tracks.separate apart.init) tracks.owned ?_
      have distinct := apart.apart
      rw [List.map_append, List.map_singleton] at distinct
      rw [tracks.files]
      intro listed
      exact (List.nodup_append.mp distinct).2.2 _ (List.mem_of_mem_filter listed) _
        (List.mem_singleton_self _) rfl

theorem tracks_write (tracks : Tracks names s) (written : s.workingDir.write i chunk = some dir) :
    Tracks names { s with workingDir := dir } where
  files := (OpenFiles.names_write written).trans tracks.files
  failed := tracks.failed
  owned := OpenFiles.owned_write tracks.owned written
  separate apart := OpenFiles.separate_write (tracks.separate apart) written

theorem tracks_run (tracks : Tracks names s) (path : localMachine.run s ls = some t) :
    Tracks (names ++ artifactNames ls) t := by
  induction ls generalizing names s with
  | nil =>
    cases path
    rwa [artifactNames, List.append_nil]
  | cons l ls ih =>
    obtain ⟨u, step, rest⟩ := Machine.run_cons.mp path
    cases l with
    | create name =>
      have created : s.createArtifact name = u := Option.some.inj step
      rw [artifactNames, List.append_cons]
      exact ih (created ▸ tracks_create tracks name) rest
    | write i chunk =>
      obtain ⟨dir, written, rfl⟩ := Option.map_eq_some_iff.mp step
      exact ih (tracks_write tracks written) rest

theorem Tracks.all_files (tracks : Tracks names s)
    (openable : ∀ name ∈ names, openError (artifactFileName name) = none) :
    s.workingDir.opened.map Prod.fst = names.map artifactFileName := by
  rw [tracks.files, List.filter_eq_self]
  intro file listed
  obtain ⟨name, member, rfl⟩ := List.mem_map.mp listed
  rw [openable name member]
  rfl

/-- Creations and writes in any order, of any names and contents. -/
theorem local_artifacts_kept_iff (path : localMachine.run .start ls = some s) :
    Kept s ↔ NamesApart (artifactNames ls) := by
  have tracks := tracks_run tracks_start path
  rw [List.nil_append] at tracks
  constructor
  · intro kept
    have openable := tracks.failed.mp kept.created
    exact ⟨openable, tracks.all_files openable ▸ kept.own⟩
  · intro apart
    have separate := tracks.separate apart
    refine ⟨tracks.failed.mpr apart.openable, ?_, separate.own, separate.content⟩
    intro artifact listed
    have file : artifact.1 ∈ s.workingDir.opened.map Prod.fst := List.mem_map_of_mem listed
    rw [tracks.all_files apart.openable] at file
    obtain ⟨name, member, same⟩ := List.mem_map.mp file
    rw [← same]
    exact inside_of_openable (apart.openable name member)

/-- The logs of `execute_command_and_report`, under the name that `run_command` gives. -/
def commandLogs (humanName : String) : List String :=
  [humanName ++ " log (stdout)", humanName ++ " log (stderr)"]

/-- One command, with both of its logs written to in turn. -/
def oneBuild : List LocalLabel :=
  (commandLogs "cc").map .create ++ [.write 0 [97, 98], .write 1 [120], .write 0 [99]]

theorem one_build_kept : ∃ s, localMachine.run .start oneBuild = some s ∧ Kept s := by
  have made : (localMachine.run .start oneBuild).isSome := by decide
  obtain ⟨s, path⟩ := Option.isSome_iff_exists.mp made
  exact ⟨s, path, (local_artifacts_kept_iff path).mpr ⟨by decide, by decide⟩⟩

/-- The same command again, with less to say. -/
def twoBuilds : List LocalLabel :=
  (commandLogs "cc").map .create ++ [.write 0 [97, 98, 99]] ++ (commandLogs "cc").map .create ++
    [.write 2 [122]]

theorem second_build_mixed : ¬ ∀ ls s, localMachine.run .start ls = some s → Kept s := by
  intro always
  have made : (localMachine.run .start twoBuilds).isSome := by decide
  obtain ⟨s, path⟩ := Option.isSome_iff_exists.mp made
  have seen : (localMachine.run .start twoBuilds).map (fun s =>
      (s.workingDir.opened[2]?, s.workingDir.files "cc log (stdout)")) =
        some (some ("cc log (stdout)", [122]), some [122, 98, 99]) := by decide
  rw [path, Option.map_some, Option.some.injEq, Prod.mk.injEq] at seen
  have held := (always twoBuilds s path).content _ (List.mem_of_getElem? seen.1)
  rw [seen.2] at held
  contradiction

end
end BuildOTron.Runner
