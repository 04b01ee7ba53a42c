import Mathlib.Data.List.Nodup
import Mathlib.Logic.Function.Basic

/-! Files that are opened for writing at their start, created when missing and never
truncated. What was written through an opening keeps its place in the file only as long as
no other opening of that file writes there. -/

/-- The content of each file, and every opening with what was written through it. -/
structure OpenFiles (ν α : Type) where
  files : ν → Option (List α)
  opened : List (ν × List α)

namespace OpenFiles
variable {ν α : Type} [DecidableEq ν] {s : OpenFiles ν α}

def empty : OpenFiles ν α := ⟨fun _ => none, []⟩

/-- `create(true)` without `truncate`. -/
def openFile (s : OpenFiles ν α) (name : ν) : OpenFiles ν α where
  files := Function.update s.files name (some ((s.files name).getD []))
  opened := s.opened ++ [(name, [])]

/-- A write puts a chunk in the place of what stood at the offset. -/
def overwrite (content : List α) (offset : Nat) (chunk : List α) : List α :=
  content.take offset ++ chunk ++ content.drop (offset + chunk.length)

/-- A write through the `i`-th opening, behind what was written through it before. -/
def write (s : OpenFiles ν α) (i : Nat) (chunk : List α) : Option (OpenFiles ν α) :=
  (s.opened[i]?).map fun handle =>
    { files := Function.update s.files handle.1
        (some (overwrite ((s.files handle.1).getD []) handle.2.length chunk))
      opened := s.opened.set i (handle.1, handle.2 ++ chunk) }

/-- Every opening has a file of its own, which holds what was written through it. -/
structure Separate (s : OpenFiles ν α) : Prop where
  own : (s.opened.map Prod.fst).Nodup
  content : ∀ handle ∈ s.opened, s.files handle.1 = some handle.2

/-- No file but those that were opened. -/
def Owned (s : OpenFiles ν α) : Prop := ∀ name, s.files name ≠ none → name ∈ s.opened.map Prod.fst

omit [DecidableEq ν] in
theorem separate_empty : Separate (empty : OpenFiles ν α) := ⟨List.nodup_nil, by simp [empty]⟩

omit [DecidableEq ν] in
theorem owned_empty : Owned (empty : OpenFiles ν α) := fun _ present => absurd rfl present

theorem overwrite_end (content chunk : List α) :
    overwrite content content.length chunk = content ++ chunk := by
  rw [overwrite, List.take_length, List.drop_eq_nil_of_le (Nat.le_add_right _ _), List.append_nil]

theorem files_open_self (s : OpenFiles ν α) (name : ν) :
    (s.openFile name).files name = some ((s.files name).getD []) :=
  Function.update_self ..

theorem files_open_of_ne (s : OpenFiles ν α) (apart : other ≠ name) :
    (s.openFile name).files other = s.files other :=
  Function.update_of_ne apart ..

theorem names_open (s : OpenFiles ν α) (name : ν) :
    (s.openFile name).opened.map Prod.fst = s.opened.map Prod.fst ++ [name] := by
  rw [openFile, List.map_append]
  rfl

theorem owned_open (owned : Owned s) (name : ν) : Owned (s.openFile name) := by
  intro other present
  rw [names_open, List.mem_append, List.mem_singleton]
  by_cases same : other = name
  · exact .inr same
  · rw [files_open_of_ne s same] at present
    exact .inl (owned other present)

/-- A name that is new opens an empty file. -/
theorem separate_open (separate : Separate s) (owned : Owned s)
    (new : name ∉ s.opened.map Prod.fst) : Separate (s.openFile name) := by
  have missing : s.files name = none := by
    by_contra present
    exact new (owned name present)
  refine ⟨?_, ?_⟩
  · rw [names_open, ← List.concat_eq_append]
    exact separate.own.concat new
  · intro handle member
    rcases List.mem_append.mp member with before | last
    · have apart : handle.1 ≠ name := by
        rintro rfl
        exact new (List.mem_map_of_mem before)
      rw [files_open_of_ne s apart]
      exact separate.content handle before
    · cases List.mem_singleton.mp last
      rw [files_open_self, missing]
      rfl

/-- What a write does: the file of one opening changes, and what was written through it. -/
theorem write_eq (written : s.write i chunk = some t) : ∃ handle, s.opened[i]? = some handle ∧
    t.files = Function.update s.files handle.1
      (some (overwrite ((s.files handle.1).getD []) handle.2.length chunk)) ∧
    t.opened = s.opened.set i (handle.1, handle.2 ++ chunk) := by
  obtain ⟨handle, found, rfl⟩ := Option.map_eq_some_iff.mp written
  exact ⟨handle, found, rfl, rfl⟩

theorem names_write (written : s.write i chunk = some t) :
    t.opened.map Prod.fst = s.opened.map Prod.fst := by
  obtain ⟨handle, found, _, opened⟩ := write_eq written
  apply List.ext_getElem?
  intro j
  rw [opened, List.getElem?_map, List.getElem?_map, List.getElem?_set]
  split
  · rename_i same
    subst same
    have inside := (List.getElem?_eq_some_iff.mp found).1
    rw [if_pos inside, found]
    rfl
  · rfl

theorem owned_write (owned : Owned s) (written : s.write i chunk = some t) : Owned t := by
  intro name present
  rw [names_write written]
  obtain ⟨handle, found, files, _⟩ := write_eq written
  by_cases same : name = handle.1
  · rw [same]
    exact List.mem_map_of_mem (List.mem_of_getElem? found)
  · rw [files, Function.update_of_ne same] at present
    exact owned name present

/-- In a file of its own, a write goes to the end. -/
theorem separate_write (separate : Separate s) (written : s.write i chunk = some t) :
    Separate t := by
  have names := names_write written
  obtain ⟨handle, found, files, opened⟩ := write_eq written
  refine ⟨names ▸ separate.own, ?_⟩
  intro other member
  obtain ⟨j, listed⟩ := List.mem_iff_getElem?.mp member
  rw [opened, List.getElem?_set] at listed
  rw [files]
  split at listed
  · rw [if_pos (List.getElem?_eq_some_iff.mp found).1] at listed
    cases listed
    have before := separate.content handle (List.mem_of_getElem? found)
    rw [Function.update_self, before, Option.getD_some, overwrite_end]
  · rename_i apart
    have distinct : other.1 ≠ handle.1 := by
      intro same
      have inside := (List.getElem?_eq_some_iff.mp found).1
      refine apart ((List.getElem?_inj (by rwa [List.length_map]) separate.own).mp ?_)
      rw [List.getElem?_map, List.getElem?_map, found, listed]
      exact congrArg some same.symm
    rw [Function.update_of_ne distinct]
    exact separate.content other (List.mem_of_getElem? listed)

end OpenFiles
