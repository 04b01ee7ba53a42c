import Mathlib.Data.List.Basic

/-! `file_name` and `parent` of a path, as Rust has them on Unix: separators and inner
`.` parts are skipped, a leading `.` is a component of its own. -/

structure UnixPath where
  /-- `/`, a leading `.`, or nothing -/
  root : String
  body : List String
  deriving DecidableEq, Repr

namespace UnixPath

def ofString (path : String) : UnixPath :=
  match (path.toList.splitOn '/').map String.ofList with
  | "" :: next :: rest => ⟨"/", next :: rest⟩
  | "." :: rest => ⟨".", rest⟩
  | parts => ⟨"", parts⟩

def toString (path : UnixPath) : String :=
  let body := "/".intercalate path.body
  if path.root = "." ∧ path.body ≠ [] then "./" ++ body else path.root ++ body

/-- Up to the last component. -/
def trimRight (parts : List String) : List String :=
  (parts.reverse.dropWhile fun part => part = "" ∨ part = ".").reverse

def fileName (path : UnixPath) : Option String :=
  match (trimRight path.body).getLast? with
  | some ".." | none => none
  | some name => some name

def parent (path : UnixPath) : Option UnixPath :=
  match trimRight path.body with
  | [] => if path.root = "." then some ⟨"", []⟩ else none
  | parts => some ⟨path.root, trimRight parts.dropLast⟩

end UnixPath
