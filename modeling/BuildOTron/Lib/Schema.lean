import Mathlib.Data.List.Basic

/-! Declared tables and the names in SQL statements. A statement is prepared against
the tables before any of it is done, and refused at the first name that is not there. -/
namespace Sql

structure TableDecl where
  name : String
  columns : List String
  /-- its primary key, UNIQUE constraints and unique indexes -/
  keys : List (List String)

abbrev Schema := List TableDecl

inductive Statement where
  /-- `insert into table (columns)`, and the target of its `on conflict` -/
  | insert (table : String) (columns : List String) (conflict : Option (List String))
  /-- a select or an update, with what it names of each table -/
  | query (tables : List (String × List String))
  deriving DecidableEq, Repr

inductive Error where
  | noSuchTable (table : String)
  /-- what an insert is told -/
  | noColumnNamed (table column : String)
  | noSuchColumn (column : String)
  /-- `on conflict` does not match any primary key or UNIQUE constraint -/
  | noSuchKey (table : String)
  | constraint (columns : String)
  | noRows
  deriving DecidableEq, Repr

def Schema.table (schema : Schema) (name : String) : Except Error TableDecl :=
  match schema.find? fun decl => decl.name = name with
  | some decl => .ok decl
  | none => .error (.noSuchTable name)

def TableDecl.names (decl : TableDecl) (missing : String → Error) (columns : List String) :
    Except Error Unit :=
  match columns.find? fun column => !decl.columns.contains column with
  | none => .ok ()
  | some column => .error (missing column)

/-- The columns of a key may be listed in any order. -/
def TableDecl.matchesKey (decl : TableDecl) : Option (List String) → Except Error Unit
  | none => .ok ()
  | some target =>
    if decl.keys.any fun key => key.isPerm target then .ok () else .error (.noSuchKey decl.name)

def Schema.prepare (schema : Schema) : Statement → Except Error Unit
  | .insert table columns conflict => do
    let decl ← schema.table table
    decl.names (.noColumnNamed table) columns
    decl.matchesKey conflict
  | .query tables => tables.forM fun used => do
    let decl ← schema.table used.1
    decl.names .noSuchColumn used.2

/-- Every name in the statement is declared. -/
def Schema.Accepts (schema : Schema) (statement : Statement) : Prop :=
  schema.prepare statement = .ok ()

instance (schema : Schema) (statement : Statement) : Decidable (schema.Accepts statement) :=
  match prepared : schema.prepare statement with
  | .ok () => .isTrue prepared
  | .error error => .isFalse (by simp [Schema.Accepts, prepared])

end Sql
