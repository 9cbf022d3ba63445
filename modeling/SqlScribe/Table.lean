import SqlScribe.Dialect
/-! # Tables and qualifiers

A table handle names a table and has an identity of its own, so that two handles of one table can
take part in one query and fields can be traced back to the handle they were taken from. A
qualifier is what stands before the dot of a field. -/

namespace SqlScribe

/-- The identity of a table handle, query or set operation. -/
structure SourceId where
  /-- The number that tells it from others. -/
  index : Nat
deriving Repr, DecidableEq, Hashable, Inhabited

/-- A handle of a table. -/
structure Table where
  /-- The identity of the handle. -/
  id : SourceId
  /-- The name of the table. -/
  name : String
  /-- The names of the schemas that lead to the table, outermost first. -/
  schema : List String := []
  /-- The name that the table is given in a statement. -/
  alias? : Option String := none
  /-- The dialect of statements begun from this handle. -/
  dialect : Option Dialect := none
deriving Repr, Inhabited

namespace Table

/-- Handles are equal when they name the same table, whatever their aliases and identities. -/
def same (a b : Table) : Bool := a.schema == b.schema && a.name == b.name

instance : BEq Table := ⟨same⟩

/-- The handle under another schema path. -/
def inSchema (t : Table) (path : List String) : Table := { t with schema := path }

/-- The handle under an alias. -/
def aliased (t : Table) (name : String) : Table := { t with alias? := some name }

/-- The handle for statements of a dialect. -/
def forDialect (t : Table) (d : Dialect) : Table := { t with dialect := some d }

/-- The name that the table goes by in a statement: its alias if it has one. -/
def shownName (t : Table) : String := t.alias?.getD t.name

@[simp] theorem beq_iff (a b : Table) :
    (a == b) = true ↔ a.schema = b.schema ∧ a.name = b.name := by
  show same a b = true ↔ _
  simp [same]

end Table

/-- What a field or star belongs to. -/
inductive Qualifier where
  /-- A table handle. -/
  | table (t : Table)
  /-- A query or set operation, with the alias it had when the field was taken from it. -/
  | subquery (id : SourceId) (alias? : Option String)
  /-- A word that is written as it stands. -/
  | raw (text : String)
deriving Repr, Inhabited

namespace Qualifier

/-- Qualifiers are equal when they are equal tables, the same query or the same word. -/
def same : Qualifier → Qualifier → Bool
  | .table a, .table b => a == b
  | .subquery a _, .subquery b _ => a == b
  | .raw a, .raw b => a == b
  | _, _ => false

instance : BEq Qualifier := ⟨same⟩

/-- The qualifier as it is named in a message. -/
def description : Qualifier → String
  | .table t => "table \"" ++ t.shownName ++ "\""
  | .subquery _ (some name) => "subquery \"" ++ name ++ "\""
  | .subquery _ none => "a subquery"
  | .raw text => text

end Qualifier

end SqlScribe
