import SqlScribe.Query.Basic
/-! # Set operations

A query and further operands with set operators between them, in the order in which they were
added. -/

namespace SqlScribe

/-- A set operation of two queries. -/
def Query.combine (q : Query) (id : SourceId) (op : SetOperator) (other : Query) : Compound :=
  { id, base := q, operands := [⟨op, other⟩], orderBy := [] }

namespace Compound

/-- Set operations are equal when they have the same identity. -/
instance : BEq Compound := ⟨fun a b => a.id == b.id⟩

/-- The set operation with one more operand. -/
def combine (c : Compound) (op : SetOperator) (other : Query) : Compound :=
  { c with operands := c.operands ++ [⟨op, other⟩] }

/-- Orders the result by some items too. Columns belong to no source. -/
def order (c : Compound) (items : List SelectItem) (direction : Option SortOrder) : Compound :=
  { c with orderBy := c.orderBy ++ items.map fun item => ⟨item.toTerm none, direction⟩ }

/-- Keeps so many rows. -/
def keep (c : Compound) (n : UInt64) : Compound := { c with limit := some n }

/-- Passes over so many rows. -/
def skip (c : Compound) (n : UInt64) : Compound := { c with offset := some n }

/-- The set operation under a name. It keeps its identity. -/
def aliased (c : Compound) (name : String) : Compound := { c with alias? := some name }

/-- What fields of the set operation belong to. -/
def qualifier (c : Compound) : Qualifier := .subquery c.id c.alias?

/-- A field of the set operation. -/
def field (c : Compound) (name : String) : Term := Term.qualified c.qualifier name

/-- All fields of the set operation. -/
def star (c : Compound) : Term := Term.starOf c.qualifier

end Compound

end SqlScribe
