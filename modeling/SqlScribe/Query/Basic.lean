import SqlScribe.Condition
/-! # Queries

A query begins empty and grows by calls. A call on an immutable query gives the result an identity
of its own, so that fields taken from the old query are not mistaken for fields of the new one; a
query that is not immutable keeps its identity. Identities come from outside: a call is given one
that nothing has yet. -/

namespace SqlScribe

namespace Query

/-- A query without any clause. -/
def start (id : SourceId) (d : Dialect) : Query :=
  { info := { id, dialect := d }
    commonTables := []
    sources := []
    selects := []
    distinctOn := []
    joins := []
    filter := .empty
    groupBy := []
    having := .empty
    orderBy := []
    columns := []
    rows := []
    conflict := none
    duplicateUpdates := []
    assignments := []
    returning := [] }

instance : Inhabited Query := ⟨start ⟨0⟩ .ansi⟩

/-- The query after a call: with a new identity if it is immutable. -/
def touched (q : Query) (fresh : SourceId) : Query :=
  if q.info.immutable then { q with info.id := fresh } else q

/-- The query under another identity. -/
def fork (q : Query) (fresh : SourceId) : Query := { q with info.id := fresh }

/-- Sets whether calls give the query a new identity. -/
def setImmutable (q : Query) (immutable : Bool) : Query := { q with info.immutable := immutable }

/-- The query under a name. It keeps its identity. -/
def aliased (q : Query) (name : String) : Query := { q with info.alias? := some name }

/-- A field of the query. -/
def field (q : Query) (name : String) : Term := Term.qualified q.qualifier name

/-- All fields of the query. -/
def star (q : Query) : Term := Term.starOf q.qualifier

/-- Queries are equal when they have the same identity. -/
instance : BEq Query := ⟨fun a b => a.info.id == b.info.id⟩

/-- The target of an insertion in a query that does nothing yet. -/
def insertingInto (q : Query) (t : Table) : Query := { q with info.action := .insert t false }

/-- The target of an update in a query that does nothing yet. -/
def updating (q : Query) (t : Table) : Query := { q with info.action := .update t }

end Query

/-- An item of a list in a clause: a column by its name, or a term. -/
inductive SelectItem where
  /-- A column of the first source, or all columns if the name is a star. -/
  | column (name : String)
  /-- A term. -/
  | term (t : Term)

namespace SelectItem

/-- The item as a term; a column belongs to a given qualifier, if there is one. -/
def toTerm (q : Option Qualifier) : SelectItem → Term
  | .column name =>
    if name = "*" then Term.star
    else
      match q with
      | some q => Term.qualified q name
      | none => Term.field name
  | .term t => t

/-- The item as a column that is given a value: a field loses its qualifier and its alias. -/
def toColumn (item : SelectItem) : Term :=
  let t := item.toTerm none
  match t.fieldName? with
  | some name => Term.field name
  | none => t

end SelectItem

namespace Subquery

/-- The query or set operation under a name. -/
def aliased (s : Subquery) (name : String) : Subquery :=
  match s with
  | .query q => .query (q.aliased name)
  | .compound c => .compound { c with alias? := some name }

/-- The number that a query gives its next unnamed source; a set operation gives no numbers. -/
def subqueryCount : Subquery → Nat
  | .query q => q.info.subqueryCount
  | .compound _ => 0

end Subquery

namespace Query

/-- The name made up for an unnamed source. -/
def sourceName (n : Nat) : String := "sq" ++ toString n

/-- Gives an unnamed query or set operation the name of a number, and remembers it; `next` is the
number that the next one gets. -/
def nameSource (q : Query) (number next : Nat) (s : Subquery) : Query × Subquery :=
  let name := sourceName number
  ({ q with
      info.subqueryCount := next
      info.aliases := (s.id, name) :: q.info.aliases },
    s.aliased name)

/-- Adds a source. A query without a name is given one that no source of it or of the query
has. -/
def addSource (q : Query) (s : Source) : Query :=
  match s with
  | .table _ => { q with sources := q.sources ++ [s] }
  | .subquery inner =>
    match inner.alias? with
    | some _ => { q with sources := q.sources ++ [s] }
    | none =>
      let number := max q.info.subqueryCount inner.subqueryCount
      let (q, inner) := q.nameSource number (number + 1) inner
      { q with sources := q.sources ++ [.subquery inner] }

/-- Adds a query that the statement refers to by name. -/
def addCommonTable (q : Query) (t : CommonTable) : Query :=
  { q with commonTables := q.commonTables ++ [t] }

end Query

end SqlScribe
