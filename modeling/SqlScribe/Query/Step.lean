import SqlScribe.Query.Change
import SqlScribe.Query.Join
import SqlScribe.Query.Select
/-! # Steps

The calls that build a query, as data: a program of steps can be run, and statements about every
query that can be built speak of such programs. -/

namespace SqlScribe

namespace Query

/-- A call that builds a query. -/
inductive Step where
  /-- Sets whether calls give the query a new identity. -/
  | setImmutable (immutable : Bool)
  /-- Gives the query another identity. -/
  | fork
  /-- Names the query. -/
  | aliased (name : String)
  /-- Adds a source. -/
  | source (s : Source)
  /-- Adds a query that is referred to by name. -/
  | commonTable (t : CommonTable)
  /-- Adds items to the select list. -/
  | select (items : List SelectItem)
  /-- Drops repeated rows. -/
  | distinct
  /-- Keeps one row for equal values of some items. -/
  | distinctOn (items : List SelectItem)
  /-- Keeps a number or a share of the rows. -/
  | top (t : Top)
  /-- Keeps the rows of which a condition holds too. -/
  | filter (c : Condition)
  /-- Keeps the groups of which a condition holds too. -/
  | having (c : Condition)
  /-- Groups the rows. -/
  | groupBy (items : List SelectItem)
  /-- Adds super-aggregate rows. -/
  | rollup (items : List SelectItem)
  /-- Orders the rows. -/
  | orderBy (items : List SelectItem) (order : Option SortOrder)
  /-- Keeps so many rows. -/
  | limit (n : UInt64)
  /-- Passes over so many rows. -/
  | offset (n : UInt64)
  /-- Locks the rows. -/
  | lock (l : Lock)
  /-- Joins a source. -/
  | join (kind : JoinKind) (source : Source) (rule : JoinRule)
  /-- Sets the target of an insertion. -/
  | into (t : Table)
  /-- Adds columns of inserted rows. -/
  | columns (items : List SelectItem)
  /-- Adds inserted rows. -/
  | rows (rows : List (List Term))
  /-- Adds a row that replaces an existing one. -/
  | replace (row : List Term)
  /-- Passes over conflicts. -/
  | ignore
  /-- Replaces rows in conflict. -/
  | insertOrReplace
  /-- Sets the target of an update. -/
  | update (t : Table)
  /-- Gives a column a value. -/
  | assign (column : SelectItem) (value : Term)
  /-- Makes the query a deletion. -/
  | delete
  /-- Adds further tables of a deletion. -/
  | usingTables (tables : List Table)
  /-- Adds columns in conflict. -/
  | onConflict (items : List SelectItem)
  /-- Passes over rows in conflict. -/
  | doNothing
  /-- Changes rows in conflict. -/
  | doUpdate (item : SelectItem) (value : Option Term)
  /-- Restricts the conflict clause. -/
  | conflictWhere (c : Condition)
  /-- Changes rows with duplicate keys. -/
  | onDuplicateUpdate (item : SelectItem) (value : Term)
  /-- Passes over rows with duplicate keys. -/
  | onDuplicateIgnore
  /-- Adds returned items. -/
  | returning (items : List SelectItem)

/-- The query after a step, before its identity is settled. -/
def change (q : Query) : Step → Except QueryError Query
  | .setImmutable immutable => .ok (q.setImmutable immutable)
  | .fork => .ok q
  | .aliased name => .ok (q.aliased name)
  | .source s => .ok (q.addSource s)
  | .commonTable t => .ok (q.addCommonTable t)
  | .select items => q.select items
  | .distinct => .ok q.distinct
  | .distinctOn items => .ok (q.distinctOver items)
  | .top t => q.top t
  | .filter c => .ok (q.restrict c)
  | .having c => .ok (q.restrictGroups c)
  | .groupBy items => .ok (q.group items)
  | .rollup items => q.rollup items
  | .orderBy items order => .ok (q.order items order)
  | .limit n => .ok (q.limit n)
  | .offset n => .ok (q.offset n)
  | .lock l => .ok (q.lock l)
  | .join kind source rule => q.join kind source rule
  | .into t => q.into t
  | .columns items => q.addColumns items
  | .rows rows => q.addRows rows
  | .replace row => q.replaceRow row
  | .ignore => .ok (q.setInsertMode .ignore)
  | .insertOrReplace => .ok (q.setInsertMode .insertOrReplace)
  | .update t => q.update t
  | .assign column value => .ok (q.assign column value)
  | .delete => q.delete
  | .usingTables tables => .ok (q.addUsing tables)
  | .onConflict items => q.onConflict items
  | .doNothing => q.doNothing
  | .doUpdate item value => q.doUpdate item value
  | .conflictWhere c => q.conflictWhere c
  | .onDuplicateUpdate item value => q.onDuplicateUpdate item value
  | .onDuplicateIgnore => q.onDuplicateIgnore
  | .returning items => q.returningItems items

/-- The identity of a query after a step: a fork always has a new one, a query that is named or made
mutable or immutable keeps its own, and any other step gives an immutable query a new one. -/
def settled (q : Query) (fresh : SourceId) : Step → Query
  | .setImmutable _ => q
  | .aliased _ => q
  | .fork => q.fork fresh
  | _ => q.touched fresh

/-- The query after a step; `fresh` is an identity that nothing has yet. -/
def step (q : Query) (fresh : SourceId) (s : Step) : Except QueryError Query := do
  return (← q.change s).settled fresh s

end Query

namespace Table

/-- A query in the dialect of the handle. -/
def newQuery (t : Table) (id : SourceId) : Query := Query.start id (t.dialect.getD .ansi)

/-- A field of the table. -/
def field (t : Table) (name : String) : Term := Term.qualified (.table t) name

/-- All fields of the table. -/
def star (t : Table) : Term := Term.starOf (.table t)

/-- A selection from the table. -/
def select (t : Table) (id : SourceId) (items : List SelectItem) : Except QueryError Query :=
  ((t.newQuery id).addSource (.table t)).select items

/-- An update of the table. -/
def update (t : Table) (id : SourceId) : Query := (t.newQuery id).updating t

/-- An insertion of a row into the table. -/
def insert (t : Table) (id : SourceId) (row : List Term) : Except QueryError Query := do
  ((← (t.newQuery id).into t)).addRows [row]

end Table

end SqlScribe
