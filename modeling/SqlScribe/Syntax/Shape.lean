import SqlScribe.Syntax.Qualifiers
/-! # Shapes of terms and queries

Small questions about the outermost form of a term, condition or query, which decide how it is
written. -/

namespace SqlScribe

namespace Term

/-- The term of an expression, under no alias. -/
def ofExpr (e : Expr) : Term := ⟨e, none⟩

/-- The qualifier of a field or star. -/
def qualifier? (t : Term) : Option Qualifier :=
  match t.expr with
  | .field q _ => q
  | .star q => q
  | _ => none

/-- The name of a field. -/
def fieldName? (t : Term) : Option String :=
  match t.expr with
  | .field _ name => some name
  | _ => none

/-- The term is a field. -/
def isField (t : Term) : Bool := t.fieldName?.isSome

/-- The term is a star. -/
def isStar (t : Term) : Bool :=
  match t.expr with
  | .star _ => true
  | _ => false

/-- The term is null. -/
def isNull (t : Term) : Bool :=
  match t.expr with
  | .null => true
  | _ => false

/-- The operator of an arithmetic operation. -/
def operator? (t : Term) : Option ArithmeticOp :=
  match t.expr with
  | .arithmetic op _ _ => some op
  | _ => none

/-- The term is an arithmetic operation or a negation. -/
def isOperation (t : Term) : Bool :=
  match t.expr with
  | .arithmetic _ _ _ => true
  | .negative _ => true
  | _ => false

end Term

namespace Condition

/-- There is no condition. -/
def isEmpty : Condition → Bool
  | .empty => true
  | _ => false

/-- The connective of a condition that has one. -/
def connective? : Condition → Option Connective
  | .combined op _ _ => some op
  | _ => none

end Condition

namespace Subquery

/-- The identity of a query or set operation. -/
def id : Subquery → SourceId
  | .query q => q.info.id
  | .compound c => c.id

/-- The name of a query or set operation as a source. -/
def alias? : Subquery → Option String
  | .query q => q.info.alias?
  | .compound c => c.alias?

end Subquery

namespace Source

/-- The table of a source that is one. -/
def table? : Source → Option Table
  | .table t => some t
  | .subquery _ => none

/-- The identity of a source. -/
def id : Source → SourceId
  | .table t => t.id
  | .subquery s => s.id

/-- What fields of the source belong to. -/
def qualifier : Source → Qualifier
  | .table t => .table t
  | .subquery s => .subquery s.id s.alias?

end Source

namespace Action

/-- The target of an insertion. -/
def insertTarget? : Action → Option Table
  | .insert t _ => some t
  | .select => none
  | .update _ => none
  | .delete => none

/-- The target of an update. -/
def updateTarget? : Action → Option Table
  | .update t => some t
  | .select => none
  | .insert _ _ => none
  | .delete => none

/-- The action is a deletion. -/
def isDelete : Action → Bool
  | .delete => true
  | .select => false
  | .insert _ _ => false
  | .update _ => false

/-- The action changes rows that exist. -/
def isChange (a : Action) : Bool := a.updateTarget?.isSome || a.isDelete

end Action

namespace Query

/-- The number of selected items. -/
def selectCount (q : Query) : Nat := q.selects.length

/-- The aliases of the select list. -/
def selectAliases (q : Query) : List String := q.selects.filterMap (·.alias?)

/-- What fields of the query belong to. -/
def qualifier (q : Query) : Qualifier := .subquery q.info.id q.info.alias?

/-- What columns given by name belong to: the first source. -/
def sourceQualifier? (q : Query) : Option Qualifier := q.sources.head?.map (·.qualifier)

/-- There is not yet enough of the query to write: nothing is selected or changed, or there are no
rows to add, or nothing is set. -/
def isBlank (q : Query) : Bool :=
  match q.info.action with
  | .select => q.selects.isEmpty
  | .insert _ _ => q.selects.isEmpty && q.rows.isEmpty
  | .update _ => q.assignments.isEmpty
  | .delete => false

/-- A table that the query names by itself: a source, the target of an update or a common
table. -/
def isBaseTable (q : Query) (t : Table) : Bool :=
  q.sources.any (fun s => s.table?.any (· == t))
    || q.info.action.updateTarget?.any (· == t)
    || q.commonTables.any (fun c => t.schema.isEmpty && t.name == c.name)

/-- A table that takes part in the query by itself or by a join. -/
def hasTable (q : Query) (t : Table) : Bool :=
  q.isBaseTable t || q.joins.any (fun j => j.source.table?.any (· == t))

/-- A source that takes part in the query. -/
def hasSource (q : Query) (id : SourceId) : Bool :=
  q.sources.any (·.id == id) || q.joins.any (·.source.id == id)

/-- The condition on rows mentions a table that takes no part in the query. -/
def mentionsForeignTable (q : Query) : Bool :=
  q.filter.qualifiers.any fun
    | .table t => !q.hasTable t
    | .subquery _ _ => false
    | .raw _ => false

/-- Fields of the query are qualified: it has several sources, or one that is not a table, or it
mentions a table of the queries around it. -/
def usesQualifiers (q : Query) : Bool :=
  !q.joins.isEmpty
    || 1 < q.sources.length
    || (q.sources.head?.any fun s => s.table?.isNone)
    || (q.info.action.updateTarget?.isSome && !q.sources.isEmpty)
    || q.mentionsForeignTable

end Query

end SqlScribe
