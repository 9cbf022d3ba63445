import SqlScribe.Query.Basic
import SqlScribe.Syntax.Aggregation
/-! # Insertions, updates and deletions

A query does one thing: once it selects, inserts, updates or deletes, calls that would make it do
another thing are refused. -/

namespace SqlScribe.Query

/-- The query inserts rows. -/
def isInsertion (q : Query) : Bool := q.info.action.insertTarget?.isSome

/-- Sets the target of an insertion. Items that are selected already go into the table. -/
def into (q : Query) (t : Table) : Except QueryError Query :=
  match q.info.action with
  | .insert _ _ => .error (.configuration .secondInsertTarget)
  | .update _ => .error (.configuration .insertTargetInChange)
  | .delete => .error (.configuration .insertTargetInChange)
  | .select => .ok { q with info.action := .insert t (!q.selects.isEmpty) }

/-- Adds columns of the inserted rows. -/
def addColumns (q : Query) (items : List SelectItem) : Except QueryError Query :=
  if q.isInsertion then .ok { q with columns := q.columns ++ items.map SelectItem.toColumn }
  else .error (.configuration .columnsWithoutTarget)

/-- Adds rows of values. -/
def addRows (q : Query) (rows : List (List Term)) : Except QueryError Query :=
  match q.info.action with
  | .insert _ fromList =>
    if fromList || !q.selects.isEmpty then .error (.configuration .rowsBesideSelect)
    else .ok { q with rows := q.rows ++ rows }
  | .select => .error (.configuration .rowsWithoutTarget)
  | .update _ => .error (.configuration .rowsWithoutTarget)
  | .delete => .error (.configuration .rowsWithoutTarget)

/-- Sets how an insertion treats existing rows. -/
def setInsertMode (q : Query) (mode : InsertMode) : Query := { q with info.insertMode := mode }

/-- Adds a row that replaces an existing one. -/
def replaceRow (q : Query) (row : List Term) : Except QueryError Query :=
  (q.setInsertMode .replace).addRows [row]

/-- Sets the target of an update. -/
def update (q : Query) (t : Table) : Except QueryError Query :=
  match q.info.action with
  | .update _ => .error (.configuration .secondUpdateTarget)
  | .insert _ _ => .error (.configuration .updateTargetInOther)
  | .delete => .error (.configuration .updateTargetInOther)
  | .select =>
    if q.selects.isEmpty then .ok (q.updating t) else .error (.configuration .updateTargetInOther)

/-- Gives a column a value. -/
def assign (q : Query) (column : SelectItem) (value : Term) : Query :=
  { q with assignments := q.assignments ++ [⟨column.toColumn, value⟩] }

/-- Makes the query a deletion. -/
def delete (q : Query) : Except QueryError Query :=
  match q.info.action with
  | .insert _ _ => .error (.configuration .deleteInChange)
  | .update _ => .error (.configuration .deleteInChange)
  | .select =>
    if q.selects.isEmpty then .ok { q with info.action := .delete }
    else .error (.configuration .deleteBesideSelect)
  | .delete =>
    if q.selects.isEmpty then .ok { q with info.action := .delete }
    else .error (.configuration .deleteBesideSelect)

/-- Adds further tables of a deletion. -/
def addUsing (q : Query) (tables : List Table) : Query :=
  { q with info.usingTables := q.info.usingTables ++ tables }

/-! ## Conflicts -/

/-- Adds columns in which inserted rows may be in conflict with existing ones. -/
def onConflict (q : Query) (items : List SelectItem) : Except QueryError Query :=
  if q.isInsertion then
    let c := q.conflict.getD ⟨[], .empty, none, [], .empty⟩
    .ok { q with conflict := some { c with targets := c.targets ++ items.map SelectItem.toColumn } }
  else .error (.configuration .conflictWithoutInsert)

/-- Changes the conflict clause, which has to be there. -/
def changeConflict (q : Query) (change : Conflict → Except QueryError Conflict) :
    Except QueryError Query :=
  match q.conflict with
  | none => .error (.configuration .handlerWithoutConflict)
  | some c => do return { q with conflict := some (← change c) }

/-- Passes over rows in conflict. -/
def doNothing (q : Query) : Except QueryError Query :=
  q.changeConflict fun c =>
    match c.handler with
    | some .update => .error (.configuration .secondHandler)
    | some .nothing => .ok c
    | none => .ok { c with handler := some .nothing }

/-- Changes existing rows in conflict: a column is given a value, or that of the inserted row. -/
def doUpdate (q : Query) (item : SelectItem) (value : Option Term) : Except QueryError Query :=
  q.changeConflict fun c =>
    match c.handler with
    | some .nothing => .error (.configuration .secondHandler)
    | _ =>
      let column := item.toColumn
      let value := value.getD (Term.excluded (column.fieldName?.getD ""))
      .ok { c with
        handler := some .update
        assignments := c.assignments ++ [⟨column, value⟩] }

/-- Restricts the conflict clause: its index before a handler is chosen, the changed rows after. -/
def conflictWhere (q : Query) (condition : Condition) : Except QueryError Query :=
  q.changeConflict fun c =>
    if c.handler = some .nothing then .error (.configuration .conditionOnNothing)
    else if c.targets.isEmpty then .error (.configuration .conditionWithoutTargets)
    else
      match c.handler with
      | some _ => .ok { c with updateFilter := c.updateFilter.and condition }
      | none => .ok { c with targetFilter := c.targetFilter.and condition }

/-- Changes existing rows whose keys inserted rows have too. -/
def onDuplicateUpdate (q : Query) (item : SelectItem) (value : Term) : Except QueryError Query :=
  if q.isInsertion then
    .ok { q with duplicateUpdates := q.duplicateUpdates ++ [⟨item.toColumn, value⟩] }
  else .error (.configuration .duplicateUpdateWithoutInsert)

/-- Passes over inserted rows whose keys existing rows have. -/
def onDuplicateIgnore (q : Query) : Except QueryError Query :=
  if q.isInsertion then .ok (q.setInsertMode .ignore)
  else .error (.configuration .duplicateIgnoreWithoutInsert)

/-! ## Returned items -/

/-- What columns of returned items belong to: the target, or the first source. -/
def returnedQualifier? (q : Query) : Option Qualifier :=
  match q.info.action with
  | .insert t _ => some (.table t)
  | .update t => some (.table t)
  | .select => q.sourceQualifier?
  | .delete => q.sourceQualifier?

/-- Adds a returned term, which must not be an aggregate. A star takes in everything. -/
def returnTerm (q : Query) (t : Term) : Except QueryError Query :=
  if t.aggregation = .aggregate then .error (.configuration .aggregateReturned)
  else if q.info.returnsStar then .ok q
  else if t.isStar && t.qualifier?.isNone then
    .ok { q with info.returnsStar := true, returning := [t] }
  else .ok { q with returning := q.returning ++ [t] }

/-- Adds returned items of changed rows. -/
def returningItems (q : Query) (items : List SelectItem) : Except QueryError Query :=
  match q.info.action with
  | .select => .error (.configuration .returningWithoutChange)
  | _ => (items.map (SelectItem.toTerm q.returnedQualifier?)).foldlM returnTerm q

end SqlScribe.Query
