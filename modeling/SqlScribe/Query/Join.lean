import SqlScribe.Query.Basic
/-! # Joins

A join adds a source to a query. Its condition may only mention what takes part in the query, and a
table that takes part already is joined under a name made up for it. -/

namespace SqlScribe

/-- What a join is asked to go by. -/
inductive JoinRule where
  /-- A condition. -/
  | on (c : Condition)
  /-- Fields of the same name in the first source and the joined one. -/
  | onFields (names : List String)
  /-- Columns that both sides have. -/
  | sharing (names : List String)
  /-- Nothing: every row meets every row. -/
  | cross

namespace Query

/-- The qualifier takes part in the query or belongs to the joined source. -/
def admits (q : Query) (joined : Source) : Qualifier → Bool
  | .table t => joined.table?.any (· == t) || q.hasTable t
  | .subquery id _ => joined.id == id || q.hasSource id
  | .raw _ => true

/-- Refuses a condition that mentions something that takes no part in the query. -/
def checkJoin (q : Query) (joined : Source) : JoinCondition → Except QueryError Unit
  | .on c =>
    match c.qualifiers.find? fun qualifier => !q.admits joined qualifier with
    | some qualifier => .error (.join (.foreignQualifier qualifier))
    | none => .ok ()
  | .all => .ok ()
  | .sharing _ => .ok ()

/-- The name made up for a table that is joined a second time. -/
def selfJoinName (t : Table) : String := t.name ++ "2"

/-- Adds a join. A table without an alias that the query names already is given one. -/
def addJoin (q : Query) (kind : JoinKind) (source : Source) (condition : JoinCondition) :
    Query :=
  match source with
  | .table t =>
    if t.alias?.isNone && q.isBaseTable t then
      let name := selfJoinName t
      { q with
        info.aliases := (t.id, name) :: q.info.aliases
        joins := q.joins ++ [⟨kind, .table (t.aliased name), condition⟩] }
    else { q with joins := q.joins ++ [⟨kind, source, condition⟩] }
  | .subquery _ => { q with joins := q.joins ++ [⟨kind, source, condition⟩] }

/-- The query and a source that is about to be joined. A query without a name is given one by
number. -/
def prepareJoin (q : Query) (source : Source) : Query × Source :=
  match source with
  | .table _ => (q, source)
  | .subquery s =>
    match s.alias? with
    | some _ => (q, source)
    | none =>
      let number := q.info.subqueryCount
      let (q, s) := q.nameSource number (number + 1) s
      (q, .subquery s)

/-- The condition that fields of some names agree in two sources. -/
def agreement (left right : Qualifier) (names : List String) : Condition :=
  Condition.all (names.map fun n => (Term.qualified left n).equals (Term.qualified right n))

/-- The kind and condition of a join by its rule. -/
def joinCondition (q : Query) (kind : JoinKind) (joined : Source) :
    JoinRule → Except QueryError (JoinKind × JoinCondition)
  | .on c => if c.isEmpty then .error (.join .noCondition) else .ok (kind, .on c)
  | .onFields names =>
    match q.sourceQualifier? with
    | none => .error (.join .noSource)
    | some first =>
      if names.isEmpty then .error (.join .noFields)
      else .ok (kind, .on (agreement first joined.qualifier names))
  | .sharing names =>
    if names.isEmpty then .error (.join .noColumns) else .ok (kind, .sharing names)
  | .cross => .ok (.cross, .all)

/-- Joins a source by a rule. -/
def join (q : Query) (kind : JoinKind) (source : Source) (rule : JoinRule) :
    Except QueryError Query := do
  let (q, source) := q.prepareJoin source
  let (kind, condition) ← q.joinCondition kind source rule
  q.checkJoin source condition
  return q.addJoin kind source condition

end Query

end SqlScribe
