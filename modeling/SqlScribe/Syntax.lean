import SqlScribe.DataType
import SqlScribe.Error
import SqlScribe.Interval
import SqlScribe.Value
/-! # Syntax of statements

Terms, conditions and queries refer to each other: a query is built from terms, and a query can
stand where a term does. All of them are values, and a builder call makes a new value from an old
one. -/

namespace SqlScribe

/-- How a function is called. -/
inductive CallForm where
  /-- With its arguments in parentheses. -/
  | plain
  /-- Without parentheses. -/
  | bare
  /-- As a cast to a type. -/
  | cast (type : DataType)
  /-- As a conversion to a character set. -/
  | convert (charset : String)
  /-- As the extraction of a part of a date. -/
  | extract (part : DatePart)
deriving Repr, DecidableEq

/-- A limit in the select list. -/
structure Top where
  /-- The number or share of rows. -/
  count : UInt64
  /-- The number is a share in percent. -/
  percent : Bool
  /-- Rows equal to the last one are kept too. -/
  withTies : Bool
deriving Repr, DecidableEq

/-- What a locking query does about rows that are locked already. -/
inductive LockWait where
  /-- It waits. -/
  | wait
  /-- It fails. -/
  | noWait
  /-- It passes over them. -/
  | skipLocked
deriving Repr, DecidableEq

/-- A lock on the rows of a result. -/
structure Lock where
  /-- The tables whose rows are locked; none for all. -/
  tables : List Table
  /-- What is done about locked rows. -/
  wait : LockWait

/-- How an insertion treats existing rows. -/
inductive InsertMode where
  /-- As an error. -/
  | insert
  /-- It passes over them. -/
  | ignore
  /-- It replaces them, as a statement of its own. -/
  | replace
  /-- It replaces them. -/
  | insertOrReplace
deriving Repr, DecidableEq

/-- What is done about a row that is in conflict with an existing one. -/
inductive ConflictHandler where
  /-- Nothing. -/
  | nothing
  /-- The existing row is changed. -/
  | update
deriving Repr, DecidableEq

/-- What a statement does. -/
inductive Action where
  /-- It selects rows. -/
  | select
  /-- It adds rows to a table. With `fromList` they come from a select list that was there before
  the table. -/
  | insert (table : Table) (fromList : Bool)
  /-- It changes rows of a table. -/
  | update (table : Table)
  /-- It deletes rows. -/
  | delete

/-- The part of a query that no term takes part in. -/
structure QueryInfo where
  /-- The identity of the query. -/
  id : SourceId
  /-- The dialect it is written in unless another is asked for. -/
  dialect : Dialect
  /-- Calls give the query a new identity. -/
  immutable : Bool := true
  /-- The name of the query as a source. -/
  alias? : Option String := none
  /-- The number that the next unnamed source is named by. -/
  subqueryCount : Nat := 0
  /-- Names given to sources that had none, the newest first. -/
  aliases : List (SourceId × String) := []
  /-- All columns are selected. -/
  selectsStar : Bool := false
  /-- Sources all of whose columns are selected. -/
  starred : List Qualifier := []
  /-- Repeated rows are dropped. -/
  distinct : Bool := false
  /-- A limit in the select list. -/
  top : Option Top := none
  /-- Super-aggregates of all groups. -/
  withRollup : Bool := false
  /-- The number of rows kept. -/
  limit : Option UInt64 := none
  /-- The number of rows passed over before them. -/
  offset : Option UInt64 := none
  /-- A lock on the rows. -/
  lock : Option Lock := none
  /-- What the statement does. -/
  action : Action := .select
  /-- How an insertion treats existing rows. -/
  insertMode : InsertMode := .insert
  /-- Further tables of a deletion. -/
  usingTables : List Table := []
  /-- All columns are returned. -/
  returnsStar : Bool := false

mutual

/-- A term: an expression and the name it is shown under. -/
structure Term where
  /-- The expression. -/
  expr : Expr
  /-- The name. -/
  alias? : Option String := none

/-- An expression. -/
inductive Expr where
  /-- A field of something. -/
  | field (qualifier : Option Qualifier) (name : String)
  /-- All fields of something. -/
  | star (qualifier : Option Qualifier)
  /-- A literal value. -/
  | value (v : Value)
  /-- A literal value bound under a name. -/
  | named (name : String) (v : Value)
  /-- Null. -/
  | null
  /-- A placeholder that the caller binds. -/
  | parameter (text : String)
  /-- A piece of SQL. -/
  | raw (sql : String)
  /-- A row of terms. -/
  | tuple (items : List Term)
  /-- An array of terms. -/
  | array (items : List Term)
  /-- An interval. -/
  | interval (i : Interval)
  /-- An arithmetic operation. -/
  | arithmetic (op : ArithmeticOp) (left right : Term)
  /-- A negated term. -/
  | negative (t : Term)
  /-- A function call. -/
  | call (c : Call)
  /-- A choice between terms: branches tried in order, and a term of last resort. -/
  | case (branches : List Branch) (otherwise : Option Term)
  /-- The value of a query. -/
  | subquery (s : Subquery)
  /-- The truth value of a condition. -/
  | condition (c : Condition)

/-- A function call. -/
structure Call where
  /-- The name of the function. -/
  name : String
  /-- How it is called. -/
  form : CallForm := .plain
  /-- It aggregates rows. -/
  aggregate : Bool := false
  /-- Equal arguments count once. -/
  distinct : Bool := false
  /-- Nulls are passed over. -/
  ignoreNulls : Bool := false
  /-- The arguments. -/
  args : List Term
  /-- A condition on the aggregated rows. -/
  filter : Option Condition := none
  /-- The window that the function looks at. -/
  window : Option Window := none

/-- The window of a function. -/
structure Window where
  /-- Rows with equal values of these terms lie in one window. -/
  partitionBy : List Term := []
  /-- The order of rows in the window. -/
  orderBy : List OrderItem := []
  /-- The rows around a row. -/
  frame : Option Frame := none

/-- A term to order by. -/
structure OrderItem where
  /-- The term. -/
  term : Term
  /-- The direction. -/
  order : Option SortOrder

/-- A branch of a choice. -/
structure Branch where
  /-- When the branch is taken. -/
  condition : Condition
  /-- Its term. -/
  result : Term

/-- A condition. -/
inductive Condition where
  /-- No condition at all. -/
  | empty
  /-- A comparison. -/
  | compare (op : Comparison) (left right : Term)
  /-- A match against a pattern, with an escape character for wildcards. -/
  | matches (op : MatchOp) (negated : Bool) (term pattern : Term) (escape : Option Char)
  /-- An operation on JSON documents. -/
  | json (op : JsonOp) (left right : Term)
  /-- A search. -/
  | search (op : Search) (term value : Term)
  /-- A test for null. -/
  | isNull (negated : Bool) (term : Term)
  /-- A test for membership in a list. -/
  | isIn (negated : Bool) (term : Term) (items : List Term)
  /-- A test for membership in the rows of a query. -/
  | isInRows (negated : Bool) (term : Term) (rows : Subquery)
  /-- A test for lying between two terms. -/
  | between (negated : Bool) (term low high : Term)
  /-- A test for the existence of rows. -/
  | hasRows (negated : Bool) (rows : Subquery)
  /-- Two conditions under a connective. -/
  | combined (op : Connective) (left right : Condition)
  /-- A negated condition. -/
  | not (c : Condition)
  /-- The truth of a term. -/
  | term (t : Term)

/-- A query or set operation. -/
inductive Subquery where
  /-- A query. -/
  | query (q : Query)
  /-- A set operation. -/
  | compound (c : Compound)

/-- A source of rows. -/
inductive Source where
  /-- A table. -/
  | table (t : Table)
  /-- A query or set operation. -/
  | subquery (s : Subquery)

/-- A joined source. -/
structure Join where
  /-- The kind of the join. -/
  kind : JoinKind
  /-- The source. -/
  source : Source
  /-- Which rows belong together. -/
  condition : JoinCondition

/-- Which rows of a join belong together. -/
inductive JoinCondition where
  /-- All. -/
  | all
  /-- Those of which a condition holds. -/
  | on (c : Condition)
  /-- Those that agree in some columns. -/
  | sharing (columns : List String)

/-- A query that a statement refers to by name. -/
structure CommonTable where
  /-- The name. -/
  name : String
  /-- Names of the columns. -/
  columns : List String
  /-- The query may refer to itself. -/
  recursive : Bool
  /-- The query. -/
  body : Subquery

/-- A column that is given a value. -/
structure Assignment where
  /-- The column. -/
  column : Term
  /-- The value. -/
  value : Term

/-- How an insertion handles conflicts. -/
structure Conflict where
  /-- The columns in conflict. -/
  targets : List Term
  /-- Which index they belong to. -/
  targetFilter : Condition
  /-- What is done, once it is known. -/
  handler : Option ConflictHandler
  /-- What is changed in the existing row. -/
  assignments : List Assignment
  /-- Which existing rows are changed. -/
  updateFilter : Condition

/-- A query: a statement that selects, adds, changes or deletes rows. -/
structure Query where
  /-- What no term takes part in. -/
  info : QueryInfo
  /-- Queries that it refers to by name. -/
  commonTables : List CommonTable
  /-- Sources of rows. -/
  sources : List Source
  /-- The select list. -/
  selects : List Term
  /-- Rows with equal values of these terms count once. -/
  distinctOn : List Term
  /-- Joined sources. -/
  joins : List Join
  /-- Which rows count. -/
  filter : Condition
  /-- Rows with equal values of these terms form one group. -/
  groupBy : List Term
  /-- Which groups count. -/
  having : Condition
  /-- The order of the result. -/
  orderBy : List OrderItem
  /-- The columns of added rows. -/
  columns : List Term
  /-- The added rows. -/
  rows : List (List Term)
  /-- How conflicts of added rows are handled. -/
  conflict : Option Conflict
  /-- What is changed in rows whose keys added rows have too. -/
  duplicateUpdates : List Assignment
  /-- What is changed. -/
  assignments : List Assignment
  /-- What is returned of changed rows. -/
  returning : List Term

/-- An operand of a set operation after the first. -/
structure Operand where
  /-- The operator before it. -/
  operator : SetOperator
  /-- The operand. -/
  query : Query

/-- A set operation. -/
structure Compound where
  /-- The identity of the set operation. -/
  id : SourceId
  /-- The first operand. -/
  base : Query
  /-- The other operands. -/
  operands : List Operand
  /-- The order of the result. -/
  orderBy : List OrderItem := []
  /-- The number of rows kept. -/
  limit : Option UInt64 := none
  /-- The number of rows passed over before them. -/
  offset : Option UInt64 := none
  /-- The name of the set operation as a source. -/
  alias? : Option String := none

end

end SqlScribe
