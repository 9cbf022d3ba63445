import SqlScribe.Binary64
import SqlScribe.Decimal.Text
import SqlScribe.Frame
import SqlScribe.Function.Arity
import SqlScribe.Operator
import SqlScribe.Table
/-! # Errors

The reasons for which a statement cannot be built or written, and their wording. The reasons are
kept as data; only `QueryError.message` spells them. -/

namespace SqlScribe

/-- A call that does not fit the parts that a statement already has. -/
inductive ConfigurationFault where
  /-- A select list after rows of values were given. -/
  | selectAfterValues
  /-- A select list in an update or deletion. -/
  | selectInChange
  /-- A column selected by name where there is no source. -/
  | selectWithoutSource (column : String)
  /-- A second target of an insertion. -/
  | secondInsertTarget
  /-- A target of an insertion in an update or deletion. -/
  | insertTargetInChange
  /-- Columns of an insertion that has no target. -/
  | columnsWithoutTarget
  /-- Rows of an insertion that has no target. -/
  | rowsWithoutTarget
  /-- Rows of an insertion that selects its rows. -/
  | rowsBesideSelect
  /-- A second target of an update. -/
  | secondUpdateTarget
  /-- A target of an update in another statement. -/
  | updateTargetInOther
  /-- A deletion in an insertion or update. -/
  | deleteInChange
  /-- A deletion beside a select list. -/
  | deleteBesideSelect
  /-- A conflict clause outside an insertion. -/
  | conflictWithoutInsert
  /-- A conflict handler before the conflict clause. -/
  | handlerWithoutConflict
  /-- A second conflict handler of another kind. -/
  | secondHandler
  /-- A condition on a conflict that is passed over. -/
  | conditionOnNothing
  /-- A condition on a conflict without targets. -/
  | conditionWithoutTargets
  /-- Updates on duplicate keys outside an insertion. -/
  | duplicateUpdateWithoutInsert
  /-- Duplicate keys passed over outside an insertion. -/
  | duplicateIgnoreWithoutInsert
  /-- A conflict clause without a handler. -/
  | conflictWithoutHandler
  /-- An update on conflict without targets. -/
  | conflictUpdateWithoutTargets
  /-- Returned items of a statement that changes nothing. -/
  | returningWithoutChange
  /-- An aggregate among the returned items. -/
  | aggregateReturned
  /-- A returned field of a table that is not part of the statement. -/
  | foreignReturned (table : String)
  /-- A parameter name that is taken by another value. -/
  | parameterTaken (name : String)
  /-- A table defined both by columns and by a query. -/
  | columnsBesideQuery
  /-- A second primary key. -/
  | secondPrimaryKey
  /-- A second foreign key. -/
  | secondForeignKey
deriving Repr

/-- The wording of a configuration fault. -/
def ConfigurationFault.message : ConfigurationFault → String
  | .selectAfterValues => "cannot select into an INSERT that already has VALUES"
  | .selectInChange => "select() cannot be combined with UPDATE or DELETE"
  | .selectWithoutSource column => "cannot select " ++ column ++ ", no FROM table specified"
  | .secondInsertTarget => "INTO target is already set"
  | .insertTargetInChange => "into_table() cannot be combined with UPDATE or DELETE"
  | .columnsWithoutTarget => "columns() requires an INSERT target"
  | .rowsWithoutTarget => "insert() requires an INTO target"
  | .rowsBesideSelect => "cannot add VALUES to an INSERT that selects its rows"
  | .secondUpdateTarget => "UPDATE target is already set"
  | .updateTargetInOther => "update() cannot be combined with SELECT, INSERT or DELETE"
  | .deleteInChange => "delete() cannot be combined with INSERT or UPDATE"
  | .deleteBesideSelect => "delete() cannot be combined with a select list"
  | .conflictWithoutInsert => "ON CONFLICT only applies to INSERT"
  | .handlerWithoutConflict => "call on_conflict() first"
  | .secondHandler => "cannot have two conflict handlers"
  | .conditionOnNothing => "DO NOTHING does not support WHERE"
  | .conditionWithoutTargets => "cannot have fieldless ON CONFLICT WHERE"
  | .duplicateUpdateWithoutInsert => "ON DUPLICATE KEY UPDATE only applies to INSERT"
  | .duplicateIgnoreWithoutInsert => "ON DUPLICATE KEY IGNORE only applies to INSERT"
  | .conflictWithoutHandler => "no handler defined for ON CONFLICT"
  | .conflictUpdateWithoutTargets => "cannot have fieldless ON CONFLICT DO UPDATE"
  | .returningWithoutChange => "RETURNING requires an INSERT, UPDATE or DELETE"
  | .aggregateReturned => "aggregate functions are not allowed in RETURNING"
  | .foreignReturned table =>
    "cannot return fields of table \"" ++ table ++ "\", it is not part of the query"
  | .parameterTaken name => "parameter '" ++ name ++ "' is already bound to a different value"
  | .columnsBesideQuery => "CREATE TABLE cannot have both columns and AS SELECT"
  | .secondPrimaryKey => "primary key is already set"
  | .secondForeignKey => "foreign key is already set"

/-- What only a function call can be given. -/
inductive CallModifier where
  /-- Distinct arguments. -/
  | distinct
  /-- A condition on the aggregated rows. -/
  | filter
  /-- Passing over nulls. -/
  | ignoreNulls
  /-- A window. -/
  | over
deriving Repr, DecidableEq

/-- The keyword of a modifier. -/
def CallModifier.word : CallModifier → String
  | .distinct => "DISTINCT"
  | .filter => "FILTER"
  | .ignoreNulls => "IGNORE NULLS"
  | .over => "OVER"

/-- A term or clause that is used where it has no meaning. -/
inductive UsageFault where
  /-- A number that no literal stands for. -/
  | noLiteral (x : Binary64)
  /-- A term indexed by a single value. -/
  | indexByValue
  /-- A modifier on something that is not a function call. -/
  | modifierOnOther (modifier : CallModifier)
  /-- A condition on the rows of a function that aggregates none. -/
  | filterOnScalar (function : String)
  /-- A comparison with null. -/
  | comparisonWithNull
  /-- A share of more than all rows. -/
  | percentAboveAll (n : UInt64)
deriving Repr

/-- The wording of a usage fault. -/
def UsageFault.message : UsageFault → String
  | .noLiteral x => "Float(" ++ x.text ++ ") has no SQL literal form"
  | .indexByValue => "field can only be indexed with a range (BETWEEN)"
  | .modifierOnOther modifier => modifier.word ++ " can only be applied to a function"
  | .filterOnScalar function => "FILTER only applies to aggregate functions, not " ++ function
  | .comparisonWithNull => "cannot compare with NULL, use is_null() or is_not_null()"
  | .percentAboveAll n =>
    "TOP value must be between 0 and 100 when PERCENT is used, got " ++ toString n.toNat

/-- A grouping or window that cannot be. -/
inductive GroupingFault where
  /-- A second rollup of all groups. -/
  | secondRollup
  /-- A rollup of no groups. -/
  | rollupOfNothing
  /-- A second window frame. -/
  | secondFrame
  /-- A frame that starts where no frame can. -/
  | frameWithoutStart
  /-- A frame that starts after it ends. -/
  | reversedFrame (start stop : FrameBound)
deriving Repr

/-- The wording of a grouping fault. -/
def GroupingFault.message : GroupingFault → String
  | .secondRollup => "ROLLUP is already applied"
  | .rollupOfNothing =>
    "at least one group is required, call groupby() or pass terms to rollup()"
  | .secondFrame => "'rows' or 'range' is already set"
  | .frameWithoutStart => "a frame cannot start at UNBOUNDED FOLLOWING"
  | .reversedFrame start stop =>
    "frame start " ++ start.description ++ " comes after frame end " ++ stop.description

/-- A join that cannot be. -/
inductive JoinFault where
  /-- A condition that mentions something the statement does not contain. -/
  | foreignQualifier (q : Qualifier)
  /-- A join on no condition. -/
  | noCondition
  /-- A join on fields of a source where there is none. -/
  | noSource
  /-- A join on no fields. -/
  | noFields
  /-- A join using no columns. -/
  | noColumns
deriving Repr

/-- The wording of a join fault. -/
def JoinFault.message : JoinFault → String
  | .foreignQualifier q =>
    "invalid join criterion, " ++ q.description ++ " is not part of the query"
  | .noCondition => "JOIN ON requires a criterion, use cross() for a cross join"
  | .noSource => "JOIN ON fields requires a FROM table"
  | .noFields => "JOIN ON requires at least one field"
  | .noColumns => "JOIN USING requires at least one field"

/-- A feature that some dialect lacks. -/
inductive Feature where
  /-- The `GLOB` operator. -/
  | glob
  /-- A JSON operator. -/
  | jsonOperator (op : JsonOp)
  /-- A search. -/
  | search (s : Search)
  /-- Regular expressions. -/
  | regex
  /-- `DISTINCT ON`. -/
  | distinctOn
  /-- `TOP`. -/
  | top
  /-- `FOR UPDATE`. -/
  | forUpdate
  /-- An insertion that passes over conflicts. -/
  | insertIgnore
  /-- `REPLACE`. -/
  | replace
  /-- `INSERT OR REPLACE`. -/
  | insertOrReplace
  /-- `ON CONFLICT`. -/
  | onConflict
  /-- `ON DUPLICATE KEY UPDATE`. -/
  | onDuplicateKey
  /-- `RETURNING`. -/
  | returning
deriving Repr, DecidableEq

/-- The feature as it is named in a message. -/
def Feature.description : Feature → String
  | .glob => "GLOB"
  | .jsonOperator op => "JSON operator " ++ op.symbol
  | .search s => "filter " ++ s.name
  | .regex => "regular expression matching"
  | .distinctOn => "DISTINCT ON"
  | .top => "TOP"
  | .forUpdate => "FOR UPDATE"
  | .insertIgnore => "INSERT IGNORE"
  | .replace => "REPLACE"
  | .insertOrReplace => "INSERT OR REPLACE"
  | .onConflict => "ON CONFLICT"
  | .onDuplicateKey => "ON DUPLICATE KEY UPDATE"
  | .returning => "RETURNING"

/-- The reason for which a statement cannot be built or written. -/
inductive QueryError where
  /-- A call does not fit the statement. -/
  | configuration (fault : ConfigurationFault)
  /-- A function was given the wrong number of arguments. -/
  | arity (function : String) (expected : Arity) (given : Nat)
  /-- A `CASE` without branches. -/
  | emptyCase
  /-- A term or clause is used where it has no meaning. -/
  | usage (fault : UsageFault)
  /-- A grouping or window cannot be. -/
  | grouping (fault : GroupingFault)
  /-- A join cannot be. -/
  | join (fault : JoinFault)
  /-- The operands of a set operation have different widths. -/
  | unequalWidths (first other : Nat)
  /-- The dialect lacks a feature. -/
  | unsupported (dialect : Dialect) (feature : Feature)
  /-- No function has this name. -/
  | unknownFunction (name : String)
  /-- No search has this name. -/
  | unknownSearch (name : String)
deriving Repr

/-- The wording of an error. -/
def QueryError.message : QueryError → String
  | .configuration fault => "configuration error: " ++ fault.message
  | .arity function expected given =>
    "function " ++ function ++ " expects " ++ expected.description ++ " argument(s), got "
      ++ toString given
  | .emptyCase => "case error: CASE statement requires at least one WHEN clause"
  | .usage fault => "usage error: " ++ fault.message
  | .grouping fault => "grouping error: " ++ fault.message
  | .join fault => "join error: " ++ fault.message
  | .unequalWidths first other =>
    "set operation error: queries must have an equal number of select terms, got "
      ++ toString first ++ " and " ++ toString other
  | .unsupported dialect feature =>
    feature.description ++ " is not supported by the " ++ dialect.name ++ " dialect"
  | .unknownFunction name => "unknown function: " ++ name
  | .unknownSearch name => "unknown filter: " ++ name

end SqlScribe
