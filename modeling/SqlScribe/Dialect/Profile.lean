import SqlScribe.Dialect
import SqlScribe.Operator
/-! # What each dialect can say

A profile lists, for one dialect, the clauses it has and the way it spells what every dialect has in
a form of its own. Defaults are those of the standard. -/

namespace SqlScribe

/-- How truth values are written. -/
inductive BooleanStyle where
  /-- As the words `true` and `false`. -/
  | words
  /-- As the digits `1` and `0`. -/
  | digits
deriving Repr, DecidableEq

/-- How string literals are written. -/
inductive StringStyle where
  /-- Quotes are doubled. -/
  | plain
  /-- Quotes and backslashes are doubled. -/
  | backslashes
  /-- Quotes are doubled, and a text outside ASCII is marked as national. -/
  | national
deriving Repr, DecidableEq

/-- How the window of rows of a result is written. -/
inductive PaginationStyle where
  /-- `LIMIT` and `OFFSET`, each on its own. -/
  | limitOffset
  /-- `LIMIT` and `OFFSET`, where an offset needs a limit and `unbounded` is the one that keeps all
  rows. -/
  | limitRequired (unbounded : String)
  /-- `OFFSET … ROWS` before every `FETCH NEXT`. -/
  | offsetFetch
  /-- `OFFSET … ROWS` and `FETCH NEXT`, each on its own. -/
  | fetchOnly
deriving Repr, DecidableEq

/-- How conflicts of an insertion with existing rows are handled. -/
inductive UpsertStyle where
  /-- By `ON CONFLICT`. -/
  | onConflict
  /-- By `ON DUPLICATE KEY UPDATE`. -/
  | onDuplicateKey
  /-- Not at all. -/
  | unsupported
deriving Repr, DecidableEq

/-- How regular expressions are matched. -/
inductive RegexStyle where
  /-- By an operator and its negation. -/
  | operator (isMatch isNoMatch : String)
  /-- By a function of the text and the expression. -/
  | function (name : String)
  /-- Not at all. -/
  | unsupported
deriving Repr, DecidableEq

/-- Where the quotes of an interval literal end. -/
inductive IntervalStyle where
  /-- Behind the unit. -/
  | aroundAll
  /-- Before the unit. -/
  | aroundAmount
deriving Repr, DecidableEq

/-- How super-aggregate rows are asked for. -/
inductive RollupStyle where
  /-- By a function among the grouping terms. -/
  | function
  /-- By `WITH ROLLUP` behind the grouping terms. -/
  | withRollup
deriving Repr, DecidableEq

/-- How a search is written. -/
inductive SearchStyle where
  /-- By an operator. -/
  | operator (symbol : String)
  /-- By a function of the searched term and the value, or of the two in reverse. -/
  | function (name : String) (valueFirst : Bool)
  /-- By `MATCH` and `AGAINST`. -/
  | matchAgainst
  /-- By text search vectors. -/
  | textVectors
  /-- By a regular expression. -/
  | regex
deriving Repr, DecidableEq

/-- What one dialect can say and how. -/
structure Profile where
  /-- The character around identifiers and aliases. -/
  quote : Option Char := some '"'
  /-- How truth values are written. -/
  booleans : BooleanStyle := .words
  /-- How strings are written. -/
  strings : StringStyle := .plain
  /-- How row windows are written. -/
  pagination : PaginationStyle := .limitOffset
  /-- A row window needs an `ORDER BY`. -/
  orderForOffset : Bool := false
  /-- There is a `TOP` clause. -/
  top : Bool := false
  /-- `GROUP BY` may name an alias of the select list. -/
  groupByAlias : Bool := true
  /-- How super-aggregates are asked for. -/
  rollup : RollupStyle := .function
  /-- Recursive common tables are marked with `RECURSIVE`. -/
  recursiveWord : Bool := true
  /-- Operands of set operations stand in parentheses. -/
  wrapsOperands : Bool := true
  /-- There is an `ILIKE` operator. -/
  ilike : Bool := false
  /-- The type that terms are cast to before their case is changed. -/
  textType : String := "VARCHAR"
  /-- How regular expressions are matched. -/
  regex : RegexStyle := .operator "REGEXP" "NOT REGEXP"
  /-- There is a `GLOB` operator. -/
  glob : Bool := false
  /-- There are JSON operators. -/
  jsonOperators : Bool := false
  /-- How searches are written, those that exist. -/
  search : Search → Option SearchStyle := fun s => if s = .posixRegex then some .regex else none
  /-- How intervals are written. -/
  intervals : IntervalStyle := .aroundAll
  /-- The word before the brackets of an array. -/
  arrayWord : Option String := none
  /-- There is a `RETURNING` clause. -/
  returning : Bool := false
  /-- How conflicts are handled. -/
  upsert : UpsertStyle := .unsupported
  /-- There is a `REPLACE` statement. -/
  replace : Bool := false
  /-- There is an `INSERT OR REPLACE` statement. -/
  insertOrReplace : Bool := false
  /-- The words that make an insertion pass over conflicts. -/
  insertIgnore : Option String := none
  /-- There is a `DISTINCT ON` clause. -/
  distinctOn : Bool := false
  /-- There is a `FOR UPDATE` clause. -/
  forUpdate : Bool := true

namespace Dialect

/-- The profile of each dialect. -/
def profile : Dialect → Profile
  | .ansi => { glob := true }
  | .mysql =>
    { quote := some '\x60'
      strings := .backslashes
      pagination := .limitRequired "18446744073709551615"
      rollup := .withRollup
      wrapsOperands := false
      textType := "CHAR"
      search := fun s => match s with
        | .contains => some (.function "JSON_CONTAINS" false)
        | .containedBy => some (.function "JSON_CONTAINS" true)
        | .fullText => some .matchAgainst
        | .posixRegex => some .regex
      intervals := .aroundAmount
      upsert := .onDuplicateKey
      replace := true
      insertIgnore := some "IGNORE" }
  | .postgres =>
    { ilike := true
      regex := .operator "~" "!~"
      jsonOperators := true
      search := fun s => match s with
        | .contains => some (.operator "@>")
        | .containedBy => some (.operator "<@")
        | .fullText => some .textVectors
        | .posixRegex => some .regex
      arrayWord := some "ARRAY"
      returning := true
      upsert := .onConflict
      distinctOn := true }
  | .sqlite =>
    { booleans := .digits
      pagination := .limitRequired "-1"
      wrapsOperands := false
      glob := true
      upsert := .onConflict
      replace := true
      insertOrReplace := true
      insertIgnore := some "OR IGNORE"
      forUpdate := false }
  | .mssql =>
    { booleans := .digits
      strings := .national
      pagination := .offsetFetch
      orderForOffset := true
      top := true
      groupByAlias := false
      recursiveWord := false
      regex := .unsupported
      forUpdate := false }
  | .oracle =>
    { quote := none
      booleans := .digits
      pagination := .fetchOnly
      groupByAlias := false
      recursiveWord := false
      textType := "VARCHAR2(4000)"
      regex := .function "REGEXP_LIKE"
      intervals := .aroundAmount }
  | .redshift =>
    { ilike := true
      regex := .operator "~" "!~"
      arrayWord := some "ARRAY" }

end Dialect

end SqlScribe
