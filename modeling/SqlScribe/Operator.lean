/-! # Operators

The operators that terms and conditions are built with, and their spelling where it does not depend
on the dialect. -/

namespace SqlScribe

/-- An arithmetic operator of two operands. -/
inductive ArithmeticOp where
  /-- Addition. -/
  | add
  /-- Subtraction. -/
  | sub
  /-- Multiplication. -/
  | mul
  /-- Division. -/
  | div
deriving Repr, DecidableEq

namespace ArithmeticOp

/-- Addition and subtraction, which bind less tightly than the others. -/
def isAdditive : ArithmeticOp → Bool
  | .add => true
  | .sub => true
  | .mul => false
  | .div => false

/-- An operand at the left that is itself an operation needs parentheses: a sum under a product or
quotient does. -/
def parenthesizesLeft (op left : ArithmeticOp) : Bool := !op.isAdditive && left.isAdditive

/-- An operand at the right that is itself an operation needs parentheses: any under a quotient, a
sum or difference under a difference or product, none under a sum. -/
def parenthesizesRight (op right : ArithmeticOp) : Bool :=
  match op with
  | .add => false
  | .sub => right.isAdditive
  | .mul => right.isAdditive
  | .div => true

end ArithmeticOp

/-- A comparison of two terms. -/
inductive Comparison where
  /-- Equality. -/
  | eq
  /-- Inequality. -/
  | ne
  /-- Greater. -/
  | gt
  /-- Greater or equal. -/
  | ge
  /-- Less. -/
  | lt
  /-- Less or equal. -/
  | le
deriving Repr, DecidableEq

/-- A way to match a term against a pattern. -/
inductive MatchOp where
  /-- Wildcards, case counts. -/
  | like
  /-- Wildcards, case does not count. -/
  | ilike
  /-- A regular expression. -/
  | regexp
  /-- File name wildcards. -/
  | glob
deriving Repr, DecidableEq

/-- An operator on JSON documents. -/
inductive JsonOp where
  /-- The member of a key, as a document. -/
  | member
  /-- The member of a key, as text. -/
  | memberText
  /-- The part at a path, as a document. -/
  | path
  /-- The part at a path, as text. -/
  | pathText
  /-- There is a member of a key. -/
  | hasKey
  /-- There are members of all keys. -/
  | hasKeys
  /-- There is a member of some key. -/
  | hasAnyKey
  /-- The left document contains the right one. -/
  | contains
  /-- The left document is contained in the right one. -/
  | containedBy
deriving Repr, DecidableEq

/-- The spelling of a JSON operator. -/
def JsonOp.symbol : JsonOp → String
  | .member => "->"
  | .memberText => "->>"
  | .path => "#>"
  | .pathText => "#>>"
  | .hasKey => "?"
  | .hasKeys => "?&"
  | .hasAnyKey => "?|"
  | .contains => "@>"
  | .containedBy => "<@"

/-- A connective of two conditions. -/
inductive Connective where
  /-- Conjunction. -/
  | and
  /-- Disjunction. -/
  | or
  /-- Exclusive disjunction. -/
  | xor
deriving Repr, DecidableEq

/-- A search that each dialect writes in its own way. -/
inductive Search where
  /-- A document or array contains a value. -/
  | contains
  /-- A document or array is contained in a value. -/
  | containedBy
  /-- A text contains the words of a query. -/
  | fullText
  /-- A text matches a POSIX regular expression. -/
  | posixRegex
deriving Repr, DecidableEq

/-- All searches. -/
def Search.all : List Search := [.contains, .containedBy, .fullText, .posixRegex]

/-- The name that a search is asked for by. -/
def Search.name : Search → String
  | .contains => "contains"
  | .containedBy => "contained_by"
  | .fullText => "search"
  | .posixRegex => "posix_regex"

/-- The search of a name. -/
def Search.ofName? (name : String) : Option Search :=
  all.find? (·.name == name)

/-- The direction of an ordering. -/
inductive SortOrder where
  /-- Ascending. -/
  | asc
  /-- Descending. -/
  | desc
deriving Repr, DecidableEq

/-- A part of a date or time. -/
inductive DatePart where
  /-- The year. -/
  | year
  /-- The quarter. -/
  | quarter
  /-- The month. -/
  | month
  /-- The week. -/
  | week
  /-- The day. -/
  | day
  /-- The hour. -/
  | hour
  /-- The minute. -/
  | minute
  /-- The second. -/
  | second
  /-- The microsecond. -/
  | microsecond
deriving Repr, DecidableEq

/-- The keyword of a date part. -/
def DatePart.name : DatePart → String
  | .year => "YEAR"
  | .quarter => "QUARTER"
  | .month => "MONTH"
  | .week => "WEEK"
  | .day => "DAY"
  | .hour => "HOUR"
  | .minute => "MINUTE"
  | .second => "SECOND"
  | .microsecond => "MICROSECOND"

/-- All date parts. -/
def DatePart.all : List DatePart :=
  [.year, .quarter, .month, .week, .day, .hour, .minute, .second, .microsecond]

/-- A set operator between two queries. -/
inductive SetOperator where
  /-- Rows of either query. -/
  | union
  /-- Rows of either query, repeated ones kept. -/
  | unionAll
  /-- Rows of both queries. -/
  | intersect
  /-- Rows of the left query only. -/
  | except
  /-- Rows of the left query only, under its other name. -/
  | minus
deriving Repr, DecidableEq

/-- The kind of a join. -/
inductive JoinKind where
  /-- An inner join. -/
  | inner
  /-- A left join. -/
  | left
  /-- A right join. -/
  | right
  /-- A full outer join. -/
  | outer
  /-- A left outer join. -/
  | leftOuter
  /-- A right outer join. -/
  | rightOuter
  /-- A cross join. -/
  | cross
  /-- A hash join. -/
  | hash
deriving Repr, DecidableEq

/-- The words before `JOIN` that name the kind of a join. -/
def JoinKind.words? : JoinKind → Option String
  | .inner => none
  | .left => some "LEFT"
  | .right => some "RIGHT"
  | .outer => some "FULL OUTER"
  | .leftOuter => some "LEFT OUTER"
  | .rightOuter => some "RIGHT OUTER"
  | .cross => some "CROSS"
  | .hash => some "HASH"

end SqlScribe
