import SqlScribe.Operator
import SqlScribe.Value
/-! # Tokens

A statement is first laid out as a list of tokens. Keywords and symbols have one spelling
everywhere; identifiers, literals and function names are spelt when the tokens are written out for
a dialect, and values may then be bound to placeholders instead. -/

namespace SqlScribe

/-- A keyword, named by its spelling. -/
inductive Keyword where
  | SELECT | FROM | WHERE | AND | OR | XOR | NOT | AS | ON | JOIN | GROUP_BY | HAVING | ORDER_BY
  | ASC | DESC | LIMIT | OFFSET | FETCH | NEXT | ROWS | ONLY | TOP | PERCENT | CASE | WHEN | THEN
  | ELSE | END | IN | BETWEEN | IS | LIKE | ESCAPE | DISTINCT | UNION | INTERSECT | EXCEPT
  | MINUS | ALL | WITH | RECURSIVE | NULL | EXISTS | INTERVAL | FOR | OVER | PARTITION_BY | RANGE
  | UNBOUNDED | PRECEDING | FOLLOWING | CURRENT_ROW | FILTER | CREATE | DROP | TABLE | TEMPORARY
  | UNLOGGED | PRIMARY | KEY | FOREIGN | REFERENCES | UNIQUE | DEFAULT | IF | INSERT | INTO
  | VALUES | UPDATE | SET | DELETE | RETURNING | USING | CONFLICT | DO | NOTHING | REPLACE
  | IGNORE
deriving Repr, DecidableEq

/-- All keywords. -/
def Keyword.all : List Keyword :=
  [.SELECT, .FROM, .WHERE, .AND, .OR, .XOR, .NOT, .AS, .ON, .JOIN, .GROUP_BY, .HAVING, .ORDER_BY,
    .ASC, .DESC, .LIMIT, .OFFSET, .FETCH, .NEXT, .ROWS, .ONLY, .TOP, .PERCENT, .CASE, .WHEN, .THEN,
    .ELSE, .END, .IN, .BETWEEN, .IS, .LIKE, .ESCAPE, .DISTINCT, .UNION, .INTERSECT, .EXCEPT, .MINUS,
    .ALL, .WITH, .RECURSIVE, .NULL, .EXISTS, .INTERVAL, .FOR, .OVER, .PARTITION_BY, .RANGE,
    .UNBOUNDED, .PRECEDING, .FOLLOWING, .CURRENT_ROW, .FILTER, .CREATE, .DROP, .TABLE, .TEMPORARY,
    .UNLOGGED, .PRIMARY, .KEY, .FOREIGN, .REFERENCES, .UNIQUE, .DEFAULT, .IF, .INSERT, .INTO,
    .VALUES, .UPDATE, .SET, .DELETE, .RETURNING, .USING, .CONFLICT, .DO, .NOTHING, .REPLACE,
    .IGNORE]

/-- The spelling of a keyword. -/
def Keyword.text : Keyword → String
  | .SELECT => "SELECT"
  | .FROM => "FROM"
  | .WHERE => "WHERE"
  | .AND => "AND"
  | .OR => "OR"
  | .XOR => "XOR"
  | .NOT => "NOT"
  | .AS => "AS"
  | .ON => "ON"
  | .JOIN => "JOIN"
  | .GROUP_BY => "GROUP BY"
  | .HAVING => "HAVING"
  | .ORDER_BY => "ORDER BY"
  | .ASC => "ASC"
  | .DESC => "DESC"
  | .LIMIT => "LIMIT"
  | .OFFSET => "OFFSET"
  | .FETCH => "FETCH"
  | .NEXT => "NEXT"
  | .ROWS => "ROWS"
  | .ONLY => "ONLY"
  | .TOP => "TOP"
  | .PERCENT => "PERCENT"
  | .CASE => "CASE"
  | .WHEN => "WHEN"
  | .THEN => "THEN"
  | .ELSE => "ELSE"
  | .END => "END"
  | .IN => "IN"
  | .BETWEEN => "BETWEEN"
  | .IS => "IS"
  | .LIKE => "LIKE"
  | .ESCAPE => "ESCAPE"
  | .DISTINCT => "DISTINCT"
  | .UNION => "UNION"
  | .INTERSECT => "INTERSECT"
  | .EXCEPT => "EXCEPT"
  | .MINUS => "MINUS"
  | .ALL => "ALL"
  | .WITH => "WITH"
  | .RECURSIVE => "RECURSIVE"
  | .NULL => "NULL"
  | .EXISTS => "EXISTS"
  | .INTERVAL => "INTERVAL"
  | .FOR => "FOR"
  | .OVER => "OVER"
  | .PARTITION_BY => "PARTITION BY"
  | .RANGE => "RANGE"
  | .UNBOUNDED => "UNBOUNDED"
  | .PRECEDING => "PRECEDING"
  | .FOLLOWING => "FOLLOWING"
  | .CURRENT_ROW => "CURRENT ROW"
  | .FILTER => "FILTER"
  | .CREATE => "CREATE"
  | .DROP => "DROP"
  | .TABLE => "TABLE"
  | .TEMPORARY => "TEMPORARY"
  | .UNLOGGED => "UNLOGGED"
  | .PRIMARY => "PRIMARY"
  | .KEY => "KEY"
  | .FOREIGN => "FOREIGN"
  | .REFERENCES => "REFERENCES"
  | .UNIQUE => "UNIQUE"
  | .DEFAULT => "DEFAULT"
  | .IF => "IF"
  | .INSERT => "INSERT"
  | .INTO => "INTO"
  | .VALUES => "VALUES"
  | .UPDATE => "UPDATE"
  | .SET => "SET"
  | .DELETE => "DELETE"
  | .RETURNING => "RETURNING"
  | .USING => "USING"
  | .CONFLICT => "CONFLICT"
  | .DO => "DO"
  | .NOTHING => "NOTHING"
  | .REPLACE => "REPLACE"
  | .IGNORE => "IGNORE"

/-- A mark that is always spelt alike. -/
inductive Mark where
  /-- The comma. -/
  | comma
  /-- The dot between a qualifier and a name. -/
  | dot
  /-- The star for all columns. -/
  | star
  /-- The opening parenthesis. -/
  | openParen
  /-- The closing parenthesis. -/
  | closeParen
  /-- The opening bracket. -/
  | openBracket
  /-- The closing bracket. -/
  | closeBracket
  /-- Equality. -/
  | eq
  /-- Inequality. -/
  | ne
  /-- Less. -/
  | lt
  /-- Greater. -/
  | gt
  /-- Less or equal. -/
  | le
  /-- Greater or equal. -/
  | ge
  /-- Addition. -/
  | plus
  /-- Subtraction and negation. -/
  | minus
  /-- Multiplication. -/
  | times
  /-- Division. -/
  | divide
deriving Repr, DecidableEq

/-- The spelling of a mark. -/
def Mark.text : Mark → String
  | .comma => ","
  | .dot => "."
  | .star => "*"
  | .openParen => "("
  | .closeParen => ")"
  | .openBracket => "["
  | .closeBracket => "]"
  | .eq => "="
  | .ne => "<>"
  | .lt => "<"
  | .gt => ">"
  | .le => "<="
  | .ge => ">="
  | .plus => "+"
  | .minus => "-"
  | .times => "*"
  | .divide => "/"

/-- A piece of a statement. -/
inductive Token where
  /-- A keyword. -/
  | word (k : Keyword)
  /-- A mark. -/
  | mark (m : Mark)
  /-- An operator that only some dialects have. -/
  | operator (symbol : String)
  /-- A blank. -/
  | space
  /-- An identifier. -/
  | ident (name : String)
  /-- An alias. -/
  | aliasName (name : String)
  /-- A count. -/
  | count (n : Int)
  /-- A literal value. -/
  | literal (v : Value)
  /-- A literal value that is bound under a name where values are bound. -/
  | named (name : String) (v : Value)
  /-- A placeholder that is written as it stands. -/
  | placeholder (text : String)
  /-- The name of a function. -/
  | functionName (name : String)
  /-- A text that is written as it stands. -/
  | raw (text : String)
deriving Inhabited

/-- The tokens of a piece of a statement. -/
abbrev Tokens := List Token

/-- The keyword of an ordering direction. -/
def SortOrder.keyword : SortOrder → Keyword
  | .asc => .ASC
  | .desc => .DESC

/-- The mark of an arithmetic operator. -/
def ArithmeticOp.mark : ArithmeticOp → Mark
  | .add => .plus
  | .sub => .minus
  | .mul => .times
  | .div => .divide

/-- The mark of a comparison. -/
def Comparison.mark : Comparison → Mark
  | .eq => .eq
  | .ne => .ne
  | .gt => .gt
  | .ge => .ge
  | .lt => .lt
  | .le => .le

/-- The keyword of a connective. -/
def Connective.keyword : Connective → Keyword
  | .and => .AND
  | .or => .OR
  | .xor => .XOR

/-- The keywords of a set operator. -/
def SetOperator.tokens : SetOperator → Tokens
  | .union => [.word .UNION]
  | .unionAll => [.word .UNION, .space, .word .ALL]
  | .intersect => [.word .INTERSECT]
  | .except => [.word .EXCEPT]
  | .minus => [.word .MINUS]

namespace Tokens

/-- Tokens between parentheses. -/
def parens (ts : Tokens) : Tokens := .mark .openParen :: ts ++ [.mark .closeParen]

/-- Tokens between parentheses where a condition holds. -/
def parensIf (wrap : Bool) (ts : Tokens) : Tokens := if wrap then parens ts else ts

/-- A token between blanks. -/
def spaced (t : Token) : Tokens := [.space, t, .space]

/-- A blank and the keyword of an ordering direction, if there is one. -/
def direction : Option SortOrder → Tokens
  | none => []
  | some order => [.space, .word order.keyword]

/-- Lists of tokens, one after the other with commas between them. -/
def listed : List Tokens → Tokens
  | [] => []
  | [ts] => ts
  | ts :: rest => ts ++ .mark .comma :: listed rest

/-- Lists of tokens, one after the other with blanks between them. -/
def spacedOut : List Tokens → Tokens
  | [] => []
  | [ts] => ts
  | ts :: rest => ts ++ .space :: spacedOut rest

/-- Names as identifiers with commas between them. -/
def idents (names : List String) : Tokens := listed (names.map fun name => [.ident name])

@[simp] theorem listed_nil : listed [] = [] := rfl

@[simp] theorem listed_singleton (ts : Tokens) : listed [ts] = ts := rfl

@[simp] theorem listed_cons_cons (ts us : Tokens) (rest : List Tokens) :
    listed (ts :: us :: rest) = ts ++ .mark .comma :: listed (us :: rest) := rfl

@[simp] theorem spacedOut_nil : spacedOut [] = [] := rfl

@[simp] theorem spacedOut_singleton (ts : Tokens) : spacedOut [ts] = ts := rfl

@[simp] theorem spacedOut_cons_cons (ts us : Tokens) (rest : List Tokens) :
    spacedOut (ts :: us :: rest) = ts ++ .space :: spacedOut (us :: rest) := rfl

end Tokens

end SqlScribe
