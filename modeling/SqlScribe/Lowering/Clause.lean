import SqlScribe.Dialect.Literal
import SqlScribe.Dialect.Pagination
import SqlScribe.Scope
import SqlScribe.Syntax.Shape
/-! # Clauses

The tokens of terms, conditions and clauses, put together from the tokens of their parts. Parts come
as results: the first error among them, in the order in which the clause looks at them, is the error
of the whole. -/

namespace SqlScribe

/-- The tokens of a piece of a statement, or the reason for which it has none. -/
abbrev Lowered := Except QueryError Tokens

/-- The tokens of the items of a list. -/
abbrev LoweredList := Except QueryError (List Tokens)

namespace Clause

/-- The token of a value that has a literal. -/
def value (v : Value) (t : Token) : Lowered :=
  match v with
  | .float x => if x.isFinite then .ok [t] else .error (.usage (.noLiteral x))
  | _ => .ok [t]

/-- An array in brackets. Where a word introduces arrays, an empty one is a string instead. -/
def array (word : Option String) (isEmpty : Bool) (items : LoweredList) : Lowered :=
  match word with
  | some w =>
    if isEmpty then .ok [.raw "'\x7b\x7d'"]
    else do
      let items ← items
      return .raw w :: .mark .openBracket :: Tokens.listed items ++ [.mark .closeBracket]
  | none => do
    let items ← items
    return .mark .openBracket :: Tokens.listed items ++ [.mark .closeBracket]

/-- An arithmetic operation, its operands in parentheses where they need them. -/
def arithmetic (op : ArithmeticOp) (leftOp rightOp : Option ArithmeticOp)
    (left right : Lowered) : Lowered := do
  let l ← left
  let r ← right
  return Tokens.parensIf (leftOp.any op.parenthesizesLeft) l ++ .mark op.mark ::
    Tokens.parensIf (rightOp.any op.parenthesizesRight) r

/-- A negated term. -/
def negative (isOperation : Bool) (term : Lowered) : Lowered := do
  return .mark .minus :: Tokens.parensIf isOperation (← term)

/-- A part that may be missing, dressed where it is there. -/
def optional (dress : Tokens → Tokens) : Option Lowered → Lowered
  | none => .ok []
  | some part => part.map dress

/-- A choice: its branches, then the term of last resort. -/
def choice (branches : LoweredList) (otherwise : Option Lowered) : Lowered := do
  let branches ← branches
  let rest ← optional (Tokens.spaced (.word .ELSE) ++ ·) otherwise
  return .word .CASE :: branches.flatten ++ rest ++ [.space, .word .END]

/-- A branch of a choice. -/
def branch (condition result : Lowered) : Lowered := do
  let c ← condition
  let r ← result
  return .space :: .word .WHEN :: .space :: c ++ Tokens.spaced (.word .THEN) ++ r

/-- The name of a function and its arguments between parentheses. -/
def invocation (name : String) (inner : Tokens) : Tokens :=
  .functionName name :: Tokens.parens inner

/-- The single argument that some forms of a call need. -/
def firstArgument (name : String) (args : LoweredList) : Lowered := do
  match ← args with
  | [] => .error (.arity name (.exactly 1) 0)
  | arg :: _ => .ok arg

/-- A call without its condition and window. -/
def invoked (name : String) (form : CallForm) (distinct ignoreNulls : Bool)
    (args : LoweredList) : Lowered :=
  match form with
  | .bare => .ok [.functionName name]
  | .plain => do
    let args ← args
    return invocation name
      ((if distinct then [.word .DISTINCT, .space] else []) ++ Tokens.listed args
        ++ (if ignoreNulls then [.space, .word .IGNORE, .space, .raw "NULLS"] else []))
  | .cast type => do
    let arg ← firstArgument name args
    return invocation name (arg ++ Tokens.spaced (.word .AS) ++ [.raw type.standardName])
  | .convert charset => do
    let arg ← firstArgument name args
    return invocation name (arg ++ Tokens.spaced (.word .USING) ++ [.raw charset])
  | .extract part => do
    let arg ← firstArgument name args
    return invocation name (.raw part.name :: Tokens.spaced (.word .FROM) ++ arg)

/-- A call with its condition and window. -/
def call (invoked : Lowered) (filter window : Option Lowered) : Lowered := do
  let head ← invoked
  let filter ← optional
    (fun c => .space :: .word .FILTER :: Tokens.parens (.word .WHERE :: .space :: c)) filter
  let window ← optional (.space :: ·) window
  return head ++ filter ++ window

/-- An end of a window frame. -/
def frameBound : FrameBound → Tokens
  | .unboundedPreceding => [.word .UNBOUNDED, .space, .word .PRECEDING]
  | .preceding n => [.count n.toInt64.toInt, .space, .word .PRECEDING]
  | .currentRow => [.word .CURRENT_ROW]
  | .following n => [.count n.toInt64.toInt, .space, .word .FOLLOWING]
  | .unboundedFollowing => [.word .UNBOUNDED, .space, .word .FOLLOWING]

/-- A window frame. -/
def frame (f : Frame) : Tokens :=
  let unit : Token := match f.unit with
    | .rows => .word .ROWS
    | .range => .word .RANGE
  match f.stop with
  | some stop =>
    unit :: .space :: .word .BETWEEN :: .space :: frameBound f.start
      ++ Tokens.spaced (.word .AND) ++ frameBound stop
  | none => unit :: .space :: frameBound f.start

/-- A clause of listed items, unless there are none. -/
def items (head : Tokens) (items : List Tokens) : List Tokens :=
  match items with
  | [] => []
  | items => [head ++ .space :: Tokens.listed items]

/-- A window. -/
def window (partitionBy orderBy : LoweredList) (frame? : Option Frame) : Lowered := do
  let partitionBy ← partitionBy
  let orderBy ← orderBy
  let frames := match frame? with
    | none => []
    | some f => [frame f]
  let parts := items [.word .PARTITION_BY] partitionBy ++ items [.word .ORDER_BY] orderBy ++ frames
  return .word .OVER :: Tokens.parens (Tokens.spacedOut parts)

/-- An ordering term and its direction. -/
def orderItem (term : Lowered) (order : Option SortOrder) : Lowered := do
  return (← term) ++ Tokens.direction order

/-! ## Conditions -/

/-- The keyword `NOT` and a blank where a condition is negated. -/
def negation (negated : Bool) : Tokens := if negated then [.word .NOT, .space] else []

/-- A comparison; null cannot be compared. -/
def comparison (op : Comparison) (withNull : Bool) (left right : Lowered) : Lowered :=
  if withNull then .error (.usage .comparisonWithNull)
  else do
    let l ← left
    let r ← right
    return l ++ .mark op.mark :: r

/-- Two operands with an operator between blanks, negated or not. -/
def infixed (left : Tokens) (negated : Bool) (op : Token) (right : Tokens) : Tokens :=
  left ++ .space :: negation negated ++ op :: .space :: right

/-- A match of a regular expression, as the dialect writes it. -/
def regex (d : Dialect) (negated : Bool) (term pattern : Tokens) : Lowered :=
  match d.profile.regex with
  | .operator isMatch isNoMatch =>
    .ok (term ++ Tokens.spaced (.operator (if negated then isNoMatch else isMatch)) ++ pattern)
  | .function name =>
    .ok (negation negated ++ invocation name (Tokens.listed [term, pattern]))
  | .unsupported => .error (.unsupported d .regex)

/-- A match in which case does not count, where there is no operator for it: both operands are
compared in upper case. -/
def caseless (d : Dialect) (negated : Bool) (term pattern : Tokens) : Tokens :=
  let upperTerm := invocation "UPPER"
    (invocation "CAST" (term ++ Tokens.spaced (.word .AS) ++ [.raw d.profile.textType]))
  infixed upperTerm negated (.word .LIKE) (invocation "UPPER" pattern)

/-- A match against a pattern. -/
def matching (d : Dialect) (op : MatchOp) (negated : Bool) (term pattern : Lowered)
    (escape : Option Char) : Lowered := do
  let t ← term
  let p ← pattern
  let body ← match op with
    | .like => .ok (infixed t negated (.word .LIKE) p)
    | .ilike =>
      if d.profile.ilike then .ok (infixed t negated (.operator "ILIKE") p)
      else .ok (caseless d negated t p)
    | .regexp => regex d negated t p
    | .glob =>
      if d.profile.glob then .ok (infixed t negated (.operator "GLOB") p)
      else .error (.unsupported d .glob)
  return body ++
    match escape with
    | none => []
    | some c => Tokens.spaced (.word .ESCAPE) ++ [.raw (d.stringLiteral (String.singleton c))]

/-- An operation on JSON documents. -/
def json (d : Dialect) (op : JsonOp) (left right : Lowered) : Lowered :=
  if d.profile.jsonOperators then do
    let l ← left
    let r ← right
    return l ++ .operator op.symbol :: r
  else .error (.unsupported d (.jsonOperator op))

/-- A search, as the dialect writes it. -/
def search (d : Dialect) (op : Search) (term value : Lowered) : Lowered :=
  match d.profile.search op with
  | none => .error (.unsupported d (.search op))
  | some style => do
    let t ← term
    let v ← value
    match style with
    | .operator symbol => .ok (t ++ .operator symbol :: v)
    | .function name valueFirst =>
      .ok (invocation name (Tokens.listed (if valueFirst then [v, t] else [t, v])))
    | .matchAgainst =>
      .ok (invocation "MATCH" t ++ .space :: .raw "AGAINST" :: .space :: Tokens.parens v)
    | .textVectors =>
      .ok (invocation "TO_TSVECTOR" t ++ Tokens.spaced (.operator "@@")
        ++ invocation "PLAINTO_TSQUERY" v)
    | .regex => regex d false t v

/-- A test for null. -/
def isNull (negated : Bool) (term : Lowered) : Lowered := do
  return (← term) ++ Tokens.spaced (.word .IS) ++ negation negated ++ [.word .NULL]

/-- A test for membership in a list. Nothing is a member of an empty list. -/
def isIn (negated isEmpty : Bool) (term : Lowered) (items : LoweredList) : Lowered :=
  if isEmpty then .ok [.raw (if negated then "1=1" else "1=0")]
  else do
    let t ← term
    let items ← items
    return infixed t negated (.word .IN) (Tokens.parens (Tokens.listed items))

/-- A test for membership in the rows of a query. -/
def isInRows (negated : Bool) (term rows : Lowered) : Lowered := do
  let t ← term
  let rows ← rows
  return infixed t negated (.word .IN) rows

/-- A test for lying between two terms. -/
def between (negated : Bool) (term low high : Lowered) : Lowered := do
  let t ← term
  let low ← low
  let high ← high
  return infixed t negated (.word .BETWEEN) (low ++ Tokens.spaced (.word .AND) ++ high)

/-- A test for the existence of rows. -/
def hasRows (negated : Bool) (rows : Lowered) : Lowered := do
  return negation negated ++ .word .EXISTS :: .space :: (← rows)

/-- Two conditions under a connective; one under another connective stands in parentheses. -/
def combined (op : Connective) (leftOp rightOp : Option Connective)
    (left right : Lowered) : Lowered := do
  let l ← left
  let r ← right
  return Tokens.parensIf (leftOp.any (· != op)) l ++ Tokens.spaced (.word op.keyword)
    ++ Tokens.parensIf (rightOp.any (· != op)) r

/-- A negated condition; one with a connective stands in parentheses. -/
def negated (isCombined : Bool) (c : Lowered) : Lowered := do
  return .word .NOT :: .space :: Tokens.parensIf isCombined (← c)

end Clause

end SqlScribe
