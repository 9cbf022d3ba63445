import SqlScribe.Dialect.FunctionName
import SqlScribe.Dialect.Literal
import SqlScribe.Parameter
import SqlScribe.Token
/-! # Text of tokens

Tokens are written out for a dialect with given quotes. Values stand in the text as literals, or are
bound one after the other with placeholders in their places. -/

namespace SqlScribe

/-- How names and literals are spelt. -/
structure Spelling where
  /-- The dialect. -/
  dialect : Dialect
  /-- The character around identifiers. -/
  quote : Option Char
  /-- The character around aliases. -/
  aliasQuote : Option Char

/-- The spelling that a dialect has of its own accord. -/
def Dialect.spelling (d : Dialect) : Spelling := ⟨d, d.profile.quote, d.profile.quote⟩

namespace Token

/-- The text of a token with values as literals. -/
def text (s : Spelling) : Token → String
  | .word k => k.text
  | .mark m => m.text
  | .operator symbol => symbol
  | .space => " "
  | .ident name => Text.identifier s.quote name
  | .aliasName name => Text.identifier s.aliasQuote name
  | .count n => toString n
  | .literal v => s.dialect.literal v
  | .named _ v => s.dialect.literal v
  | .placeholder text => text
  | .functionName name => s.dialect.functionName name
  | .raw text => text

/-- The value that a token binds, and the name it is bound under. -/
def value? : Token → Option (Option String × Value)
  | .literal v => some (none, v)
  | .named name v => some (some name, v)
  | .word _ => none
  | .mark _ => none
  | .operator _ => none
  | .space => none
  | .ident _ => none
  | .aliasName _ => none
  | .count _ => none
  | .placeholder _ => none
  | .functionName _ => none
  | .raw _ => none

/-- The text of a token with a placeholder for its value. -/
def textBound (s : Spelling) (b : Bindings) (t : Token) : Except QueryError (String × Bindings) :=
  match t.value? with
  | some (name, v) => b.bind name v
  | none => .ok (t.text s, b)

end Token

namespace Tokens

/-- The text of tokens with values as literals. -/
def text (s : Spelling) : Tokens → String
  | [] => ""
  | t :: ts => t.text s ++ text s ts

/-- The text of tokens with placeholders for their values, and the values bound then. A value that
is refused ends the text; what was bound before it stays bound. -/
def textBound (s : Spelling) : Tokens → Bindings → Except QueryError String × Bindings
  | [], b => (.ok "", b)
  | t :: ts, b =>
    match t.textBound s b with
    | .error e => (.error e, b)
    | .ok (piece, b) =>
      match textBound s ts b with
      | (.ok rest, b) => (.ok (piece ++ rest), b)
      | (.error e, b) => (.error e, b)

end Tokens

end SqlScribe
