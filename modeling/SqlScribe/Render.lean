import SqlScribe.Lowering
import SqlScribe.Token.Text
/-! # Rendering

Whatever can be lowered to tokens can be rendered: as text with literals in it, or as text with
placeholders and a list of bound values. -/

namespace SqlScribe

/-- What can be written as SQL. -/
class Renderable (α : Type) where
  /-- Its tokens in a scope. -/
  lower : Scope → α → Lowered
  /-- The dialect it is written in unless another is asked for. -/
  dialect : α → Dialect := fun _ => .ansi
  /-- What kind of statement or part it is. -/
  kind : α → String := fun _ => "term"

namespace RenderOptions

/-- The spelling that the options ask for in a dialect. -/
def spelling (o : RenderOptions) (d : Dialect) : Spelling :=
  { dialect := d
    quote := o.quote.getD d.profile.quote
    aliasQuote := (o.aliasQuote.or o.quote).getD d.profile.quote }

end RenderOptions

section Render

variable {α : Type} [Renderable α]

/-- The dialect that an item is written in under some options. -/
def renderDialect (x : α) (o : RenderOptions) : Dialect := o.dialect.getD (Renderable.dialect x)

/-- The tokens of an item under some options. -/
def renderTokens (x : α) (o : RenderOptions) : Lowered :=
  Renderable.lower (Scope.ofOptions (renderDialect x o) o) x

/-- The text of an item with literals for its values. -/
def render (x : α) (o : RenderOptions) : Except QueryError String := do
  return Tokens.text (o.spelling (renderDialect x o)) (← renderTokens x o)

/-- The text of an item with placeholders for its values, and what is bound then. An item that
cannot be lowered binds nothing; a value that is refused leaves the values before it bound. -/
def renderBound (x : α) (o : RenderOptions) (b : Bindings) :
    Except QueryError String × Bindings :=
  match renderTokens x o with
  | .error e => (.error e, b)
  | .ok tokens => Tokens.textBound (o.spelling (renderDialect x o)) tokens b

/-- The text of an item and its bound values. -/
def renderParameters (x : α) (o : RenderOptions) (style : ParameterStyle) :
    Except QueryError (String × BoundValues) :=
  match renderBound x o ⟨style, []⟩ with
  | (.ok text, b) => .ok (text, b.finish)
  | (.error e, _) => .error e

end Render

/-- What kind of statement a query is. -/
def Query.kind (q : Query) : String :=
  match q.info.action with
  | .select => "select"
  | .insert _ true => "select"
  | .insert _ false => "insert"
  | .update _ => "update"
  | .delete => "delete"

instance : Renderable Table where
  lower s t := .ok (t.tokens s)
  dialect t := t.dialect.getD .ansi
  kind _ := "table"

instance : Renderable Term where
  lower s t := t.lower s

instance : Renderable Condition where
  lower s c := c.lower s
  kind _ := "criterion"

instance : Renderable Call where
  lower s c := c.lower s
  kind _ := "function"

instance : Renderable Interval where
  lower s i := .ok [.raw (i.literal s.dialect)]
  dialect i := i.dialect.getD .ansi
  kind _ := "interval"

instance : Renderable Query where
  lower s q := q.lower s
  dialect q := q.info.dialect
  kind := Query.kind

instance : Renderable Compound where
  lower s c := c.lower s
  dialect c := c.base.info.dialect
  kind _ := "set operation"

instance : Renderable Subquery where
  lower s q := q.lower s
  dialect q :=
    match q with
    | .query q => q.info.dialect
    | .compound c => c.base.info.dialect
  kind q :=
    match q with
    | .query q => q.kind
    | .compound _ => "set operation"

end SqlScribe
