import SqlScribe.Token
import SqlScribe.Table
/-! # Scopes

A scope is what a term has to know about its surroundings to be written: the dialect, the options
that were asked for, and what the statements around it have settled. -/

namespace SqlScribe

/-- The options of a rendering. -/
structure RenderOptions where
  /-- The dialect, if it is not that of the statement. -/
  dialect : Option Dialect := none
  /-- The character around identifiers, if it is not that of the dialect. -/
  quote : Option (Option Char) := none
  /-- The character around aliases, if it is not that of identifiers. -/
  aliasQuote : Option (Option Char) := none
  /-- Aliases are introduced by `AS`. -/
  asKeyword : Bool := false
  /-- Fields of tables are always qualified. -/
  qualify : Bool := false
  /-- `GROUP BY` names aliases of the select list. -/
  groupByAlias : Bool := true
  /-- `ORDER BY` names aliases of the select list. -/
  orderByAlias : Bool := true
deriving Repr, DecidableEq, Inhabited

/-- The surroundings of a term. -/
structure Scope where
  /-- The dialect of the whole statement. -/
  dialect : Dialect
  /-- Terms and queries show their own aliases. -/
  showsAlias : Bool := false
  /-- Fields of tables without an alias are qualified by the table's name. -/
  qualifies : Bool := false
  /-- Every query qualifies its fields. -/
  alwaysQualifies : Bool := false
  /-- Queries stand in parentheses. -/
  nested : Bool := false
  /-- `GROUP BY` names aliases of the select list. -/
  groupByAlias : Bool := true
  /-- `ORDER BY` names aliases of the select list. -/
  orderByAlias : Bool := true
  /-- Aliases are introduced by `AS`. -/
  asKeyword : Bool := false
  /-- Names that the queries around have given to sources, the innermost first. -/
  aliases : List (SourceId × String) := []

namespace Scope

/-- The scope of a whole statement. -/
def ofOptions (d : Dialect) (o : RenderOptions) : Scope :=
  { dialect := d
    qualifies := o.qualify
    alwaysQualifies := o.qualify
    groupByAlias := o.groupByAlias
    orderByAlias := o.orderByAlias
    asKeyword := o.asKeyword }

/-- The scope of an operand: it does not show its alias. -/
def quiet (s : Scope) : Scope := { s with showsAlias := false }

/-- The scope of an item that shows its alias. -/
def labelled (s : Scope) : Scope := { s with showsAlias := true }

/-- The scope of a query that stands where a term does. -/
def embedded (s : Scope) : Scope := { s with nested := true, showsAlias := false }

/-- The scope of a query that stands alone or between parentheses of its surroundings. -/
def standalone (s : Scope) : Scope := { s with nested := false, showsAlias := false }

/-- The scope of a query that is a source of rows. -/
def asSource (s : Scope) : Scope := { s with nested := true, showsAlias := true }

/-- The scope in which fields are, or are not, qualified. -/
def qualifying (s : Scope) (qualifies : Bool) : Scope := { s with qualifies := qualifies }

/-- The scope inside a query that qualifies its fields or not and has given names to sources. -/
def enter (s : Scope) (qualifies : Bool) (aliases : List (SourceId × String)) : Scope :=
  { s with
    showsAlias := false
    nested := false
    qualifies := s.alwaysQualifies || qualifies
    aliases := aliases ++ s.aliases }

/-- The name that was given to a source. -/
def alias? (s : Scope) (id : SourceId) : Option String := s.aliases.lookup id

/-- The tokens that introduce an alias. -/
def aliasSuffix (s : Scope) (name : String) : Tokens :=
  .space :: (if s.asKeyword then [.word .AS, .space, .aliasName name] else [.aliasName name])

/-- The token before the dot of a field, if there is one. -/
def qualifier? (s : Scope) : Qualifier → Option Token
  | .table t =>
    match t.alias?.or (s.alias? t.id) with
    | some name => some (.ident name)
    | none => if s.qualifies then some (.ident t.name) else none
  | .subquery id alias? => (alias?.or (s.alias? id)).map .ident
  | .raw text => some (.raw text)

/-- The tokens before the name of a field: the qualifier and its dot. -/
def qualification (s : Scope) (q : Option Qualifier) : Tokens :=
  match q.bind s.qualifier? with
  | some t => [t, .mark .dot]
  | none => []

end Scope

/-- The tokens of a table with its schemas and its alias. -/
def Table.tokens (s : Scope) (t : Table) : Tokens :=
  t.schema.flatMap (fun part => [.ident part, .mark .dot]) ++ .ident t.name ::
    (match t.alias? with
      | some name => s.aliasSuffix name
      | none => [])

end SqlScribe
