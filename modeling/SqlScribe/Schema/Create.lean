import SqlScribe.Dialect.TypeName
import SqlScribe.Render
import SqlScribe.Syntax.Equality
/-! # Creating tables

A table is created from columns and constraints, or from the rows of a query. -/

namespace SqlScribe

/-- A column of a new table. -/
structure Column where
  /-- The name. -/
  name : String
  /-- The type. -/
  type : Option DataType := none
  /-- Whether the column can be null, if that is said. -/
  nullable : Option Bool := none
  /-- The value of rows that give none. -/
  default : Option Term := none
deriving BEq

/-- What happens to rows that refer to a row which is deleted or changed. -/
inductive ReferenceAction where
  /-- They are deleted or changed with it. -/
  | cascade
  /-- They must not be there in the end. -/
  | noAction
  /-- They must not be there. -/
  | restrict
  /-- They refer to nothing. -/
  | setNull
  /-- They refer to the default. -/
  | setDefault
deriving Repr, DecidableEq

/-- All reference actions. -/
def ReferenceAction.all : List ReferenceAction :=
  [.cascade, .noAction, .restrict, .setNull, .setDefault]

/-- The words of a reference action. -/
def ReferenceAction.words : ReferenceAction → String
  | .cascade => "CASCADE"
  | .noAction => "NO ACTION"
  | .restrict => "RESTRICT"
  | .setNull => "SET NULL"
  | .setDefault => "SET DEFAULT"

/-- Columns that refer to those of another table. -/
structure ForeignKey where
  /-- The columns. -/
  columns : List String
  /-- The other table. -/
  table : Table
  /-- Its columns. -/
  tableColumns : List String
  /-- What happens on deletion. -/
  onDelete : Option ReferenceAction
  /-- What happens on change. -/
  onUpdate : Option ReferenceAction

/-- A statement that creates a table. -/
structure CreateTable where
  /-- The table. -/
  table : Table
  /-- The dialect it is written in unless another is asked for. -/
  dialect : Option Dialect := none
  /-- The table lasts as long as the session. -/
  temporary : Bool := false
  /-- The table is not logged; a temporary one is not called so. -/
  unlogged : Bool := false
  /-- A table that exists is left alone. -/
  ifNotExists : Bool := false
  /-- The columns. -/
  columns : List Column := []
  /-- Groups of columns whose values are unique. -/
  unique : List (List String) := []
  /-- The columns of the primary key. -/
  primaryKey : Option (List String) := none
  /-- The foreign key. -/
  foreignKey : Option ForeignKey := none
  /-- The query that gives the rows. -/
  query : Option Subquery := none

namespace CreateTable

/-- Adds columns; there are none beside a query. -/
def addColumns (c : CreateTable) (columns : List Column) : Except QueryError CreateTable :=
  match c.query with
  | some _ => .error (.configuration .columnsBesideQuery)
  | none => .ok { c with columns := c.columns ++ columns }

/-- Adds a group of columns whose values are unique. -/
def addUnique (c : CreateTable) (columns : List String) : CreateTable :=
  { c with unique := c.unique ++ [columns] }

/-- Sets the primary key; there is one at most. -/
def setPrimaryKey (c : CreateTable) (columns : List String) : Except QueryError CreateTable :=
  match c.primaryKey with
  | some _ => .error (.configuration .secondPrimaryKey)
  | none => .ok { c with primaryKey := some columns }

/-- Sets the foreign key; there is one at most. -/
def setForeignKey (c : CreateTable) (key : ForeignKey) : Except QueryError CreateTable :=
  match c.foreignKey with
  | some _ => .error (.configuration .secondForeignKey)
  | none => .ok { c with foreignKey := some key }

/-- Sets the query that gives the rows; there is none beside columns. -/
def setQuery (c : CreateTable) (q : Subquery) : Except QueryError CreateTable :=
  if c.columns.isEmpty then .ok { c with query := some q }
  else .error (.configuration .columnsBesideQuery)

/-! ## Tokens -/

/-- Names between parentheses. -/
def nameList (names : List String) : Tokens := Tokens.parens (Tokens.idents names)

/-- A column. -/
def columnTokens (s : Scope) (c : Column) : Lowered := do
  let type := match c.type with
    | some t => [.space, .raw (s.dialect.typeName t)]
    | none => []
  let nullable := match c.nullable with
    | some true => [.space, .word .NULL]
    | some false => [.space, .word .NOT, .space, .word .NULL]
    | none => []
  let default ← Clause.optional (Tokens.spaced (.word .DEFAULT) ++ ·)
    (c.default.map (·.lower s.quiet))
  return .ident c.name :: type ++ nullable ++ default

/-- A constraint that some values are unique. -/
def uniqueTokens (names : List String) : Tokens := .word .UNIQUE :: .space :: nameList names

/-- The primary key. -/
def primaryKeyTokens (names : List String) : Tokens :=
  .word .PRIMARY :: .space :: .word .KEY :: .space :: nameList names

/-- What happens on an event, if it is said. -/
def referenceTokens (event : Keyword) : Option ReferenceAction → Tokens
  | some action => [.space, .word .ON, .space, .word event, .space, .raw action.words]
  | none => []

/-- The foreign key. -/
def foreignKeyTokens (s : Scope) (k : ForeignKey) : Tokens :=
  .word .FOREIGN :: .space :: .word .KEY :: .space :: nameList k.columns
    ++ Tokens.spaced (.word .REFERENCES) ++ k.table.tokens s ++ .space :: nameList k.tableColumns
    ++ referenceTokens .DELETE k.onDelete ++ referenceTokens .UPDATE k.onUpdate

/-- Columns and constraints between parentheses. -/
def bodyTokens (s : Scope) (c : CreateTable) : Lowered := do
  let columns ← c.columns.mapM (columnTokens s)
  return Tokens.parens (Tokens.listed (columns ++ c.unique.map uniqueTokens
    ++ (c.primaryKey.map primaryKeyTokens).toList
    ++ (c.foreignKey.map (foreignKeyTokens s)).toList))

/-- The keywords up to the name of the table. -/
def headTokens (c : CreateTable) : Tokens :=
  .word .CREATE :: .space ::
    (if c.temporary then [.word .TEMPORARY, .space]
    else if c.unlogged then [.word .UNLOGGED, .space]
    else [])
    ++ .word .TABLE :: .space ::
    (if c.ifNotExists then
      [.word .IF, .space, .word .NOT, .space, .word .EXISTS, .space]
    else [])

/-- The whole statement; without columns and query there is none yet. -/
def lower (s : Scope) (c : CreateTable) : Lowered :=
  match c.query with
  | some q => do
    return c.headTokens ++ c.table.tokens s ++ Tokens.spaced (.word .AS) ++ (← q.lower s.embedded)
  | none =>
    if c.columns.isEmpty then .ok []
    else do return c.headTokens ++ c.table.tokens s ++ .space :: (← bodyTokens s c)

instance : Renderable CreateTable where
  lower := CreateTable.lower
  dialect c := c.dialect.getD .ansi
  kind _ := "create table"

end CreateTable

end SqlScribe
