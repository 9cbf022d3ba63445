import SqlScribe.Render
/-! # Dropping objects -/

namespace SqlScribe

/-- A kind of object that can be dropped. -/
inductive ObjectKind where
  /-- A database. -/
  | database
  /-- A table. -/
  | table
  /-- A view. -/
  | view
  /-- An index. -/
  | index
  /-- A user. -/
  | user
deriving Repr, DecidableEq

/-- All kinds of objects. -/
def ObjectKind.all : List ObjectKind := [.database, .table, .view, .index, .user]

/-- The word for a kind of object. -/
def ObjectKind.word : ObjectKind → String
  | .database => "DATABASE"
  | .table => "TABLE"
  | .view => "VIEW"
  | .index => "INDEX"
  | .user => "USER"

/-- The token of a kind of object; only that of tables is a keyword of its own. -/
def ObjectKind.token (k : ObjectKind) : Token :=
  if k = .table then .word .TABLE else .raw k.word

/-- A statement that drops an object. -/
structure DropObject where
  /-- The kind of the object. -/
  kind : ObjectKind
  /-- The object. -/
  target : Table
  /-- An object that does not exist is no error. -/
  ifExists : Bool := false
  /-- The dialect it is written in unless another is asked for. -/
  dialect : Option Dialect := none

namespace DropObject

/-- The tokens of the statement. -/
def tokens (s : Scope) (d : DropObject) : Tokens :=
  .word .DROP :: .space :: d.kind.token :: .space ::
    (if d.ifExists then [.word .IF, .space, .word .EXISTS, .space] else []) ++ d.target.tokens s

instance : Renderable DropObject where
  lower s d := .ok (d.tokens s)
  dialect d := d.dialect.getD .ansi
  kind _ := "drop"

end DropObject

end SqlScribe
