import SqlScribe.Syntax.Shape
/-! # Terms

Building terms from names, values and other terms. A condition and a query become terms too; a query
brings its own name along as the alias. -/

namespace SqlScribe

namespace Term

/-- A field without a qualifier. -/
def field (name : String) : Term := ofExpr (.field none name)

/-- A field of something. -/
def qualified (q : Qualifier) (name : String) : Term := ofExpr (.field (some q) name)

/-- All columns. -/
def star : Term := ofExpr (.star none)

/-- All columns of something. -/
def starOf (q : Qualifier) : Term := ofExpr (.star (some q))

/-- A literal value. -/
def literal (v : Value) : Term := ofExpr (.value v)

/-- A literal integer. -/
def int (n : Int) : Term := literal (.int n)

/-- A literal value that is bound under a name where values are bound. -/
def bound (name : String) (v : Value) : Term := ofExpr (.named name v)

/-- Null. -/
def null : Term := ofExpr .null

/-- A placeholder that the caller binds. -/
def parameter (text : String) : Term := ofExpr (.parameter text)

/-- A piece of SQL. -/
def raw (sql : String) : Term := ofExpr (.raw sql)

/-- A row of terms. -/
def tuple (items : List Term) : Term := ofExpr (.tuple items)

/-- An array of terms. -/
def array (items : List Term) : Term := ofExpr (.array items)

/-- An interval. -/
def interval (i : Interval) : Term := ofExpr (.interval i)

/-- A function call. -/
def ofCall (c : Call) : Term := ofExpr (.call c)

/-- A call of a function with arguments in parentheses. -/
def invoke (name : String) (args : List Term) : Term := ofCall { name, args }

/-- A call of an aggregate function. -/
def aggregate (name : String) (args : List Term) : Term :=
  ofCall { name, args, aggregate := true }

/-- The value that a row in conflict was to give a column. -/
def values (column : String) : Term := invoke "VALUES" [field column]

/-- The field of the row in conflict. -/
def excluded (column : String) : Term := qualified (.raw "EXCLUDED") column

/-- The truth value of a condition. The condition that holds of a term is that term. -/
def ofCondition : Condition → Term
  | .term t => t
  | c => ofExpr (.condition c)

/-- The value of a query or set operation, under its name. -/
def ofSubquery (s : Subquery) : Term := ⟨.subquery s, s.alias?⟩

/-- The term under an alias. -/
def aliased (t : Term) (name : String) : Term := { t with alias? := some name }

/-! ## Arithmetic -/

/-- An arithmetic operation. -/
def arithmetic (op : ArithmeticOp) (left right : Term) : Term :=
  ofExpr (.arithmetic op left right)

instance : Add Term := ⟨arithmetic .add⟩

instance : Sub Term := ⟨arithmetic .sub⟩

instance : Mul Term := ⟨arithmetic .mul⟩

instance : Div Term := ⟨arithmetic .div⟩

/-- The remainder is a function in every dialect. -/
instance : Mod Term := ⟨fun a b => invoke "MOD" [a, b]⟩

/-- A negated term: the opposite of a number, and the negation of a condition. -/
def opposite (t : Term) : Term :=
  match t.expr with
  | .condition c => ofCondition (.not c)
  | e => ofExpr (.negative (ofExpr e))

instance : Neg Term := ⟨opposite⟩

/-! ## Function modifiers -/

/-- Changes the function call that a term is. -/
def mapCall (modifier : CallModifier) (change : Call → Except QueryError Call) (t : Term) :
    Except QueryError Term :=
  match t.expr with
  | .call c => do return { t with expr := .call (← change c) }
  | _ => .error (.usage (.modifierOnOther modifier))

/-- The function over distinct arguments. -/
def distinct : Term → Except QueryError Term :=
  mapCall .distinct fun c => .ok { c with distinct := true }

/-- The function without regard to nulls. -/
def ignoreNulls : Term → Except QueryError Term :=
  mapCall .ignoreNulls fun c => .ok { c with ignoreNulls := true }

end Term

end SqlScribe
