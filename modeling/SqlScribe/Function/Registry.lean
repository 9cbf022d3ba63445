import SqlScribe.Term
/-! # Known functions

Functions can be called by name: the name is looked up in upper case, and the number of arguments is
checked. Functions that are not known can be declared with named parameters. -/

namespace SqlScribe

namespace Function

/-- The aggregate and window functions, with the numbers of their arguments. -/
def aggregates : List (String × Arity) :=
  [("COUNT", .exactly 1), ("SUM", .exactly 1), ("AVG", .exactly 1), ("MIN", .exactly 1),
    ("MAX", .exactly 1), ("STD", .exactly 1), ("STDDEV", .exactly 1), ("FIRST", .exactly 1),
    ("LAST", .exactly 1), ("MEDIAN", .exactly 1), ("ROW_NUMBER", .exactly 0), ("RANK", .exactly 0),
    ("DENSE_RANK", .exactly 0), ("PERCENT_RANK", .exactly 0), ("CUME_DIST", .exactly 0),
    ("NTILE", .exactly 1), ("FIRST_VALUE", .exactly 1), ("LAST_VALUE", .exactly 1),
    ("LAG", .between 1 3), ("LEAD", .between 1 3)]

/-- The functions of single rows, with the numbers of their arguments. -/
def scalars : List (String × Arity) :=
  [("COALESCE", .atLeast 1), ("IFNULL", .exactly 2), ("NULLIF", .exactly 2), ("NVL", .exactly 2),
    ("CONCAT", .atLeast 1), ("UPPER", .exactly 1), ("LOWER", .exactly 1), ("LENGTH", .exactly 1),
    ("CHAR_LENGTH", .exactly 1), ("SUBSTRING", .between 2 3), ("TRIM", .exactly 1),
    ("REPLACE", .exactly 3), ("REVERSE", .exactly 1), ("ASCII", .exactly 1), ("BIN", .exactly 1),
    ("INSERT", .exactly 4), ("SPLIT_PART", .exactly 3), ("REGEXP_REPLACE", .between 3 4),
    ("ABS", .exactly 1), ("CEIL", .exactly 1), ("FLOOR", .exactly 1), ("ROUND", .between 1 2),
    ("SQRT", .exactly 1), ("SIGN", .exactly 1), ("EXP", .exactly 1), ("LN", .exactly 1),
    ("LOG", .exactly 2), ("POW", .exactly 2), ("MOD", .exactly 2), ("RAND", .between 0 1),
    ("NOW", .exactly 0), ("UTC_TIMESTAMP", .exactly 0), ("DATE", .exactly 1),
    ("TIMESTAMP", .between 1 2), ("DATEDIFF", .between 2 3), ("DATE_ADD", .exactly 3),
    ("TIMESTAMPADD", .exactly 3), ("TO_CHAR", .exactly 2), ("TO_DATE", .exactly 2)]

/-- A function is known by this name, in upper or lower case. -/
def isKnown (name : String) : Bool :=
  let key := Text.upper name
  (aggregates.lookup key).isSome || (scalars.lookup key).isSome

/-- The string `*` as the star for all columns; any other term as it is. -/
def starOr (t : Term) : Term :=
  match t.expr with
  | .value (.text "*") => Term.star
  | _ => t

/-- The arguments of a known function: those of `COUNT` may be the string `*`. -/
def arguments (name : String) (args : List Term) : List Term :=
  if name = "COUNT" then args.map starOr else args

/-- A call of a known function. -/
def call (name : String) (args : List Term) : Except QueryError Term :=
  let key := Text.upper name
  match aggregates.lookup key, scalars.lookup key with
  | some arity, _ =>
    if arity.accepts args.length then .ok (Term.aggregate key (arguments key args))
    else .error (.arity key arity args.length)
  | none, some arity =>
    if arity.accepts args.length then .ok (Term.invoke key (arguments key args))
    else .error (.arity key arity args.length)
  | none, none => .error (.unknownFunction name)

end Function

/-- A function that is declared with named parameters. -/
structure CustomFunction where
  /-- The name. -/
  name : String
  /-- The names of the parameters. -/
  parameters : List String
  /-- It aggregates rows. -/
  aggregate : Bool := false
deriving Repr, DecidableEq

/-- A call of a declared function, with one argument for each parameter. -/
def CustomFunction.call (f : CustomFunction) (args : List Term) : Except QueryError Term :=
  let arity := Arity.named f.parameters
  if arity.accepts args.length then
    .ok (Term.ofCall { name := f.name, args, aggregate := f.aggregate })
  else .error (.arity f.name arity args.length)

end SqlScribe
