import SqlScribe.Error
import SqlScribe.Value
/-! # Bound parameters

Values can be kept out of the text of a statement: each is bound, and a placeholder stands in its
place. Styles differ in the spelling of placeholders; the named ones bind a value under a name, once
for all its placeholders. -/

namespace SqlScribe

/-- A spelling of placeholders. -/
inductive ParameterStyle where
  /-- Question marks. -/
  | qmark
  /-- Colons and numbers. -/
  | numeric
  /-- Dollar signs and numbers. -/
  | dollar
  /-- Colons and names. -/
  | named
  /-- The directive `%s`. -/
  | format
  /-- Directives with names. -/
  | pyformat
deriving Repr, DecidableEq

namespace ParameterStyle

/-- All styles. -/
def all : List ParameterStyle := [qmark, numeric, dollar, named, format, pyformat]

/-- The name of a style. -/
def name : ParameterStyle → String
  | .qmark => "qmark"
  | .numeric => "numeric"
  | .dollar => "dollar"
  | .named => "named"
  | .format => "format"
  | .pyformat => "pyformat"

/-- The names that a style is chosen by, in lower case. -/
def aliases : ParameterStyle → List String
  | .qmark => ["qmark", "?"]
  | .numeric => ["numeric"]
  | .dollar => ["dollar", "$"]
  | .named => ["named"]
  | .format => ["format"]
  | .pyformat => ["pyformat"]

/-- The style of a name in upper or lower case. -/
def ofName (text : String) : Except UnknownName ParameterStyle :=
  let name := Text.lower text
  match all.find? (·.aliases.contains name) with
  | some s => .ok s
  | none => .error (.parameterStyle name)

/-- Placeholders of the style carry names. -/
def isNamed : ParameterStyle → Bool
  | .qmark => false
  | .numeric => false
  | .dollar => false
  | .named => true
  | .format => false
  | .pyformat => true

/-- The placeholder of the value at an index, counted from 1, that is bound under a name. -/
def placeholder : ParameterStyle → Nat → String → String
  | .qmark, _, _ => "?"
  | .numeric, index, _ => ":" ++ toString index
  | .dollar, index, _ => "$" ++ toString index
  | .named, _, name => ":" ++ name
  | .format, _, _ => "%s"
  | .pyformat, _, name => "%(" ++ name ++ ")s"

theorem mem_all (s : ParameterStyle) : s ∈ all := by cases s <;> decide

end ParameterStyle

/-- The values bound so far. -/
structure Bindings where
  /-- The spelling of placeholders. -/
  style : ParameterStyle
  /-- Names and values in the order they were bound. -/
  entries : List (String × Value) := []

/-- The values of a finished statement. -/
inductive BoundValues where
  /-- Values in the order of their placeholders. -/
  | positional (values : List Value)
  /-- Values under their names. -/
  | named (entries : List (String × Value))

namespace BoundValues

/-- The number of values. -/
def size : BoundValues → Nat
  | .positional values => values.length
  | .named entries => entries.length

/-- There is no value. -/
def isEmpty (b : BoundValues) : Bool := b.size == 0

/-- The value of a name; positional values have none. -/
def get? : BoundValues → String → Option Value
  | .positional _, _ => none
  | .named entries, name => entries.lookup name

/-- The values without their names. -/
def values : BoundValues → List Value
  | .positional values => values
  | .named entries => entries.map (·.2)

end BoundValues

namespace Bindings

/-- The number of values. -/
def size (b : Bindings) : Nat := b.entries.length

/-- There is no value. -/
def isEmpty (b : Bindings) : Bool := b.entries.isEmpty

/-- The names that are taken. -/
def names (b : Bindings) : List String := b.entries.map (·.1)

/-- A name made up for a value that was given none. -/
def generatedName (n : Nat) : String := "param" ++ toString n

/-- The least number from `n` on whose made-up name is not taken, among the first `fuel + 1`. -/
def firstFree (taken : List String) : Nat → Nat → Nat
  | 0, n => n
  | fuel + 1, n =>
    if taken.contains (generatedName n) then firstFree taken fuel (n + 1) else n

/-- A name for the value that is bound next. Of one more name than there are values one is free, so
the search ends. -/
def freshName (b : Bindings) : String :=
  generatedName (firstFree b.names b.size (b.size + 1))

/-- Binds a value, under a given name or one that is made up, and gives its placeholder. In a named
style a name that is taken serves again for an equal value and is refused for another. -/
def bind (b : Bindings) (name : Option String) (v : Value) :
    Except QueryError (String × Bindings) :=
  let key := name.getD b.freshName
  let placeholder := b.style.placeholder (b.size + 1) key
  let extended := { b with entries := b.entries ++ [(key, v)] }
  if b.style.isNamed then
    match b.entries.lookup key with
    | some bound =>
      if bound == v then .ok (placeholder, b) else .error (.configuration (.parameterTaken key))
    | none => .ok (placeholder, extended)
  else .ok (placeholder, extended)

/-- The bound values as a database takes them. -/
def finish (b : Bindings) : BoundValues :=
  if b.style.isNamed then .named b.entries else .positional (b.entries.map (·.2))

end Bindings

end SqlScribe
