import SqlScribe.Calendar
import SqlScribe.Json
import SqlScribe.Uuid
/-! # Literal values

The values that can stand in a statement, written out or bound to a placeholder. -/

namespace SqlScribe

/-- A literal value. -/
inductive Value where
  /-- An integer. -/
  | int (n : Int)
  /-- A floating-point number. -/
  | float (x : Binary64)
  /-- A character string. -/
  | text (s : String)
  /-- A truth value. -/
  | bool (b : Bool)
  /-- A date. -/
  | date (d : Date)
  /-- A time of day. -/
  | time (t : TimeOfDay)
  /-- A date and time without an offset. -/
  | dateTime (m : LocalDateTime)
  /-- A date and time at an offset. -/
  | timestamp (t : Timestamp)
  /-- A universally unique identifier. -/
  | uuid (u : Uuid)
  /-- A JSON document. -/
  | json (j : Json)
deriving Inhabited

namespace Value

/-- The ISO text of a date or time. -/
def isoText? : Value → Option String
  | .date d => some d.text
  | .time t => some t.text
  | .dateTime m => some m.text
  | .timestamp t => some t.text
  | .int _ => none
  | .float _ => none
  | .text _ => none
  | .bool _ => none
  | .uuid _ => none
  | .json _ => none

/-- The value can be written as a literal: only floating-point numbers that are not finite
cannot. -/
def hasLiteral : Value → Bool
  | .float x => x.isFinite
  | _ => true

/-- Values are equal when they are of one kind and equal in it: numbers numerically, moments as
instants. -/
def same : Value → Value → Bool
  | .int a, .int b => a == b
  | .float a, .float b => a == b
  | .text a, .text b => a == b
  | .bool a, .bool b => a == b
  | .date a, .date b => a == b
  | .time a, .time b => a == b
  | .dateTime a, .dateTime b => a == b
  | .timestamp a, .timestamp b => a == b
  | .uuid a, .uuid b => a == b
  | .json a, .json b => a == b
  | _, _ => false

instance : BEq Value := ⟨same⟩

end Value

end SqlScribe
