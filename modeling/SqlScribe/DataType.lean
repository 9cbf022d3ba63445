/-! # Data types

The column types that every dialect can spell, and their standard spelling. -/

namespace SqlScribe

/-- A data type of a column or a cast. -/
inductive DataType where
  /-- Truth values. -/
  | bool
  /-- Integers of 8 bits. -/
  | int8
  /-- Integers of 16 bits. -/
  | int16
  /-- Integers of 32 bits. -/
  | int32
  /-- Integers of 64 bits. -/
  | int64
  /-- Signed integers of the widest size. -/
  | signed
  /-- Unsigned integers of the widest size. -/
  | unsigned
  /-- Floating-point numbers of 32 bits. -/
  | float32
  /-- Floating-point numbers of 64 bits. -/
  | float64
  /-- Decimal numbers with a number of digits, some of them behind the point. -/
  | decimal (precision scale : UInt8)
  /-- Character strings of any length. -/
  | string
  /-- Character strings of a fixed length. -/
  | char (length : Option UInt16)
  /-- Character strings of a limited length. -/
  | varchar (length : Option UInt16)
  /-- Dates. -/
  | date
  /-- Times of day. -/
  | time
  /-- Dates with times. -/
  | timestamp
  /-- Dates with times and a time zone. -/
  | timestampTz
  /-- Byte strings. -/
  | binary
  /-- JSON documents. -/
  | json
  /-- Universally unique identifiers. -/
  | uuid
deriving Repr, DecidableEq, Inhabited

namespace DataType

/-- A type name followed by its length, if it has one. -/
def sized (name : String) : Option UInt16 → String
  | some n => name ++ "(" ++ toString n.toNat ++ ")"
  | none => name

/-- A type name followed by the digits in all and behind the point. -/
def scaled (name : String) (precision scale : UInt8) : String :=
  name ++ "(" ++ toString precision.toNat ++ "," ++ toString scale.toNat ++ ")"

/-- The standard spelling of a type. -/
def standardName : DataType → String
  | .bool => "BOOLEAN"
  | .int8 => "TINYINT"
  | .int16 => "SMALLINT"
  | .int32 => "INTEGER"
  | .int64 => "BIGINT"
  | .signed => "SIGNED"
  | .unsigned => "UNSIGNED"
  | .float32 => "REAL"
  | .float64 => "DOUBLE PRECISION"
  | .decimal p s => scaled "DECIMAL" p s
  | .string => "TEXT"
  | .char n => sized "CHAR" n
  | .varchar n => sized "VARCHAR" n
  | .date => "DATE"
  | .time => "TIME"
  | .timestamp => "TIMESTAMP"
  | .timestampTz => "TIMESTAMP WITH TIME ZONE"
  | .binary => "BINARY"
  | .json => "JSON"
  | .uuid => "UUID"

end DataType

end SqlScribe
