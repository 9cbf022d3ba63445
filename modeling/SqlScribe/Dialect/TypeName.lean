import SqlScribe.Dialect
import SqlScribe.DataType
/-! # Data types in each dialect

The spelling of every data type in every dialect. A dialect lists only the types that it spells in
its own way. -/

namespace SqlScribe.Dialect

/-- The spelling of a data type. -/
def typeName : Dialect → DataType → String
  | .ansi, t => t.standardName
  | .redshift, t => t.standardName
  | .postgres, t =>
    match t with
    | .int8 => "SMALLINT"
    | .signed => "BIGINT"
    | .unsigned => "BIGINT"
    | .binary => "BYTEA"
    | .json => "JSONB"
    | other => other.standardName
  | .mysql, t =>
    match t with
    | .bool => "TINYINT(1)"
    | .int32 => "INT"
    | .float32 => "FLOAT"
    | .float64 => "DOUBLE"
    | .timestamp => "DATETIME"
    | .timestampTz => "TIMESTAMP"
    | .binary => "BLOB"
    | .uuid => "CHAR(36)"
    | other => other.standardName
  | .sqlite, t =>
    match t with
    | .bool => "INTEGER"
    | .int8 => "INTEGER"
    | .int16 => "INTEGER"
    | .int32 => "INTEGER"
    | .int64 => "INTEGER"
    | .signed => "INTEGER"
    | .unsigned => "INTEGER"
    | .float32 => "REAL"
    | .float64 => "REAL"
    | .decimal _ _ => "NUMERIC"
    | .binary => "BLOB"
    | _ => "TEXT"
  | .mssql, t =>
    match t with
    | .bool => "BIT"
    | .int32 => "INT"
    | .signed => "INT"
    | .unsigned => "BIGINT"
    | .float64 => "FLOAT"
    | .string => "NVARCHAR(MAX)"
    | .json => "NVARCHAR(MAX)"
    | .varchar (some n) =>
    if n = 65535 then "VARCHAR(MAX)" else (DataType.varchar (some n)).standardName
    | .timestamp => "DATETIME2"
    | .timestampTz => "DATETIMEOFFSET"
    | .binary => "VARBINARY(MAX)"
    | .uuid => "UNIQUEIDENTIFIER"
    | other => other.standardName
  | .oracle, t =>
    match t with
    | .bool => "NUMBER(1)"
    | .int8 => "NUMBER(3)"
    | .int16 => "NUMBER(5)"
    | .int32 => "NUMBER(10)"
    | .int64 => "NUMBER(19)"
    | .signed => "NUMBER(19)"
    | .unsigned => "NUMBER(19)"
    | .float32 => "BINARY_FLOAT"
    | .float64 => "BINARY_DOUBLE"
    | .decimal p s => DataType.scaled "NUMBER" p s
    | .string => "CLOB"
    | .json => "CLOB"
    | .varchar (some n) => DataType.sized "VARCHAR2" (some n)
    | .varchar none => "VARCHAR2(4000)"
    | .time => "TIMESTAMP"
    | .binary => "BLOB"
    | .uuid => "RAW(16)"
    | other => other.standardName

end SqlScribe.Dialect
