import SqlScribe.Naming
/-! # Dialects

The SQL dialects that statements can be written in, and the names they are chosen by. -/

namespace SqlScribe

/-- An SQL dialect. -/
inductive Dialect where
  /-- The standard. -/
  | ansi
  /-- MySQL and MariaDB. -/
  | mysql
  /-- PostgreSQL. -/
  | postgres
  /-- SQLite. -/
  | sqlite
  /-- Microsoft SQL Server. -/
  | mssql
  /-- Oracle. -/
  | oracle
  /-- Amazon Redshift. -/
  | redshift
deriving Repr, DecidableEq, Inhabited

namespace Dialect

/-- All dialects. -/
def all : List Dialect := [ansi, mysql, postgres, sqlite, mssql, oracle, redshift]

/-- The name of a dialect. -/
def name : Dialect → String
  | .ansi => "ansi"
  | .mysql => "mysql"
  | .postgres => "postgres"
  | .sqlite => "sqlite"
  | .mssql => "mssql"
  | .oracle => "oracle"
  | .redshift => "redshift"

/-- The names that a dialect is chosen by, in lower case. -/
def aliases : Dialect → List String
  | .ansi => ["ansi", "generic", "sql"]
  | .mysql => ["mysql", "mariadb"]
  | .postgres => ["postgres", "postgresql", "pg"]
  | .sqlite => ["sqlite", "sqlite3"]
  | .mssql => ["mssql", "sqlserver", "tsql"]
  | .oracle => ["oracle"]
  | .redshift => ["redshift"]

/-- The dialect of a name in upper or lower case. -/
def ofName (text : String) : Except UnknownName Dialect :=
  let name := Text.lower text
  match all.find? (·.aliases.contains name) with
  | some d => .ok d
  | none => .error (.dialect name)

theorem mem_all (d : Dialect) : d ∈ all := by cases d <;> decide

theorem name_mem_aliases (d : Dialect) : d.name ∈ d.aliases := by cases d <;> decide

end Dialect

end SqlScribe
