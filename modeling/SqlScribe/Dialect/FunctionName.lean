import SqlScribe.Dialect
/-! # Function names in each dialect

Some functions have another name in some dialects. A name is looked up in upper case; one that the
dialect does not rename is written as it was given. -/

namespace SqlScribe.Dialect

/-- The functions that a dialect calls by another name. -/
def renamedFunctions : Dialect → List (String × String)
  | .ansi => []
  | .mysql => [("NVL", "IFNULL"), ("TO_CHAR", "DATE_FORMAT"), ("RANDOM", "RAND")]
  | .postgres =>
    [("NVL", "COALESCE"), ("IFNULL", "COALESCE"), ("RAND", "RANDOM"), ("DATE_FORMAT", "TO_CHAR")]
  | .sqlite => [("NVL", "IFNULL"), ("RAND", "RANDOM"), ("CHAR_LENGTH", "LENGTH")]
  | .mssql =>
    [("LENGTH", "LEN"), ("CHAR_LENGTH", "LEN"), ("SUBSTR", "SUBSTRING"), ("NOW", "GETDATE"),
      ("NVL", "ISNULL"), ("IFNULL", "ISNULL"), ("RANDOM", "RAND")]
  | .oracle => [("IFNULL", "NVL"), ("SUBSTRING", "SUBSTR"), ("CHAR_LENGTH", "LENGTH")]
  | .redshift =>
    [("NVL", "COALESCE"), ("IFNULL", "COALESCE"), ("RAND", "RANDOM"), ("DATE_FORMAT", "TO_CHAR")]

/-- The other name that a dialect has for a function. -/
def renamed? (d : Dialect) (name : String) : Option String :=
  d.renamedFunctions.lookup (Text.upper name)

/-- The name that a dialect calls a function by. -/
def functionName (d : Dialect) (name : String) : String := (d.renamed? name).getD name

end SqlScribe.Dialect
