import SqlScribe.Text.Case
/-! # Unknown names

Dialects and parameter styles are chosen by name. A name is compared in lower case, and one that
is not known is reported in lower case. -/

namespace SqlScribe

/-- A name that stands for nothing. -/
inductive UnknownName where
  /-- No dialect has this name. -/
  | dialect (name : String)
  /-- No parameter style has this name. -/
  | parameterStyle (name : String)
deriving Repr, DecidableEq

/-- The message that reports an unknown name. -/
def UnknownName.message : UnknownName → String
  | .dialect name => "unknown dialect: " ++ name
  | .parameterStyle name => "unknown parameter style: " ++ name

end SqlScribe
