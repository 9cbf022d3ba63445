/-! # Arities -/

namespace SqlScribe

/-- The numbers of arguments that a function takes. -/
inductive Arity where
  /-- Exactly so many. -/
  | exactly (n : Nat)
  /-- From one number to another. -/
  | between (low high : Nat)
  /-- So many or more. -/
  | atLeast (n : Nat)
  /-- One for each of some named parameters. -/
  | named (parameters : List String)
deriving Repr, DecidableEq

namespace Arity

/-- A function of this arity takes `n` arguments. -/
def accepts : Arity → Nat → Bool
  | .exactly k, n => n == k
  | .between low high, n => low ≤ n && n ≤ high
  | .atLeast k, n => k ≤ n
  | .named parameters, n => n == parameters.length

/-- The arity as it is told in a message. -/
def description : Arity → String
  | .exactly k => toString k
  | .between low high => toString low ++ " to " ++ toString high
  | .atLeast k => "at least " ++ toString k
  | .named parameters =>
    toString parameters.length ++ " (" ++ ", ".intercalate parameters ++ ")"

end Arity

end SqlScribe
