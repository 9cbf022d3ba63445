import SqlScribe.Render
import SqlScribe.Syntax.Equality
import SqlScribe.Term
/-! # Choices -/

namespace SqlScribe

/-- A choice between terms that is being built. -/
structure Case where
  /-- The branches, tried in order. -/
  branches : List Branch := []
  /-- The term of last resort. -/
  otherwise : Option Term := none

namespace Case

/-- The choice with one more branch. -/
def branch (c : Case) (condition : Condition) (result : Term) : Case :=
  { c with branches := c.branches ++ [⟨condition, result⟩] }

/-- The choice with a term of last resort. -/
def orElse (c : Case) (result : Term) : Case := { c with otherwise := some result }

/-- The choice as an expression. -/
def toExpr (c : Case) : Expr := .case c.branches c.otherwise

/-- The choice as a term. -/
def toTerm (c : Case) : Term := Term.ofExpr c.toExpr

instance : BEq Case := ⟨fun a b => a.toExpr.same b.toExpr⟩

instance : Renderable Case where
  lower s c := c.toExpr.lower s
  kind _ := "case"

end Case

end SqlScribe
