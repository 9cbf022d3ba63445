import SqlScribe.Syntax
/-! # Aggregation

A term has one value for a group of rows if it is an aggregate, and one for each row if it is a
field. Literals fit both. A compound term follows its parts: one part with a value for each row
makes the whole such a term. -/

namespace SqlScribe

/-- What a term has values for. -/
inductive Aggregation where
  /-- Groups of rows. -/
  | aggregate
  /-- Both groups and rows. -/
  | neutral
  /-- Single rows. -/
  | perRow
deriving Repr, DecidableEq

namespace Aggregation

/-- The aggregation of a whole from those of its parts. -/
def resolve (parts : List Aggregation) : Aggregation :=
  if parts.all (· == .neutral) then .neutral
  else if parts.contains .perRow then .perRow
  else .aggregate

/-- The aggregation of a branch from those of its condition and its term: an aggregate condition
makes it an aggregate, otherwise the term counts. -/
def orElse : Aggregation → Aggregation → Aggregation
  | .aggregate, _ => .aggregate
  | .neutral, other => other
  | .perRow, other => other

/-- Whether a term is an aggregate, if that is settled. -/
def toOption : Aggregation → Option Bool
  | .aggregate => some true
  | .neutral => none
  | .perRow => some false

end Aggregation

mutual

/-- The aggregation of a term. -/
def Term.aggregation : Term → Aggregation
  | ⟨expr, _⟩ => expr.aggregation

/-- The aggregation of an expression. -/
def Expr.aggregation : Expr → Aggregation
  | .field _ _ => .perRow
  | .star _ => .perRow
  | .value _ => .neutral
  | .named _ _ => .neutral
  | .null => .neutral
  | .parameter _ => .neutral
  | .raw _ => .neutral
  | .tuple items => Aggregation.resolve (Term.aggregations items)
  | .array items => Aggregation.resolve (Term.aggregations items)
  | .interval _ => .neutral
  | .arithmetic _ left right => Aggregation.resolve [left.aggregation, right.aggregation]
  | .negative t => t.aggregation
  | .call c => c.aggregation
  | .case branches otherwise =>
    Aggregation.resolve (Branch.aggregations branches ++
      match otherwise with
      | none => []
      | some t => [t.aggregation])
  | .subquery _ => .neutral
  | .condition c => c.aggregation

/-- The aggregation of a call: an aggregate function makes an aggregate, any other follows its
arguments. -/
def Call.aggregation : Call → Aggregation
  | ⟨_, _, aggregate, _, _, args, _, _⟩ =>
    if aggregate then .aggregate else Aggregation.resolve (Term.aggregations args)

/-- The aggregation of a condition. Of tests for membership and for lying between two terms only the
tested term counts. -/
def Condition.aggregation : Condition → Aggregation
  | .empty => .neutral
  | .compare _ left right => Aggregation.resolve [left.aggregation, right.aggregation]
  | .matches _ _ term pattern _ => Aggregation.resolve [term.aggregation, pattern.aggregation]
  | .json _ left right => Aggregation.resolve [left.aggregation, right.aggregation]
  | .search _ term value => Aggregation.resolve [term.aggregation, value.aggregation]
  | .isNull _ term => term.aggregation
  | .isIn _ term _ => term.aggregation
  | .isInRows _ term _ => term.aggregation
  | .between _ term _ _ => term.aggregation
  | .hasRows _ _ => .neutral
  | .combined _ left right => Aggregation.resolve [left.aggregation, right.aggregation]
  | .not c => c.aggregation
  | .term t => t.aggregation

/-- The aggregations of a list of terms. -/
def Term.aggregations : List Term → List Aggregation
  | [] => []
  | t :: ts => t.aggregation :: Term.aggregations ts

/-- The aggregations of a list of branches. -/
def Branch.aggregations : List Branch → List Aggregation
  | [] => []
  | ⟨c, t⟩ :: branches => c.aggregation.orElse t.aggregation :: Branch.aggregations branches

end

end SqlScribe
