import SqlScribe.Syntax
/-! # Qualifiers in expressions

The qualifiers of the fields and stars of a term or condition, in the order in which they are
written. Those inside nested queries are not counted, for a nested query answers for its own. -/

namespace SqlScribe

mutual

/-- The qualifiers in a term. -/
def Term.qualifiers : Term → List Qualifier
  | ⟨expr, _⟩ => expr.qualifiers

/-- The qualifiers in an expression. -/
def Expr.qualifiers : Expr → List Qualifier
  | .field q _ => q.toList
  | .star q => q.toList
  | .value _ => []
  | .named _ _ => []
  | .null => []
  | .parameter _ => []
  | .raw _ => []
  | .tuple items => Term.qualifiersAll items
  | .array items => Term.qualifiersAll items
  | .interval _ => []
  | .arithmetic _ left right => left.qualifiers ++ right.qualifiers
  | .negative t => t.qualifiers
  | .call c => c.qualifiers
  | .case branches otherwise =>
    Branch.qualifiersAll branches ++
      match otherwise with
      | none => []
      | some t => t.qualifiers
  | .subquery _ => []
  | .condition c => c.qualifiers

/-- The qualifiers in a call: in its arguments, its condition and its window. -/
def Call.qualifiers : Call → List Qualifier
  | ⟨_, _, _, _, _, args, filter, window⟩ =>
    Term.qualifiersAll args ++
      (match filter with
        | none => []
        | some c => c.qualifiers) ++
      (match window with
        | none => []
        | some w => w.qualifiers)

/-- The qualifiers in a window. -/
def Window.qualifiers : Window → List Qualifier
  | ⟨partitionBy, orderBy, _⟩ => Term.qualifiersAll partitionBy ++ OrderItem.qualifiersAll orderBy

/-- The qualifiers in a condition. -/
def Condition.qualifiers : Condition → List Qualifier
  | .empty => []
  | .compare _ left right => left.qualifiers ++ right.qualifiers
  | .matches _ _ term pattern _ => term.qualifiers ++ pattern.qualifiers
  | .json _ left right => left.qualifiers ++ right.qualifiers
  | .search _ term value => term.qualifiers ++ value.qualifiers
  | .isNull _ term => term.qualifiers
  | .isIn _ term items => term.qualifiers ++ Term.qualifiersAll items
  | .isInRows _ term _ => term.qualifiers
  | .between _ term low high => term.qualifiers ++ low.qualifiers ++ high.qualifiers
  | .hasRows _ _ => []
  | .combined _ left right => left.qualifiers ++ right.qualifiers
  | .not c => c.qualifiers
  | .term t => t.qualifiers

/-- The qualifiers in a list of terms. -/
def Term.qualifiersAll : List Term → List Qualifier
  | [] => []
  | t :: ts => t.qualifiers ++ Term.qualifiersAll ts

/-- The qualifiers in a list of ordering terms. -/
def OrderItem.qualifiersAll : List OrderItem → List Qualifier
  | [] => []
  | ⟨t, _⟩ :: items => t.qualifiers ++ OrderItem.qualifiersAll items

/-- The qualifiers in a list of branches. -/
def Branch.qualifiersAll : List Branch → List Qualifier
  | [] => []
  | ⟨c, t⟩ :: branches => c.qualifiers ++ t.qualifiers ++ Branch.qualifiersAll branches

end

end SqlScribe
