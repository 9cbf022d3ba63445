import SqlScribe.Syntax.Shape
/-! # Syntax with all its conditions

A condition may be none at all, and a blank query writes nothing. Where a keyword introduces a
condition, there must be one that writes something.

* `Expr.isVacant`, `Condition.isVacant`: nothing is written for the expression or condition.
* `Condition.isPlaceable`: a clause can be made of the condition, or is left out because of it.
* `Term.isComplete`, `Condition.isComplete`, `Query.isComplete`: nowhere in the syntax does a
  keyword stand before a condition, or before the upper end of a range, that is vacant. -/

namespace SqlScribe

/-- Nothing is written for the query or set operation in parentheses. -/
def Subquery.isVacant : Subquery → Bool
  | .query q => q.isBlank
  | .compound _ => false

mutual

/-- Nothing is written for the term. -/
def Term.isVacant : Term → Bool
  | ⟨expr, _⟩ => expr.isVacant

/-- Nothing is written for the expression: it is a blank query, or a condition that is vacant. -/
def Expr.isVacant : Expr → Bool
  | .subquery q => q.isVacant
  | .condition c => c.isVacant
  | _ => false

/-- Nothing is written for the condition: it is none, or the truth of a vacant term. -/
def Condition.isVacant : Condition → Bool
  | .empty => true
  | .term t => t.isVacant
  | _ => false

end

/-- The condition is none, so that its clause is left out, or something is written for it. -/
def Condition.isPlaceable (c : Condition) : Bool := c.isEmpty || !c.isVacant

mutual

/-- No keyword in a term is left without its condition. -/
def Term.isComplete : Term → Bool
  | ⟨expr, _⟩ => expr.isComplete

/-- No keyword in an expression is left without its condition. -/
def Expr.isComplete : Expr → Bool
  | .field _ _ => true
  | .star _ => true
  | .value _ => true
  | .named _ _ => true
  | .null => true
  | .parameter _ => true
  | .raw _ => true
  | .tuple items => Term.allComplete items
  | .array items => Term.allComplete items
  | .interval _ => true
  | .arithmetic _ left right => left.isComplete && right.isComplete
  | .negative t => t.isComplete
  | .call c => c.isComplete
  | .case branches otherwise =>
    Branch.allComplete branches &&
      match otherwise with
      | none => true
      | some t => t.isComplete
  | .subquery q => q.isComplete
  | .condition c => c.isComplete

/-- No keyword in a call is left without its condition. -/
def Call.isComplete : Call → Bool
  | ⟨_, _, _, _, _, args, filter, window⟩ =>
    Term.allComplete args &&
      ((match filter with
        | none => true
        | some c => !c.isVacant && c.isComplete) &&
      (match window with
        | none => true
        | some w => w.isComplete))

/-- No keyword in a window is left without its condition. -/
def Window.isComplete : Window → Bool
  | ⟨partitionBy, orderBy, _⟩ => Term.allComplete partitionBy && OrderItem.allComplete orderBy

/-- No keyword in a condition is left without its condition. -/
def Condition.isComplete : Condition → Bool
  | .empty => true
  | .compare _ left right => left.isComplete && right.isComplete
  | .matches _ _ t pattern _ => t.isComplete && pattern.isComplete
  | .json _ left right => left.isComplete && right.isComplete
  | .search _ t value => t.isComplete && value.isComplete
  | .isNull _ t => t.isComplete
  | .isIn _ t items => t.isComplete && Term.allComplete items
  | .isInRows _ t rows => t.isComplete && rows.isComplete
  | .between _ t low high =>
    t.isComplete && (low.isComplete && (!high.isVacant && high.isComplete))
  | .hasRows _ rows => rows.isComplete
  | .combined _ left right =>
    (!left.isVacant && left.isComplete) && (!right.isVacant && right.isComplete)
  | .not c => !c.isVacant && c.isComplete
  | .term t => t.isComplete

/-- No keyword in a query or set operation is left without its condition. -/
def Subquery.isComplete : Subquery → Bool
  | .query q => q.isComplete
  | .compound c => c.isComplete

/-- No keyword in a source is left without its condition. -/
def Source.isComplete : Source → Bool
  | .table _ => true
  | .subquery q => q.isComplete

/-- No keyword in a join is left without its condition. -/
def Join.isComplete : Join → Bool
  | ⟨_, source, condition⟩ => source.isComplete && condition.isComplete

/-- No keyword in the condition of a join is left without its condition. -/
def JoinCondition.isComplete : JoinCondition → Bool
  | .all => true
  | .on c => !c.isVacant && c.isComplete
  | .sharing _ => true

/-- No keyword in a common table is left without its condition. -/
def CommonTable.isComplete : CommonTable → Bool
  | ⟨_, _, _, body⟩ => body.isComplete

/-- No keyword in an assignment is left without its condition. -/
def Assignment.isComplete : Assignment → Bool
  | ⟨column, value⟩ => column.isComplete && value.isComplete

/-- No keyword in a conflict clause is left without its condition. -/
def Conflict.isComplete : Conflict → Bool
  | ⟨targets, targetFilter, _, assignments, updateFilter⟩ =>
    Term.allComplete targets && ((targetFilter.isPlaceable && targetFilter.isComplete) &&
      (Assignment.allComplete assignments && (updateFilter.isPlaceable && updateFilter.isComplete)))

/-- No keyword in a query is left without its condition. -/
def Query.isComplete : Query → Bool
  | ⟨_, commonTables, sources, selects, distinctOn, joins, filter, groupBy, having, orderBy,
      columns, rows, conflict, duplicateUpdates, assignments, returning⟩ =>
    CommonTable.allComplete commonTables && (Source.allComplete sources &&
      (Term.allComplete selects && (Term.allComplete distinctOn && (Join.allComplete joins &&
      ((filter.isPlaceable && filter.isComplete) && (Term.allComplete groupBy &&
      ((having.isPlaceable && having.isComplete) &&
      (OrderItem.allComplete orderBy && (Term.allComplete columns && (Term.rowsComplete rows &&
      ((match conflict with
        | none => true
        | some c => c.isComplete) && (Assignment.allComplete duplicateUpdates &&
      (Assignment.allComplete assignments && Term.allComplete returning)))))))))))))

/-- No keyword in a set operation is left without its condition. -/
def Compound.isComplete : Compound → Bool
  | ⟨_, base, operands, orderBy, _, _, _⟩ =>
    base.isComplete && (Operand.allComplete operands && OrderItem.allComplete orderBy)

/-- No keyword in a list of terms is left without its condition. -/
def Term.allComplete : List Term → Bool
  | [] => true
  | t :: ts => t.isComplete && Term.allComplete ts

/-- No keyword in a list of rows is left without its condition. -/
def Term.rowsComplete : List (List Term) → Bool
  | [] => true
  | row :: rows => Term.allComplete row && Term.rowsComplete rows

/-- No keyword in a list of ordering terms is left without its condition. -/
def OrderItem.allComplete : List OrderItem → Bool
  | [] => true
  | ⟨⟨expr, _⟩, _⟩ :: items => expr.isComplete && OrderItem.allComplete items

/-- No keyword in a list of branches is left without its condition. -/
def Branch.allComplete : List Branch → Bool
  | [] => true
  | ⟨condition, result⟩ :: branches =>
    (!condition.isVacant && condition.isComplete) &&
      (result.isComplete && Branch.allComplete branches)

/-- No keyword in a list of sources is left without its condition. -/
def Source.allComplete : List Source → Bool
  | [] => true
  | source :: sources => source.isComplete && Source.allComplete sources

/-- No keyword in a list of joins is left without its condition. -/
def Join.allComplete : List Join → Bool
  | [] => true
  | j :: joins => j.isComplete && Join.allComplete joins

/-- No keyword in a list of common tables is left without its condition. -/
def CommonTable.allComplete : List CommonTable → Bool
  | [] => true
  | t :: ts => t.isComplete && CommonTable.allComplete ts

/-- No keyword in a list of assignments is left without its condition. -/
def Assignment.allComplete : List Assignment → Bool
  | [] => true
  | a :: as => a.isComplete && Assignment.allComplete as

/-- No keyword in a list of operands is left without its condition. -/
def Operand.allComplete : List Operand → Bool
  | [] => true
  | ⟨_, query⟩ :: operands => query.isComplete && Operand.allComplete operands

end

end SqlScribe
