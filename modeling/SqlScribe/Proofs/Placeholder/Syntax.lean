import SqlScribe.Proofs.Placeholder.Clause
import SqlScribe.Syntax
/-! # Syntax between placeholders

Some texts of the caller are written as they stand: pieces of SQL, placeholders that the caller
binds, names of functions and character sets, and qualifiers that are no identifiers. Nobody can
tell what a placeholder in one of them is for.

* `Term.isAdmitted`, `Condition.isAdmitted`, `Query.isAdmitted`: the syntax has no pieces of SQL and
  no placeholders of the caller, its other texts leave quotes and placeholders alone, and it has no
  operator that is spelt with the sign of a placeholder. -/

namespace SqlScribe

/-- The text of a qualifier that is written as it stands leaves quotes and placeholders alone. -/
def Qualifier.isAdmitted (c : Scan) : Qualifier → Bool
  | .table _ => true
  | .subquery _ _ => true
  | .raw text => c.admits text

section Syntax

variable (c : Scan)

mutual

/-- Nothing in a term can be taken for a placeholder. -/
def Term.isAdmitted : Term → Bool
  | ⟨expr, _⟩ => expr.isAdmitted

/-- Nothing in an expression can be taken for a placeholder. -/
def Expr.isAdmitted : Expr → Bool
  | .field q _ => q.all (·.isAdmitted c)
  | .star q => q.all (·.isAdmitted c)
  | .value _ => true
  | .named _ _ => true
  | .null => true
  | .parameter _ => false
  | .raw _ => false
  | .tuple items => Term.allAdmitted items
  | .array items => Term.allAdmitted items
  | .interval _ => true
  | .arithmetic _ left right => left.isAdmitted && right.isAdmitted
  | .negative t => t.isAdmitted
  | .call f => f.isAdmitted
  | .case branches otherwise =>
    Branch.allAdmitted branches &&
      match otherwise with
      | none => true
      | some t => t.isAdmitted
  | .subquery q => q.isAdmitted
  | .condition e => e.isAdmitted

/-- Nothing in a call can be taken for a placeholder. -/
def Call.isAdmitted : Call → Bool
  | ⟨name, form, _, _, _, args, filter, window⟩ =>
    c.admits name && c.admitsForm form && Term.allAdmitted args &&
      (match filter with
        | none => true
        | some e => e.isAdmitted) &&
      (match window with
        | none => true
        | some w => w.isAdmitted)

/-- Nothing in a window can be taken for a placeholder. -/
def Window.isAdmitted : Window → Bool
  | ⟨partitionBy, orderBy, _⟩ => Term.allAdmitted partitionBy && OrderItem.allAdmitted orderBy

/-- Nothing in a condition can be taken for a placeholder. -/
def Condition.isAdmitted : Condition → Bool
  | .empty => true
  | .compare _ left right => left.isAdmitted && right.isAdmitted
  | .matches _ _ t pattern _ => t.isAdmitted && pattern.isAdmitted
  | .json op left right => c.admitsOperator op && left.isAdmitted && right.isAdmitted
  | .search _ t value => t.isAdmitted && value.isAdmitted
  | .isNull _ t => t.isAdmitted
  | .isIn _ t items => t.isAdmitted && Term.allAdmitted items
  | .isInRows _ t rows => t.isAdmitted && rows.isAdmitted
  | .between _ t low high => t.isAdmitted && low.isAdmitted && high.isAdmitted
  | .hasRows _ rows => rows.isAdmitted
  | .combined _ left right => left.isAdmitted && right.isAdmitted
  | .not e => e.isAdmitted
  | .term t => t.isAdmitted

/-- Nothing in a query or set operation can be taken for a placeholder. -/
def Subquery.isAdmitted : Subquery → Bool
  | .query q => q.isAdmitted
  | .compound q => q.isAdmitted

/-- Nothing in a source can be taken for a placeholder. -/
def Source.isAdmitted : Source → Bool
  | .table _ => true
  | .subquery q => q.isAdmitted

/-- Nothing in a join can be taken for a placeholder. -/
def Join.isAdmitted : Join → Bool
  | ⟨_, source, condition⟩ => source.isAdmitted && condition.isAdmitted

/-- Nothing in the condition of a join can be taken for a placeholder. -/
def JoinCondition.isAdmitted : JoinCondition → Bool
  | .all => true
  | .on e => e.isAdmitted
  | .sharing _ => true

/-- Nothing in a common table can be taken for a placeholder. -/
def CommonTable.isAdmitted : CommonTable → Bool
  | ⟨_, _, _, body⟩ => body.isAdmitted

/-- Nothing in an assignment can be taken for a placeholder. -/
def Assignment.isAdmitted : Assignment → Bool
  | ⟨column, value⟩ => column.isAdmitted && value.isAdmitted

/-- Nothing in a conflict clause can be taken for a placeholder. -/
def Conflict.isAdmitted : Conflict → Bool
  | ⟨targets, targetFilter, _, assignments, updateFilter⟩ =>
    Term.allAdmitted targets && targetFilter.isAdmitted && Assignment.allAdmitted assignments &&
      updateFilter.isAdmitted

/-- Nothing in a query can be taken for a placeholder. -/
def Query.isAdmitted : Query → Bool
  | ⟨_, commonTables, sources, selects, distinctOn, joins, filter, groupBy, having, orderBy,
      columns, rows, conflict, duplicateUpdates, assignments, returning⟩ =>
    CommonTable.allAdmitted commonTables && (Source.allAdmitted sources &&
      (Term.allAdmitted selects && (Term.allAdmitted distinctOn && (Join.allAdmitted joins &&
      (filter.isAdmitted && (Term.allAdmitted groupBy && (having.isAdmitted &&
      (OrderItem.allAdmitted orderBy && (Term.allAdmitted columns && (Term.rowsAdmitted rows &&
      ((match conflict with
        | none => true
        | some e => e.isAdmitted) && (Assignment.allAdmitted duplicateUpdates &&
      (Assignment.allAdmitted assignments && Term.allAdmitted returning)))))))))))))

/-- Nothing in a set operation can be taken for a placeholder. -/
def Compound.isAdmitted : Compound → Bool
  | ⟨_, base, operands, orderBy, _, _, _⟩ =>
    base.isAdmitted && Operand.allAdmitted operands && OrderItem.allAdmitted orderBy

/-- Nothing in a list of terms can be taken for a placeholder. -/
def Term.allAdmitted : List Term → Bool
  | [] => true
  | t :: ts => t.isAdmitted && Term.allAdmitted ts

/-- Nothing in a list of rows can be taken for a placeholder. -/
def Term.rowsAdmitted : List (List Term) → Bool
  | [] => true
  | row :: rows => Term.allAdmitted row && Term.rowsAdmitted rows

/-- Nothing in a list of ordering terms can be taken for a placeholder. -/
def OrderItem.allAdmitted : List OrderItem → Bool
  | [] => true
  | ⟨⟨expr, _⟩, _⟩ :: items => expr.isAdmitted && OrderItem.allAdmitted items

/-- Nothing in a list of branches can be taken for a placeholder. -/
def Branch.allAdmitted : List Branch → Bool
  | [] => true
  | ⟨condition, result⟩ :: branches =>
    condition.isAdmitted && result.isAdmitted && Branch.allAdmitted branches

/-- Nothing in a list of sources can be taken for a placeholder. -/
def Source.allAdmitted : List Source → Bool
  | [] => true
  | source :: sources => source.isAdmitted && Source.allAdmitted sources

/-- Nothing in a list of joins can be taken for a placeholder. -/
def Join.allAdmitted : List Join → Bool
  | [] => true
  | j :: joins => j.isAdmitted && Join.allAdmitted joins

/-- Nothing in a list of common tables can be taken for a placeholder. -/
def CommonTable.allAdmitted : List CommonTable → Bool
  | [] => true
  | t :: ts => t.isAdmitted && CommonTable.allAdmitted ts

/-- Nothing in a list of assignments can be taken for a placeholder. -/
def Assignment.allAdmitted : List Assignment → Bool
  | [] => true
  | a :: as => a.isAdmitted && Assignment.allAdmitted as

/-- Nothing in a list of operands can be taken for a placeholder. -/
def Operand.allAdmitted : List Operand → Bool
  | [] => true
  | ⟨_, query⟩ :: operands => query.isAdmitted && Operand.allAdmitted operands

end

end Syntax

end SqlScribe
