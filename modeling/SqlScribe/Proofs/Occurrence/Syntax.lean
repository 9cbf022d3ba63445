import Mathlib.Logic.Relation
import SqlScribe.Lowering
import SqlScribe.Proofs.Occurrence.Statement
/-! # Occurrences

Where a term, condition or query stands in a statement, and in which scope it is written there. A
part of a clause that the statement leaves out does not occur in it, nor does a grouping or ordering
term that is named by its alias.

* `Piece`, `Occurrence`: a piece of syntax, and the same in a scope.
* `QueryClause`, `Query.partsIn`: what stands in a clause of a query.
* `Occurrence.Part`, `Occurrence.OwnPart`: what stands in an occurrence directly, and what does so
  without being a query of its own.
* `Occurrence.Within`, `Occurrence.Own`: what stands in it at any depth, and what does so without a
  query between. -/

namespace SqlScribe

open Relation

/-- A piece of syntax. -/
inductive Piece where
  /-- A term. -/
  | term (t : Term)
  /-- An expression. -/
  | expr (e : Expr)
  /-- A function call. -/
  | call (c : Call)
  /-- A window. -/
  | window (w : Window)
  /-- A condition. -/
  | condition (c : Condition)
  /-- A query. -/
  | query (q : Query)
  /-- A set operation. -/
  | compound (c : Compound)

/-- The piece is a query or set operation, which answers for its own qualifiers. -/
def Piece.isQuery : Piece → Bool
  | .query _ => true
  | .compound _ => true
  | .term _ => false
  | .expr _ => false
  | .call _ => false
  | .window _ => false
  | .condition _ => false

/-- A query or set operation as a piece. -/
def Subquery.piece : Subquery → Piece
  | .query q => .query q
  | .compound c => .compound c

/-- A piece of syntax in the scope that it is written in. -/
structure Occurrence where
  /-- The scope. -/
  scope : Scope
  /-- The piece. -/
  piece : Piece

/-- The tokens of an occurrence. -/
def Occurrence.lower : Occurrence → Lowered
  | ⟨s, .term t⟩ => t.lower s
  | ⟨s, .expr e⟩ => e.lower s
  | ⟨s, .call c⟩ => c.lower s
  | ⟨s, .window w⟩ => w.lower s
  | ⟨s, .condition c⟩ => c.lower s
  | ⟨s, .query q⟩ => q.lower s
  | ⟨s, .compound c⟩ => c.lower s

section Lower

variable (s : Scope)

@[simp] theorem Occurrence.lower_term (t : Term) : (mk s (.term t)).lower = t.lower s := rfl

@[simp] theorem Occurrence.lower_expr (e : Expr) : (mk s (.expr e)).lower = e.lower s := rfl

@[simp] theorem Occurrence.lower_call (c : Call) : (mk s (.call c)).lower = c.lower s := rfl

@[simp] theorem Occurrence.lower_window (w : Window) : (mk s (.window w)).lower = w.lower s := rfl

@[simp] theorem Occurrence.lower_condition (c : Condition) :
    (mk s (.condition c)).lower = c.lower s := rfl

@[simp] theorem Occurrence.lower_query (q : Query) : (mk s (.query q)).lower = q.lower s := rfl

@[simp] theorem Occurrence.lower_compound (c : Compound) :
    (mk s (.compound c)).lower = c.lower s := rfl

@[simp] theorem Occurrence.lower_piece (x : Subquery) :
    (mk s x.piece).lower = x.lower s := by
  cases x <;> simp [Subquery.piece, Subquery.lower]

end Lower

/-! ## Parts -/

/-- The terms of a list as occurrences. -/
def Term.occurrences (s : Scope) (ts : List Term) : List Occurrence := ts.map (⟨s, .term ·⟩)

/-- The ordering terms that are not named by an alias. -/
def OrderItem.occurrences (s : Scope) (names : List String) (items : List OrderItem) :
    List Occurrence :=
  (items.filter fun i => (i.term.alias?.filter names.contains).isNone).map
    (⟨s, .expr ·.term.expr⟩)

/-- A column that is given a value, unless it is a field, of which only the name is written. -/
def Term.columnParts (s : Scope) : Term → List Occurrence
  | ⟨.field _ _, _⟩ => []
  | ⟨expr, _⟩ => [⟨s.quiet.qualifying false, .expr expr⟩]

/-- What stands in an expression. -/
def Expr.parts (s : Scope) : Expr → List Occurrence
  | .field _ _ => []
  | .star _ => []
  | .value _ => []
  | .named _ _ => []
  | .null => []
  | .parameter _ => []
  | .raw _ => []
  | .tuple items => Term.occurrences s.quiet items
  | .array items => Term.occurrences s.quiet items
  | .interval _ => []
  | .arithmetic _ left right => Term.occurrences s.quiet [left, right]
  | .negative t => Term.occurrences s.quiet [t]
  | .call c => [⟨s.quiet, .call c⟩]
  | .case branches otherwise =>
    branches.flatMap (fun b => [⟨s.quiet, .condition b.condition⟩, ⟨s.quiet, .term b.result⟩]) ++
      Term.occurrences s.quiet otherwise.toList
  | .subquery q => [⟨s.embedded, q.piece⟩]
  | .condition c => [⟨s.quiet, .condition c⟩]

/-- What stands in a function call. -/
def Call.parts (s : Scope) (c : Call) : List Occurrence :=
  Term.occurrences s.quiet (c.form.taken c.args) ++
    c.filter.toList.map (⟨s.quiet, .condition ·⟩) ++ c.window.toList.map (⟨s, .window ·⟩)

/-- What stands in a window. -/
def Window.parts (s : Scope) (w : Window) : List Occurrence :=
  Term.occurrences s.quiet w.partitionBy ++ OrderItem.occurrences s.quiet [] w.orderBy

/-- What stands in a condition. -/
def Condition.parts (s : Scope) : Condition → List Occurrence
  | .empty => []
  | .compare _ l r => Term.occurrences s.quiet [l, r]
  | .matches _ _ t pattern _ => Term.occurrences s.quiet [t, pattern]
  | .json _ l r => Term.occurrences s.quiet [l, r]
  | .search _ t value => Term.occurrences s.quiet [t, value]
  | .isNull _ t => Term.occurrences s.quiet [t]
  | .isIn _ t items => if items.isEmpty then [] else Term.occurrences s.quiet (t :: items)
  | .isInRows _ t rows => [⟨s.quiet, .term t⟩, ⟨s.embedded, rows.piece⟩]
  | .between _ t low high => Term.occurrences s.quiet [t, low, high]
  | .hasRows _ rows => [⟨s.embedded, rows.piece⟩]
  | .combined _ l r => [⟨s.quiet, .condition l⟩, ⟨s.quiet, .condition r⟩]
  | .not c => [⟨s.quiet, .condition c⟩]
  | .term t => [⟨s.quiet, .term t⟩]

/-- What stands in a source. -/
def Source.parts (s : Scope) : Source → List Occurrence
  | .table _ => []
  | .subquery x => [⟨s.asSource, x.piece⟩]

/-- What stands in the condition of a join. -/
def JoinCondition.parts (s : Scope) : JoinCondition → List Occurrence
  | .all => []
  | .on c => [⟨s.quiet, .condition c⟩]
  | .sharing _ => []

/-- What stands in a set operation. -/
def Compound.parts (s : Scope) (c : Compound) : List Occurrence :=
  ⟨s.operands, .query c.base⟩ :: c.operands.map (⟨s.operands, .query ·.query⟩) ++
    OrderItem.occurrences s.standalone (s.orderNames c.base) c.orderBy

/-- A clause of a statement. -/
inductive QueryClause where
  /-- The bodies of the common tables. -/
  | commonTables
  /-- The queries among the sources. -/
  | sources
  /-- The queries among the joined sources. -/
  | joined
  /-- The conditions of the joins. -/
  | on
  /-- The select list. -/
  | selectList
  /-- `DISTINCT ON`. -/
  | distinctOn
  /-- `WHERE`. -/
  | filter
  /-- `GROUP BY`. -/
  | groupBy
  /-- `HAVING`. -/
  | having
  /-- `ORDER BY`. -/
  | orderBy
  /-- The columns of added rows. -/
  | columns
  /-- The added rows. -/
  | rows
  /-- The columns in conflict. -/
  | conflictTargets
  /-- The condition on their index. -/
  | conflictFilter
  /-- The columns that a conflict changes. -/
  | conflictColumns
  /-- Their values. -/
  | conflictSet
  /-- The condition on the rows that a conflict changes. -/
  | conflictWhere
  /-- The columns that a duplicate key changes. -/
  | duplicateColumns
  /-- Their values. -/
  | duplicateSet
  /-- The columns that an update changes. -/
  | setColumns
  /-- Their values. -/
  | set
  /-- `RETURNING`. -/
  | returning
deriving Repr, DecidableEq

namespace Conflict

/-- The clause as it counts when something is done about conflicts. -/
def handled? (c : Conflict) : Option Conflict := if c.handler.isSome then some c else none

/-- The clause as it counts when conflicts change rows. -/
def updating? (c : Conflict) : Option Conflict :=
  if c.handler = some .update then some c else none

variable {o : Option Conflict} {c : Conflict}

theorem mem_handled (h : c ∈ (o.bind handled?).toList) : o = some c ∧ c.handler ≠ none := by
  obtain ⟨c', ho, hc⟩ := Option.bind_eq_some_iff.mp (Option.mem_toList.mp h)
  unfold handled? at hc
  split at hc
  case isTrue hsome =>
    cases hc
    exact ⟨ho, Option.isSome_iff_ne_none.mp hsome⟩
  case isFalse => cases hc

theorem mem_updating (h : c ∈ (o.bind updating?).toList) :
    o = some c ∧ c.handler = some .update := by
  obtain ⟨c', ho, hc⟩ := Option.bind_eq_some_iff.mp (Option.mem_toList.mp h)
  unfold updating? at hc
  split at hc
  case isTrue hupdate =>
    cases hc
    exact ⟨ho, hupdate⟩
  case isFalse => cases hc

end Conflict

namespace Query

/-- The statement of the query has the clause. -/
def writes (q : Query) : QueryClause → Bool
  | .commonTables => true
  | .sources | .joined | .on | .filter | .orderBy => q.readsRows
  | .selectList | .distinctOn | .groupBy | .having => q.selectsRows
  | .columns | .rows | .conflictTargets | .conflictFilter | .conflictColumns | .conflictSet
  | .conflictWhere | .duplicateColumns | .duplicateSet => q.insertsRows
  | .setColumns | .set => q.info.action.updateTarget?.isSome
  | .returning => q.insertsRows || q.info.action.isChange

/-- What stands in a clause, in the scope inside the query. -/
def clauseParts (inner : Scope) (q : Query) : QueryClause → List Occurrence
  | .commonTables => q.commonTables.map (⟨inner.standalone, ·.body.piece⟩)
  | .sources => q.sources.flatMap (Source.parts inner)
  | .joined => q.joins.flatMap (Source.parts inner ·.source)
  | .on => q.joins.flatMap (JoinCondition.parts inner ·.condition)
  | .selectList => Term.occurrences inner.labelled q.selects
  | .distinctOn => Term.occurrences inner.quiet q.distinctOn
  | .filter => [⟨inner.quiet, .condition q.filter⟩]
  | .groupBy =>
    (q.groupBy.filter fun t => (t.alias?.filter (inner.groupNames q).contains).isNone).map
      (⟨inner.quiet, .expr ·.expr⟩)
  | .having => [⟨inner.quiet, .condition q.having⟩]
  | .orderBy => OrderItem.occurrences inner.quiet (inner.orderNames q) q.orderBy
  | .columns => q.columns.flatMap (Term.columnParts inner)
  | .rows => q.rows.flatMap (Term.occurrences inner.quiet)
  | .conflictTargets => (q.conflict.bind Conflict.handled?).toList.flatMap fun c =>
    c.targets.flatMap (Term.columnParts inner)
  | .conflictFilter => (q.conflict.bind Conflict.handled?).toList.map
    (⟨inner.quiet, .condition ·.targetFilter⟩)
  | .conflictColumns => (q.conflict.bind Conflict.updating?).toList.flatMap fun c =>
    c.assignments.flatMap (Term.columnParts (inner.qualifying true) ·.column)
  | .conflictSet => (q.conflict.bind Conflict.updating?).toList.flatMap fun c =>
    c.assignments.map (⟨(inner.qualifying true).quiet, .term ·.value⟩)
  | .conflictWhere => (q.conflict.bind Conflict.updating?).toList.map
    (⟨(inner.qualifying true).quiet, .condition ·.updateFilter⟩)
  | .duplicateColumns => q.duplicateUpdates.flatMap (Term.columnParts inner ·.column)
  | .duplicateSet => q.duplicateUpdates.map (⟨inner.quiet, .term ·.value⟩)
  | .setColumns => q.assignments.flatMap (Term.columnParts inner ·.column)
  | .set => q.assignments.map (⟨inner.quiet, .term ·.value⟩)
  | .returning => Term.occurrences inner.labelled q.returning

/-- What stands in a clause of a query; a blank query and a statement without the clause have
nothing there. -/
def partsIn (s : Scope) (q : Query) (c : QueryClause) : List Occurrence :=
  if q.isBlank then [] else if q.writes c then q.clauseParts (s.inside q) c else []

end Query

namespace Occurrence

/-- What stands in an occurrence directly. -/
def Part : Occurrence → Occurrence → Prop
  | ⟨s, .term t⟩, b => b = ⟨s, .expr t.expr⟩
  | ⟨s, .expr e⟩, b => b ∈ e.parts s
  | ⟨s, .call c⟩, b => b ∈ c.parts s
  | ⟨s, .window w⟩, b => b ∈ w.parts s
  | ⟨s, .condition c⟩, b => b ∈ c.parts s
  | ⟨s, .query q⟩, b => ∃ c, b ∈ q.partsIn s c
  | ⟨s, .compound c⟩, b => b ∈ c.parts s

/-- What stands in an occurrence directly and is not a query of its own. -/
def OwnPart (a b : Occurrence) : Prop := Part a b ∧ b.piece.isQuery = false

/-- What stands in an occurrence at some depth. -/
def Within : Occurrence → Occurrence → Prop := ReflTransGen Part

/-- What stands in an occurrence at some depth without a query between. -/
def Own : Occurrence → Occurrence → Prop := ReflTransGen OwnPart

theorem Own.within {a b : Occurrence} (h : Own a b) : Within a b :=
  ReflTransGen.mono (fun _ _ hpart => hpart.1) _ _ h

end Occurrence

end SqlScribe
