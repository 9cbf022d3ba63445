import SqlScribe.Scope
import SqlScribe.Syntax.Aggregation
import SqlScribe.Syntax.Shape
/-! # Values under other identities

Two runs of one program give the same values, except that these have other identities and that the
queries among them keep their identities in the course of calls or do not.

* `Recast`: how the values of a run are seen in another one.
* `Term.recast`, `Condition.recast`, `Query.recast`: a value as the other run has it.
* `Term.qualifiers_recast`, `Term.aggregation_recast`, `Query.usesQualifiers_recast`: what is asked
  of syntax has the same answer in both runs, with the qualifiers as the other run has them. -/

namespace SqlScribe

/-- How the values of a run are seen in another one. -/
structure Recast where
  /-- The identity that is there in the place of another one. -/
  id : SourceId → SourceId
  /-- Calls give queries a new identity there. -/
  immutable : Bool

variable {r : Recast}

/-! ## Values without terms -/

/-- The handle as another run has it. -/
def Table.recast (r : Recast) (t : Table) : Table := { t with id := r.id t.id }

/-- The qualifier as another run has it. -/
def Qualifier.recast (r : Recast) : Qualifier → Qualifier
  | .table t => .table (t.recast r)
  | .subquery id alias? => .subquery (r.id id) alias?
  | .raw text => .raw text

/-- The lock as another run has it. -/
def Lock.recast (r : Recast) (l : Lock) : Lock := { l with tables := l.tables.map (·.recast r) }

/-- The action as another run has it. -/
def Action.recast (r : Recast) : Action → Action
  | .select => .select
  | .insert t fromList => .insert (t.recast r) fromList
  | .update t => .update (t.recast r)
  | .delete => .delete

/-- The names of sources as another run has them. -/
def Recast.aliases (r : Recast) (l : List (SourceId × String)) : List (SourceId × String) :=
  l.map fun p => (r.id p.1, p.2)

/-- The part of a query without terms as another run has it. -/
def QueryInfo.recast (r : Recast) (i : QueryInfo) : QueryInfo :=
  { i with
    id := r.id i.id
    immutable := r.immutable
    aliases := r.aliases i.aliases
    starred := i.starred.map (·.recast r)
    lock := i.lock.map (·.recast r)
    action := i.action.recast r
    usingTables := i.usingTables.map (·.recast r) }

/-! ## Syntax -/

mutual

/-- The term as another run has it. -/
def Term.recast (r : Recast) : Term → Term
  | ⟨expr, alias?⟩ => ⟨expr.recast r, alias?⟩

/-- The expression as another run has it. -/
def Expr.recast (r : Recast) : Expr → Expr
  | .field q name => .field (q.map (·.recast r)) name
  | .star q => .star (q.map (·.recast r))
  | .value v => .value v
  | .named name v => .named name v
  | .null => .null
  | .parameter text => .parameter text
  | .raw sql => .raw sql
  | .tuple items => .tuple (Term.recastAll r items)
  | .array items => .array (Term.recastAll r items)
  | .interval i => .interval i
  | .arithmetic op left right => .arithmetic op (left.recast r) (right.recast r)
  | .negative t => .negative (t.recast r)
  | .call c => .call (c.recast r)
  | .case branches otherwise =>
    .case (Branch.recastAll r branches)
      (match otherwise with
        | none => none
        | some t => some (t.recast r))
  | .subquery q => .subquery (q.recast r)
  | .condition c => .condition (c.recast r)

/-- The call as another run has it. -/
def Call.recast (r : Recast) : Call → Call
  | ⟨name, form, aggregate, distinct, ignoreNulls, args, filter, window⟩ =>
    ⟨name, form, aggregate, distinct, ignoreNulls, Term.recastAll r args,
      (match filter with
        | none => none
        | some c => some (c.recast r)),
      (match window with
        | none => none
        | some w => some (w.recast r))⟩

/-- The window as another run has it. -/
def Window.recast (r : Recast) : Window → Window
  | ⟨partitionBy, orderBy, frame⟩ =>
    ⟨Term.recastAll r partitionBy, OrderItem.recastAll r orderBy, frame⟩

/-- The condition as another run has it. -/
def Condition.recast (r : Recast) : Condition → Condition
  | .empty => .empty
  | .compare op left right => .compare op (left.recast r) (right.recast r)
  | .matches op negated term pattern escape =>
    .matches op negated (term.recast r) (pattern.recast r) escape
  | .json op left right => .json op (left.recast r) (right.recast r)
  | .search op term value => .search op (term.recast r) (value.recast r)
  | .isNull negated term => .isNull negated (term.recast r)
  | .isIn negated term items => .isIn negated (term.recast r) (Term.recastAll r items)
  | .isInRows negated term rows => .isInRows negated (term.recast r) (rows.recast r)
  | .between negated term low high =>
    .between negated (term.recast r) (low.recast r) (high.recast r)
  | .hasRows negated rows => .hasRows negated (rows.recast r)
  | .combined op left right => .combined op (left.recast r) (right.recast r)
  | .not c => .not (c.recast r)
  | .term t => .term (t.recast r)

/-- The query or set operation as another run has it. -/
def Subquery.recast (r : Recast) : Subquery → Subquery
  | .query q => .query (q.recast r)
  | .compound c => .compound (c.recast r)

/-- The source as another run has it. -/
def Source.recast (r : Recast) : Source → Source
  | .table t => .table (t.recast r)
  | .subquery q => .subquery (q.recast r)

/-- The join as another run has it. -/
def Join.recast (r : Recast) : Join → Join
  | ⟨kind, source, condition⟩ => ⟨kind, source.recast r, condition.recast r⟩

/-- The condition of a join as another run has it. -/
def JoinCondition.recast (r : Recast) : JoinCondition → JoinCondition
  | .all => .all
  | .on c => .on (c.recast r)
  | .sharing columns => .sharing columns

/-- The common table as another run has it. -/
def CommonTable.recast (r : Recast) : CommonTable → CommonTable
  | ⟨name, columns, recursive, body⟩ => ⟨name, columns, recursive, body.recast r⟩

/-- The assignment as another run has it. -/
def Assignment.recast (r : Recast) : Assignment → Assignment
  | ⟨column, value⟩ => ⟨column.recast r, value.recast r⟩

/-- The conflict clause as another run has it. -/
def Conflict.recast (r : Recast) : Conflict → Conflict
  | ⟨targets, targetFilter, handler, assignments, updateFilter⟩ =>
    ⟨Term.recastAll r targets, targetFilter.recast r, handler, Assignment.recastAll r assignments,
      updateFilter.recast r⟩

/-- The query as another run has it. -/
def Query.recast (r : Recast) : Query → Query
  | ⟨info, commonTables, sources, selects, distinctOn, joins, filter, groupBy, having, orderBy,
      columns, rows, conflict, duplicateUpdates, assignments, returning⟩ =>
    { info := info.recast r
      commonTables := CommonTable.recastAll r commonTables
      sources := Source.recastAll r sources
      selects := Term.recastAll r selects
      distinctOn := Term.recastAll r distinctOn
      joins := Join.recastAll r joins
      filter := filter.recast r
      groupBy := Term.recastAll r groupBy
      having := having.recast r
      orderBy := OrderItem.recastAll r orderBy
      columns := Term.recastAll r columns
      rows := Term.recastRows r rows
      conflict := match conflict with
        | none => none
        | some c => some (c.recast r)
      duplicateUpdates := Assignment.recastAll r duplicateUpdates
      assignments := Assignment.recastAll r assignments
      returning := Term.recastAll r returning }

/-- The set operation as another run has it. -/
def Compound.recast (r : Recast) : Compound → Compound
  | ⟨id, base, operands, orderBy, limit, offset, alias?⟩ =>
    ⟨r.id id, base.recast r, Operand.recastAll r operands, OrderItem.recastAll r orderBy, limit,
      offset, alias?⟩

/-- The terms as another run has them. -/
def Term.recastAll (r : Recast) : List Term → List Term
  | [] => []
  | t :: ts => t.recast r :: Term.recastAll r ts

/-- The rows as another run has them. -/
def Term.recastRows (r : Recast) : List (List Term) → List (List Term)
  | [] => []
  | row :: rows => Term.recastAll r row :: Term.recastRows r rows

/-- The ordering terms as another run has them. -/
def OrderItem.recastAll (r : Recast) : List OrderItem → List OrderItem
  | [] => []
  | ⟨t, order⟩ :: items => ⟨t.recast r, order⟩ :: OrderItem.recastAll r items

/-- The branches as another run has them. -/
def Branch.recastAll (r : Recast) : List Branch → List Branch
  | [] => []
  | ⟨condition, result⟩ :: branches =>
    ⟨condition.recast r, result.recast r⟩ :: Branch.recastAll r branches

/-- The sources as another run has them. -/
def Source.recastAll (r : Recast) : List Source → List Source
  | [] => []
  | source :: sources => source.recast r :: Source.recastAll r sources

/-- The joins as another run has them. -/
def Join.recastAll (r : Recast) : List Join → List Join
  | [] => []
  | j :: joins => j.recast r :: Join.recastAll r joins

/-- The common tables as another run has them. -/
def CommonTable.recastAll (r : Recast) : List CommonTable → List CommonTable
  | [] => []
  | t :: ts => t.recast r :: CommonTable.recastAll r ts

/-- The assignments as another run has them. -/
def Assignment.recastAll (r : Recast) : List Assignment → List Assignment
  | [] => []
  | a :: as => a.recast r :: Assignment.recastAll r as

/-- The operands as another run has them. -/
def Operand.recastAll (r : Recast) : List Operand → List Operand
  | [] => []
  | ⟨operator, query⟩ :: operands => ⟨operator, query.recast r⟩ :: Operand.recastAll r operands

end

/-! ### Lists -/

@[simp] theorem Term.recastAll_eq_map (ts : List Term) :
    Term.recastAll r ts = ts.map (·.recast r) := by
  induction ts with
  | nil => rfl
  | cons t ts ih => rw [Term.recastAll, ih, List.map_cons]

@[simp] theorem Term.recastRows_eq_map (rows : List (List Term)) :
    Term.recastRows r rows = rows.map fun row => row.map (·.recast r) := by
  induction rows with
  | nil => rfl
  | cons row rows ih => rw [Term.recastRows, ih, Term.recastAll_eq_map, List.map_cons]

/-- The ordering term as another run has it. -/
def OrderItem.recast (r : Recast) (i : OrderItem) : OrderItem := ⟨i.term.recast r, i.order⟩

@[simp] theorem OrderItem.recastAll_eq_map (items : List OrderItem) :
    OrderItem.recastAll r items = items.map (·.recast r) := by
  induction items with
  | nil => rfl
  | cons item items ih =>
    cases item
    rw [OrderItem.recastAll, ih, List.map_cons]
    rfl

@[simp] theorem Branch.isEmpty_recastAll (branches : List Branch) :
    (Branch.recastAll r branches).isEmpty = branches.isEmpty := by
  cases branches with
  | nil => rfl
  | cons branch branches =>
    cases branch
    rfl

@[simp] theorem Source.recastAll_eq_map (sources : List Source) :
    Source.recastAll r sources = sources.map (·.recast r) := by
  induction sources with
  | nil => rfl
  | cons source sources ih => rw [Source.recastAll, ih, List.map_cons]

@[simp] theorem Join.recastAll_eq_map (joins : List Join) :
    Join.recastAll r joins = joins.map (·.recast r) := by
  induction joins with
  | nil => rfl
  | cons j joins ih => rw [Join.recastAll, ih, List.map_cons]

@[simp] theorem CommonTable.recastAll_eq_map (ts : List CommonTable) :
    CommonTable.recastAll r ts = ts.map (·.recast r) := by
  induction ts with
  | nil => rfl
  | cons t ts ih => rw [CommonTable.recastAll, ih, List.map_cons]

@[simp] theorem Assignment.recastAll_eq_map (as : List Assignment) :
    Assignment.recastAll r as = as.map (·.recast r) := by
  induction as with
  | nil => rfl
  | cons a as ih => rw [Assignment.recastAll, ih, List.map_cons]

/-- A query as another run has it, with its lists gone through element by element. -/
theorem Query.recast_eq (q : Query) : q.recast r =
    { info := q.info.recast r
      commonTables := q.commonTables.map (·.recast r)
      sources := q.sources.map (·.recast r)
      selects := q.selects.map (·.recast r)
      distinctOn := q.distinctOn.map (·.recast r)
      joins := q.joins.map (·.recast r)
      filter := q.filter.recast r
      groupBy := q.groupBy.map (·.recast r)
      having := q.having.recast r
      orderBy := q.orderBy.map (·.recast r)
      columns := q.columns.map (·.recast r)
      rows := q.rows.map fun row => row.map (·.recast r)
      conflict := q.conflict.map (·.recast r)
      duplicateUpdates := q.duplicateUpdates.map (·.recast r)
      assignments := q.assignments.map (·.recast r)
      returning := q.returning.map (·.recast r) } := by
  obtain ⟨info, commonTables, sources, selects, distinctOn, joins, filter, groupBy, having, orderBy,
    columns, rows, conflict, duplicateUpdates, assignments, returning⟩ := q
  cases conflict <;> simp [recast]

section Fields

variable (q : Query)

@[simp] theorem Query.info_recast : (q.recast r).info = q.info.recast r := by rw [q.recast_eq]

@[simp] theorem Query.commonTables_recast :
    (q.recast r).commonTables = q.commonTables.map (·.recast r) := by rw [q.recast_eq]

@[simp] theorem Query.sources_recast :
    (q.recast r).sources = q.sources.map (·.recast r) := by rw [q.recast_eq]

@[simp] theorem Query.selects_recast :
    (q.recast r).selects = q.selects.map (·.recast r) := by rw [q.recast_eq]

@[simp] theorem Query.distinctOn_recast :
    (q.recast r).distinctOn = q.distinctOn.map (·.recast r) := by rw [q.recast_eq]

@[simp] theorem Query.joins_recast :
    (q.recast r).joins = q.joins.map (·.recast r) := by rw [q.recast_eq]

@[simp] theorem Query.filter_recast : (q.recast r).filter = q.filter.recast r := by rw [q.recast_eq]

@[simp] theorem Query.groupBy_recast :
    (q.recast r).groupBy = q.groupBy.map (·.recast r) := by rw [q.recast_eq]

@[simp] theorem Query.having_recast : (q.recast r).having = q.having.recast r := by rw [q.recast_eq]

@[simp] theorem Query.orderBy_recast :
    (q.recast r).orderBy = q.orderBy.map (·.recast r) := by rw [q.recast_eq]

@[simp] theorem Query.rows_recast :
    (q.recast r).rows = q.rows.map fun row => row.map (·.recast r) := by rw [q.recast_eq]

@[simp] theorem Query.conflict_recast :
    (q.recast r).conflict = q.conflict.map (·.recast r) := by rw [q.recast_eq]

@[simp] theorem Query.duplicateUpdates_recast :
    (q.recast r).duplicateUpdates = q.duplicateUpdates.map (·.recast r) := by rw [q.recast_eq]

@[simp] theorem Query.returning_recast :
    (q.recast r).returning = q.returning.map (·.recast r) := by rw [q.recast_eq]

end Fields

/-- A conflict clause as another run has it, with its lists gone through element by element. -/
theorem Conflict.recast_eq (c : Conflict) : c.recast r =
    { targets := c.targets.map (·.recast r)
      targetFilter := c.targetFilter.recast r
      handler := c.handler
      assignments := c.assignments.map (·.recast r)
      updateFilter := c.updateFilter.recast r } := by
  cases c
  simp [recast]

/-! ### Shapes -/

namespace Term

@[simp] theorem alias?_recast (t : Term) : (t.recast r).alias? = t.alias? := by
  cases t
  rfl

@[simp] theorem isNull_recast (t : Term) : (t.recast r).isNull = t.isNull := by
  obtain ⟨expr, alias?⟩ := t
  cases expr <;> rfl

@[simp] theorem operator?_recast (t : Term) : (t.recast r).operator? = t.operator? := by
  obtain ⟨expr, alias?⟩ := t
  cases expr <;> rfl

@[simp] theorem isOperation_recast (t : Term) : (t.recast r).isOperation = t.isOperation := by
  obtain ⟨expr, alias?⟩ := t
  cases expr <;> rfl

@[simp] theorem fieldName?_recast (t : Term) : (t.recast r).fieldName? = t.fieldName? := by
  obtain ⟨expr, alias?⟩ := t
  cases expr <;> rfl

@[simp] theorem isField_recast (t : Term) : (t.recast r).isField = t.isField := by
  simp [isField]

@[simp] theorem isStar_recast (t : Term) : (t.recast r).isStar = t.isStar := by
  obtain ⟨expr, alias?⟩ := t
  cases expr <;> rfl

theorem qualifier?_recast (t : Term) :
    (t.recast r).qualifier? = t.qualifier?.map (·.recast r) := by
  obtain ⟨expr, alias?⟩ := t
  cases expr <;> rfl

end Term

@[simp] theorem Condition.isEmpty_recast (c : Condition) :
    (c.recast r).isEmpty = c.isEmpty := by
  cases c <;> rfl

@[simp] theorem Condition.connective?_recast (c : Condition) :
    (c.recast r).connective? = c.connective? := by
  cases c <;> rfl

namespace Subquery

@[simp] theorem id_recast (s : Subquery) : (s.recast r).id = r.id s.id := by
  cases s with
  | query q =>
    cases q
    rfl
  | compound c =>
    cases c
    rfl

@[simp] theorem alias?_recast (s : Subquery) : (s.recast r).alias? = s.alias? := by
  cases s with
  | query q =>
    cases q
    rfl
  | compound c =>
    cases c
    rfl

end Subquery

namespace Source

@[simp] theorem id_recast (s : Source) : (s.recast r).id = r.id s.id := by
  cases s with
  | table t => rfl
  | subquery s => exact s.id_recast

@[simp] theorem isNone_table?_recast (s : Source) :
    (s.recast r).table?.isNone = s.table?.isNone := by
  cases s <;> rfl

@[simp] theorem any_table?_recast (s : Source) (t : Table) :
    (s.recast r).table?.any (· == t.recast r) = s.table?.any (· == t) := by
  cases s <;> rfl

theorem qualifier_recast (s : Source) : (s.recast r).qualifier = s.qualifier.recast r := by
  cases s with
  | table t => rfl
  | subquery s =>
    show Qualifier.subquery (s.recast r).id (s.recast r).alias? = _
    rw [s.id_recast, s.alias?_recast]
    rfl

end Source

namespace Join

@[simp] theorem source_recast (j : Join) : (j.recast r).source = j.source.recast r := by
  cases j
  rfl

end Join

@[simp] theorem CommonTable.name_recast (t : CommonTable) : (t.recast r).name = t.name := by
  cases t
  rfl

@[simp] theorem CommonTable.recursive_recast (t : CommonTable) :
    (t.recast r).recursive = t.recursive := by
  cases t
  rfl

namespace Action

@[simp] theorem isChange_recast (a : Action) : (a.recast r).isChange = a.isChange := by
  cases a <;> rfl

@[simp] theorem isSome_updateTarget?_recast (a : Action) :
    (a.recast r).updateTarget?.isSome = a.updateTarget?.isSome := by
  cases a <;> rfl

@[simp] theorem isSome_insertTarget?_recast (a : Action) :
    (a.recast r).insertTarget?.isSome = a.insertTarget?.isSome := by
  cases a <;> rfl

@[simp] theorem any_updateTarget?_recast (a : Action) (t : Table) :
    (a.recast r).updateTarget?.any (· == t.recast r) = a.updateTarget?.any (· == t) := by
  cases a <;> rfl

@[simp] theorem any_insertTarget?_recast (a : Action) (t : Table) :
    (a.recast r).insertTarget?.any (· == t.recast r) = a.insertTarget?.any (· == t) := by
  cases a <;> rfl

end Action

/-! ### Qualifiers -/

mutual

theorem Term.qualifiers_recast :
    ∀ t : Term, (t.recast r).qualifiers = t.qualifiers.map (·.recast r)
  | ⟨expr, alias?⟩ => by
    rw [Term.recast, Term.qualifiers, Term.qualifiers]
    exact Expr.qualifiers_recast expr

theorem Expr.qualifiers_recast :
    ∀ e : Expr, (e.recast r).qualifiers = e.qualifiers.map (·.recast r)
  | .field none name => rfl
  | .field (some q) name => rfl
  | .star none => rfl
  | .star (some q) => rfl
  | .value v => rfl
  | .named name v => rfl
  | .null => rfl
  | .parameter text => rfl
  | .raw sql => rfl
  | .tuple items => Term.qualifiersAll_recast items
  | .array items => Term.qualifiersAll_recast items
  | .interval i => rfl
  | .arithmetic op left right => by
    simp only [Expr.recast, Expr.qualifiers, Term.qualifiers_recast left,
      Term.qualifiers_recast right, List.map_append]
  | .negative t => Term.qualifiers_recast t
  | .call c => Call.qualifiers_recast c
  | .case branches none => by
    simp only [Expr.recast, Expr.qualifiers, Branch.qualifiersAll_recast branches, List.map_append,
      List.map_nil]
  | .case branches (some t) => by
    simp only [Expr.recast, Expr.qualifiers, Branch.qualifiersAll_recast branches,
      Term.qualifiers_recast t, List.map_append]
  | .subquery q => rfl
  | .condition c => Condition.qualifiers_recast c

theorem Call.qualifiers_recast :
    ∀ c : Call, (c.recast r).qualifiers = c.qualifiers.map (·.recast r)
  | ⟨name, form, aggregate, distinct, ignoreNulls, args, none, none⟩ => by
    simp only [Call.recast, Call.qualifiers, Term.qualifiersAll_recast args, List.map_append,
      List.map_nil]
  | ⟨name, form, aggregate, distinct, ignoreNulls, args, none, some w⟩ => by
    simp only [Call.recast, Call.qualifiers, Term.qualifiersAll_recast args,
      Window.qualifiers_recast w, List.map_append, List.map_nil]
  | ⟨name, form, aggregate, distinct, ignoreNulls, args, some c, none⟩ => by
    simp only [Call.recast, Call.qualifiers, Term.qualifiersAll_recast args,
      Condition.qualifiers_recast c, List.map_append, List.map_nil]
  | ⟨name, form, aggregate, distinct, ignoreNulls, args, some c, some w⟩ => by
    simp only [Call.recast, Call.qualifiers, Term.qualifiersAll_recast args,
      Condition.qualifiers_recast c, Window.qualifiers_recast w, List.map_append]

theorem Window.qualifiers_recast :
    ∀ w : Window, (w.recast r).qualifiers = w.qualifiers.map (·.recast r)
  | ⟨partitionBy, orderBy, frame⟩ => by
    simp only [Window.recast, Window.qualifiers, Term.qualifiersAll_recast partitionBy,
      OrderItem.qualifiersAll_recast orderBy, List.map_append]

theorem Condition.qualifiers_recast :
    ∀ c : Condition, (c.recast r).qualifiers = c.qualifiers.map (·.recast r)
  | .empty => rfl
  | .compare op left right => by
    simp only [Condition.recast, Condition.qualifiers, Term.qualifiers_recast left,
      Term.qualifiers_recast right, List.map_append]
  | .matches op negated t pattern escape => by
    simp only [Condition.recast, Condition.qualifiers, Term.qualifiers_recast t,
      Term.qualifiers_recast pattern, List.map_append]
  | .json op left right => by
    simp only [Condition.recast, Condition.qualifiers, Term.qualifiers_recast left,
      Term.qualifiers_recast right, List.map_append]
  | .search op t value => by
    simp only [Condition.recast, Condition.qualifiers, Term.qualifiers_recast t,
      Term.qualifiers_recast value, List.map_append]
  | .isNull negated t => Term.qualifiers_recast t
  | .isIn negated t items => by
    simp only [Condition.recast, Condition.qualifiers, Term.qualifiers_recast t,
      Term.qualifiersAll_recast items, List.map_append]
  | .isInRows negated t rows => Term.qualifiers_recast t
  | .between negated t low high => by
    simp only [Condition.recast, Condition.qualifiers, Term.qualifiers_recast t,
      Term.qualifiers_recast low, Term.qualifiers_recast high, List.map_append]
  | .hasRows negated rows => rfl
  | .combined op left right => by
    simp only [Condition.recast, Condition.qualifiers, Condition.qualifiers_recast left,
      Condition.qualifiers_recast right, List.map_append]
  | .not c => Condition.qualifiers_recast c
  | .term t => Term.qualifiers_recast t

theorem Term.qualifiersAll_recast : ∀ ts : List Term,
    Term.qualifiersAll (Term.recastAll r ts) = (Term.qualifiersAll ts).map (·.recast r)
  | [] => rfl
  | t :: ts => by
    rw [Term.recastAll, Term.qualifiersAll, Term.qualifiersAll, Term.qualifiers_recast t,
      Term.qualifiersAll_recast ts, List.map_append]

theorem OrderItem.qualifiersAll_recast : ∀ items : List OrderItem,
    OrderItem.qualifiersAll (OrderItem.recastAll r items) =
      (OrderItem.qualifiersAll items).map (·.recast r)
  | [] => rfl
  | ⟨t, order⟩ :: items => by
    rw [OrderItem.recastAll, OrderItem.qualifiersAll, OrderItem.qualifiersAll,
      Term.qualifiers_recast t, OrderItem.qualifiersAll_recast items, List.map_append]

theorem Branch.qualifiersAll_recast : ∀ branches : List Branch,
    Branch.qualifiersAll (Branch.recastAll r branches) =
      (Branch.qualifiersAll branches).map (·.recast r)
  | [] => rfl
  | ⟨c, t⟩ :: branches => by
    rw [Branch.recastAll, Branch.qualifiersAll, Branch.qualifiersAll, Condition.qualifiers_recast c,
      Term.qualifiers_recast t, Branch.qualifiersAll_recast branches, List.map_append,
      List.map_append]

end

/-! ### Aggregation -/

mutual

theorem Term.aggregation_recast : ∀ t : Term, (t.recast r).aggregation = t.aggregation
  | ⟨expr, alias?⟩ => by
    rw [Term.recast, Term.aggregation, Term.aggregation, Expr.aggregation_recast expr]

theorem Expr.aggregation_recast : ∀ e : Expr, (e.recast r).aggregation = e.aggregation
  | .field q name => rfl
  | .star q => rfl
  | .value v => rfl
  | .named name v => rfl
  | .null => rfl
  | .parameter text => rfl
  | .raw sql => rfl
  | .tuple items => by
    rw [Expr.recast, Expr.aggregation, Expr.aggregation, Term.aggregations_recast items]
  | .array items => by
    rw [Expr.recast, Expr.aggregation, Expr.aggregation, Term.aggregations_recast items]
  | .interval i => rfl
  | .arithmetic op left right => by
    rw [Expr.recast, Expr.aggregation, Expr.aggregation, Term.aggregation_recast left,
      Term.aggregation_recast right]
  | .negative t => Term.aggregation_recast t
  | .call c => Call.aggregation_recast c
  | .case branches none => by
    rw [Expr.recast, Expr.aggregation, Expr.aggregation, Branch.aggregations_recast branches]
  | .case branches (some t) => by
    rw [Expr.recast, Expr.aggregation, Expr.aggregation, Branch.aggregations_recast branches,
      Term.aggregation_recast t]
  | .subquery q => rfl
  | .condition c => Condition.aggregation_recast c

theorem Call.aggregation_recast : ∀ c : Call, (c.recast r).aggregation = c.aggregation
  | ⟨name, form, aggregate, distinct, ignoreNulls, args, filter, window⟩ => by
    rw [Call.recast.eq_def, Call.aggregation, Call.aggregation, Term.aggregations_recast args]

theorem Condition.aggregation_recast : ∀ c : Condition, (c.recast r).aggregation = c.aggregation
  | .empty => rfl
  | .compare op left right => by
    rw [Condition.recast, Condition.aggregation, Condition.aggregation,
      Term.aggregation_recast left, Term.aggregation_recast right]
  | .matches op negated t pattern escape => by
    rw [Condition.recast, Condition.aggregation, Condition.aggregation, Term.aggregation_recast t,
      Term.aggregation_recast pattern]
  | .json op left right => by
    rw [Condition.recast, Condition.aggregation, Condition.aggregation,
      Term.aggregation_recast left, Term.aggregation_recast right]
  | .search op t value => by
    rw [Condition.recast, Condition.aggregation, Condition.aggregation, Term.aggregation_recast t,
      Term.aggregation_recast value]
  | .isNull negated t => Term.aggregation_recast t
  | .isIn negated t items => Term.aggregation_recast t
  | .isInRows negated t rows => Term.aggregation_recast t
  | .between negated t low high => Term.aggregation_recast t
  | .hasRows negated rows => rfl
  | .combined op left right => by
    rw [Condition.recast, Condition.aggregation, Condition.aggregation,
      Condition.aggregation_recast left, Condition.aggregation_recast right]
  | .not c => Condition.aggregation_recast c
  | .term t => Term.aggregation_recast t

theorem Term.aggregations_recast : ∀ ts : List Term,
    Term.aggregations (Term.recastAll r ts) = Term.aggregations ts
  | [] => rfl
  | t :: ts => by
    rw [Term.recastAll, Term.aggregations, Term.aggregations, Term.aggregation_recast t,
      Term.aggregations_recast ts]

theorem Branch.aggregations_recast : ∀ branches : List Branch,
    Branch.aggregations (Branch.recastAll r branches) = Branch.aggregations branches
  | [] => rfl
  | ⟨c, t⟩ :: branches => by
    rw [Branch.recastAll, Branch.aggregations, Branch.aggregations, Condition.aggregation_recast c,
      Term.aggregation_recast t, Branch.aggregations_recast branches]

end

/-! ### Queries -/

namespace Query

variable (q : Query)

@[simp] theorem isBlank_recast : (q.recast r).isBlank = q.isBlank := by
  rw [q.recast_eq, isBlank, isBlank]
  show (match q.info.action.recast r with
    | .select => _
    | .insert _ _ => _
    | .update _ => _
    | .delete => _) = _
  cases q.info.action <;> simp [Action.recast]

@[simp] theorem selectAliases_recast : (q.recast r).selectAliases = q.selectAliases := by
  rw [q.recast_eq, selectAliases, selectAliases, List.filterMap_map]
  exact congrArg (List.filterMap · q.selects) (funext Term.alias?_recast)

@[simp] theorem selectCount_recast : (q.recast r).selectCount = q.selectCount := by
  simp [q.recast_eq, selectCount]

theorem sourceQualifier?_recast :
    (q.recast r).sourceQualifier? = q.sourceQualifier?.map (·.recast r) := by
  simp [q.recast_eq, sourceQualifier?, Option.map_map, Function.comp_def, Source.qualifier_recast]

@[simp] theorem isBaseTable_recast (t : Table) :
    (q.recast r).isBaseTable (t.recast r) = q.isBaseTable t := by
  simp only [q.recast_eq, isBaseTable, List.any_map, Function.comp_def, QueryInfo.recast,
    Source.any_table?_recast, Action.any_updateTarget?_recast, CommonTable.name_recast]
  rfl

@[simp] theorem hasTable_recast (t : Table) :
    (q.recast r).hasTable (t.recast r) = q.hasTable t := by
  rw [hasTable, hasTable, isBaseTable_recast]
  simp [q.recast_eq, List.any_map, Function.comp_def]

theorem mentionsForeignTable_recast :
    (q.recast r).mentionsForeignTable = q.mentionsForeignTable := by
  have hfilter : (q.recast r).filter = q.filter.recast r := by rw [q.recast_eq]
  rw [mentionsForeignTable, mentionsForeignTable, hfilter, Condition.qualifiers_recast,
    List.any_map]
  refine congrArg (List.any q.filter.qualifiers) (funext fun ns => ?_)
  cases ns with
  | table t => exact congrArg Bool.not (q.hasTable_recast t)
  | subquery id alias? => rfl
  | raw text => rfl

@[simp] theorem usesQualifiers_recast : (q.recast r).usesQualifiers = q.usesQualifiers := by
  rw [usesQualifiers, usesQualifiers, mentionsForeignTable_recast]
  simp [q.recast_eq, QueryInfo.recast, Option.any_map]

end Query

end SqlScribe
