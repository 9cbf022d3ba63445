import SqlScribe.Syntax.Shape
/-! # Syntax without its values

A value can be masked: what is left of it is whether it can be written at all. Masking the values of
a term, condition or query leaves everything else of it as it is.

* `Value.masked`, `Term.masked`, `Condition.masked`, `Query.masked`: the masks. Items with equal
  masks are the same except for values that can be written.
* `Term.qualifiers_masked`, `Query.usesQualifiers_masked`, `Query.isBlank_masked`: what is asked of
  syntax in order to write it has the same answer behind the mask. -/

namespace SqlScribe

/-- The value behind a mask: one for all values that can be written; the others stay as they are. -/
def Value.masked (v : Value) : Value := if v.hasLiteral then .int 0 else v

mutual

/-- The term with its values masked. -/
def Term.masked : Term → Term
  | ⟨expr, alias?⟩ => ⟨expr.masked, alias?⟩

/-- The expression with its values masked. -/
def Expr.masked : Expr → Expr
  | .field q name => .field q name
  | .star q => .star q
  | .value v => .value v.masked
  | .named name v => .named name v.masked
  | .null => .null
  | .parameter text => .parameter text
  | .raw sql => .raw sql
  | .tuple items => .tuple (Term.maskedAll items)
  | .array items => .array (Term.maskedAll items)
  | .interval i => .interval i
  | .arithmetic op left right => .arithmetic op left.masked right.masked
  | .negative t => .negative t.masked
  | .call c => .call c.masked
  | .case branches otherwise =>
    .case (Branch.maskedAll branches)
      (match otherwise with
        | none => none
        | some t => some t.masked)
  | .subquery q => .subquery q.masked
  | .condition c => .condition c.masked

/-- The call with its values masked. -/
def Call.masked : Call → Call
  | ⟨name, form, aggregate, distinct, ignoreNulls, args, filter, window⟩ =>
    ⟨name, form, aggregate, distinct, ignoreNulls, Term.maskedAll args,
      (match filter with
        | none => none
        | some c => some c.masked),
      (match window with
        | none => none
        | some w => some w.masked)⟩

/-- The window with its values masked. -/
def Window.masked : Window → Window
  | ⟨partitionBy, orderBy, frame⟩ =>
    ⟨Term.maskedAll partitionBy, OrderItem.maskedAll orderBy, frame⟩

/-- The condition with its values masked. -/
def Condition.masked : Condition → Condition
  | .empty => .empty
  | .compare op left right => .compare op left.masked right.masked
  | .matches op negated term pattern escape =>
    .matches op negated term.masked pattern.masked escape
  | .json op left right => .json op left.masked right.masked
  | .search op term value => .search op term.masked value.masked
  | .isNull negated term => .isNull negated term.masked
  | .isIn negated term items => .isIn negated term.masked (Term.maskedAll items)
  | .isInRows negated term rows => .isInRows negated term.masked rows.masked
  | .between negated term low high => .between negated term.masked low.masked high.masked
  | .hasRows negated rows => .hasRows negated rows.masked
  | .combined op left right => .combined op left.masked right.masked
  | .not c => .not c.masked
  | .term t => .term t.masked

/-- The query or set operation with its values masked. -/
def Subquery.masked : Subquery → Subquery
  | .query q => .query q.masked
  | .compound c => .compound c.masked

/-- The source with its values masked. -/
def Source.masked : Source → Source
  | .table t => .table t
  | .subquery q => .subquery q.masked

/-- The join with its values masked. -/
def Join.masked : Join → Join
  | ⟨kind, source, condition⟩ => ⟨kind, source.masked, condition.masked⟩

/-- The condition of a join with its values masked. -/
def JoinCondition.masked : JoinCondition → JoinCondition
  | .all => .all
  | .on c => .on c.masked
  | .sharing columns => .sharing columns

/-- The common table with its values masked. -/
def CommonTable.masked : CommonTable → CommonTable
  | ⟨name, columns, recursive, body⟩ => ⟨name, columns, recursive, body.masked⟩

/-- The assignment with its values masked. -/
def Assignment.masked : Assignment → Assignment
  | ⟨column, value⟩ => ⟨column.masked, value.masked⟩

/-- The conflict clause with its values masked. -/
def Conflict.masked : Conflict → Conflict
  | ⟨targets, targetFilter, handler, assignments, updateFilter⟩ =>
    ⟨Term.maskedAll targets, targetFilter.masked, handler, Assignment.maskedAll assignments,
      updateFilter.masked⟩

/-- The query with its values masked. -/
def Query.masked : Query → Query
  | ⟨info, commonTables, sources, selects, distinctOn, joins, filter, groupBy, having, orderBy,
      columns, rows, conflict, duplicateUpdates, assignments, returning⟩ =>
    { info
      commonTables := CommonTable.maskedAll commonTables
      sources := Source.maskedAll sources
      selects := Term.maskedAll selects
      distinctOn := Term.maskedAll distinctOn
      joins := Join.maskedAll joins
      filter := filter.masked
      groupBy := Term.maskedAll groupBy
      having := having.masked
      orderBy := OrderItem.maskedAll orderBy
      columns := Term.maskedAll columns
      rows := Term.maskedRows rows
      conflict := match conflict with
        | none => none
        | some c => some c.masked
      duplicateUpdates := Assignment.maskedAll duplicateUpdates
      assignments := Assignment.maskedAll assignments
      returning := Term.maskedAll returning }

/-- The set operation with its values masked. -/
def Compound.masked : Compound → Compound
  | ⟨id, base, operands, orderBy, limit, offset, alias?⟩ =>
    ⟨id, base.masked, Operand.maskedAll operands, OrderItem.maskedAll orderBy, limit, offset,
      alias?⟩

/-- The terms with their values masked. -/
def Term.maskedAll : List Term → List Term
  | [] => []
  | t :: ts => t.masked :: Term.maskedAll ts

/-- The rows with their values masked. -/
def Term.maskedRows : List (List Term) → List (List Term)
  | [] => []
  | row :: rows => Term.maskedAll row :: Term.maskedRows rows

/-- The ordering terms with their values masked. -/
def OrderItem.maskedAll : List OrderItem → List OrderItem
  | [] => []
  | ⟨t, order⟩ :: items => ⟨t.masked, order⟩ :: OrderItem.maskedAll items

/-- The branches with their values masked. -/
def Branch.maskedAll : List Branch → List Branch
  | [] => []
  | ⟨condition, result⟩ :: branches =>
    ⟨condition.masked, result.masked⟩ :: Branch.maskedAll branches

/-- The sources with their values masked. -/
def Source.maskedAll : List Source → List Source
  | [] => []
  | source :: sources => source.masked :: Source.maskedAll sources

/-- The joins with their values masked. -/
def Join.maskedAll : List Join → List Join
  | [] => []
  | j :: joins => j.masked :: Join.maskedAll joins

/-- The common tables with their values masked. -/
def CommonTable.maskedAll : List CommonTable → List CommonTable
  | [] => []
  | t :: ts => t.masked :: CommonTable.maskedAll ts

/-- The assignments with their values masked. -/
def Assignment.maskedAll : List Assignment → List Assignment
  | [] => []
  | a :: as => a.masked :: Assignment.maskedAll as

/-- The operands with their values masked. -/
def Operand.maskedAll : List Operand → List Operand
  | [] => []
  | ⟨operator, query⟩ :: operands => ⟨operator, query.masked⟩ :: Operand.maskedAll operands

end

/-! ## Lists -/

@[simp] theorem Term.maskedAll_eq_map (ts : List Term) :
    Term.maskedAll ts = ts.map Term.masked := by
  induction ts with
  | nil => rfl
  | cons t ts ih => rw [Term.maskedAll, ih, List.map_cons]

@[simp] theorem Term.maskedRows_eq_map (rows : List (List Term)) :
    Term.maskedRows rows = rows.map fun row => row.map Term.masked := by
  induction rows with
  | nil => rfl
  | cons row rows ih => rw [Term.maskedRows, ih, Term.maskedAll_eq_map, List.map_cons]

@[simp] theorem OrderItem.isEmpty_maskedAll (items : List OrderItem) :
    (OrderItem.maskedAll items).isEmpty = items.isEmpty := by
  cases items with
  | nil => rfl
  | cons item items =>
    cases item
    rfl

@[simp] theorem Branch.isEmpty_maskedAll (branches : List Branch) :
    (Branch.maskedAll branches).isEmpty = branches.isEmpty := by
  cases branches with
  | nil => rfl
  | cons branch branches =>
    cases branch
    rfl

@[simp] theorem Source.maskedAll_eq_map (sources : List Source) :
    Source.maskedAll sources = sources.map Source.masked := by
  induction sources with
  | nil => rfl
  | cons source sources ih => rw [Source.maskedAll, ih, List.map_cons]

@[simp] theorem Join.maskedAll_eq_map (joins : List Join) :
    Join.maskedAll joins = joins.map Join.masked := by
  induction joins with
  | nil => rfl
  | cons j joins ih => rw [Join.maskedAll, ih, List.map_cons]

@[simp] theorem CommonTable.maskedAll_eq_map (ts : List CommonTable) :
    CommonTable.maskedAll ts = ts.map CommonTable.masked := by
  induction ts with
  | nil => rfl
  | cons t ts ih => rw [CommonTable.maskedAll, ih, List.map_cons]

@[simp] theorem Assignment.maskedAll_eq_map (as : List Assignment) :
    Assignment.maskedAll as = as.map Assignment.masked := by
  induction as with
  | nil => rfl
  | cons a as ih => rw [Assignment.maskedAll, ih, List.map_cons]

/-! ## Shapes -/

namespace Term

@[simp] theorem alias?_masked (t : Term) : t.masked.alias? = t.alias? := by
  cases t
  rfl

@[simp] theorem isNull_masked (t : Term) : t.masked.isNull = t.isNull := by
  obtain ⟨expr, alias?⟩ := t
  cases expr <;> rfl

@[simp] theorem operator?_masked (t : Term) : t.masked.operator? = t.operator? := by
  obtain ⟨expr, alias?⟩ := t
  cases expr <;> rfl

@[simp] theorem isOperation_masked (t : Term) : t.masked.isOperation = t.isOperation := by
  obtain ⟨expr, alias?⟩ := t
  cases expr <;> rfl

end Term

@[simp] theorem Condition.isEmpty_masked (c : Condition) : c.masked.isEmpty = c.isEmpty := by
  cases c <;> rfl

@[simp] theorem Condition.connective?_masked (c : Condition) :
    c.masked.connective? = c.connective? := by
  cases c <;> rfl

@[simp] theorem Source.table?_masked (s : Source) : s.masked.table? = s.table? := by
  cases s <;> rfl

@[simp] theorem Join.source_masked (j : Join) : j.masked.source = j.source.masked := by
  cases j
  rfl

@[simp] theorem CommonTable.name_masked (t : CommonTable) : t.masked.name = t.name := by
  cases t
  rfl

@[simp] theorem CommonTable.recursive_masked (t : CommonTable) :
    t.masked.recursive = t.recursive := by
  cases t
  rfl

namespace Conflict

@[simp] theorem targets_masked (c : Conflict) : c.masked.targets = c.targets.map Term.masked := by
  cases c
  exact Term.maskedAll_eq_map _

@[simp] theorem targetFilter_masked (c : Conflict) :
    c.masked.targetFilter = c.targetFilter.masked := by
  cases c
  rfl

@[simp] theorem handler_masked (c : Conflict) : c.masked.handler = c.handler := by
  cases c
  rfl

@[simp] theorem updateFilter_masked (c : Conflict) :
    c.masked.updateFilter = c.updateFilter.masked := by
  cases c
  rfl

end Conflict

/-! ## Qualifiers -/

mutual

@[simp] theorem Term.qualifiers_masked : ∀ t : Term, t.masked.qualifiers = t.qualifiers
  | ⟨expr, alias?⟩ => by
    rw [Term.masked, Term.qualifiers, Term.qualifiers]
    exact Expr.qualifiers_masked expr

theorem Expr.qualifiers_masked : ∀ e : Expr, e.masked.qualifiers = e.qualifiers
  | .field q name => rfl
  | .star q => rfl
  | .value v => rfl
  | .named name v => rfl
  | .null => rfl
  | .parameter text => rfl
  | .raw sql => rfl
  | .tuple items => Term.qualifiersAll_masked items
  | .array items => Term.qualifiersAll_masked items
  | .interval i => rfl
  | .arithmetic op left right => by
    simp only [Expr.masked, Expr.qualifiers, Term.qualifiers_masked left,
      Term.qualifiers_masked right]
  | .negative t => Term.qualifiers_masked t
  | .call c => Call.qualifiers_masked c
  | .case branches none => by
    simp only [Expr.masked, Expr.qualifiers, Branch.qualifiersAll_masked branches]
  | .case branches (some t) => by
    simp only [Expr.masked, Expr.qualifiers, Branch.qualifiersAll_masked branches,
      Term.qualifiers_masked t]
  | .subquery q => rfl
  | .condition c => Condition.qualifiers_masked c

theorem Call.qualifiers_masked : ∀ c : Call, c.masked.qualifiers = c.qualifiers
  | ⟨name, form, aggregate, distinct, ignoreNulls, args, none, none⟩ => by
    simp only [Call.masked, Call.qualifiers, Term.qualifiersAll_masked args]
  | ⟨name, form, aggregate, distinct, ignoreNulls, args, none, some w⟩ => by
    simp only [Call.masked, Call.qualifiers, Term.qualifiersAll_masked args,
      Window.qualifiers_masked w]
  | ⟨name, form, aggregate, distinct, ignoreNulls, args, some c, none⟩ => by
    simp only [Call.masked, Call.qualifiers, Term.qualifiersAll_masked args,
      Condition.qualifiers_masked c]
  | ⟨name, form, aggregate, distinct, ignoreNulls, args, some c, some w⟩ => by
    simp only [Call.masked, Call.qualifiers, Term.qualifiersAll_masked args,
      Condition.qualifiers_masked c, Window.qualifiers_masked w]

theorem Window.qualifiers_masked : ∀ w : Window, w.masked.qualifiers = w.qualifiers
  | ⟨partitionBy, orderBy, frame⟩ => by
    simp only [Window.masked, Window.qualifiers, Term.qualifiersAll_masked partitionBy,
      OrderItem.qualifiersAll_masked orderBy]

@[simp] theorem Condition.qualifiers_masked : ∀ c : Condition, c.masked.qualifiers = c.qualifiers
  | .empty => rfl
  | .compare op left right => by
    simp only [Condition.masked, Condition.qualifiers, Term.qualifiers_masked left,
      Term.qualifiers_masked right]
  | .matches op negated term pattern escape => by
    simp only [Condition.masked, Condition.qualifiers, Term.qualifiers_masked term,
      Term.qualifiers_masked pattern]
  | .json op left right => by
    simp only [Condition.masked, Condition.qualifiers, Term.qualifiers_masked left,
      Term.qualifiers_masked right]
  | .search op term value => by
    simp only [Condition.masked, Condition.qualifiers, Term.qualifiers_masked term,
      Term.qualifiers_masked value]
  | .isNull negated term => Term.qualifiers_masked term
  | .isIn negated term items => by
    simp only [Condition.masked, Condition.qualifiers, Term.qualifiers_masked term,
      Term.qualifiersAll_masked items]
  | .isInRows negated term rows => Term.qualifiers_masked term
  | .between negated term low high => by
    simp only [Condition.masked, Condition.qualifiers, Term.qualifiers_masked term,
      Term.qualifiers_masked low, Term.qualifiers_masked high]
  | .hasRows negated rows => rfl
  | .combined op left right => by
    simp only [Condition.masked, Condition.qualifiers, Condition.qualifiers_masked left,
      Condition.qualifiers_masked right]
  | .not c => Condition.qualifiers_masked c
  | .term t => Term.qualifiers_masked t

theorem Term.qualifiersAll_masked : ∀ ts : List Term,
    Term.qualifiersAll (Term.maskedAll ts) = Term.qualifiersAll ts
  | [] => rfl
  | t :: ts => by
    rw [Term.maskedAll, Term.qualifiersAll, Term.qualifiersAll, Term.qualifiers_masked t,
      Term.qualifiersAll_masked ts]

theorem OrderItem.qualifiersAll_masked : ∀ items : List OrderItem,
    OrderItem.qualifiersAll (OrderItem.maskedAll items) = OrderItem.qualifiersAll items
  | [] => rfl
  | ⟨t, _⟩ :: items => by
    rw [OrderItem.maskedAll, OrderItem.qualifiersAll, OrderItem.qualifiersAll,
      Term.qualifiers_masked t, OrderItem.qualifiersAll_masked items]

theorem Branch.qualifiersAll_masked : ∀ branches : List Branch,
    Branch.qualifiersAll (Branch.maskedAll branches) = Branch.qualifiersAll branches
  | [] => rfl
  | ⟨c, t⟩ :: branches => by
    rw [Branch.maskedAll, Branch.qualifiersAll, Branch.qualifiersAll,
      Condition.qualifiers_masked c, Term.qualifiers_masked t,
      Branch.qualifiersAll_masked branches]

end

/-! ## Queries -/

namespace Query

variable (q : Query)

@[simp] theorem info_masked : q.masked.info = q.info := by
  cases q
  rfl

@[simp] theorem commonTables_masked :
    q.masked.commonTables = q.commonTables.map CommonTable.masked := by
  cases q
  exact CommonTable.maskedAll_eq_map _

@[simp] theorem sources_masked : q.masked.sources = q.sources.map Source.masked := by
  cases q
  exact Source.maskedAll_eq_map _

@[simp] theorem selects_masked : q.masked.selects = q.selects.map Term.masked := by
  cases q
  exact Term.maskedAll_eq_map _

@[simp] theorem distinctOn_masked : q.masked.distinctOn = q.distinctOn.map Term.masked := by
  cases q
  exact Term.maskedAll_eq_map _

@[simp] theorem joins_masked : q.masked.joins = q.joins.map Join.masked := by
  cases q
  exact Join.maskedAll_eq_map _

@[simp] theorem filter_masked : q.masked.filter = q.filter.masked := by
  cases q
  rfl

@[simp] theorem having_masked : q.masked.having = q.having.masked := by
  cases q
  rfl

@[simp] theorem isEmpty_orderBy_masked : q.masked.orderBy.isEmpty = q.orderBy.isEmpty := by
  cases q
  exact OrderItem.isEmpty_maskedAll _

@[simp] theorem rows_masked : q.masked.rows = q.rows.map fun row => row.map Term.masked := by
  cases q
  exact Term.maskedRows_eq_map _

@[simp] theorem duplicateUpdates_masked :
    q.masked.duplicateUpdates = q.duplicateUpdates.map Assignment.masked := by
  cases q
  exact Assignment.maskedAll_eq_map _

@[simp] theorem assignments_masked :
    q.masked.assignments = q.assignments.map Assignment.masked := by
  cases q
  exact Assignment.maskedAll_eq_map _

@[simp] theorem returning_masked : q.masked.returning = q.returning.map Term.masked := by
  cases q
  exact Term.maskedAll_eq_map _

@[simp] theorem isBlank_masked : q.masked.isBlank = q.isBlank := by
  simp [isBlank]

@[simp] theorem selectAliases_masked : q.masked.selectAliases = q.selectAliases := by
  rw [selectAliases, selects_masked, List.filterMap_map, selectAliases]
  exact congrArg (List.filterMap · q.selects) (funext Term.alias?_masked)

@[simp] theorem selectCount_masked : q.masked.selectCount = q.selectCount := by
  simp [selectCount]

@[simp] theorem hasTable_masked (t : Table) : q.masked.hasTable t = q.hasTable t := by
  simp [hasTable, isBaseTable, List.any_map, Function.comp_def]

@[simp] theorem usesQualifiers_masked : q.masked.usesQualifiers = q.usesQualifiers := by
  simp [usesQualifiers, mentionsForeignTable, Option.any_map]

end Query

end SqlScribe
