import SqlScribe.Lowering
import SqlScribe.Proofs.Masking.Statement
/-! # Lowering without values

`Term.lower_masked`, `Condition.lower_masked`, `Query.lower_masked` and their like: masking syntax
masks its tokens and changes nothing else. The proof follows the syntax. -/

namespace SqlScribe

open Tokens Lowered

theorem Scope.inside_masked (s : Scope) (q : Query) : s.inside q.masked = s.inside q := by
  rw [inside, inside, q.usesQualifiers_masked, q.info_masked]

theorem Scope.groupNames_masked (s : Scope) (q : Query) :
    s.groupNames q.masked = s.groupNames q := by
  rw [groupNames, groupNames, q.selectAliases_masked]

theorem Scope.orderNames_masked (s : Scope) (q : Query) :
    s.orderNames q.masked = s.orderNames q := by
  rw [orderNames, orderNames, q.selectAliases_masked]

attribute [ext] QueryParts

namespace Query

/-- The parts of a query in its inner scope. -/
def parts (inner : Scope) (q : Query) : QueryParts :=
  { commonTables := CommonTable.lowerAll inner q.commonTables
    sources := Source.lowerAll inner q.sources
    selects := Term.lowerAll inner.labelled q.selects
    distinctOn := Term.lowerAll inner.quiet q.distinctOn
    joins := Join.lowerAll inner q.joins
    filter := q.filter.lower inner.quiet
    groupBy := Term.lowerAllNamed inner.quiet (inner.groupNames q) q.groupBy
    having := q.having.lower inner.quiet
    orderBy := OrderItem.lowerAll inner.quiet (inner.orderNames q) q.orderBy
    columns := Term.lowerColumns inner q.columns
    rows := Term.lowerRows inner.quiet q.rows
    conflict := match q.conflict with
      | none => .ok []
      | some c => c.lower inner
    duplicateUpdates := Assignment.lowerAll inner q.duplicateUpdates
    assignments := Assignment.lowerAll inner q.assignments
    returning := Term.lowerAll inner.labelled q.returning }

theorem lower_eq (s : Scope) (q : Query) :
    q.lower s = if q.isBlank then .ok []
      else do
        let whole ← Statement.whole (s.inside q) q (q.parts (s.inside q))
        return Statement.placed s q.info.id q.info.alias? whole := by
  cases q
  rw [lower]
  rfl

end Query

mutual

theorem Term.lower_masked (s : Scope) : ∀ t : Term, t.masked.lower s = (t.lower s).masked
  | ⟨expr, alias?⟩ => by
    rw [Term.masked, Term.lower, Term.lower, Expr.lower_masked s expr]
    refine masked_bind fun body => ?_
    cases alias? with
    | none => simp
    | some a => cases s.showsAlias <;> simp

theorem Expr.lower_masked (s : Scope) : ∀ e : Expr, e.masked.lower s = (e.lower s).masked
  | .field q name => by simp [Expr.masked, Expr.lower]
  | .star q => by simp [Expr.masked, Expr.lower]
  | .value v => by
    rw [Expr.masked, Expr.lower, Expr.lower]
    exact Clause.value_masked v (.literal v)
  | .named name v => by
    rw [Expr.masked, Expr.lower, Expr.lower]
    exact Clause.value_masked v (.named name v)
  | .null => rfl
  | .parameter text => rfl
  | .raw sql => rfl
  | .tuple items => by
    rw [Expr.masked, Expr.lower, Expr.lower, Term.lowerAll_masked s.quiet items]
    exact LoweredList.masked_bind fun l => by simp
  | .array items => by
    rw [Expr.masked, Expr.lower, Expr.lower, Term.lowerAll_masked s.quiet items,
      Term.maskedAll_eq_map, List.isEmpty_map]
    exact Clause.array_masked _ _ _
  | .interval i => rfl
  | .arithmetic op left right => by
    rw [Expr.masked, Expr.lower, Expr.lower, Term.lower_masked s.quiet left,
      Term.lower_masked s.quiet right, left.operator?_masked, right.operator?_masked]
    exact Clause.arithmetic_masked _ _ op _ _
  | .negative t => by
    rw [Expr.masked, Expr.lower, Expr.lower, Term.lower_masked s.quiet t, t.isOperation_masked]
    exact Clause.negative_masked _ _
  | .call c => by
    rw [Expr.masked, Expr.lower, Expr.lower]
    exact Call.lower_masked s.quiet c
  | .case branches none => by
    rw [Expr.masked, Expr.lower, Expr.lower, Branch.isEmpty_maskedAll,
      Branch.lowerAll_masked s.quiet branches]
    exact masked_ite _ rfl (Clause.choice_masked _ none)
  | .case branches (some t) => by
    rw [Expr.masked, Expr.lower, Expr.lower, Branch.isEmpty_maskedAll,
      Branch.lowerAll_masked s.quiet branches, Term.lower_masked s.quiet t]
    exact masked_ite _ rfl (Clause.choice_masked _ (some (t.lower s.quiet)))
  | .subquery q => by
    rw [Expr.masked, Expr.lower, Expr.lower]
    exact Subquery.lower_masked s.embedded q
  | .condition c => by
    rw [Expr.masked, Expr.lower, Expr.lower]
    exact Condition.lower_masked s.quiet c

theorem Call.lower_masked (s : Scope) : ∀ c : Call, c.masked.lower s = (c.lower s).masked
  | ⟨name, form, aggregate, distinct, ignoreNulls, args, none, none⟩ => by
    rw [Call.masked, Call.lower, Call.lower, Term.lowerAll_masked s.quiet args,
      Clause.invoked_masked]
    exact Clause.call_masked _ none none
  | ⟨name, form, aggregate, distinct, ignoreNulls, args, none, some w⟩ => by
    rw [Call.masked, Call.lower, Call.lower, Term.lowerAll_masked s.quiet args,
      Clause.invoked_masked, Window.lower_masked s w]
    exact Clause.call_masked _ none (some (w.lower s))
  | ⟨name, form, aggregate, distinct, ignoreNulls, args, some c, none⟩ => by
    rw [Call.masked, Call.lower, Call.lower, Term.lowerAll_masked s.quiet args,
      Clause.invoked_masked, Condition.lower_masked s.quiet c]
    exact Clause.call_masked _ (some (c.lower s.quiet)) none
  | ⟨name, form, aggregate, distinct, ignoreNulls, args, some c, some w⟩ => by
    rw [Call.masked, Call.lower, Call.lower, Term.lowerAll_masked s.quiet args,
      Clause.invoked_masked, Condition.lower_masked s.quiet c, Window.lower_masked s w]
    exact Clause.call_masked _ (some (c.lower s.quiet)) (some (w.lower s))

theorem Window.lower_masked (s : Scope) : ∀ w : Window, w.masked.lower s = (w.lower s).masked
  | ⟨partitionBy, orderBy, frame⟩ => by
    rw [Window.masked, Window.lower, Window.lower, Term.lowerAll_masked s.quiet partitionBy,
      OrderItem.lowerAll_masked s.quiet [] orderBy]
    exact Clause.window_masked _ _ frame

theorem Condition.lower_masked (s : Scope) :
    ∀ c : Condition, c.masked.lower s = (c.lower s).masked
  | .empty => rfl
  | .compare op left right => by
    rw [Condition.masked, Condition.lower, Condition.lower, Term.lower_masked s.quiet left,
      Term.lower_masked s.quiet right, left.isNull_masked, right.isNull_masked]
    exact Clause.comparison_masked _ _ op _
  | .matches op negated term pattern escape => by
    rw [Condition.masked, Condition.lower, Condition.lower, Term.lower_masked s.quiet term,
      Term.lower_masked s.quiet pattern]
    exact Clause.matching_masked _ _ op negated _ escape
  | .json op left right => by
    rw [Condition.masked, Condition.lower, Condition.lower, Term.lower_masked s.quiet left,
      Term.lower_masked s.quiet right]
    exact Clause.json_masked _ _ _ op
  | .search op term value => by
    rw [Condition.masked, Condition.lower, Condition.lower, Term.lower_masked s.quiet term,
      Term.lower_masked s.quiet value]
    exact Clause.search_masked _ _ op _
  | .isNull negated term => by
    rw [Condition.masked, Condition.lower, Condition.lower, Term.lower_masked s.quiet term]
    exact Clause.isNull_masked _ negated
  | .isIn negated term items => by
    rw [Condition.masked, Condition.lower, Condition.lower, Term.lower_masked s.quiet term,
      Term.lowerAll_masked s.quiet items, Term.maskedAll_eq_map, List.isEmpty_map]
    exact Clause.isIn_masked _ _ negated _
  | .isInRows negated term rows => by
    rw [Condition.masked, Condition.lower, Condition.lower, Term.lower_masked s.quiet term,
      Subquery.lower_masked s.embedded rows]
    exact Clause.isInRows_masked _ negated _
  | .between negated term low high => by
    rw [Condition.masked, Condition.lower, Condition.lower, Term.lower_masked s.quiet term,
      Term.lower_masked s.quiet low, Term.lower_masked s.quiet high]
    exact Clause.between_masked _ negated _ _
  | .hasRows negated rows => by
    rw [Condition.masked, Condition.lower, Condition.lower, Subquery.lower_masked s.embedded rows]
    exact Clause.hasRows_masked negated _
  | .combined op left right => by
    rw [Condition.masked, Condition.lower, Condition.lower, Condition.lower_masked s.quiet left,
      Condition.lower_masked s.quiet right, left.connective?_masked, right.connective?_masked]
    exact Clause.combined_masked _ _ op _ _
  | .not c => by
    rw [Condition.masked, Condition.lower, Condition.lower, Condition.lower_masked s.quiet c,
      c.connective?_masked]
    exact Clause.negated_masked _ _
  | .term t => by
    rw [Condition.masked, Condition.lower, Condition.lower]
    exact Term.lower_masked s.quiet t

theorem Subquery.lower_masked (s : Scope) : ∀ q : Subquery, q.masked.lower s = (q.lower s).masked
  | .query q => by
    rw [Subquery.masked, Subquery.lower, Subquery.lower]
    exact Query.lower_masked s q
  | .compound c => by
    rw [Subquery.masked, Subquery.lower, Subquery.lower]
    exact Compound.lower_masked s c

theorem Source.lower_masked (s : Scope) : ∀ x : Source, x.masked.lower s = (x.lower s).masked
  | .table t => by simp [Source.masked, Source.lower]
  | .subquery q => by
    rw [Source.masked, Source.lower, Source.lower]
    exact Subquery.lower_masked s.asSource q

theorem Join.lower_masked (s : Scope) : ∀ j : Join, j.masked.lower s = (j.lower s).masked
  | ⟨kind, source, condition⟩ => by
    rw [Join.masked, Join.lower, Join.lower, Source.lower_masked s source,
      JoinCondition.lower_masked s condition]
    exact Statement.join_masked kind _ _

theorem JoinCondition.lower_masked (s : Scope) :
    ∀ c : JoinCondition, c.masked.lower s = (c.lower s).masked
  | .all => rfl
  | .on c => by
    rw [JoinCondition.masked, JoinCondition.lower, JoinCondition.lower,
      Condition.lower_masked s.quiet c]
    exact masked_bind fun ts => by simp
  | .sharing columns => by simp [JoinCondition.masked, JoinCondition.lower]

theorem CommonTable.lower_masked (s : Scope) :
    ∀ t : CommonTable, t.masked.lower s = (t.lower s).masked
  | ⟨name, columns, recursive, body⟩ => by
    rw [CommonTable.masked, CommonTable.lower, CommonTable.lower,
      Subquery.lower_masked s.standalone body]
    exact Statement.commonTable_masked name columns _

theorem Term.lowerColumn_masked (s : Scope) :
    ∀ t : Term, t.masked.lowerColumn s = (t.lowerColumn s).masked
  | ⟨expr, alias?⟩ => by
    -- A field is written by its name alone, any other column as the expression it is.
    have hexpr := Expr.lower_masked (s.quiet.qualifying false) expr
    cases expr with
    | field q name => rfl
    | _ => exact hexpr

theorem Assignment.lower_masked (s : Scope) :
    ∀ a : Assignment, a.masked.lower s = (a.lower s).masked
  | ⟨column, value⟩ => by
    rw [Assignment.masked, Assignment.lower, Assignment.lower, Term.lowerColumn_masked s column,
      Term.lower_masked s.quiet value]
    exact Statement.assignment_masked _ _

theorem Conflict.lower_masked (s : Scope) : ∀ c : Conflict, c.masked.lower s = (c.lower s).masked
  | ⟨targets, targetFilter, handler, assignments, updateFilter⟩ => by
    rw [Conflict.masked, Conflict.lower, Conflict.lower, Term.lowerColumns_masked s targets,
      Condition.lower_masked s.quiet targetFilter,
      Assignment.lowerAll_masked (s.qualifying true) assignments,
      Condition.lower_masked (s.qualifying true).quiet updateFilter]
    exact Statement.conflictClause_masked s.dialect
      ⟨targets, targetFilter, handler, assignments, updateFilter⟩
      ⟨Term.lowerColumns s targets, targetFilter.lower s.quiet,
        Assignment.lowerAll (s.qualifying true) assignments,
        updateFilter.lower (s.qualifying true).quiet⟩

theorem Query.lower_masked (s : Scope) : ∀ q : Query, q.masked.lower s = (q.lower s).masked
  | ⟨info, commonTables, sources, selects, distinctOn, joins, filter, groupBy, having, orderBy,
      columns, rows, conflict, duplicateUpdates, assignments, returning⟩ => by
    have hparts : ∀ inner : Scope,
        (Query.masked ⟨info, commonTables, sources, selects, distinctOn, joins, filter, groupBy,
          having, orderBy, columns, rows, conflict, duplicateUpdates, assignments,
          returning⟩).parts inner =
        (Query.parts inner ⟨info, commonTables, sources, selects, distinctOn, joins, filter,
          groupBy, having, orderBy, columns, rows, conflict, duplicateUpdates, assignments,
          returning⟩).masked := by
      intro inner
      apply QueryParts.ext
      case commonTables => exact CommonTable.lowerAll_masked inner commonTables
      case sources => exact Source.lowerAll_masked inner sources
      case selects => exact Term.lowerAll_masked inner.labelled selects
      case distinctOn => exact Term.lowerAll_masked inner.quiet distinctOn
      case joins => exact Join.lowerAll_masked inner joins
      case filter => exact Condition.lower_masked inner.quiet filter
      case groupBy =>
        rw [Query.parts, inner.groupNames_masked]
        exact Term.lowerAllNamed_masked inner.quiet _ groupBy
      case having => exact Condition.lower_masked inner.quiet having
      case orderBy =>
        rw [Query.parts, inner.orderNames_masked]
        exact OrderItem.lowerAll_masked inner.quiet _ orderBy
      case columns => exact Term.lowerColumns_masked inner columns
      case rows => exact Term.lowerRows_masked inner.quiet rows
      case conflict =>
        cases conflict with
        | none => rfl
        | some c => exact Conflict.lower_masked inner c
      case duplicateUpdates => exact Assignment.lowerAll_masked inner duplicateUpdates
      case assignments => exact Assignment.lowerAll_masked inner assignments
      case returning => exact Term.lowerAll_masked inner.labelled returning
    rw [Query.lower_eq, Query.lower_eq, Query.isBlank_masked, Query.info_masked, s.inside_masked,
      hparts, Statement.whole_masked]
    exact masked_ite _ rfl (masked_bind fun body => by simp)

theorem Compound.lower_masked (s : Scope) : ∀ c : Compound, c.masked.lower s = (c.lower s).masked
  | ⟨id, base, operands, orderBy, limit, offset, alias?⟩ => by
    rw [Compound.masked, Compound.lower, Compound.lower, Query.lower_masked s.operands base,
      base.selectCount_masked, Operand.lowerAll_masked s.operands base.selectCount operands,
      s.orderNames_masked, OrderItem.lowerAll_masked s.standalone (s.orderNames base) orderBy,
      OrderItem.isEmpty_maskedAll, Statement.compound_masked]
    exact masked_bind fun body => by simp

theorem Term.lowerAll_masked (s : Scope) :
    ∀ ts : List Term, Term.lowerAll s (Term.maskedAll ts) = (Term.lowerAll s ts).masked
  | [] => rfl
  | t :: ts => by
    rw [Term.maskedAll, Term.lowerAll, Term.lowerAll, Term.lower_masked s t,
      Term.lowerAll_masked s ts]
    exact LoweredList.masked_cons _ _ fun _ => rfl

theorem Term.lowerAllNamed_masked (s : Scope) (names : List String) : ∀ ts : List Term,
    Term.lowerAllNamed s names (Term.maskedAll ts) = (Term.lowerAllNamed s names ts).masked
  | [] => rfl
  | ⟨expr, alias?⟩ :: ts => by
    rw [Term.maskedAll, Term.masked, Term.lowerAllNamed, Term.lowerAllNamed,
      Expr.lower_masked s expr, Term.lowerAllNamed_masked s names ts]
    cases alias?.filter names.contains with
    | none => exact LoweredList.masked_cons _ _ fun _ => rfl
    | some a => exact LoweredList.masked_cons (.ok [.aliasName a]) _ fun _ => rfl

theorem Term.lowerColumns_masked (s : Scope) : ∀ ts : List Term,
    Term.lowerColumns s (Term.maskedAll ts) = (Term.lowerColumns s ts).masked
  | [] => rfl
  | t :: ts => by
    rw [Term.maskedAll, Term.lowerColumns, Term.lowerColumns, Term.lowerColumn_masked s t,
      Term.lowerColumns_masked s ts]
    exact LoweredList.masked_cons _ _ fun _ => rfl

theorem Term.lowerRows_masked (s : Scope) : ∀ rows : List (List Term),
    Term.lowerRows s (Term.maskedRows rows) = (Term.lowerRows s rows).masked
  | [] => rfl
  | row :: rows => by
    rw [Term.maskedRows, Term.lowerRows, Term.lowerRows, Term.lowerAll_masked s row,
      Term.lowerRows_masked s rows]
    cases Term.lowerAll s row with
    | error e => rfl
    | ok l =>
      cases Term.lowerRows s rows with
      | error e => rfl
      | ok m => exact congrArg (fun ts => Except.ok (ts :: m.map Tokens.masked)) (by simp)

theorem OrderItem.lowerAll_masked (s : Scope) (names : List String) : ∀ items : List OrderItem,
    OrderItem.lowerAll s names (OrderItem.maskedAll items) =
      (OrderItem.lowerAll s names items).masked
  | [] => rfl
  | ⟨⟨expr, alias?⟩, order⟩ :: items => by
    rw [OrderItem.maskedAll, Term.masked, OrderItem.lowerAll, OrderItem.lowerAll,
      Expr.lower_masked s expr, OrderItem.lowerAll_masked s names items]
    cases alias?.filter names.contains with
    | none => exact LoweredList.masked_cons _ _ fun ts => by simp
    | some a => exact LoweredList.masked_cons (.ok [.aliasName a]) _ fun ts => by simp

theorem Branch.lowerAll_masked (s : Scope) : ∀ branches : List Branch,
    Branch.lowerAll s (Branch.maskedAll branches) = (Branch.lowerAll s branches).masked
  | [] => rfl
  | ⟨condition, result⟩ :: branches => by
    rw [Branch.maskedAll, Branch.lowerAll, Branch.lowerAll, Condition.lower_masked s condition,
      Term.lower_masked s result, Branch.lowerAll_masked s branches, Clause.branch_masked]
    exact LoweredList.masked_cons _ _ fun _ => rfl

theorem Source.lowerAll_masked (s : Scope) : ∀ sources : List Source,
    Source.lowerAll s (Source.maskedAll sources) = (Source.lowerAll s sources).masked
  | [] => rfl
  | source :: sources => by
    rw [Source.maskedAll, Source.lowerAll, Source.lowerAll, Source.lower_masked s source,
      Source.lowerAll_masked s sources]
    exact LoweredList.masked_cons _ _ fun _ => rfl

theorem Join.lowerAll_masked (s : Scope) :
    ∀ joins : List Join, Join.lowerAll s (Join.maskedAll joins) = (Join.lowerAll s joins).masked
  | [] => rfl
  | j :: joins => by
    rw [Join.maskedAll, Join.lowerAll, Join.lowerAll, Join.lower_masked s j,
      Join.lowerAll_masked s joins]
    exact LoweredList.masked_cons _ _ fun _ => rfl

theorem CommonTable.lowerAll_masked (s : Scope) : ∀ ts : List CommonTable,
    CommonTable.lowerAll s (CommonTable.maskedAll ts) = (CommonTable.lowerAll s ts).masked
  | [] => rfl
  | t :: ts => by
    rw [CommonTable.maskedAll, CommonTable.lowerAll, CommonTable.lowerAll,
      CommonTable.lower_masked s t, CommonTable.lowerAll_masked s ts]
    exact LoweredList.masked_cons _ _ fun _ => rfl

theorem Assignment.lowerAll_masked (s : Scope) : ∀ as : List Assignment,
    Assignment.lowerAll s (Assignment.maskedAll as) = (Assignment.lowerAll s as).masked
  | [] => rfl
  | a :: as => by
    rw [Assignment.maskedAll, Assignment.lowerAll, Assignment.lowerAll,
      Assignment.lower_masked s a, Assignment.lowerAll_masked s as]
    exact LoweredList.masked_cons _ _ fun _ => rfl

theorem Operand.lowerAll_masked (s : Scope) (width : Nat) : ∀ operands : List Operand,
    Operand.lowerAll s width (Operand.maskedAll operands) =
      (Operand.lowerAll s width operands).masked
  | [] => rfl
  | ⟨op, query⟩ :: operands => by
    rw [Operand.maskedAll, Operand.lowerAll, Operand.lowerAll, query.selectCount_masked,
      Query.lower_masked s query, Statement.operand_masked,
      Operand.lowerAll_masked s width operands]
    exact LoweredList.masked_cons _ _ fun _ => rfl

end

end SqlScribe
