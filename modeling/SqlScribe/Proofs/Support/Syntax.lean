import SqlScribe.Lowering
import SqlScribe.Proofs.Nesting.Syntax
import SqlScribe.Proofs.Support.Statement
/-! # Constructs in terms, conditions and queries

Whatever is lowered shows only what the dialect of its scope has: one law for each type of the
syntax, all proved together by recursion on it. Scopes inside a statement have its dialect. -/

namespace SqlScribe

open Tokens

theorem Scope.qualification_trails (s : Scope) (q : Option Qualifier) :
    Trails s.dialect (s.qualification q) := by
  unfold qualification
  split
  next t ht =>
    obtain ⟨q, -, hq⟩ := Option.bind_eq_some_iff.mp ht
    have hdot : Trails s.dialect [.mark .dot] := .one rfl
    cases q with
    | table u =>
      rw [Scope.qualifier?] at hq
      split at hq
      · cases hq
        exact .cons rfl hdot.fits
      · split at hq
        · cases hq
          exact .cons rfl hdot.fits
        · cases hq
    | subquery id alias? =>
      obtain ⟨name, -, rfl⟩ := Option.map_eq_some_iff.mp hq
      exact .cons rfl hdot.fits
    | raw text =>
      cases hq
      exact .raw_cons text hdot
  next => exact .nil

/-- A statement fits, and one that is nested may stand behind other tokens. -/
def Tokens.StandsIn (s : Scope) (ts : Tokens) : Prop :=
  Fits s.dialect ts ∧ (s.nested = true → Trails s.dialect ts)

mutual

theorem Term.lower_trails (s : Scope) : ∀ t : Term, Yields (Trails s.dialect) (t.lower s)
  | ⟨expr, alias?⟩ => by
    rw [Term.lower]
    refine (Expr.lower_trails s expr).bind fun _ h => .pure (.append h ?_)
    split
    · cases alias? with
      | none => exact .nil
      | some name => exact s.aliasSuffix_trails name
    · exact .nil

theorem Expr.lower_trails (s : Scope) : ∀ e : Expr, Yields (Trails s.dialect) (e.lower s)
  | .field q name => by
    rw [Expr.lower]
    exact .ok ((s.qualification_trails q).append (.one rfl))
  | .star q => by
    rw [Expr.lower]
    exact .ok ((s.qualification_trails q).append (.one rfl))
  | .value v => by
    rw [Expr.lower]
    exact Clause.value_trails v rfl
  | .named name v => by
    rw [Expr.lower]
    exact Clause.value_trails v rfl
  | .null => by
    rw [Expr.lower]
    exact .ok (.one rfl)
  | .parameter text => by
    rw [Expr.lower]
    exact .ok (.one rfl)
  | .raw sql => by
    rw [Expr.lower]
    exact .ok (.raw sql)
  | .tuple items => by
    rw [Expr.lower]
    exact (Term.lowerAll_trail s.quiet items).bind fun _ hl => .pure (.parens (Trails.listed hl).fits)
  | .array items => by
    rw [Expr.lower]
    exact Clause.array_trails _ _ (Term.lowerAll_trail s.quiet items)
  | .interval i => by
    rw [Expr.lower]
    exact .ok (.raw _)
  | .arithmetic op left right => by
    rw [Expr.lower]
    exact Clause.arithmetic_trails op _ _ (Term.lower_trails s.quiet left)
      (Term.lower_trails s.quiet right)
  | .negative t => by
    rw [Expr.lower]
    exact Clause.negative_trails _ (Term.lower_trails s.quiet t)
  | .call c => by
    rw [Expr.lower]
    exact Call.lower_trails s.quiet c
  | .case branches otherwise => by
    rw [Expr.lower.eq_def]
    refine iteInduction (fun _ => .error _) fun _ => ?_
    refine Clause.choice_trails (Branch.lowerAll_trail s.quiet branches) fun x hx => ?_
    cases otherwise with
    | none => cases hx
    | some t =>
      cases hx
      exact Term.lower_trails s.quiet t
  | .subquery q => by
    rw [Expr.lower]
    exact (Subquery.lower_stands s.embedded q).mono fun _ h => h.2 rfl
  | .condition c => by
    rw [Expr.lower]
    exact Condition.lower_trails s.quiet c

theorem Call.lower_trails (s : Scope) : ∀ c : Call, Yields (Trails s.dialect) (c.lower s)
  | ⟨name, form, aggregate, distinct, ignoreNulls, args, filter, window⟩ => by
    have hinvoked := Clause.invoked_trails name form distinct ignoreNulls
      (Term.lowerAll_trail s.quiet args)
    rw [Call.lower.eq_def]
    refine Clause.call_trails hinvoked (fun x hx => ?_) fun x hx => ?_
    · cases filter with
      | none => cases hx
      | some c =>
        cases hx
        exact Condition.lower_trails s.quiet c
    · cases window with
      | none => cases hx
      | some w =>
        cases hx
        exact Window.lower_trails s w

theorem Window.lower_trails (s : Scope) : ∀ w : Window, Yields (Trails s.dialect) (w.lower s)
  | ⟨partitionBy, orderBy, frame⟩ => by
    rw [Window.lower]
    exact Clause.window_trails frame (Term.lowerAll_trail s.quiet partitionBy)
      (OrderItem.lowerAll_trail s.quiet [] orderBy)

theorem Condition.lower_trails (s : Scope) :
    ∀ c : Condition, Yields (Trails s.dialect) (c.lower s)
  | .empty => by
    rw [Condition.lower]
    exact .ok .nil
  | .compare op left right => by
    rw [Condition.lower]
    exact Clause.comparison_trails op _ (Term.lower_trails s.quiet left)
      (Term.lower_trails s.quiet right)
  | .matches op negated t pattern escape => by
    rw [Condition.lower]
    exact Clause.matching_trails op negated escape (Term.lower_trails s.quiet t)
      (Term.lower_trails s.quiet pattern)
  | .json op left right => by
    rw [Condition.lower]
    exact Clause.json_trails op (Term.lower_trails s.quiet left) (Term.lower_trails s.quiet right)
  | .search op t value => by
    rw [Condition.lower]
    exact Clause.search_trails op (Term.lower_trails s.quiet t) (Term.lower_trails s.quiet value)
  | .isNull negated t => by
    rw [Condition.lower]
    exact Clause.isNull_trails negated (Term.lower_trails s.quiet t)
  | .isIn negated t items => by
    rw [Condition.lower]
    exact Clause.isIn_trails negated _ (Term.lower_trails s.quiet t)
      (Term.lowerAll_trail s.quiet items)
  | .isInRows negated t rows => by
    rw [Condition.lower]
    exact Clause.isInRows_trails negated (Term.lower_trails s.quiet t)
      ((Subquery.lower_stands s.embedded rows).mono fun _ h => h.2 rfl)
  | .between negated t low high => by
    rw [Condition.lower]
    exact Clause.between_trails negated (Term.lower_trails s.quiet t)
      (Term.lower_trails s.quiet low) (Term.lower_trails s.quiet high)
  | .hasRows negated rows => by
    rw [Condition.lower]
    exact Clause.hasRows_trails negated
      ((Subquery.lower_stands s.embedded rows).mono fun _ h => h.2 rfl)
  | .combined op left right => by
    rw [Condition.lower]
    exact Clause.combined_trails op _ _ (Condition.lower_trails s.quiet left)
      (Condition.lower_trails s.quiet right)
  | .not c => by
    rw [Condition.lower]
    exact Clause.negated_trails _ (Condition.lower_trails s.quiet c)
  | .term t => by
    rw [Condition.lower]
    exact Term.lower_trails s.quiet t

theorem Subquery.lower_stands (s : Scope) : ∀ q : Subquery, Yields (StandsIn s) (q.lower s)
  | .query q => by
    rw [Subquery.lower]
    exact Query.lower_stands s q
  | .compound c => by
    rw [Subquery.lower]
    exact Compound.lower_stands s c

theorem Source.lower_trails (s : Scope) :
    ∀ source : Source, Yields (Trails s.dialect) (source.lower s)
  | .table t => by
    rw [Source.lower]
    exact .ok (t.tokens_trails s)
  | .subquery q => by
    rw [Source.lower]
    exact (Subquery.lower_stands s.asSource q).mono fun _ h => h.2 rfl

theorem Join.lower_trails (s : Scope) : ∀ j : Join, Yields (Trails s.dialect) (j.lower s)
  | ⟨kind, source, condition⟩ => by
    rw [Join.lower]
    exact Statement.join_trails kind (Source.lower_trails s source)
      (JoinCondition.lower_trails s condition)

theorem JoinCondition.lower_trails (s : Scope) :
    ∀ c : JoinCondition, Yields (Trails s.dialect) (c.lower s)
  | .all => by
    rw [JoinCondition.lower]
    exact .ok .nil
  | .on c => by
    rw [JoinCondition.lower]
    exact (Condition.lower_trails s.quiet c).bind fun _ h => .pure (.space (.on h.fits.space) nofun)
  | .sharing columns => by
    rw [JoinCondition.lower]
    exact .ok (.keyword rfl (.parens (Trails.idents columns).fits))

theorem CommonTable.lower_ends (s : Scope) :
    ∀ t : CommonTable, Yields (Ends s.dialect) (t.lower s)
  | ⟨name, columns, _, body⟩ => by
    rw [CommonTable.lower]
    exact Statement.commonTable_ends name columns
      ((Subquery.lower_stands s.standalone body).mono fun _ h => h.1)

theorem Term.lowerColumn_trails (s : Scope) :
    ∀ t : Term, Yields (Trails s.dialect) (t.lowerColumn s)
  | ⟨expr, alias?⟩ => by
    -- A column that is written by its name alone needs nothing of its expression.
    have hexpr := Expr.lower_trails (s.quiet.qualifying false) expr
    unfold Term.lowerColumn
    split
    · exact .ok (.one rfl)
    · next heq =>
      cases heq
      exact hexpr

theorem Assignment.lower_trails (s : Scope) :
    ∀ a : Assignment, Yields (Trails s.dialect) (a.lower s)
  | ⟨column, value⟩ => by
    rw [Assignment.lower]
    exact Statement.assignment_trails (Term.lowerColumn_trails s column)
      (Term.lower_trails s.quiet value)

theorem Conflict.lower_trails (s : Scope) : ∀ c : Conflict, Yields (Trails s.dialect) (c.lower s)
  | ⟨targets, targetFilter, handler, assignments, updateFilter⟩ => by
    rw [Conflict.lower]
    exact Statement.conflictClause_trails
      { targets := Term.lowerColumns_trail s targets
        targetFilter := Condition.lower_trails s.quiet targetFilter
        assignments := Assignment.lowerAll_trail (s.qualifying true) assignments
        updateFilter := Condition.lower_trails (s.qualifying true).quiet updateFilter } _

theorem Query.lower_stands (s : Scope) : ∀ q : Query, Yields (StandsIn s) (q.lower s)
  | ⟨info, commonTables, sources, selects, distinctOn, joins, filter, groupBy, having, orderBy,
      columns, rows, conflict, duplicateUpdates, assignments, returning⟩ => by
    rw [Query.lower]
    refine iteInduction (fun _ => .ok ⟨.nil, fun _ => .nil⟩) fun _ => ?_
    refine Yields.bind (Statement.whole_fits _
      { commonTables := CommonTable.lowerAll_ends _ commonTables
        sources := Source.lowerAll_trail _ sources
        selects := Term.lowerAll_trail _ selects
        distinctOn := Term.lowerAll_trail _ distinctOn
        joins := Join.lowerAll_trail _ joins
        filter := Condition.lower_trails _ filter
        groupBy := Term.lowerAllNamed_trail _ _ groupBy
        having := Condition.lower_trails _ having
        orderBy := OrderItem.lowerAll_trail _ _ orderBy
        columns := Term.lowerColumns_trail _ columns
        rows := Term.lowerRows_trail _ rows
        conflict := ?_
        duplicateUpdates := Assignment.lowerAll_trail _ duplicateUpdates
        assignments := Assignment.lowerAll_trail _ assignments
        returning := Term.lowerAll_trail _ returning }) fun body h =>
      .pure (Statement.placed_fits s info.id info.alias? h)
    cases conflict with
    | none => exact .ok .nil
    | some c => exact Conflict.lower_trails _ c

theorem Compound.lower_stands (s : Scope) : ∀ c : Compound, Yields (StandsIn s) (c.lower s)
  | ⟨id, base, operands, orderBy, limit, offset, alias?⟩ => by
    rw [Compound.lower]
    exact (Statement.compound_fits _ limit offset
      ((Query.lower_stands s.operands base).mono fun _ h => h.1)
      (Operand.lowerAll_trail s.operands base.selectCount operands)
      (OrderItem.lowerAll_trail s.standalone _ orderBy)).bind fun body h =>
        .pure (Statement.placed_fits s id alias? h)

theorem Term.lowerAll_trail (s : Scope) :
    ∀ ts : List Term, Yields (AllTrail s.dialect) (Term.lowerAll s ts)
  | [] => by
    rw [Term.lowerAll]
    exact .none
  | t :: ts => by
    rw [Term.lowerAll]
    exact .cons (Term.lower_trails s t) (Term.lowerAll_trail s ts)

theorem Term.lowerAllNamed_trail (s : Scope) (names : List String) :
    ∀ ts : List Term, Yields (AllTrail s.dialect) (Term.lowerAllNamed s names ts)
  | [] => by
    rw [Term.lowerAllNamed]
    exact .none
  | ⟨expr, alias?⟩ :: ts => by
    have hexpr := Expr.lower_trails s expr
    have hrest := Term.lowerAllNamed_trail s names ts
    rw [Term.lowerAllNamed]
    split
    · exact .cons (.ok (.one rfl)) hrest
    · exact .cons hexpr hrest

theorem Term.lowerColumns_trail (s : Scope) :
    ∀ ts : List Term, Yields (AllTrail s.dialect) (Term.lowerColumns s ts)
  | [] => by
    rw [Term.lowerColumns]
    exact .none
  | t :: ts => by
    rw [Term.lowerColumns]
    exact .cons (Term.lowerColumn_trails s t) (Term.lowerColumns_trail s ts)

theorem Term.lowerRows_trail (s : Scope) :
    ∀ rows : List (List Term), Yields (AllTrail s.dialect) (Term.lowerRows s rows)
  | [] => by
    rw [Term.lowerRows]
    exact .none
  | row :: rows => by
    rw [Term.lowerRows]
    exact (Term.lowerAll_trail s row).bind fun _ hrow => (Term.lowerRows_trail s rows).bind
      fun _ hrows => .pure (List.forall_mem_cons.mpr ⟨.parens (Trails.listed hrow).fits, hrows⟩)

theorem OrderItem.lowerAll_trail (s : Scope) (names : List String) :
    ∀ items : List OrderItem, Yields (AllTrail s.dialect) (OrderItem.lowerAll s names items)
  | [] => by
    rw [OrderItem.lowerAll]
    exact .none
  | ⟨⟨expr, alias?⟩, order⟩ :: items => by
    have hexpr := Expr.lower_trails s expr
    have hrest := OrderItem.lowerAll_trail s names items
    have hitem : ∀ {t : Lowered}, Yields (Trails s.dialect) t →
        Yields (AllTrail s.dialect) (t >>= fun t => OrderItem.lowerAll s names items >>= fun rest =>
          Pure.pure ((t ++ Tokens.direction order) :: rest)) :=
      fun ht => ht.bind fun _ ht => hrest.bind fun _ hrest =>
        .pure (List.forall_mem_cons.mpr ⟨ht.append (.direction order), hrest⟩)
    rw [OrderItem.lowerAll]
    split
    · exact hitem (.ok (.one rfl))
    · exact hitem hexpr

theorem Branch.lowerAll_trail (s : Scope) :
    ∀ branches : List Branch, Yields (AllTrail s.dialect) (Branch.lowerAll s branches)
  | [] => by
    rw [Branch.lowerAll]
    exact .none
  | ⟨condition, result⟩ :: branches => by
    rw [Branch.lowerAll]
    exact .cons (Clause.branch_trails (Condition.lower_trails s condition)
      (Term.lower_trails s result)) (Branch.lowerAll_trail s branches)

theorem Source.lowerAll_trail (s : Scope) :
    ∀ sources : List Source, Yields (AllTrail s.dialect) (Source.lowerAll s sources)
  | [] => by
    rw [Source.lowerAll]
    exact .none
  | source :: sources => by
    rw [Source.lowerAll]
    exact .cons (Source.lower_trails s source) (Source.lowerAll_trail s sources)

theorem Join.lowerAll_trail (s : Scope) :
    ∀ joins : List Join, Yields (AllTrail s.dialect) (Join.lowerAll s joins)
  | [] => by
    rw [Join.lowerAll]
    exact .none
  | j :: joins => by
    rw [Join.lowerAll]
    exact .cons (Join.lower_trails s j) (Join.lowerAll_trail s joins)

theorem CommonTable.lowerAll_ends (s : Scope) : ∀ tables : List CommonTable,
    Yields (∀ ts ∈ ·, Ends s.dialect ts) (CommonTable.lowerAll s tables)
  | [] => by
    rw [CommonTable.lowerAll]
    exact .none
  | t :: ts => by
    rw [CommonTable.lowerAll]
    exact .cons (CommonTable.lower_ends s t) (CommonTable.lowerAll_ends s ts)

theorem Assignment.lowerAll_trail (s : Scope) :
    ∀ assignments : List Assignment,
      Yields (AllTrail s.dialect) (Assignment.lowerAll s assignments)
  | [] => by
    rw [Assignment.lowerAll]
    exact .none
  | a :: as => by
    rw [Assignment.lowerAll]
    exact .cons (Assignment.lower_trails s a) (Assignment.lowerAll_trail s as)

theorem Operand.lowerAll_trail (s : Scope) (width : Nat) :
    ∀ operands : List Operand, Yields (AllTrail s.dialect) (Operand.lowerAll s width operands)
  | [] => by
    rw [Operand.lowerAll]
    exact .none
  | ⟨op, query⟩ :: operands => by
    rw [Operand.lowerAll]
    exact .cons (Statement.operand_trails op width _ ((Query.lower_stands s query).mono
      fun _ h => h.1)) (Operand.lowerAll_trail s width operands)

end

end SqlScribe
