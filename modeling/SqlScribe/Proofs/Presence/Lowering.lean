import SqlScribe.Lowering
import SqlScribe.Proofs.Nesting.Syntax
import SqlScribe.Proofs.Presence.Statement
import SqlScribe.Proofs.Presence.Syntax
/-! # Keywords in terms, conditions and queries

Complete syntax is written with no keyword left without its condition: one law for each type of the
syntax, all proved together by recursion on it. The tokens of an expression or condition open unless
it is vacant. -/

namespace SqlScribe

open Tokens

theorem Scope.qualification_fills (s : Scope) (q : Option Qualifier) {t : Token} {v : Bool}
    (ht : t.startsCondition = true) (hplain : t.isPlain = true) :
    Fills v (s.qualification q ++ [t]) := by
  unfold qualification
  split
  next u hu =>
    obtain ⟨q, -, hq⟩ := Option.bind_eq_some_iff.mp hu
    have hword : u.startsCondition = true ∧ u.isPlain = true := by
      cases q with
      | table t =>
        rw [Scope.qualifier?] at hq
        split at hq
        · cases hq
          exact ⟨rfl, rfl⟩
        · split at hq
          · cases hq
            exact ⟨rfl, rfl⟩
          · cases hq
      | subquery id alias? =>
        obtain ⟨name, -, rfl⟩ := Option.map_eq_some_iff.mp hq
        exact ⟨rfl, rfl⟩
      | raw text =>
        cases hq
        exact ⟨rfl, rfl⟩
    exact .cons hword.1 hword.2 (.cons rfl (.one hplain))
  next => exact .one ht hplain

/-- What is not vacant opens. -/
theorem Yields.present {vacant : Bool} {lowered : Lowered} (h : Yields (Fills vacant) lowered)
    (hvacant : (!vacant) = true) : Yields (Fills false) lowered := by
  cases vacant with
  | true => cases hvacant
  | false => exact h

/-- The condition of a clause that is not left out is not vacant. -/
theorem Condition.placed {c : Condition} {lowered : Lowered}
    (h : (c.isPlaceable && c.isComplete) = true)
    (hc : c.isComplete = true → Yields (Fills c.isVacant) lowered) (hne : c.isEmpty = false) :
    Yields (Fills false) lowered := by
  obtain ⟨hplaceable, hcomplete⟩ := Bool.and_eq_true_iff.mp h
  rw [Condition.isPlaceable, hne, Bool.false_or] at hplaceable
  exact (hc hcomplete).present hplaceable

/-- A query or set operation leaves no keyword without its condition, and where it is nested it
opens with its parenthesis unless it is vacant. -/
def Tokens.Supplied (s : Scope) (vacant : Bool) (ts : Tokens) : Prop :=
  Backed ts ∧ (s.nested = true → Fills vacant ts)

mutual

theorem Term.lower_backed (s : Scope) :
    ∀ t : Term, t.isComplete = true → Yields Backed (t.lower s)
  | ⟨expr, alias?⟩, h => by
    rw [Term.isComplete] at h
    rw [Term.lower]
    refine (Expr.lower_fills s expr h).bind fun _ h => .pure (h.backed.append ?_)
    split
    · cases alias? with
      | none => exact .nil
      | some name => exact s.aliasSuffix_backed name
    · exact .nil

/-- An operand does not show its alias. -/
theorem Term.lower_fills (s : Scope) :
    ∀ t : Term, t.isComplete = true → Yields (Fills t.isVacant) (t.lower s.quiet)
  | ⟨expr, alias?⟩, h => by
    rw [Term.isComplete] at h
    rw [Term.lower, Term.isVacant]
    refine (Expr.lower_fills s.quiet expr h).bind fun ts h => .pure ?_
    rw [if_neg (by simp [Scope.quiet]), List.append_nil]
    exact h

theorem Expr.lower_fills (s : Scope) :
    ∀ e : Expr, e.isComplete = true → Yields (Fills e.isVacant) (e.lower s)
  | .field q name, _ => by
    rw [Expr.lower]
    exact .ok (s.qualification_fills q rfl rfl)
  | .star q, _ => by
    rw [Expr.lower]
    exact .ok (s.qualification_fills q rfl rfl)
  | .value v, _ => by
    rw [Expr.lower]
    exact Clause.value_fills v rfl rfl
  | .named name v, _ => by
    rw [Expr.lower]
    exact Clause.value_fills v rfl rfl
  | .null, _ => by
    rw [Expr.lower]
    exact .ok (.one rfl rfl)
  | .parameter _, _ => by
    rw [Expr.lower]
    exact .ok (.one rfl rfl)
  | .raw _, _ => by
    rw [Expr.lower]
    exact .ok (.one rfl rfl)
  | .tuple items, h => by
    rw [Expr.isComplete] at h
    rw [Expr.lower]
    exact (Term.lowerAll_backed s.quiet items h).bind fun _ hl => .pure (.parens (.listed hl))
  | .array items, h => by
    rw [Expr.isComplete] at h
    rw [Expr.lower]
    exact Clause.array_fills _ _ (Term.lowerAll_backed s.quiet items h)
  | .interval i, _ => by
    rw [Expr.lower]
    exact .ok (.one rfl rfl)
  | .arithmetic op left right, h => by
    rw [Expr.isComplete] at h
    obtain ⟨hleft, hright⟩ := Bool.and_eq_true_iff.mp h
    rw [Expr.lower]
    exact Clause.arithmetic_fills op _ _ (Term.lower_fills s left hleft)
      (Term.lower_fills s right hright)
  | .negative t, h => by
    rw [Expr.isComplete] at h
    rw [Expr.lower]
    exact Clause.negative_fills _ (Term.lower_fills s t h)
  | .call c, h => by
    rw [Expr.isComplete] at h
    rw [Expr.lower]
    exact Call.lower_fills s.quiet c h
  | .case branches otherwise, h => by
    rw [Expr.isComplete.eq_def] at h
    obtain ⟨hbranches, hotherwise⟩ := Bool.and_eq_true_iff.mp h
    rw [Expr.lower.eq_def]
    refine iteInduction (fun _ => .error _) fun _ => ?_
    refine Clause.choice_fills (Branch.lowerAll_backed s.quiet branches hbranches) fun x hx => ?_
    cases otherwise with
    | none => cases hx
    | some t =>
      cases hx
      exact Term.lower_backed s.quiet t hotherwise
  | .subquery q, h => by
    rw [Expr.isComplete] at h
    rw [Expr.lower, Expr.isVacant]
    exact (Subquery.lower_presents s.embedded q h).mono fun _ h => h.2 rfl
  | .condition c, h => by
    rw [Expr.isComplete] at h
    rw [Expr.lower, Expr.isVacant]
    exact Condition.lower_fills s.quiet c h

theorem Call.lower_fills (s : Scope) :
    ∀ c : Call, c.isComplete = true → Yields (Fills false) (c.lower s)
  | ⟨name, form, aggregate, distinct, ignoreNulls, args, filter, window⟩, h => by
    rw [Call.isComplete.eq_def] at h
    obtain ⟨hargs, h⟩ := Bool.and_eq_true_iff.mp h
    obtain ⟨hfilter, hwindow⟩ := Bool.and_eq_true_iff.mp h
    have hinvoked : Yields (Fills false)
        (Clause.invoked name form distinct ignoreNulls (Term.lowerAll s.quiet args)) :=
      Clause.invoked_fills name form distinct ignoreNulls (Term.lowerAll_backed s.quiet args hargs)
    rw [Call.lower.eq_def]
    refine Clause.call_fills hinvoked (fun x hx => ?_) fun x hx => ?_
    · cases filter with
      | none => cases hx
      | some c =>
        cases hx
        obtain ⟨hvacant, hcomplete⟩ := Bool.and_eq_true_iff.mp hfilter
        exact (Condition.lower_fills s.quiet c hcomplete).present hvacant
    · cases window with
      | none => cases hx
      | some w =>
        cases hx
        exact Window.lower_backed s w hwindow

theorem Window.lower_backed (s : Scope) :
    ∀ w : Window, w.isComplete = true → Yields Backed (w.lower s)
  | ⟨partitionBy, orderBy, frame⟩, h => by
    rw [Window.isComplete] at h
    obtain ⟨hpartition, horder⟩ := Bool.and_eq_true_iff.mp h
    rw [Window.lower]
    exact Clause.window_backed frame (Term.lowerAll_backed s.quiet partitionBy hpartition)
      (OrderItem.lowerAll_backed s.quiet [] orderBy horder)

theorem Condition.lower_fills (s : Scope) :
    ∀ c : Condition, c.isComplete = true → Yields (Fills c.isVacant) (c.lower s)
  | .empty, _ => by
    rw [Condition.lower]
    exact .ok ⟨.nil, .inr ⟨rfl, rfl⟩⟩
  | .compare op left right, h => by
    rw [Condition.isComplete] at h
    obtain ⟨hleft, hright⟩ := Bool.and_eq_true_iff.mp h
    rw [Condition.lower]
    exact Clause.comparison_fills op _ (Term.lower_fills s left hleft)
      (Term.lower_fills s right hright)
  | .matches op negated t pattern escape, h => by
    rw [Condition.isComplete] at h
    obtain ⟨hterm, hpattern⟩ := Bool.and_eq_true_iff.mp h
    rw [Condition.lower]
    exact Clause.matching_fills s.dialect op negated escape (Term.lower_fills s t hterm)
      (Term.lower_fills s pattern hpattern)
  | .json op left right, h => by
    rw [Condition.isComplete] at h
    obtain ⟨hleft, hright⟩ := Bool.and_eq_true_iff.mp h
    rw [Condition.lower]
    exact Clause.json_fills s.dialect op (Term.lower_fills s left hleft)
      (Term.lower_fills s right hright)
  | .search op t value, h => by
    rw [Condition.isComplete] at h
    obtain ⟨hterm, hvalue⟩ := Bool.and_eq_true_iff.mp h
    rw [Condition.lower]
    exact Clause.search_fills s.dialect op (Term.lower_fills s t hterm)
      (Term.lower_fills s value hvalue)
  | .isNull negated t, h => by
    rw [Condition.isComplete] at h
    rw [Condition.lower]
    exact Clause.isNull_fills negated (Term.lower_fills s t h)
  | .isIn negated t items, h => by
    rw [Condition.isComplete] at h
    obtain ⟨hterm, hitems⟩ := Bool.and_eq_true_iff.mp h
    rw [Condition.lower]
    exact Clause.isIn_fills negated _ (Term.lower_fills s t hterm)
      (Term.lowerAll_backed s.quiet items hitems)
  | .isInRows negated t rows, h => by
    rw [Condition.isComplete] at h
    obtain ⟨hterm, hrows⟩ := Bool.and_eq_true_iff.mp h
    rw [Condition.lower]
    exact Clause.isInRows_fills negated (Term.lower_fills s t hterm)
      ((Subquery.lower_presents s.embedded rows hrows).mono fun _ h => h.1)
  | .between negated t low high, h => by
    rw [Condition.isComplete] at h
    obtain ⟨hterm, h⟩ := Bool.and_eq_true_iff.mp h
    obtain ⟨hlow, h⟩ := Bool.and_eq_true_iff.mp h
    obtain ⟨hvacant, hhigh⟩ := Bool.and_eq_true_iff.mp h
    have hend := (Term.lower_fills s high hhigh).present hvacant
    rw [Condition.lower]
    exact Clause.between_fills negated (Term.lower_fills s t hterm) (Term.lower_fills s low hlow)
      hend
  | .hasRows negated rows, h => by
    rw [Condition.isComplete] at h
    rw [Condition.lower]
    exact Clause.hasRows_fills negated
      ((Subquery.lower_presents s.embedded rows h).mono fun _ h => h.1)
  | .combined op left right, h => by
    rw [Condition.isComplete] at h
    obtain ⟨hl, hr⟩ := Bool.and_eq_true_iff.mp h
    obtain ⟨hleft, hl⟩ := Bool.and_eq_true_iff.mp hl
    obtain ⟨hright, hr⟩ := Bool.and_eq_true_iff.mp hr
    rw [Condition.lower]
    exact Clause.combined_fills op _ _ ((Condition.lower_fills s.quiet left hl).present hleft)
      ((Condition.lower_fills s.quiet right hr).present hright)
  | .not c, h => by
    rw [Condition.isComplete] at h
    obtain ⟨hvacant, h⟩ := Bool.and_eq_true_iff.mp h
    rw [Condition.lower]
    exact Clause.negated_fills _ ((Condition.lower_fills s.quiet c h).present hvacant)
  | .term t, h => by
    rw [Condition.isComplete] at h
    rw [Condition.lower, Condition.isVacant]
    exact Term.lower_fills s t h

theorem Subquery.lower_presents (s : Scope) :
    ∀ q : Subquery, q.isComplete = true → Yields (Supplied s q.isVacant) (q.lower s)
  | .query q, h => by
    rw [Subquery.isComplete] at h
    rw [Subquery.lower, Subquery.isVacant]
    exact Query.lower_presents s q h
  | .compound c, h => by
    rw [Subquery.isComplete] at h
    rw [Subquery.lower]
    exact Compound.lower_presents s c h

theorem Source.lower_backed (s : Scope) :
    ∀ source : Source, source.isComplete = true → Yields Backed (source.lower s)
  | .table t, _ => by
    rw [Source.lower]
    exact .ok (t.tokens_backed s)
  | .subquery q, h => by
    rw [Source.isComplete] at h
    rw [Source.lower]
    exact (Subquery.lower_presents s.asSource q h).mono fun _ h => h.1

theorem Join.lower_backed (s : Scope) :
    ∀ j : Join, j.isComplete = true → Yields Backed (j.lower s)
  | ⟨kind, source, condition⟩, h => by
    rw [Join.isComplete] at h
    obtain ⟨hsource, hcondition⟩ := Bool.and_eq_true_iff.mp h
    rw [Join.lower]
    exact Statement.join_backed kind (Source.lower_backed s source hsource)
      (JoinCondition.lower_backed s condition hcondition)

theorem JoinCondition.lower_backed (s : Scope) :
    ∀ c : JoinCondition, c.isComplete = true → Yields Backed (c.lower s)
  | .all, _ => by
    rw [JoinCondition.lower]
    exact .ok .nil
  | .on c, h => by
    rw [JoinCondition.isComplete] at h
    obtain ⟨hvacant, h⟩ := Bool.and_eq_true_iff.mp h
    rw [JoinCondition.lower]
    exact ((Condition.lower_fills s.quiet c h).present hvacant).bind fun ts h =>
      .pure (Backed.space (h.keyword .ON))
  | .sharing columns, _ => by
    rw [JoinCondition.lower]
    exact .ok (.behind rfl (Backed.idents columns).parens)

theorem CommonTable.lower_backed (s : Scope) :
    ∀ t : CommonTable, t.isComplete = true → Yields Backed (t.lower s)
  | ⟨name, columns, _, body⟩, h => by
    rw [CommonTable.isComplete] at h
    rw [CommonTable.lower]
    exact Statement.commonTable_backed name columns
      ((Subquery.lower_presents s.standalone body h).mono fun _ h => h.1)

theorem Term.lowerColumn_backed (s : Scope) :
    ∀ t : Term, t.isComplete = true → Yields Backed (t.lowerColumn s)
  | ⟨expr, alias?⟩, h => by
    -- A column that is written by its name alone needs nothing of its expression.
    rw [Term.isComplete] at h
    have hexpr := Expr.lower_fills (s.quiet.qualifying false) expr h
    unfold Term.lowerColumn
    split
    · exact .ok (.one rfl)
    · next heq =>
      cases heq
      exact hexpr.mono fun _ h => h.backed

theorem Assignment.lower_backed (s : Scope) :
    ∀ a : Assignment, a.isComplete = true → Yields Backed (a.lower s)
  | ⟨column, value⟩, h => by
    rw [Assignment.isComplete] at h
    obtain ⟨hcolumn, hvalue⟩ := Bool.and_eq_true_iff.mp h
    rw [Assignment.lower]
    exact Statement.assignment_backed (Term.lowerColumn_backed s column hcolumn)
      (Term.lower_backed s.quiet value hvalue)

theorem Conflict.lower_backed (s : Scope) :
    ∀ c : Conflict, c.isComplete = true → Yields Backed (c.lower s)
  | ⟨targets, targetFilter, handler, assignments, updateFilter⟩, h => by
    rw [Conflict.isComplete] at h
    obtain ⟨htargets, h⟩ := Bool.and_eq_true_iff.mp h
    obtain ⟨htargetFilter, h⟩ := Bool.and_eq_true_iff.mp h
    obtain ⟨hassignments, hupdateFilter⟩ := Bool.and_eq_true_iff.mp h
    rw [Conflict.lower]
    exact Statement.conflictClause_backed s.dialect
      { targets := Term.lowerColumns_backed s targets htargets
        targetFilter := Condition.placed htargetFilter (Condition.lower_fills s.quiet targetFilter)
        assignments := Assignment.lowerAll_backed (s.qualifying true) assignments hassignments
        updateFilter := Condition.placed hupdateFilter
          (Condition.lower_fills (s.qualifying true).quiet updateFilter) }

theorem Query.lower_presents (s : Scope) :
    ∀ q : Query, q.isComplete = true → Yields (Supplied s q.isBlank) (q.lower s)
  | ⟨info, commonTables, sources, selects, distinctOn, joins, filter, groupBy, having, orderBy,
      columns, rows, conflict, duplicateUpdates, assignments, returning⟩, h => by
    rw [Query.isComplete.eq_def] at h
    obtain ⟨hcommonTables, h⟩ := Bool.and_eq_true_iff.mp h
    obtain ⟨hsources, h⟩ := Bool.and_eq_true_iff.mp h
    obtain ⟨hselects, h⟩ := Bool.and_eq_true_iff.mp h
    obtain ⟨hdistinctOn, h⟩ := Bool.and_eq_true_iff.mp h
    obtain ⟨hjoins, h⟩ := Bool.and_eq_true_iff.mp h
    obtain ⟨hfilter, h⟩ := Bool.and_eq_true_iff.mp h
    obtain ⟨hgroupBy, h⟩ := Bool.and_eq_true_iff.mp h
    obtain ⟨hhaving, h⟩ := Bool.and_eq_true_iff.mp h
    obtain ⟨horderBy, h⟩ := Bool.and_eq_true_iff.mp h
    obtain ⟨hcolumns, h⟩ := Bool.and_eq_true_iff.mp h
    obtain ⟨hrows, h⟩ := Bool.and_eq_true_iff.mp h
    obtain ⟨hconflict, h⟩ := Bool.and_eq_true_iff.mp h
    obtain ⟨hduplicateUpdates, h⟩ := Bool.and_eq_true_iff.mp h
    obtain ⟨hassignments, hreturning⟩ := Bool.and_eq_true_iff.mp h
    rw [Query.lower]
    refine iteInduction (fun hblank => .ok ⟨.nil, fun _ => ⟨.nil, .inr ⟨hblank, rfl⟩⟩⟩)
      fun _ => ?_
    refine Yields.bind (Statement.whole_backed _
      { commonTables := CommonTable.lowerAll_backed _ commonTables hcommonTables
        sources := Source.lowerAll_backed _ sources hsources
        selects := Term.lowerAll_backed _ selects hselects
        distinctOn := Term.lowerAll_backed _ distinctOn hdistinctOn
        joins := Join.lowerAll_backed _ joins hjoins
        filter := Condition.placed hfilter (Condition.lower_fills _ filter)
        groupBy := Term.lowerAllNamed_backed _ _ groupBy hgroupBy
        having := Condition.placed hhaving (Condition.lower_fills _ having)
        orderBy := OrderItem.lowerAll_backed _ _ orderBy horderBy
        columns := Term.lowerColumns_backed _ columns hcolumns
        rows := Term.lowerRows_backed _ rows hrows
        conflict := ?_
        duplicateUpdates := Assignment.lowerAll_backed _ duplicateUpdates hduplicateUpdates
        assignments := Assignment.lowerAll_backed _ assignments hassignments
        returning := Term.lowerAll_backed _ returning hreturning }) fun body h => .pure
        ⟨Statement.placed_backed s info.id info.alias? h, fun hnested => .of_opens
          (Statement.placed_opens s _ _ hnested) (Statement.placed_backed s _ _ h)⟩
    cases conflict with
    | none => exact .ok .nil
    | some c => exact Conflict.lower_backed _ c hconflict

theorem Compound.lower_presents (s : Scope) :
    ∀ c : Compound, c.isComplete = true → Yields (Supplied s false) (c.lower s)
  | ⟨id, base, operands, orderBy, limit, offset, alias?⟩, h => by
    rw [Compound.isComplete] at h
    obtain ⟨hbase, h⟩ := Bool.and_eq_true_iff.mp h
    obtain ⟨hoperands, horderBy⟩ := Bool.and_eq_true_iff.mp h
    rw [Compound.lower]
    refine (Statement.compound_backed s.dialect _ limit offset
      ((Query.lower_presents s.operands base hbase).mono fun _ h => h.1)
      (Operand.lowerAll_backed s.operands base.selectCount operands hoperands)
      (OrderItem.lowerAll_backed s.standalone _ orderBy horderBy)).bind fun body h => .pure ?_
    have hplaced := Statement.placed_backed s id alias? h
    exact ⟨hplaced, fun hnested => .of_opens (Statement.placed_opens s _ _ hnested) hplaced⟩

theorem Term.lowerAll_backed (s : Scope) :
    ∀ ts : List Term, Term.allComplete ts = true → Yields AllBacked (Term.lowerAll s ts)
  | [], _ => by
    rw [Term.lowerAll]
    exact .none
  | t :: ts, h => by
    rw [Term.allComplete] at h
    obtain ⟨ht, hts⟩ := Bool.and_eq_true_iff.mp h
    rw [Term.lowerAll]
    exact .cons (Term.lower_backed s t ht) (Term.lowerAll_backed s ts hts)

theorem Term.lowerAllNamed_backed (s : Scope) (names : List String) :
    ∀ ts : List Term, Term.allComplete ts = true →
      Yields AllBacked (Term.lowerAllNamed s names ts)
  | [], _ => by
    rw [Term.lowerAllNamed]
    exact .none
  | ⟨expr, alias?⟩ :: ts, h => by
    rw [Term.allComplete, Term.isComplete] at h
    obtain ⟨ht, hts⟩ := Bool.and_eq_true_iff.mp h
    have hexpr := Expr.lower_fills s expr ht
    have hrest := Term.lowerAllNamed_backed s names ts hts
    rw [Term.lowerAllNamed]
    split
    · exact .cons (.ok (.one rfl)) hrest
    · exact .cons (hexpr.mono fun _ h => h.backed) hrest

theorem Term.lowerColumns_backed (s : Scope) :
    ∀ ts : List Term, Term.allComplete ts = true → Yields AllBacked (Term.lowerColumns s ts)
  | [], _ => by
    rw [Term.lowerColumns]
    exact .none
  | t :: ts, h => by
    rw [Term.allComplete] at h
    obtain ⟨ht, hts⟩ := Bool.and_eq_true_iff.mp h
    rw [Term.lowerColumns]
    exact .cons (Term.lowerColumn_backed s t ht) (Term.lowerColumns_backed s ts hts)

theorem Term.lowerRows_backed (s : Scope) :
    ∀ rows : List (List Term), Term.rowsComplete rows = true →
      Yields AllBacked (Term.lowerRows s rows)
  | [], _ => by
    rw [Term.lowerRows]
    exact .none
  | row :: rows, h => by
    rw [Term.rowsComplete] at h
    obtain ⟨hrow, hrows⟩ := Bool.and_eq_true_iff.mp h
    rw [Term.lowerRows]
    exact (Term.lowerAll_backed s row hrow).bind fun _ hrow =>
      (Term.lowerRows_backed s rows hrows).bind fun _ hrows =>
        .pure (List.forall_mem_cons.mpr ⟨(Backed.listed hrow).parens, hrows⟩)

theorem OrderItem.lowerAll_backed (s : Scope) (names : List String) :
    ∀ items : List OrderItem, OrderItem.allComplete items = true →
      Yields AllBacked (OrderItem.lowerAll s names items)
  | [], _ => by
    rw [OrderItem.lowerAll]
    exact .none
  | ⟨⟨expr, alias?⟩, order⟩ :: items, h => by
    rw [OrderItem.allComplete] at h
    obtain ⟨ht, hitems⟩ := Bool.and_eq_true_iff.mp h
    have hexpr := Expr.lower_fills s expr ht
    have hrest := OrderItem.lowerAll_backed s names items hitems
    have hitem : ∀ {t : Lowered}, Yields Backed t →
        Yields AllBacked (t >>= fun t => OrderItem.lowerAll s names items >>= fun rest =>
          Pure.pure ((t ++ Tokens.direction order) :: rest)) :=
      fun ht => ht.bind fun _ ht => hrest.bind fun _ hrest =>
        .pure (List.forall_mem_cons.mpr ⟨ht.append (.direction order), hrest⟩)
    rw [OrderItem.lowerAll]
    split
    · exact hitem (.ok (.one rfl))
    · exact hitem (hexpr.mono fun _ h => h.backed)

theorem Branch.lowerAll_backed (s : Scope) :
    ∀ branches : List Branch, Branch.allComplete branches = true →
      Yields AllBacked (Branch.lowerAll s branches)
  | [], _ => by
    rw [Branch.lowerAll]
    exact .none
  | ⟨condition, result⟩ :: branches, h => by
    rw [Branch.allComplete] at h
    obtain ⟨hcondition, h⟩ := Bool.and_eq_true_iff.mp h
    obtain ⟨hvacant, hcondition⟩ := Bool.and_eq_true_iff.mp hcondition
    obtain ⟨hresult, hbranches⟩ := Bool.and_eq_true_iff.mp h
    have hc := (Condition.lower_fills s condition hcondition).present hvacant
    rw [Branch.lowerAll]
    exact .cons (Clause.branch_backed hc (Term.lower_backed s result hresult))
      (Branch.lowerAll_backed s branches hbranches)

theorem Source.lowerAll_backed (s : Scope) :
    ∀ sources : List Source, Source.allComplete sources = true →
      Yields AllBacked (Source.lowerAll s sources)
  | [], _ => by
    rw [Source.lowerAll]
    exact .none
  | source :: sources, h => by
    rw [Source.allComplete] at h
    obtain ⟨hsource, hsources⟩ := Bool.and_eq_true_iff.mp h
    rw [Source.lowerAll]
    exact .cons (Source.lower_backed s source hsource) (Source.lowerAll_backed s sources hsources)

theorem Join.lowerAll_backed (s : Scope) :
    ∀ joins : List Join, Join.allComplete joins = true → Yields AllBacked (Join.lowerAll s joins)
  | [], _ => by
    rw [Join.lowerAll]
    exact .none
  | j :: joins, h => by
    rw [Join.allComplete] at h
    obtain ⟨hj, hjoins⟩ := Bool.and_eq_true_iff.mp h
    rw [Join.lowerAll]
    exact .cons (Join.lower_backed s j hj) (Join.lowerAll_backed s joins hjoins)

theorem CommonTable.lowerAll_backed (s : Scope) :
    ∀ tables : List CommonTable, CommonTable.allComplete tables = true →
      Yields AllBacked (CommonTable.lowerAll s tables)
  | [], _ => by
    rw [CommonTable.lowerAll]
    exact .none
  | t :: ts, h => by
    rw [CommonTable.allComplete] at h
    obtain ⟨ht, hts⟩ := Bool.and_eq_true_iff.mp h
    rw [CommonTable.lowerAll]
    exact .cons (CommonTable.lower_backed s t ht) (CommonTable.lowerAll_backed s ts hts)

theorem Assignment.lowerAll_backed (s : Scope) :
    ∀ assignments : List Assignment, Assignment.allComplete assignments = true →
      Yields AllBacked (Assignment.lowerAll s assignments)
  | [], _ => by
    rw [Assignment.lowerAll]
    exact .none
  | a :: as, h => by
    rw [Assignment.allComplete] at h
    obtain ⟨ha, has⟩ := Bool.and_eq_true_iff.mp h
    rw [Assignment.lowerAll]
    exact .cons (Assignment.lower_backed s a ha) (Assignment.lowerAll_backed s as has)

theorem Operand.lowerAll_backed (s : Scope) (width : Nat) :
    ∀ operands : List Operand, Operand.allComplete operands = true →
      Yields AllBacked (Operand.lowerAll s width operands)
  | [], _ => by
    rw [Operand.lowerAll]
    exact .none
  | ⟨op, query⟩ :: operands, h => by
    rw [Operand.allComplete] at h
    obtain ⟨hquery, hoperands⟩ := Bool.and_eq_true_iff.mp h
    rw [Operand.lowerAll]
    exact .cons (Statement.operand_backed op width _ ((Query.lower_presents s query hquery).mono
      fun _ h => h.1)) (Operand.lowerAll_backed s width operands hoperands)

end

end SqlScribe
