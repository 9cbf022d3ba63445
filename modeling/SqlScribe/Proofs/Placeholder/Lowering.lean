import SqlScribe.Lowering
import SqlScribe.Proofs.Nesting.Syntax
import SqlScribe.Proofs.Placeholder.Statement
import SqlScribe.Proofs.Placeholder.Syntax
/-! # Lowering between placeholders

Syntax in which nothing can be taken for a placeholder has tame tokens, in every scope: one law for
each type of the syntax, all proved together by recursion on it.

* `Interval.silent_literal`: intervals are string literals and fixed words.
* `Term.lower_tame`, `Condition.lower_tame`, `Query.lower_tame`: the laws. -/

namespace SqlScribe

open Tokens

variable {c : Scan} {d : Dialect}

/-! ## Intervals -/

namespace Interval

theorem trimStart_subset (cs : List Char) : trimStart cs ⊆ cs := by
  intro ch hch
  rcases List.mem_append.mp hch with hfiller | hrest
  · have hsuffix := (List.takeWhile_prefix _).subset (List.mem_reverse.mp hfiller)
    exact (List.takeWhile_prefix _).subset (List.mem_reverse.mp hsuffix)
  · exact (List.dropWhile_suffix _).subset hrest

theorem trimEnd_subset (cs : List Char) : trimEnd cs ⊆ cs := by
  induction cs with
  | nil => exact List.nil_subset _
  | cons ch cs ih =>
    rw [trimEnd]
    split
    · exact List.nil_subset _
    · exact List.cons_subset_cons ch ih

/-- Components are written with digits and separators. -/
theorem quote_not_mem_fullText (i : Interval) : '\'' ∉ i.fullText := by
  have hdigits : ∀ n, '\'' ∉ digits n := by
    intro n hmem
    have hdigit := Text.isDigit_of_mem_toDigits hmem
    exact absurd hdigit (by decide)
  simp [fullText, hdigits]

theorem isFixed_unit (i : Interval) : ∀ part ∈ i.components, Text.isFixed part.2 = true := by
  have hunits : ∀ unit ∈ i.components.map (·.2), Text.isFixed unit = true := by
    show ∀ unit ∈ ["YEAR", "MONTH", "DAY", "HOUR", "MINUTE", "SECOND", "MICROSECOND"], _
    decide
  exact fun part hpart => hunits _ (List.mem_map_of_mem hpart)

/-- An amount has no quotes in it, and its unit is made of inert characters. -/
theorem amount_plain (i : Interval) :
    '\'' ∉ i.amount.1.toList ∧ Text.isFixed i.amount.2 = true := by
  have hfixed : ∀ {text : String}, Text.isFixed text = true → '\'' ∉ text.toList :=
    fun h hmem => absurd (Text.isFixed_iff.mp h _ hmem) (by decide)
  unfold amount
  split
  · exact ⟨hfixed (Text.isFixed_int _), (by decide : Text.isFixed "QUARTER" = true)⟩
  · split
    · exact ⟨hfixed (Text.isFixed_int _), (by decide : Text.isFixed "WEEK" = true)⟩
    · dsimp only
      split
      -- Some component is not zero: the unit names the largest and the smallest of these.
      · next largest largestUnit _ smallestUnit hlargest hsmallest =>
        have hpresent : ∀ part ∈ i.components.filter (·.1 ≠ 0), Text.isFixed part.2 = true :=
          fun part hpart => i.isFixed_unit part (List.mem_filter.mp hpart).1
        have hfirst : Text.isFixed largestUnit = true :=
          hpresent _ (List.mem_of_mem_head? hlargest)
        have hlast : Text.isFixed smallestUnit = true :=
          hpresent _ (List.mem_of_mem_getLast? hsmallest)
        have hbetween : Text.isFixed "_" = true := by decide
        have hunit : Text.isFixed (if largestUnit = smallestUnit then largestUnit
            else largestUnit ++ "_" ++ smallestUnit) = true := by
          split
          · exact hfirst
          · exact Text.isFixed_append (Text.isFixed_append hfirst hbetween) hlast
        have htrimmed : '\'' ∉ trimEnd (trimStart i.fullText) := fun hmem =>
          i.quote_not_mem_fullText (trimStart_subset _ (trimEnd_subset _ hmem))
        have hsigned : '\'' ∉ (if largest < 0 then '-' :: trimEnd (trimStart i.fullText)
            else trimEnd (trimStart i.fullText)) := by
          split
          · exact List.not_mem_cons_of_ne_of_not_mem (by decide) htrimmed
          · exact htrimmed
        split
        · exact ⟨hfixed (Text.isFixed_int _), (by decide : Text.isFixed "MICROSECOND" = true)⟩
        · exact ⟨by rwa [String.toList_ofList], hunit⟩
      · exact ⟨hfixed (by decide), (by decide : Text.isFixed "DAY" = true)⟩

/-- The separators of an interval stand between quotes. -/
theorem silent_literal (i : Interval) (e : Dialect) : c.Silent (i.literal e).toList := by
  obtain ⟨hamount, hunit⟩ := i.amount_plain
  have hword : c.Silent "INTERVAL ".toList := .fixed (by decide)
  have hopen : "INTERVAL '".toList = "INTERVAL ".toList ++ ['\''] := by decide
  unfold literal
  dsimp only
  split
  -- The unit stands between the quotes too, or behind them.
  · have hinner : '\'' ∉ i.amount.1.toList ++ ' ' :: i.amount.2.toList := by
      intro hmem
      rcases List.mem_append.mp hmem with hmem | hmem
      · exact hamount hmem
      · rcases List.mem_cons.mp hmem with heq | hmem
        · exact absurd heq (by decide)
        · exact absurd (Text.isFixed_iff.mp hunit _ hmem) (by decide)
    have hall := hword.append (Scan.Silent.single (c := c) hinner)
    simpa [hopen] using hall
  · have hbehind : c.Silent (" " ++ i.amount.2).toList :=
      .fixed (Text.isFixed_append (by decide) hunit)
    have hall := (hword.append (Scan.Silent.single (c := c) hamount)).append hbehind
    simpa [hopen] using hall

end Interval

/-! ## Names -/

theorem Scope.qualification_leads (s : Scope) {q : Option Qualifier}
    (h : q.all (·.isAdmitted c) = true) : Leads c d (s.qualification q) := by
  have hdot : Leads c d [.mark .dot] := .cons (Token.Separates.mark .dot).mute .nil
  unfold qualification
  split
  next t ht =>
    obtain ⟨q, hsome, hq⟩ := Option.bind_eq_some_iff.mp ht
    subst hsome
    refine .cons ?_ hdot
    cases q with
    | table u =>
      rw [Scope.qualifier?] at hq
      split at hq
      · cases hq
        exact (Token.Separates.ident _).mute
      · split at hq
        · cases hq
          exact (Token.Separates.ident _).mute
        · cases hq
    | subquery id alias? =>
      obtain ⟨name, -, rfl⟩ := Option.map_eq_some_iff.mp hq
      exact (Token.Separates.ident name).mute
    | raw text =>
      cases hq
      exact .raw (.admitted h)
  next => exact .nil

/-! ## Syntax -/

mutual

theorem Term.lower_tame (s : Scope) :
    ∀ t : Term, t.isAdmitted c = true → Yields (Tame c d) (t.lower s)
  | ⟨expr, alias?⟩, h => by
    rw [Term.isAdmitted] at h
    rw [Term.lower]
    refine (Expr.lower_tame s expr h).bind fun _ h => .pure (h.append (.choose ?_ .nil))
    cases alias? with
    | none => exact .nil
    | some name => exact s.aliasSuffix_apart name

theorem Expr.lower_tame (s : Scope) :
    ∀ e : Expr, e.isAdmitted c = true → Yields (Tame c d) (e.lower s)
  | .field q name, h => by
    rw [Expr.isAdmitted] at h
    rw [Expr.lower]
    exact .ok (s.qualification_leads h _ (Apart.ident name .nil).tame)
  | .star q, h => by
    rw [Expr.isAdmitted] at h
    rw [Expr.lower]
    exact .ok (s.qualification_leads h _ (Apart.mark _ .nil).tame)
  | .value v, _ => by
    rw [Expr.lower]
    exact Clause.value_tame v nofun
  | .named name v, _ => by
    rw [Expr.lower]
    exact Clause.value_tame v nofun
  | .null, _ => by
    rw [Expr.lower]
    exact .ok (Apart.word _ .nil).tame
  | .parameter _, h => by
    rw [Expr.isAdmitted] at h
    cases h
  | .raw _, h => by
    rw [Expr.isAdmitted] at h
    cases h
  | .tuple items, h => by
    rw [Expr.isAdmitted] at h
    rw [Expr.lower]
    exact (Term.lowerAll_tame s.quiet items h).bind fun _ hl =>
      .pure (Apart.parens (Tame.listed hl)).tame
  | .array items, h => by
    rw [Expr.isAdmitted] at h
    rw [Expr.lower]
    exact Clause.array_tame _ s.dialect.isWord_arrayWord (Term.lowerAll_tame s.quiet items h)
  | .interval i, _ => by
    rw [Expr.lower]
    exact .ok (.raw (i.silent_literal s.dialect))
  | .arithmetic op left right, h => by
    rw [Expr.isAdmitted] at h
    obtain ⟨hleft, hright⟩ := Bool.and_eq_true_iff.mp h
    rw [Expr.lower]
    exact Clause.arithmetic_tame op _ _ (Term.lower_tame s.quiet left hleft)
      (Term.lower_tame s.quiet right hright)
  | .negative t, h => by
    rw [Expr.isAdmitted] at h
    rw [Expr.lower]
    exact Clause.negative_tame _ (Term.lower_tame s.quiet t h)
  | .call f, h => by
    rw [Expr.isAdmitted] at h
    rw [Expr.lower]
    exact Call.lower_tame s.quiet f h
  | .case branches otherwise, h => by
    rw [Expr.isAdmitted.eq_def] at h
    obtain ⟨hbranches, hotherwise⟩ := Bool.and_eq_true_iff.mp h
    rw [Expr.lower.eq_def]
    refine iteInduction (fun _ => .error _) fun _ => ?_
    refine Clause.choice_tame (Branch.lowerAll_apart s.quiet branches hbranches) fun x hx => ?_
    cases otherwise with
    | none => cases hx
    | some t =>
      cases hx
      exact Term.lower_tame s.quiet t hotherwise
  | .subquery q, h => by
    rw [Expr.isAdmitted] at h
    rw [Expr.lower]
    exact Subquery.lower_tame s.embedded q h
  | .condition e, h => by
    rw [Expr.isAdmitted] at h
    rw [Expr.lower]
    exact Condition.lower_tame s.quiet e h

theorem Call.lower_tame (s : Scope) :
    ∀ f : Call, f.isAdmitted c = true → Yields (Tame c d) (f.lower s)
  | ⟨name, form, aggregate, distinct, ignoreNulls, args, filter, window⟩, h => by
    rw [Call.isAdmitted.eq_def] at h
    obtain ⟨h, hwindow⟩ := Bool.and_eq_true_iff.mp h
    obtain ⟨h, hfilter⟩ := Bool.and_eq_true_iff.mp h
    obtain ⟨h, hargs⟩ := Bool.and_eq_true_iff.mp h
    obtain ⟨hname, hform⟩ := Bool.and_eq_true_iff.mp h
    have hinvoked : Yields (Tame c d)
        (Clause.invoked name form distinct ignoreNulls (Term.lowerAll s.quiet args)) :=
      Clause.invoked_tame distinct ignoreNulls hname hform (Term.lowerAll_tame s.quiet args hargs)
    rw [Call.lower.eq_def]
    refine Clause.call_tame hinvoked (fun x hx => ?_) fun x hx => ?_
    · cases filter with
      | none => cases hx
      | some e =>
        cases hx
        exact Condition.lower_tame s.quiet e hfilter
    · cases window with
      | none => cases hx
      | some w =>
        cases hx
        exact Window.lower_tame s w hwindow

theorem Window.lower_tame (s : Scope) :
    ∀ w : Window, w.isAdmitted c = true → Yields (Tame c d) (w.lower s)
  | ⟨partitionBy, orderBy, frame⟩, h => by
    rw [Window.isAdmitted] at h
    obtain ⟨hpartition, horder⟩ := Bool.and_eq_true_iff.mp h
    rw [Window.lower]
    exact Clause.window_tame frame (Term.lowerAll_tame s.quiet partitionBy hpartition)
      (OrderItem.lowerAll_tame s.quiet [] orderBy horder)

theorem Condition.lower_tame (s : Scope) :
    ∀ e : Condition, e.isAdmitted c = true → Yields (Tame c d) (e.lower s)
  | .empty, _ => by
    rw [Condition.lower]
    exact .ok .nil
  | .compare op left right, h => by
    rw [Condition.isAdmitted] at h
    obtain ⟨hleft, hright⟩ := Bool.and_eq_true_iff.mp h
    rw [Condition.lower]
    exact Clause.comparison_tame op _ (Term.lower_tame s.quiet left hleft)
      (Term.lower_tame s.quiet right hright)
  | .matches op negated t pattern escape, h => by
    rw [Condition.isAdmitted] at h
    obtain ⟨hterm, hpattern⟩ := Bool.and_eq_true_iff.mp h
    rw [Condition.lower]
    exact Clause.matching_tame s.dialect op negated escape (Term.lower_tame s.quiet t hterm)
      (Term.lower_tame s.quiet pattern hpattern)
  | .json op left right, h => by
    rw [Condition.isAdmitted] at h
    obtain ⟨h, hright⟩ := Bool.and_eq_true_iff.mp h
    obtain ⟨hop, hleft⟩ := Bool.and_eq_true_iff.mp h
    rw [Condition.lower]
    exact Clause.json_tame s.dialect hop (Term.lower_tame s.quiet left hleft)
      (Term.lower_tame s.quiet right hright)
  | .search op t value, h => by
    rw [Condition.isAdmitted] at h
    obtain ⟨hterm, hvalue⟩ := Bool.and_eq_true_iff.mp h
    rw [Condition.lower]
    exact Clause.search_tame s.dialect op (Term.lower_tame s.quiet t hterm)
      (Term.lower_tame s.quiet value hvalue)
  | .isNull negated t, h => by
    rw [Condition.isAdmitted] at h
    rw [Condition.lower]
    exact Clause.isNull_tame negated (Term.lower_tame s.quiet t h)
  | .isIn negated t items, h => by
    rw [Condition.isAdmitted] at h
    obtain ⟨hterm, hitems⟩ := Bool.and_eq_true_iff.mp h
    rw [Condition.lower]
    exact Clause.isIn_tame negated _ (Term.lower_tame s.quiet t hterm)
      (Term.lowerAll_tame s.quiet items hitems)
  | .isInRows negated t rows, h => by
    rw [Condition.isAdmitted] at h
    obtain ⟨hterm, hrows⟩ := Bool.and_eq_true_iff.mp h
    rw [Condition.lower]
    exact Clause.isInRows_tame negated (Term.lower_tame s.quiet t hterm)
      (Subquery.lower_tame s.embedded rows hrows)
  | .between negated t low high, h => by
    rw [Condition.isAdmitted] at h
    obtain ⟨h, hhigh⟩ := Bool.and_eq_true_iff.mp h
    obtain ⟨hterm, hlow⟩ := Bool.and_eq_true_iff.mp h
    rw [Condition.lower]
    exact Clause.between_tame negated (Term.lower_tame s.quiet t hterm)
      (Term.lower_tame s.quiet low hlow) (Term.lower_tame s.quiet high hhigh)
  | .hasRows negated rows, h => by
    rw [Condition.isAdmitted] at h
    rw [Condition.lower]
    exact Clause.hasRows_tame negated (Subquery.lower_tame s.embedded rows h)
  | .combined op left right, h => by
    rw [Condition.isAdmitted] at h
    obtain ⟨hleft, hright⟩ := Bool.and_eq_true_iff.mp h
    rw [Condition.lower]
    exact Clause.combined_tame op _ _ (Condition.lower_tame s.quiet left hleft)
      (Condition.lower_tame s.quiet right hright)
  | .not e, h => by
    rw [Condition.isAdmitted] at h
    rw [Condition.lower]
    exact Clause.negated_tame _ (Condition.lower_tame s.quiet e h)
  | .term t, h => by
    rw [Condition.isAdmitted] at h
    rw [Condition.lower]
    exact Term.lower_tame s.quiet t h

theorem Subquery.lower_tame (s : Scope) :
    ∀ q : Subquery, q.isAdmitted c = true → Yields (Tame c d) (q.lower s)
  | .query q, h => by
    rw [Subquery.isAdmitted] at h
    rw [Subquery.lower]
    exact Query.lower_tame s q h
  | .compound q, h => by
    rw [Subquery.isAdmitted] at h
    rw [Subquery.lower]
    exact Compound.lower_tame s q h

theorem Source.lower_tame (s : Scope) :
    ∀ source : Source, source.isAdmitted c = true → Yields (Tame c d) (source.lower s)
  | .table t, _ => by
    rw [Source.lower]
    exact .ok (t.tokens_tame s)
  | .subquery q, h => by
    rw [Source.isAdmitted] at h
    rw [Source.lower]
    exact Subquery.lower_tame s.asSource q h

theorem Join.lower_tame (s : Scope) :
    ∀ j : Join, j.isAdmitted c = true → Yields (Tame c d) (j.lower s)
  | ⟨kind, source, condition⟩, h => by
    rw [Join.isAdmitted] at h
    obtain ⟨hsource, hcondition⟩ := Bool.and_eq_true_iff.mp h
    rw [Join.lower]
    exact Statement.join_tame kind (Source.lower_tame s source hsource)
      (JoinCondition.lower_apart s condition hcondition)

theorem JoinCondition.lower_apart (s : Scope) :
    ∀ e : JoinCondition, e.isAdmitted c = true → Yields (Apart c d) (e.lower s)
  | .all, _ => by
    rw [JoinCondition.lower]
    exact .ok .nil
  | .on e, h => by
    rw [JoinCondition.isAdmitted] at h
    rw [JoinCondition.lower]
    exact (Condition.lower_tame s.quiet e h).bind fun _ h => .pure (.keyword _ h)
  | .sharing columns, _ => by
    rw [JoinCondition.lower]
    exact .ok (.keyword _ (Apart.parens (.idents columns)).tame)

theorem CommonTable.lower_tame (s : Scope) :
    ∀ t : CommonTable, t.isAdmitted c = true → Yields (Tame c d) (t.lower s)
  | ⟨name, columns, _, body⟩, h => by
    rw [CommonTable.isAdmitted] at h
    rw [CommonTable.lower]
    exact Statement.commonTable_tame name columns (Subquery.lower_tame s.standalone body h)

theorem Term.lowerColumn_tame (s : Scope) :
    ∀ t : Term, t.isAdmitted c = true → Yields (Tame c d) (t.lowerColumn s)
  | ⟨expr, alias?⟩, h => by
    rw [Term.isAdmitted] at h
    -- A column that is written by its name alone needs nothing of its expression.
    have hexpr := Expr.lower_tame (s.quiet.qualifying false) expr h
    unfold Term.lowerColumn
    split
    · exact .ok (Apart.ident _ .nil).tame
    · next heq =>
      cases heq
      exact hexpr

theorem Assignment.lower_tame (s : Scope) :
    ∀ a : Assignment, a.isAdmitted c = true → Yields (Tame c d) (a.lower s)
  | ⟨column, value⟩, h => by
    rw [Assignment.isAdmitted] at h
    obtain ⟨hcolumn, hvalue⟩ := Bool.and_eq_true_iff.mp h
    rw [Assignment.lower]
    exact Statement.assignment_tame (Term.lowerColumn_tame s column hcolumn)
      (Term.lower_tame s.quiet value hvalue)

theorem Conflict.lower_apart (s : Scope) :
    ∀ e : Conflict, e.isAdmitted c = true → Yields (Apart c d) (e.lower s)
  | ⟨targets, targetFilter, handler, assignments, updateFilter⟩, h => by
    rw [Conflict.isAdmitted] at h
    obtain ⟨h, hupdateFilter⟩ := Bool.and_eq_true_iff.mp h
    obtain ⟨h, hassignments⟩ := Bool.and_eq_true_iff.mp h
    obtain ⟨htargets, htargetFilter⟩ := Bool.and_eq_true_iff.mp h
    rw [Conflict.lower]
    exact Statement.conflictClause_apart s.dialect
      { targets := Term.lowerColumns_tame s targets htargets
        targetFilter := Condition.lower_tame s.quiet targetFilter htargetFilter
        assignments := Assignment.lowerAll_tame (s.qualifying true) assignments hassignments
        updateFilter :=
          Condition.lower_tame (s.qualifying true).quiet updateFilter hupdateFilter } _

theorem Query.lower_tame (s : Scope) :
    ∀ q : Query, q.isAdmitted c = true → Yields (Tame c d) (q.lower s)
  | ⟨info, commonTables, sources, selects, distinctOn, joins, filter, groupBy, having, orderBy,
      columns, rows, conflict, duplicateUpdates, assignments, returning⟩, h => by
    rw [Query.isAdmitted.eq_def] at h
    simp only [Bool.and_eq_true_iff] at h
    obtain ⟨hcommonTables, hsources, hselects, hdistinctOn, hjoins, hfilter, hgroupBy, hhaving,
      horderBy, hcolumns, hrows, hconflict, hduplicateUpdates, hassignments, hreturning⟩ := h
    rw [Query.lower]
    refine iteInduction (fun _ => .ok .nil) fun _ => ?_
    refine Yields.bind (Statement.whole_tame _
      { commonTables := CommonTable.lowerAll_tame _ commonTables hcommonTables
        sources := Source.lowerAll_tame _ sources hsources
        selects := Term.lowerAll_tame _ selects hselects
        distinctOn := Term.lowerAll_tame _ distinctOn hdistinctOn
        joins := Join.lowerAll_tame _ joins hjoins
        filter := Condition.lower_tame _ filter hfilter
        groupBy := Term.lowerAllNamed_tame _ _ groupBy hgroupBy
        having := Condition.lower_tame _ having hhaving
        orderBy := OrderItem.lowerAll_tame _ _ orderBy horderBy
        columns := Term.lowerColumns_tame _ columns hcolumns
        rows := Term.lowerRows_tame _ rows hrows
        conflict := ?_
        duplicateUpdates := Assignment.lowerAll_tame _ duplicateUpdates hduplicateUpdates
        assignments := Assignment.lowerAll_tame _ assignments hassignments
        returning := Term.lowerAll_tame _ returning hreturning }) fun _ h =>
      .pure (Statement.placed_tame s info.id info.alias? h)
    -- A conflict clause brings the blank before it, so that there may be none.
    cases conflict with
    | none => exact .ok .nil
    | some e => exact Conflict.lower_apart _ e hconflict

theorem Compound.lower_tame (s : Scope) :
    ∀ q : Compound, q.isAdmitted c = true → Yields (Tame c d) (q.lower s)
  | ⟨id, base, operands, orderBy, limit, offset, alias?⟩, h => by
    rw [Compound.isAdmitted] at h
    obtain ⟨h, horderBy⟩ := Bool.and_eq_true_iff.mp h
    obtain ⟨hbase, hoperands⟩ := Bool.and_eq_true_iff.mp h
    rw [Compound.lower]
    exact (Statement.compound_tame _ _ limit offset (Query.lower_tame s.operands base hbase)
      (Operand.lowerAll_apart s.operands base.selectCount operands hoperands)
      (OrderItem.lowerAll_tame s.standalone _ orderBy horderBy)).bind fun _ h =>
        .pure (Statement.placed_tame s id alias? h)

theorem Term.lowerAll_tame (s : Scope) :
    ∀ ts : List Term, Term.allAdmitted c ts = true → Yields (AllTame c d) (Term.lowerAll s ts)
  | [], _ => by
    rw [Term.lowerAll]
    exact .none
  | t :: ts, h => by
    rw [Term.allAdmitted] at h
    obtain ⟨ht, hts⟩ := Bool.and_eq_true_iff.mp h
    rw [Term.lowerAll]
    exact .cons (Term.lower_tame s t ht) (Term.lowerAll_tame s ts hts)

theorem Term.lowerAllNamed_tame (s : Scope) (names : List String) : ∀ ts : List Term,
    Term.allAdmitted c ts = true → Yields (AllTame c d) (Term.lowerAllNamed s names ts)
  | [], _ => by
    rw [Term.lowerAllNamed]
    exact .none
  | ⟨expr, alias?⟩ :: ts, h => by
    rw [Term.allAdmitted] at h
    obtain ⟨ht, hts⟩ := Bool.and_eq_true_iff.mp h
    rw [Term.isAdmitted] at ht
    have hexpr := Expr.lower_tame s expr ht
    have hrest := Term.lowerAllNamed_tame s names ts hts
    rw [Term.lowerAllNamed]
    split
    · exact .cons (.ok (Apart.one (.aliasName _)).tame) hrest
    · exact .cons hexpr hrest

theorem Term.lowerColumns_tame (s : Scope) : ∀ ts : List Term,
    Term.allAdmitted c ts = true → Yields (AllTame c d) (Term.lowerColumns s ts)
  | [], _ => by
    rw [Term.lowerColumns]
    exact .none
  | t :: ts, h => by
    rw [Term.allAdmitted] at h
    obtain ⟨ht, hts⟩ := Bool.and_eq_true_iff.mp h
    rw [Term.lowerColumns]
    exact .cons (Term.lowerColumn_tame s t ht) (Term.lowerColumns_tame s ts hts)

theorem Term.lowerRows_tame (s : Scope) : ∀ rows : List (List Term),
    Term.rowsAdmitted c rows = true → Yields (AllTame c d) (Term.lowerRows s rows)
  | [], _ => by
    rw [Term.lowerRows]
    exact .none
  | row :: rows, h => by
    rw [Term.rowsAdmitted] at h
    obtain ⟨hrow, hrows⟩ := Bool.and_eq_true_iff.mp h
    rw [Term.lowerRows]
    exact (Term.lowerAll_tame s row hrow).bind fun _ hrow =>
      (Term.lowerRows_tame s rows hrows).bind fun _ hrows =>
        .pure (List.forall_mem_cons.mpr ⟨(Apart.parens (Tame.listed hrow)).tame, hrows⟩)

theorem OrderItem.lowerAll_tame (s : Scope) (names : List String) : ∀ items : List OrderItem,
    OrderItem.allAdmitted c items = true → Yields (AllTame c d) (OrderItem.lowerAll s names items)
  | [], _ => by
    rw [OrderItem.lowerAll]
    exact .none
  | ⟨⟨expr, alias?⟩, order⟩ :: items, h => by
    rw [OrderItem.allAdmitted] at h
    obtain ⟨hexpr, hitems⟩ := Bool.and_eq_true_iff.mp h
    have hterm := Expr.lower_tame s expr hexpr
    have hrest := OrderItem.lowerAll_tame s names items hitems
    have hitem : ∀ {t : Lowered}, Yields (Tame c d) t →
        Yields (AllTame c d) (t >>= fun t => OrderItem.lowerAll s names items >>= fun rest =>
          Pure.pure ((t ++ Tokens.direction order) :: rest)) :=
      fun ht => ht.bind fun _ ht => hrest.bind fun _ hrest =>
        .pure (List.forall_mem_cons.mpr ⟨ht.append (.direction order), hrest⟩)
    rw [OrderItem.lowerAll]
    split
    · exact hitem (.ok (Apart.one (.aliasName _)).tame)
    · exact hitem hterm

theorem Branch.lowerAll_apart (s : Scope) : ∀ branches : List Branch,
    Branch.allAdmitted c branches = true →
      Yields (∀ ts ∈ ·, Apart c d ts) (Branch.lowerAll s branches)
  | [], _ => by
    rw [Branch.lowerAll]
    exact .none
  | ⟨condition, result⟩ :: branches, h => by
    rw [Branch.allAdmitted] at h
    obtain ⟨h, hbranches⟩ := Bool.and_eq_true_iff.mp h
    obtain ⟨hcondition, hresult⟩ := Bool.and_eq_true_iff.mp h
    rw [Branch.lowerAll]
    exact .cons (Clause.branch_apart (Condition.lower_tame s condition hcondition)
      (Term.lower_tame s result hresult)) (Branch.lowerAll_apart s branches hbranches)

theorem Source.lowerAll_tame (s : Scope) : ∀ sources : List Source,
    Source.allAdmitted c sources = true → Yields (AllTame c d) (Source.lowerAll s sources)
  | [], _ => by
    rw [Source.lowerAll]
    exact .none
  | source :: sources, h => by
    rw [Source.allAdmitted] at h
    obtain ⟨hsource, hsources⟩ := Bool.and_eq_true_iff.mp h
    rw [Source.lowerAll]
    exact .cons (Source.lower_tame s source hsource) (Source.lowerAll_tame s sources hsources)

theorem Join.lowerAll_tame (s : Scope) : ∀ joins : List Join,
    Join.allAdmitted c joins = true → Yields (AllTame c d) (Join.lowerAll s joins)
  | [], _ => by
    rw [Join.lowerAll]
    exact .none
  | j :: joins, h => by
    rw [Join.allAdmitted] at h
    obtain ⟨hj, hjoins⟩ := Bool.and_eq_true_iff.mp h
    rw [Join.lowerAll]
    exact .cons (Join.lower_tame s j hj) (Join.lowerAll_tame s joins hjoins)

theorem CommonTable.lowerAll_tame (s : Scope) : ∀ tables : List CommonTable,
    CommonTable.allAdmitted c tables = true → Yields (AllTame c d) (CommonTable.lowerAll s tables)
  | [], _ => by
    rw [CommonTable.lowerAll]
    exact .none
  | t :: ts, h => by
    rw [CommonTable.allAdmitted] at h
    obtain ⟨ht, hts⟩ := Bool.and_eq_true_iff.mp h
    rw [CommonTable.lowerAll]
    exact .cons (CommonTable.lower_tame s t ht) (CommonTable.lowerAll_tame s ts hts)

theorem Assignment.lowerAll_tame (s : Scope) : ∀ assignments : List Assignment,
    Assignment.allAdmitted c assignments = true →
      Yields (AllTame c d) (Assignment.lowerAll s assignments)
  | [], _ => by
    rw [Assignment.lowerAll]
    exact .none
  | a :: as, h => by
    rw [Assignment.allAdmitted] at h
    obtain ⟨ha, has⟩ := Bool.and_eq_true_iff.mp h
    rw [Assignment.lowerAll]
    exact .cons (Assignment.lower_tame s a ha) (Assignment.lowerAll_tame s as has)

theorem Operand.lowerAll_apart (s : Scope) (width : Nat) : ∀ operands : List Operand,
    Operand.allAdmitted c operands = true →
      Yields (∀ ts ∈ ·, Apart c d ts) (Operand.lowerAll s width operands)
  | [], _ => by
    rw [Operand.lowerAll]
    exact .none
  | ⟨op, query⟩ :: operands, h => by
    rw [Operand.allAdmitted] at h
    obtain ⟨hquery, hoperands⟩ := Bool.and_eq_true_iff.mp h
    rw [Operand.lowerAll]
    exact .cons (Statement.operand_apart op width _ (Query.lower_tame s query hquery))
      (Operand.lowerAll_apart s width operands hoperands)

end

end SqlScribe
