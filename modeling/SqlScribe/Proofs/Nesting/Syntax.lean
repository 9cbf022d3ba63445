import SqlScribe.Lowering
import SqlScribe.Proofs.Nesting.Statement
/-! # Brackets of terms, conditions and queries

Whatever is lowered has fitting brackets: one law for each type of the syntax, all proved together
by recursion on it. -/

namespace SqlScribe

open Tokens

theorem Scope.qualification_shows {p : Token → Prop} (s : Scope) (q : Option Qualifier)
    (hi : ∀ name, p (.ident name)) (hr : ∀ text, p (.raw text)) (hd : p (.mark .dot)) :
    Shows p (s.qualification q) := by
  unfold qualification
  split
  next t ht =>
    obtain ⟨q, -, hq⟩ := Option.bind_eq_some_iff.mp ht
    have hname : t.role = .plain ∧ p t := by
      unfold Scope.qualifier? at hq
      split at hq
      · split at hq
        · cases hq
          exact ⟨rfl, hi _⟩
        · split at hq
          · cases hq
            exact ⟨rfl, hi _⟩
          · cases hq
      · obtain ⟨name, -, rfl⟩ := Option.map_eq_some_iff.mp hq
        exact ⟨rfl, hi _⟩
      · cases hq
        exact ⟨rfl, hr _⟩
    exact .cons hname.1 hname.2 (.cons rfl hd .nil)
  next => exact .nil

/-- What is yielded of a list by its head and its tail. -/
theorem Yields.cons {p : Tokens → Prop} {x : Lowered} {l : LoweredList} (hx : Yields p x)
    (hl : Yields (∀ ts ∈ ·, p ts) l) :
    Yields (∀ ts ∈ ·, p ts) (x >>= fun t => l >>= fun ts => Pure.pure (t :: ts)) :=
  hx.bind fun _ hx => hl.bind fun _ hl => .pure (List.forall_mem_cons.mpr ⟨hx, hl⟩)

theorem Yields.none {p : Tokens → Prop} : Yields (∀ ts ∈ ·, p ts) (.ok ([] : List Tokens)) :=
  .ok nofun

mutual

theorem Term.lower_nests (s : Scope) : ∀ t : Term, Yields Nests (t.lower s)
  | ⟨expr, alias?⟩ => by
    rw [Term.lower]
    refine (Expr.lower_nests s expr).bind fun _ h => .pure (h.append ?_)
    split
    · cases alias? with
      | none => exact .nil
      | some name => exact s.aliasSuffix_nests name
    · exact .nil

theorem Expr.lower_nests (s : Scope) : ∀ e : Expr, Yields Nests (e.lower s)
  | .field q name => by
    rw [Expr.lower]
    exact .ok ((s.qualification_shows q (fun _ => trivial) (fun _ => trivial) trivial).append
      (.cons rfl trivial .nil))
  | .star q => by
    rw [Expr.lower]
    exact .ok ((s.qualification_shows q (fun _ => trivial) (fun _ => trivial) trivial).append
      (.cons rfl trivial .nil))
  | .value v => by
    rw [Expr.lower]
    exact (Clause.value_bears (p := fun _ => True) (q := fun _ => True) v rfl trivial
      trivial).mono fun _ h => h.nests
  | .named name v => by
    rw [Expr.lower]
    exact (Clause.value_bears (p := fun _ => True) (q := fun _ => True) v rfl trivial
      trivial).mono fun _ h => h.nests
  | .null => by
    rw [Expr.lower]
    exact .ok (.cons rfl trivial .nil)
  | .parameter text => by
    rw [Expr.lower]
    exact .ok (.cons rfl trivial .nil)
  | .raw sql => by
    rw [Expr.lower]
    exact .ok (.raw sql)
  | .tuple items => by
    rw [Expr.lower]
    exact (Term.lowerAll_nest s.quiet items).bind fun _ hl => .pure (Shows.listed hl trivial).parens
  | .array items => by
    rw [Expr.lower]
    exact (Clause.array_bears (p := fun _ => True) (q := fun _ => True) _ _ (fun _ => trivial)
      (fun _ => trivial) (Term.lowerAll_nest s.quiet items)).mono
        fun _ h => h.elim (·.nests) (·.shows)
  | .interval i => by
    rw [Expr.lower]
    exact .ok (.raw _)
  | .arithmetic op left right => by
    rw [Expr.lower]
    exact Clause.arithmetic_shows op _ _ trivial (Term.lower_nests s.quiet left)
      (Term.lower_nests s.quiet right)
  | .negative t => by
    rw [Expr.lower]
    exact Clause.negative_shows _ trivial (Term.lower_nests s.quiet t)
  | .call c => by
    rw [Expr.lower]
    exact (Call.lower_asserts (p := fun _ => True) s.quiet (fun _ => trivial) trivial trivial
      c).mono fun _ h => h.nests
  | .case branches otherwise => by
    rw [Expr.lower.eq_def]
    refine iteInduction (fun _ => .error _) fun _ => ?_
    refine Yields.mono (Clause.choice_encloses (Branch.lowerAll_nest s.quiet branches)
      fun x hx => ?_) fun _ h => h.shows
    cases otherwise with
    | none => cases hx
    | some t =>
      cases hx
      exact Term.lower_nests s.quiet t
  | .subquery q => by
    rw [Expr.lower]
    exact Subquery.lower_nests s.embedded q
  | .condition c => by
    rw [Expr.lower]
    exact Condition.lower_nests s.quiet c

/-- A call shows the name of its function. -/
theorem Call.lower_asserts {p : Token → Prop} (s : Scope) (hn : ∀ name, p (.functionName name))
    (hf : p (.word .FILTER)) (ho : p (.word .OVER)) : ∀ c : Call, Yields (Asserts p) (c.lower s)
  | ⟨name, form, aggregate, distinct, ignoreNulls, args, filter, window⟩ => by
    have hinvoked : Yields (Asserts p)
        (Clause.invoked name form distinct ignoreNulls (Term.lowerAll s.quiet args)) :=
      Clause.invoked_asserts name form distinct ignoreNulls hn (Term.lowerAll_nest s.quiet args)
    rw [Call.lower.eq_def]
    refine Clause.call_asserts hf hinvoked (fun x hx => ?_) fun x hx => ?_
    · cases filter with
      | none => cases hx
      | some c =>
        cases hx
        exact Condition.lower_nests s.quiet c
    · cases window with
      | none => cases hx
      | some w =>
        cases hx
        exact Window.lower_shows s ho w

theorem Window.lower_shows {p : Token → Prop} (s : Scope) (ho : p (.word .OVER)) :
    ∀ w : Window, Yields (Shows p) (w.lower s)
  | ⟨partitionBy, orderBy, frame⟩ => by
    rw [Window.lower]
    exact Clause.window_shows frame ho (Term.lowerAll_nest s.quiet partitionBy)
      (OrderItem.lowerAll_nest s.quiet [] orderBy)

theorem Condition.lower_nests (s : Scope) : ∀ c : Condition, Yields Nests (c.lower s)
  | .empty => by
    rw [Condition.lower]
    exact .ok .nil
  | .compare op left right => by
    rw [Condition.lower]
    exact (Clause.comparison_asserts (fun _ _ => trivial) op _ (Term.lower_nests s.quiet left)
      (Term.lower_nests s.quiet right)).mono fun _ h => h.nests
  | .matches op negated term pattern escape => by
    rw [Condition.lower]
    exact (Clause.matching_asserts (fun _ _ => trivial) s.dialect op negated escape
      (Term.lower_nests s.quiet term) (Term.lower_nests s.quiet pattern)).mono fun _ h => h.nests
  | .json op left right => by
    rw [Condition.lower]
    exact (Clause.json_asserts (fun _ _ => trivial) s.dialect op (Term.lower_nests s.quiet left)
      (Term.lower_nests s.quiet right)).mono fun _ h => h.nests
  | .search op term value => by
    rw [Condition.lower]
    exact (Clause.search_asserts (fun _ _ => trivial) s.dialect op (Term.lower_nests s.quiet term)
      (Term.lower_nests s.quiet value)).mono fun _ h => h.nests
  | .isNull negated term => by
    rw [Condition.lower]
    exact (Clause.isNull_asserts (fun _ _ => trivial) negated
      (Term.lower_nests s.quiet term)).mono fun _ h => h.nests
  | .isIn negated term items => by
    rw [Condition.lower]
    exact (Clause.isIn_asserts (fun _ _ => trivial) negated _ (Term.lower_nests s.quiet term)
      (Term.lowerAll_nest s.quiet items)).mono fun _ h => h.nests
  | .isInRows negated term rows => by
    rw [Condition.lower]
    exact (Clause.isInRows_asserts (fun _ _ => trivial) negated (Term.lower_nests s.quiet term)
      (Subquery.lower_nests s.embedded rows)).mono fun _ h => h.nests
  | .between negated term low high => by
    rw [Condition.lower]
    exact Clause.between_nests negated (Term.lower_nests s.quiet term)
      (Term.lower_nests s.quiet low) (Term.lower_nests s.quiet high)
  | .hasRows negated rows => by
    rw [Condition.lower]
    exact (Clause.hasRows_asserts (fun _ _ => trivial) negated
      (Subquery.lower_nests s.embedded rows)).mono fun _ h => h.nests
  | .combined op left right => by
    rw [Condition.lower]
    exact Clause.combined_nests op _ _ (Condition.lower_nests s.quiet left)
      (Condition.lower_nests s.quiet right)
  | .not c => by
    rw [Condition.lower]
    exact Clause.negated_nests _ (Condition.lower_nests s.quiet c)
  | .term t => by
    rw [Condition.lower]
    exact Term.lower_nests s.quiet t

theorem Subquery.lower_nests (s : Scope) : ∀ q : Subquery, Yields Nests (q.lower s)
  | .query q => by
    rw [Subquery.lower]
    exact (Query.lower_placed s q).mono fun _ h => h.nests fun _ h => h.nests
  | .compound c => by
    rw [Subquery.lower]
    exact (Compound.lower_placed s c).mono fun _ h => h.nests fun _ h => h.1

theorem Source.lower_nests (s : Scope) : ∀ source : Source, Yields Nests (source.lower s)
  | .table t => by
    rw [Source.lower]
    exact .ok (t.tokens_nests s)
  | .subquery q => by
    rw [Source.lower]
    exact Subquery.lower_nests s.asSource q

theorem Join.lower_nests (s : Scope) : ∀ j : Join, Yields Nests (j.lower s)
  | ⟨kind, source, condition⟩ => by
    rw [Join.lower]
    exact Statement.join_nests kind (Source.lower_nests s source)
      (JoinCondition.lower_nests s condition)

theorem JoinCondition.lower_nests (s : Scope) : ∀ c : JoinCondition, Yields Nests (c.lower s)
  | .all => by
    rw [JoinCondition.lower]
    exact .ok .nil
  | .on c => by
    rw [JoinCondition.lower]
    exact (Condition.lower_nests s.quiet c).bind fun _ h => .pure (.append (.spaced rfl trivial) h)
  | .sharing columns => by
    rw [JoinCondition.lower]
    exact .ok (.append (.spaced rfl trivial) (idents_nests columns).parens)

theorem CommonTable.lower_nests (s : Scope) : ∀ t : CommonTable, Yields Nests (t.lower s)
  | ⟨name, columns, _, body⟩ => by
    rw [CommonTable.lower]
    exact Statement.commonTable_nests name columns (Subquery.lower_nests s.standalone body)

theorem Term.lowerColumn_nests (s : Scope) : ∀ t : Term, Yields Nests (t.lowerColumn s)
  | ⟨expr, alias?⟩ => by
    -- A column that is written by its name alone needs nothing of its expression.
    have hexpr := Expr.lower_nests (s.quiet.qualifying false) expr
    unfold Term.lowerColumn
    split
    · exact .ok (.cons rfl trivial .nil)
    · next heq =>
      cases heq
      exact hexpr

theorem Assignment.lower_nests (s : Scope) : ∀ a : Assignment, Yields Nests (a.lower s)
  | ⟨column, value⟩ => by
    rw [Assignment.lower]
    exact Statement.assignment_nests (Term.lowerColumn_nests s column)
      (Term.lower_nests s.quiet value)

theorem Conflict.lower_nests (s : Scope) : ∀ c : Conflict, Yields Nests (c.lower s)
  | ⟨targets, targetFilter, handler, assignments, updateFilter⟩ => by
    rw [Conflict.lower]
    exact Statement.conflictClause_nests s.dialect
      { targets := Term.lowerColumns_nest s targets
        targetFilter := Condition.lower_nests s.quiet targetFilter
        assignments := Assignment.lowerAll_nest (s.qualifying true) assignments
        updateFilter := Condition.lower_nests (s.qualifying true).quiet updateFilter } _

theorem Query.lower_placed (s : Scope) : ∀ q : Query,
    Yields (Statement.Placed s q.info.id q.info.alias? q.isBlank States) (q.lower s)
  | ⟨info, commonTables, sources, selects, distinctOn, joins, filter, groupBy, having, orderBy,
      columns, rows, conflict, duplicateUpdates, assignments, returning⟩ => by
    rw [Query.lower]
    refine iteInduction (fun h => .ok (.inl ⟨h, rfl⟩)) fun hblank => ?_
    refine Yields.bind (Statement.whole_states _
      { commonTables := CommonTable.lowerAll_nest _ commonTables
        sources := Source.lowerAll_nest _ sources
        selects := Term.lowerAll_nest _ selects
        distinctOn := Term.lowerAll_nest _ distinctOn
        joins := Join.lowerAll_nest _ joins
        filter := Condition.lower_nests _ filter
        groupBy := Term.lowerAllNamed_nest _ _ groupBy
        having := Condition.lower_nests _ having
        orderBy := OrderItem.lowerAll_nest _ _ orderBy
        columns := Term.lowerColumns_nest _ columns
        rows := Term.lowerRows_nest _ rows
        conflict := ?_
        duplicateUpdates := Assignment.lowerAll_nest _ duplicateUpdates
        assignments := Assignment.lowerAll_nest _ assignments
        returning := Term.lowerAll_nest _ returning }) fun body h =>
      .pure (.inr ⟨Bool.eq_false_iff.mpr hblank, body, h, rfl⟩)
    cases conflict with
    | none => exact .ok .nil
    | some c => exact Conflict.lower_nests _ c

theorem Compound.lower_placed (s : Scope) : ∀ c : Compound,
    Yields (Statement.Placed s c.id c.alias? false fun ts =>
      Nests ts ∧ (c.operands ≠ [] → States ts)) (c.lower s)
  | ⟨id, base, operands, orderBy, limit, offset, alias?⟩ => by
    have hoperands := Operand.lowerAll_states s.operands base.selectCount operands
    rw [Compound.lower]
    refine Yields.bind (Statement.compound_states s.dialect _ limit offset
      ((Query.lower_placed s.operands base).mono fun _ h => h.nests fun _ h => h.nests)
      (hoperands.mono fun _ h => h.2)
      (OrderItem.lowerAll_nest s.standalone _ orderBy)) fun body h =>
        .pure (.inr ⟨rfl, body, ⟨h.1, fun hne => h.2 fun l hl => ?_⟩, rfl⟩)
    -- An operand always has tokens, so that there are none only where there is no operand.
    exact fun hnil => hne ((hoperands l hl).1 hnil)

theorem Term.lowerAll_nest (s : Scope) : ∀ ts : List Term, Yields AllNest (Term.lowerAll s ts)
  | [] => by
    rw [Term.lowerAll]
    exact .none
  | t :: ts => by
    rw [Term.lowerAll]
    exact .cons (Term.lower_nests s t) (Term.lowerAll_nest s ts)

theorem Term.lowerAllNamed_nest (s : Scope) (names : List String) :
    ∀ ts : List Term, Yields AllNest (Term.lowerAllNamed s names ts)
  | [] => by
    rw [Term.lowerAllNamed]
    exact .none
  | ⟨expr, alias?⟩ :: ts => by
    have hexpr := Expr.lower_nests s expr
    have hrest := Term.lowerAllNamed_nest s names ts
    rw [Term.lowerAllNamed]
    split
    · exact .cons (.ok (.cons rfl trivial .nil)) hrest
    · exact .cons hexpr hrest

theorem Term.lowerColumns_nest (s : Scope) :
    ∀ ts : List Term, Yields AllNest (Term.lowerColumns s ts)
  | [] => by
    rw [Term.lowerColumns]
    exact .none
  | t :: ts => by
    rw [Term.lowerColumns]
    exact .cons (Term.lowerColumn_nests s t) (Term.lowerColumns_nest s ts)

theorem Term.lowerRows_nest (s : Scope) :
    ∀ rows : List (List Term), Yields AllNest (Term.lowerRows s rows)
  | [] => by
    rw [Term.lowerRows]
    exact .none
  | row :: rows => by
    rw [Term.lowerRows]
    exact (Term.lowerAll_nest s row).bind fun _ hrow => (Term.lowerRows_nest s rows).bind
      fun _ hrows => .pure (List.forall_mem_cons.mpr ⟨(Shows.listed hrow trivial).parens, hrows⟩)

theorem OrderItem.lowerAll_nest (s : Scope) (names : List String) :
    ∀ items : List OrderItem, Yields AllNest (OrderItem.lowerAll s names items)
  | [] => by
    rw [OrderItem.lowerAll]
    exact .none
  | ⟨⟨expr, alias?⟩, order⟩ :: items => by
    have hexpr := Expr.lower_nests s expr
    have hrest := OrderItem.lowerAll_nest s names items
    have hitem : ∀ {t : Lowered}, Yields Nests t → Yields AllNest (t >>= fun t =>
        OrderItem.lowerAll s names items >>= fun rest =>
          Pure.pure ((t ++ Tokens.direction order) :: rest)) :=
      fun ht => ht.bind fun _ ht => hrest.bind fun _ hrest =>
        .pure (List.forall_mem_cons.mpr ⟨ht.append (direction_nests order), hrest⟩)
    rw [OrderItem.lowerAll]
    split
    · exact hitem (.ok (.cons rfl trivial .nil))
    · exact hitem hexpr

theorem Branch.lowerAll_nest (s : Scope) :
    ∀ branches : List Branch, Yields AllNest (Branch.lowerAll s branches)
  | [] => by
    rw [Branch.lowerAll]
    exact .none
  | ⟨condition, result⟩ :: branches => by
    rw [Branch.lowerAll]
    exact .cons (Clause.branch_nests (Condition.lower_nests s condition)
      (Term.lower_nests s result)) (Branch.lowerAll_nest s branches)

theorem Source.lowerAll_nest (s : Scope) :
    ∀ sources : List Source, Yields AllNest (Source.lowerAll s sources)
  | [] => by
    rw [Source.lowerAll]
    exact .none
  | source :: sources => by
    rw [Source.lowerAll]
    exact .cons (Source.lower_nests s source) (Source.lowerAll_nest s sources)

theorem Join.lowerAll_nest (s : Scope) :
    ∀ joins : List Join, Yields AllNest (Join.lowerAll s joins)
  | [] => by
    rw [Join.lowerAll]
    exact .none
  | j :: joins => by
    rw [Join.lowerAll]
    exact .cons (Join.lower_nests s j) (Join.lowerAll_nest s joins)

theorem CommonTable.lowerAll_nest (s : Scope) :
    ∀ tables : List CommonTable, Yields AllNest (CommonTable.lowerAll s tables)
  | [] => by
    rw [CommonTable.lowerAll]
    exact .none
  | t :: ts => by
    rw [CommonTable.lowerAll]
    exact .cons (CommonTable.lower_nests s t) (CommonTable.lowerAll_nest s ts)

theorem Assignment.lowerAll_nest (s : Scope) :
    ∀ assignments : List Assignment, Yields AllNest (Assignment.lowerAll s assignments)
  | [] => by
    rw [Assignment.lowerAll]
    exact .none
  | a :: as => by
    rw [Assignment.lowerAll]
    exact .cons (Assignment.lower_nests s a) (Assignment.lowerAll_nest s as)

theorem Operand.lowerAll_states (s : Scope) (width : Nat) : ∀ operands : List Operand,
    Yields (fun l => (l = [] → operands = []) ∧ ∀ ts ∈ l, States ts)
      (Operand.lowerAll s width operands)
  | [] => by
    rw [Operand.lowerAll]
    exact .ok ⟨fun _ => rfl, nofun⟩
  | ⟨op, query⟩ :: operands => by
    rw [Operand.lowerAll]
    exact (Statement.operand_states op width _ ((Query.lower_placed s query).mono
      fun _ h => h.nests fun _ h => h.nests)).bind fun _ ho =>
        (Operand.lowerAll_states s width operands).bind fun _ hl =>
          .pure ⟨nofun, List.forall_mem_cons.mpr ⟨ho, hl.2⟩⟩

end

/-- The brackets of a query fit. -/
theorem Query.lower_nests (s : Scope) (q : Query) : Yields Nests (q.lower s) :=
  (Query.lower_placed s q).mono fun _ h => h.nests fun _ h => h.nests

/-- The brackets of a set operation fit. -/
theorem Compound.lower_nests (s : Scope) (c : Compound) : Yields Nests (c.lower s) :=
  (Compound.lower_placed s c).mono fun _ h => h.nests fun _ h => h.1

end SqlScribe
