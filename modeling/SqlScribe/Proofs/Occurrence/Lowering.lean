import SqlScribe.Proofs.Masking.Lowering
import SqlScribe.Proofs.Occurrence.Syntax
/-! # Tokens of occurrences

What stands in an occurrence is written in it as it is: its tokens stand among those around it.

* `Tokens.Contains`: the tokens of occurrences stand within others in one piece each.
* `Expr.lower_contains`, `Condition.lower_contains`, `Query.lower_contains` and their like: what
  stands in a piece of syntax directly.
* `Occurrence.Within.holds`: what stands in it at any depth. -/

namespace SqlScribe

open Tokens

/-! ## Lists

Each list of syntax is lowered item by item. -/

namespace Tokens

/-- The occurrences have tokens, and those of each stand within others in one piece. -/
def Contains (parts : List Occurrence) (ts : Tokens) : Prop := ∀ b ∈ parts, Holds b.lower ts

variable {ts us : Tokens} {l m : List Occurrence} {b : Occurrence}

@[simp] theorem contains_nil : Contains [] ts := by simp [Contains]

@[simp] theorem contains_cons : Contains (b :: l) ts ↔ Holds b.lower ts ∧ Contains l ts := by
  simp [Contains]

@[simp] theorem contains_append :
    Contains (l ++ m) ts ↔ Contains l ts ∧ Contains m ts := by
  simp [Contains, or_imp, forall_and]

theorem contains_map {α : Type} {f : α → Occurrence} {l : List α} :
    Contains (l.map f) ts ↔ ∀ a ∈ l, Holds (f a).lower ts := by
  simp [Contains]

theorem contains_flatMap {α : Type} {f : α → List Occurrence} {l : List α} :
    Contains (l.flatMap f) ts ↔ ∀ a ∈ l, Contains (f a) ts := by
  simp only [Contains, List.mem_flatMap]
  exact ⟨fun h a ha b hb => h b ⟨a, ha, hb⟩, fun h b hb => hb.elim fun a ha => h a ha.1 b ha.2⟩

theorem Contains.mono (h : Contains l ts) (hts : ts <:+: us) : Contains l us :=
  fun b hb => (h b hb).mono hts

/-- A list that is lowered item by item has the tokens of each of its items. -/
theorem exists_mem_of_lowered {α : Type} {f : α → Lowered} {g : List α → LoweredList}
    (hcons : ∀ a l, g (a :: l) = do let t ← f a; let ts ← g l; return t :: ts)
    {l : List α} {us : List Tokens} (h : g l = .ok us) {a : α} (ha : a ∈ l) :
    ∃ t ∈ us, f a = .ok t := by
  induction l generalizing us with
  | nil => cases ha
  | cons b l ih =>
    -- The list is lowered, so its first item and the others are.
    rw [hcons] at h
    obtain ⟨t, ht⟩ : ∃ t, f b = .ok t := by
      cases hb : f b with
      | error e => rw [hb] at h; cases h
      | ok t => exact ⟨t, rfl⟩
    obtain ⟨rest, hrest⟩ : ∃ rest, g l = .ok rest := by
      cases hl : g l with
      | error e => rw [ht, hl] at h; cases h
      | ok rest => exact ⟨rest, rfl⟩
    rw [ht, hrest] at h
    cases h
    rcases List.mem_cons.mp ha with rfl | ha
    · exact ⟨t, List.mem_cons_self, ht⟩
    · obtain ⟨u, hu, hf⟩ := ih hrest ha
      exact ⟨u, List.mem_cons_of_mem t hu, hf⟩

/-- A list that is lowered item by item holds its items. -/
theorem HoldsAll.of_mem {α : Type} {f : α → Lowered} {g : List α → LoweredList}
    (hcons : ∀ a l, g (a :: l) = do let t ← f a; let ts ← g l; return t :: ts)
    {l : List α} (h : HoldsAll (g l) ts) {a : α} (ha : a ∈ l) : Holds (f a) ts := by
  obtain ⟨us, hg, hus⟩ := h
  obtain ⟨t, ht, hf⟩ := exists_mem_of_lowered hcons hg ha
  exact ⟨t, hf, hus t ht⟩

/-- What is there has the property that its tokens have. -/
theorem Holds.yields {x : Lowered} {p : Tokens → Prop} (h : Holds x ts) (hx : Yields p x) :
    ∃ us, p us ∧ us <:+: ts := by
  obtain ⟨us, hus, hsub⟩ := h
  exact ⟨us, hx us hus, hsub⟩

/-- A part of what is there is there. -/
theorem Holds.of_bind {x : Lowered} {dress : Tokens → Tokens} (hdress : ∀ ts, ts <:+: dress ts)
    (h : Holds (x >>= fun t => pure (dress t)) ts) : Holds x ts := by
  obtain ⟨us, hx, hus⟩ := h
  cases x with
  | error e => cases hx
  | ok t =>
    cases hx
    exact ⟨t, rfl, (hdress t).trans hus⟩

/-- The items of what is there are there. -/
theorem HoldsAll.of_bind {x : LoweredList} {dress : List Tokens → Tokens}
    (hdress : ∀ l : List Tokens, ∀ ts ∈ l, ts <:+: dress l)
    (h : Holds (x >>= fun l => pure (dress l)) ts) : HoldsAll x ts := by
  obtain ⟨us, hx, hus⟩ := h
  cases x with
  | error e => cases hx
  | ok l =>
    cases hx
    exact ⟨l, rfl, fun vs hvs => (hdress l vs hvs).trans hus⟩

end Tokens

/-! The equations of the lists whose items are taken apart. -/

section Equations

variable (s : Scope)

theorem Term.lowerAllNamed_cons (names : List String) (t : Term) (ts : List Term) :
    Term.lowerAllNamed s names (t :: ts) = do
      let us ← (t.alias?.filter names.contains).elim (t.expr.lower s) fun a => .ok [.aliasName a]
      let l ← Term.lowerAllNamed s names ts
      return us :: l := by
  obtain ⟨expr, alias?⟩ := t
  rw [Term.lowerAllNamed]
  cases alias?.filter names.contains <;> rfl

theorem OrderItem.lowerAll_cons (names : List String) (i : OrderItem) (items : List OrderItem) :
    OrderItem.lowerAll s names (i :: items) = do
      let us ← (i.term.alias?.filter names.contains).elim (i.term.expr.lower s)
        (fun a => .ok [.aliasName a]) >>= fun t => pure (t ++ Tokens.direction i.order)
      let l ← OrderItem.lowerAll s names items
      return us :: l := by
  obtain ⟨⟨expr, alias?⟩, order⟩ := i
  rw [OrderItem.lowerAll]
  cases alias?.filter names.contains with
  | none => simp only [bind_assoc, pure_bind, Option.elim_none]
  | some a => rfl

theorem Term.lowerRows_cons (row : List Term) (rows : List (List Term)) :
    Term.lowerRows s (row :: rows) = do
      let us ← Term.lowerAll s row >>= fun row => pure (Tokens.parens (Tokens.listed row))
      let l ← Term.lowerRows s rows
      return us :: l := by
  rw [Term.lowerRows]
  simp only [bind_assoc, pure_bind]

theorem Operand.lowerAll_cons (width : Nat) (o : Operand) (operands : List Operand) :
    Operand.lowerAll s width (o :: operands) = do
      let us ← Statement.operand o.operator width o.query.selectCount (o.query.lower s)
      let l ← Operand.lowerAll s width operands
      return us :: l := by
  cases o
  rw [Operand.lowerAll]

theorem Branch.lowerAll_cons (b : Branch) (branches : List Branch) :
    Branch.lowerAll s (b :: branches) = do
      let us ← Clause.branch (b.condition.lower s) (b.result.lower s)
      let l ← Branch.lowerAll s branches
      return us :: l := by
  cases b
  rw [Branch.lowerAll]

end Equations

section Lists

variable {s : Scope} {us : Tokens}

theorem Term.holds_lowerAll {ts : List Term} (h : HoldsAll (Term.lowerAll s ts) us) :
    Contains (Term.occurrences s ts) us := by
  intro b hb
  obtain ⟨t, ht, rfl⟩ := List.mem_map.mp hb
  exact h.of_mem (fun t ts => by rw [Term.lowerAll]) ht

/-- The arguments that a call writes are lowered as all of them are. -/
theorem Term.lowerAll_taken {form : CallForm} {args : List Term} {l : List Tokens}
    (h : Term.lowerAll s args = .ok l) :
    Term.lowerAll s (form.taken args) = .ok (form.taken l) := by
  have hfirst : Term.lowerAll s (args.take 1) = .ok (l.take 1) := by
    cases args with
    | nil =>
      cases h
      rfl
    | cons t args =>
      rw [Term.lowerAll] at h
      cases ht : t.lower s with
      | error e => rw [ht] at h; cases h
      | ok us =>
        cases hargs : Term.lowerAll s args with
        | error e => rw [ht, hargs] at h; cases h
        | ok rest =>
          rw [ht, hargs] at h
          cases h
          rw [List.take_succ_cons, List.take_zero, Term.lowerAll, ht]
          rfl
  cases form with
  | plain => exact h
  | bare => rfl
  | cast type => exact hfirst
  | convert charset => exact hfirst
  | extract part => exact hfirst

theorem Term.holds_lowerAllNamed {names : List String} {ts : List Term}
    (h : HoldsAll (Term.lowerAllNamed s names ts) us) :
    Contains ((ts.filter fun t => (t.alias?.filter names.contains).isNone).map
      (⟨s, .expr ·.expr⟩)) us := by
  intro b hb
  obtain ⟨t, ht, rfl⟩ := List.mem_map.mp hb
  obtain ⟨hmem, hnone⟩ := List.mem_filter.mp ht
  have hitem := h.of_mem (Term.lowerAllNamed_cons s names) hmem
  rw [Option.isNone_iff_eq_none.mp hnone] at hitem
  exact hitem

theorem OrderItem.holds_lowerAll {names : List String} {items : List OrderItem}
    (h : HoldsAll (OrderItem.lowerAll s names items) us) :
    Contains (OrderItem.occurrences s names items) us := by
  intro b hb
  obtain ⟨i, hi, rfl⟩ := List.mem_map.mp hb
  obtain ⟨hmem, hnone⟩ := List.mem_filter.mp hi
  have hitem := h.of_mem (OrderItem.lowerAll_cons s names) hmem
  rw [Option.isNone_iff_eq_none.mp hnone] at hitem
  exact hitem.of_bind fun _ => List.infix_append_left

theorem Term.holds_lowerColumns {ts : List Term} (h : HoldsAll (Term.lowerColumns s ts) us) :
    ∀ t ∈ ts, Holds (t.lowerColumn s) us :=
  fun _ ht => h.of_mem (fun t ts => by rw [Term.lowerColumns]) ht

theorem Term.holds_lowerRows {rows : List (List Term)} (h : HoldsAll (Term.lowerRows s rows) us) :
    Contains (rows.flatMap (Term.occurrences s)) us := by
  intro b hb
  obtain ⟨row, hrow, hb⟩ := List.mem_flatMap.mp hb
  have hitem := h.of_mem (Term.lowerRows_cons s) hrow
  exact Term.holds_lowerAll
    (HoldsAll.of_bind (fun _ _ hts => (infix_listed hts).trans (infix_parens _)) hitem) b hb

theorem Source.holds_lowerAll {sources : List Source}
    (h : HoldsAll (Source.lowerAll s sources) us) : ∀ x ∈ sources, Holds (x.lower s) us :=
  fun _ hx => h.of_mem (fun x l => by rw [Source.lowerAll]) hx

theorem Join.holds_lowerAll {joins : List Join} (h : HoldsAll (Join.lowerAll s joins) us) :
    ∀ j ∈ joins, Holds (j.lower s) us :=
  fun _ hj => h.of_mem (fun j l => by rw [Join.lowerAll]) hj

theorem CommonTable.holds_lowerAll {tables : List CommonTable}
    (h : HoldsAll (CommonTable.lowerAll s tables) us) : ∀ t ∈ tables, Holds (t.lower s) us :=
  fun _ ht => h.of_mem (fun t l => by rw [CommonTable.lowerAll]) ht

theorem Assignment.holds_lowerAll {assignments : List Assignment}
    (h : HoldsAll (Assignment.lowerAll s assignments) us) :
    ∀ a ∈ assignments, Holds (a.lower s) us :=
  fun _ ha => h.of_mem (fun a l => by rw [Assignment.lowerAll]) ha

theorem Operand.holds_lowerAll {width : Nat} {operands : List Operand}
    (h : HoldsAll (Operand.lowerAll s width operands) us) : ∀ o ∈ operands,
      Holds (Statement.operand o.operator width o.query.selectCount (o.query.lower s)) us :=
  fun _ ho => h.of_mem (Operand.lowerAll_cons s width) ho

theorem Branch.holds_lowerAll {branches : List Branch}
    (h : HoldsAll (Branch.lowerAll s branches) us) :
    Contains (branches.flatMap fun b => [⟨s, .condition b.condition⟩, ⟨s, .term b.result⟩]) us := by
  intro b hb
  obtain ⟨branch, hmem, hb⟩ := List.mem_flatMap.mp hb
  have hitem := h.of_mem (Branch.lowerAll_cons s) hmem
  obtain ⟨ts, ⟨hcondition, hresult⟩, hsub⟩ := hitem.yields Clause.branch_holds
  simp only [List.mem_cons, List.not_mem_nil, or_false] at hb
  rcases hb with rfl | rfl
  · exact hcondition.mono hsub
  · exact hresult.mono hsub

end Lists

/-! ## Syntax -/

section Syntax

variable (s : Scope)

theorem Expr.lower_contains (e : Expr) : Yields (Contains (e.parts s)) (e.lower s) := by
  cases e with
  | tuple items =>
    rw [lower]
    exact (Yields.self _).bind fun l hl => .pure (Term.holds_lowerAll
      ⟨l, hl, fun us hus => (infix_listed hus).trans (infix_parens _)⟩)
  | array items =>
    rw [lower]
    refine (Clause.array_holds _ _).mono fun ts h => ?_
    cases items with
    | nil => exact contains_nil
    | cons t items => exact Term.holds_lowerAll (h rfl)
  | arithmetic op left right =>
    rw [lower]
    refine (Clause.arithmetic_holds op _ _).mono fun ts h => ?_
    simpa [parts, Term.occurrences] using h
  | negative t =>
    rw [lower]
    refine (Clause.negative_holds _).mono fun ts h => ?_
    simpa [parts, Term.occurrences] using h
  | call c =>
    rw [lower]
    refine (Yields.self _).mono fun ts h => ?_
    simpa [parts] using ⟨ts, h, List.infix_rfl⟩
  | case branches otherwise =>
    cases otherwise with
    | none =>
      rw [lower]
      refine iteInduction (fun _ => .error _) fun _ => ?_
      refine (Clause.choice_holds _).mono fun ts h => ?_
      simpa [parts, Term.occurrences] using Branch.holds_lowerAll h.1
    | some t =>
      rw [lower]
      refine iteInduction (fun _ => .error _) fun _ => ?_
      refine (Clause.choice_holds _).mono fun ts h => ?_
      rw [parts, contains_append]
      exact ⟨Branch.holds_lowerAll h.1, by simpa [Term.occurrences] using h.2⟩
  | subquery q =>
    rw [lower]
    refine (Yields.self _).mono fun ts h => ?_
    simpa [parts] using ⟨ts, h, List.infix_rfl⟩
  | condition c =>
    rw [lower]
    refine (Yields.self _).mono fun ts h => ?_
    simpa [parts] using ⟨ts, h, List.infix_rfl⟩
  | field _ _ => exact fun _ _ => contains_nil
  | star _ => exact fun _ _ => contains_nil
  | value _ => exact fun _ _ => contains_nil
  | named _ _ => exact fun _ _ => contains_nil
  | null => exact fun _ _ => contains_nil
  | parameter _ => exact fun _ _ => contains_nil
  | raw _ => exact fun _ _ => contains_nil
  | interval _ => exact fun _ _ => contains_nil

theorem Call.lower_contains (c : Call) : Yields (Contains (c.parts s)) (c.lower s) := by
  obtain ⟨name, form, aggregate, distinct, ignoreNulls, args, filter, window⟩ := c
  -- A call that takes no arguments is written without any.
  have hargs : ∀ {ts : Tokens}, Holds (Clause.invoked name form distinct ignoreNulls
      (Term.lowerAll s.quiet args)) ts →
      Contains (Term.occurrences s.quiet (form.taken args)) ts := by
    intro ts h
    obtain ⟨us, hus, hsub⟩ := h.yields (Clause.invoked_holds name form distinct ignoreNulls)
    by_cases hbare : form = .bare
    · rw [hbare]
      exact contains_nil
    · obtain ⟨l, hl, hmem⟩ := hus hbare
      exact Term.holds_lowerAll
        ⟨form.taken l, Term.lowerAll_taken hl, fun vs hvs => (hmem vs hvs).trans hsub⟩
  cases filter with
  | none =>
    cases window with
    | none =>
      rw [lower]
      refine (Clause.call_holds none none).mono fun ts h => ?_
      simpa [parts] using hargs h.1
    | some w =>
      rw [lower]
      refine (Clause.call_holds none (some (w.lower s))).mono fun ts h => ?_
      simpa [parts] using ⟨hargs h.1, h.2.2 _ rfl⟩
  | some c =>
    cases window with
    | none =>
      rw [lower]
      refine (Clause.call_holds (some (c.lower s.quiet)) none).mono fun ts h => ?_
      simpa [parts] using ⟨hargs h.1, h.2.1 _ rfl⟩
    | some w =>
      rw [lower]
      refine (Clause.call_holds (some (c.lower s.quiet)) (some (w.lower s))).mono fun ts h => ?_
      simpa [parts, and_assoc] using ⟨hargs h.1, h.2.1 _ rfl, h.2.2 _ rfl⟩

theorem Window.lower_contains (w : Window) : Yields (Contains (w.parts s)) (w.lower s) := by
  obtain ⟨partitionBy, orderBy, frame⟩ := w
  rw [lower]
  refine (Clause.window_holds frame).mono fun ts h => ?_
  rw [parts, contains_append]
  exact ⟨Term.holds_lowerAll h.1, OrderItem.holds_lowerAll h.2⟩

theorem Condition.lower_contains (c : Condition) :
    Yields (Contains (c.parts s)) (c.lower s) := by
  cases c with
  | empty => exact fun _ _ => contains_nil
  | compare op left right =>
    rw [lower]
    refine (Clause.comparison_holds op _).mono fun ts h => ?_
    simpa [parts, Term.occurrences] using h
  | «matches» op negated t pattern escape =>
    rw [lower]
    refine (Clause.matching_holds s.dialect op negated escape).mono fun ts h => ?_
    simpa [parts, Term.occurrences] using h
  | json op left right =>
    rw [lower]
    refine (Clause.json_holds s.dialect op).mono fun ts h => ?_
    simpa [parts, Term.occurrences] using h
  | search op t value =>
    rw [lower]
    refine (Clause.search_holds s.dialect op).mono fun ts h => ?_
    simpa [parts, Term.occurrences] using h
  | isNull negated t =>
    rw [lower]
    refine (Clause.isNull_holds negated).mono fun ts h => ?_
    simpa [parts, Term.occurrences] using h
  | isIn negated t items =>
    rw [lower]
    refine (Clause.isIn_holds negated _).mono fun ts h => ?_
    cases items with
    | nil => exact contains_nil
    | cons item items =>
      obtain ⟨ht, hitems⟩ := h rfl
      exact contains_cons.mpr ⟨ht, Term.holds_lowerAll hitems⟩
  | isInRows negated t rows =>
    rw [lower]
    refine (Clause.isInRows_holds negated).mono fun ts h => ?_
    simpa [parts] using h
  | between negated t low high =>
    rw [lower]
    refine (Clause.between_holds negated).mono fun ts h => ?_
    simpa [parts, Term.occurrences] using h
  | hasRows negated rows =>
    rw [lower]
    refine (Clause.hasRows_holds negated).mono fun ts h => ?_
    simpa [parts] using h
  | combined op left right =>
    rw [lower]
    refine (Clause.combined_holds op _ _).mono fun ts h => ?_
    simpa [parts] using h
  | not c =>
    rw [lower]
    refine (Clause.negated_holds _).mono fun ts h => ?_
    simpa [parts] using h
  | term t =>
    rw [lower]
    refine (Yields.self _).mono fun ts h => ?_
    simpa [parts] using ⟨ts, h, List.infix_rfl⟩

theorem Compound.lower_contains (c : Compound) : Yields (Contains (c.parts s)) (c.lower s) := by
  obtain ⟨id, base, operands, orderBy, limit, offset, alias?⟩ := c
  rw [lower]
  refine (Statement.compound_holds s.dialect _ _ _ _ limit offset).bind fun ts h => .pure ?_
  refine Contains.mono ?_ (Statement.infix_placed s id alias? ts)
  rw [parts, List.cons_append, contains_cons, contains_append]
  refine ⟨h.1, fun b hb => ?_, OrderItem.holds_lowerAll h.2.2⟩
  obtain ⟨o, ho, rfl⟩ := List.mem_map.mp hb
  obtain ⟨us, hus, hsub⟩ := (Operand.holds_lowerAll h.2.1 o ho).yields
    (Statement.operand_holds o.operator base.selectCount o.query.selectCount)
  exact hus.mono hsub

end Syntax

/-! ## Queries -/

section Queries

variable {s : Scope} {us : Tokens}

theorem Source.holds_lower {x : Source} (h : Holds (x.lower s) us) :
    Contains (x.parts s) us := by
  cases x with
  | table t => exact contains_nil
  | subquery q =>
    rw [lower] at h
    simpa [parts] using h

theorem Term.holds_lowerColumn {t : Term} (h : Holds (t.lowerColumn s) us) :
    Contains (t.columnParts s) us := by
  obtain ⟨expr, alias?⟩ := t
  cases expr with
  | field q name => exact contains_nil
  | _ => exact contains_cons.mpr ⟨h, contains_nil⟩

theorem Assignment.holds_lower {a : Assignment} (h : Holds (a.lower s) us) :
    Contains (a.column.columnParts s) us ∧ Holds (a.value.lower s.quiet) us := by
  obtain ⟨column, value⟩ := a
  rw [lower] at h
  obtain ⟨ts, ⟨hcolumn, hvalue⟩, hsub⟩ := h.yields Statement.assignment_holds
  exact ⟨(Term.holds_lowerColumn hcolumn).mono hsub, hvalue.mono hsub⟩

theorem Join.holds_lower {j : Join} (h : Holds (j.lower s) us) :
    Holds (j.source.lower s) us ∧ Holds (j.condition.lower s) us := by
  obtain ⟨kind, source, condition⟩ := j
  rw [lower] at h
  obtain ⟨ts, ⟨hsource, hcondition⟩, hsub⟩ := h.yields (Statement.join_holds kind)
  exact ⟨hsource.mono hsub, hcondition.mono hsub⟩

theorem JoinCondition.holds_lower {c : JoinCondition} (h : Holds (c.lower s) us) :
    Contains (c.parts s) us := by
  cases c with
  | all => exact contains_nil
  | sharing columns => exact contains_nil
  | on c =>
    rw [lower] at h
    simpa [parts] using h.of_bind fun _ => List.infix_append_right

/-- What stands in a conflict clause that is written. -/
theorem Conflict.holds_lower {c : Conflict} (h : Holds (c.lower s) us) :
    ∃ ts, Statement.ConflictParts.Written
      { targets := Term.lowerColumns s c.targets
        targetFilter := c.targetFilter.lower s.quiet
        assignments := Assignment.lowerAll (s.qualifying true) c.assignments
        updateFilter := c.updateFilter.lower (s.qualifying true).quiet } c ts ∧ ts <:+: us := by
  obtain ⟨targets, targetFilter, handler, assignments, updateFilter⟩ := c
  rw [lower] at h
  exact h.yields (Statement.conflictClause_writes s.dialect _ _)

/-- A condition that is written unless there is none stands in what is written. -/
theorem Condition.holds_of_isEmpty {c : Condition} (h : c.isEmpty = false → Holds (c.lower s) us) :
    Holds (c.lower s) us := by
  cases hc : c.isEmpty with
  | false => exact h hc
  | true =>
    cases c with
    | empty => exact ⟨[], rfl, List.nil_infix⟩
    | _ => cases hc

variable {q : Query}

theorem Query.holds_conflict {c : Conflict} (h : (q.parts s).Written q us)
    (hq : q.insertsRows = true) (hc : q.conflict = some c) : Holds (c.lower s) us := by
  have hconflict := h.conflict hq
  simp only [parts, hc] at hconflict
  exact hconflict

/-- What stands in a clause that a statement writes stands in its tokens. -/
theorem Query.contains_clauseParts {c : QueryClause} (h : (q.parts s).Written q us)
    (hc : q.writes c = true) : Contains (q.clauseParts s c) us := by
  cases c with
  | commonTables =>
    intro b hb
    obtain ⟨t, ht, rfl⟩ := List.mem_map.mp hb
    have hlower := CommonTable.holds_lowerAll h.commonTables t ht
    obtain ⟨name, columns, recursive, body⟩ := t
    rw [CommonTable.lower] at hlower
    obtain ⟨ts, hbody, hsub⟩ := hlower.yields (Statement.commonTable_holds name columns)
    simpa using hbody.mono hsub
  | sources =>
    exact contains_flatMap.mpr fun x hx =>
      Source.holds_lower (Source.holds_lowerAll (h.reading hc).sources x hx)
  | joined =>
    exact contains_flatMap.mpr fun j hj =>
      Source.holds_lower (Join.holds_lower (Join.holds_lowerAll (h.reading hc).joins j hj)).1
  | on =>
    exact contains_flatMap.mpr fun j hj => JoinCondition.holds_lower
      (Join.holds_lower (Join.holds_lowerAll (h.reading hc).joins j hj)).2
  | selectList => exact Term.holds_lowerAll (h.selecting hc).selects
  | distinctOn =>
    -- A clause that is left out when its list is empty holds nothing then.
    cases hnil : q.distinctOn with
    | nil => simp [clauseParts, hnil, Term.occurrences]
    | cons t ts =>
      exact Term.holds_lowerAll ((h.selecting hc).distinctOn (by simp [hnil]))
  | filter => simpa [clauseParts] using Condition.holds_of_isEmpty (h.reading hc).filter
  | groupBy => exact Term.holds_lowerAllNamed (h.selecting hc).groupBy
  | having => simpa [clauseParts] using Condition.holds_of_isEmpty (h.selecting hc).having
  | orderBy => exact OrderItem.holds_lowerAll (h.reading hc).orderBy
  | columns =>
    exact contains_flatMap.mpr fun t ht =>
      Term.holds_lowerColumn (Term.holds_lowerColumns (h.columns hc) t ht)
  | rows =>
    cases hnil : q.rows with
    | nil => simp [clauseParts, hnil]
    | cons row rows => exact Term.holds_lowerRows (h.rows hc (by simp [hnil]))
  | conflictTargets =>
    refine contains_flatMap.mpr fun c hmem => contains_flatMap.mpr fun t ht => ?_
    obtain ⟨hconflict, hhandler⟩ := Conflict.mem_handled hmem
    obtain ⟨ts, hts, hsub⟩ := Conflict.holds_lower (holds_conflict h hc hconflict)
    exact (Term.holds_lowerColumn (Term.holds_lowerColumns (hts.targets hhandler) t ht)).mono hsub
  | conflictFilter =>
    refine contains_map.mpr fun c hmem => ?_
    obtain ⟨hconflict, hhandler⟩ := Conflict.mem_handled hmem
    obtain ⟨ts, hts, hsub⟩ := Conflict.holds_lower (holds_conflict h hc hconflict)
    exact (Condition.holds_of_isEmpty (hts.targetFilter hhandler)).mono hsub
  | conflictColumns =>
    refine contains_flatMap.mpr fun c hmem => contains_flatMap.mpr fun a ha => ?_
    obtain ⟨hconflict, hhandler⟩ := Conflict.mem_updating hmem
    obtain ⟨ts, hts, hsub⟩ := Conflict.holds_lower (holds_conflict h hc hconflict)
    exact (Assignment.holds_lower
      (Assignment.holds_lowerAll (hts.assignments hhandler) a ha)).1.mono hsub
  | conflictSet =>
    refine contains_flatMap.mpr fun c hmem => contains_map.mpr fun a ha => ?_
    obtain ⟨hconflict, hhandler⟩ := Conflict.mem_updating hmem
    obtain ⟨ts, hts, hsub⟩ := Conflict.holds_lower (holds_conflict h hc hconflict)
    exact (Assignment.holds_lower
      (Assignment.holds_lowerAll (hts.assignments hhandler) a ha)).2.mono hsub
  | conflictWhere =>
    refine contains_map.mpr fun c hmem => ?_
    obtain ⟨hconflict, hhandler⟩ := Conflict.mem_updating hmem
    obtain ⟨ts, hts, hsub⟩ := Conflict.holds_lower (holds_conflict h hc hconflict)
    exact (Condition.holds_of_isEmpty (hts.updateFilter hhandler)).mono hsub
  | duplicateColumns =>
    refine contains_flatMap.mpr fun a ha => ?_
    have hupdates := h.duplicateUpdates hc (List.isEmpty_eq_false_iff_exists_mem.mpr ⟨a, ha⟩)
    exact (Assignment.holds_lower (Assignment.holds_lowerAll hupdates a ha)).1
  | duplicateSet =>
    refine contains_map.mpr fun a ha => ?_
    have hupdates := h.duplicateUpdates hc (List.isEmpty_eq_false_iff_exists_mem.mpr ⟨a, ha⟩)
    exact (Assignment.holds_lower (Assignment.holds_lowerAll hupdates a ha)).2
  | setColumns =>
    exact contains_flatMap.mpr fun a ha =>
      (Assignment.holds_lower (Assignment.holds_lowerAll (h.assignments hc) a ha)).1
  | set =>
    exact contains_map.mpr fun a ha =>
      (Assignment.holds_lower (Assignment.holds_lowerAll (h.assignments hc) a ha)).2
  | returning =>
    cases hnil : q.returning with
    | nil => simp [clauseParts, hnil, Term.occurrences]
    | cons t ts => exact Term.holds_lowerAll (h.returning hc (by simp [hnil]))

theorem Query.lower_contains (s : Scope) (q : Query) (c : QueryClause) :
    Yields (Contains (q.partsIn s c)) (q.lower s) := by
  rw [lower_eq, partsIn]
  cases q.isBlank with
  | true => exact fun _ _ => contains_nil
  | false =>
    refine (Statement.whole_writes (s.inside q) q (q.parts (s.inside q))).bind fun ts h => .pure ?_
    refine Contains.mono ?_ (Statement.infix_placed s q.info.id q.info.alias? ts)
    cases hc : q.writes c with
    | true => exact contains_clauseParts h hc
    | false => exact contains_nil

end Queries

/-! ## Occurrences -/

namespace Occurrence

variable {a b : Occurrence}

theorem Part.holds (h : Part a b) : Yields (Holds b.lower) a.lower := by
  obtain ⟨s, piece⟩ := a
  cases piece with
  | term t =>
    obtain ⟨expr, alias?⟩ := t
    cases h
    rw [lower_term, Term.lower]
    exact (Yields.self _).bind fun ts hts => .pure ⟨ts, hts, List.infix_append_left⟩
  | expr e => exact (e.lower_contains s).mono fun ts hts => hts b h
  | call c => exact (c.lower_contains s).mono fun ts hts => hts b h
  | window w => exact (w.lower_contains s).mono fun ts hts => hts b h
  | condition c => exact (c.lower_contains s).mono fun ts hts => hts b h
  | query q =>
    obtain ⟨c, hb⟩ := h
    exact (q.lower_contains s c).mono fun ts hts => hts b hb
  | compound c => exact (c.lower_contains s).mono fun ts hts => hts b h

/-- What stands in an occurrence that is written has tokens, and they stand in its tokens in one
piece. -/
theorem Within.holds (h : Within a b) : Yields (Holds b.lower) a.lower := by
  induction h with
  | refl => exact (Yields.self _).mono fun ts hts => ⟨ts, hts, List.infix_rfl⟩
  | tail _ hpart ih =>
    refine ih.mono fun ts hts => ?_
    obtain ⟨us, hus, hsub⟩ := hts.yields hpart.holds
    exact hus.mono hsub

end Occurrence

end SqlScribe
