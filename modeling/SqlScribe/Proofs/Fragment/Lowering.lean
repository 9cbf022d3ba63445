import SqlScribe.Proofs.Fragment.Statement
import SqlScribe.Proofs.Nesting.Syntax
import SqlScribe.Proofs.Occurrence.Induction
import SqlScribe.Proofs.Qualification.Column
/-! # Fragments in terms, conditions and queries

All that is written at some depth is made from plain tokens and from fragments, each of them added
by one occurrence.

* `Occurrence.Adds`: the fragments that an occurrence writes itself.
* `Expr.lower_made`, `Condition.lower_made`, `Query.lower_made` and their like: a piece of syntax is
  made from the fragments in its parts and from its own.
* `Occurrence.lower_made`: an occurrence is made from the fragments of what stands in it. -/

namespace SqlScribe

open Tokens Relation

/-- The items of a list that is lowered item by item have what each of them has by itself. -/
theorem Yields.lowered {α : Type} {f : α → Lowered} {g : List α → LoweredList}
    {r : Tokens → Prop} (hnil : g [] = .ok [])
    (hcons : ∀ a l, g (a :: l) = do let t ← f a; let ts ← g l; return t :: ts) {l : List α}
    (h : ∀ a ∈ l, Yields r (f a)) : Yields (∀ ts ∈ ·, r ts) (g l) := by
  induction l with
  | nil =>
    rw [hnil]
    exact .none
  | cons a l ih =>
    obtain ⟨ha, hl⟩ := List.forall_mem_cons.mp h
    rw [hcons]
    exact .cons ha (ih hl)

/-- What stands in an occurrence is made from fragments. -/
abbrev PartsMade (F : Tokens → Prop) (l : List Occurrence) : Prop :=
  ∀ b ∈ l, Yields (Made F) b.lower

variable {F : Tokens → Prop} {s : Scope}

/-- What an occurrence writes itself and is no plain token: the name of a column with its qualifier,
the schemas of the tables of a statement, its row window, the number of rows in front of its select
list, the limit of a change, and the bounds of a window frame. -/
inductive Occurrence.Adds : Occurrence → Tokens → Prop where
  | column {s : Scope} {e : Expr} {q : Qualifier} {tok : Token} (h : e.column? = some (q, tok)) :
    Adds ⟨s, .expr e⟩ (s.qualification (some q) ++ [tok])
  | schema {s : Scope} {q : Query} (part : String) : Adds ⟨s, .query q⟩ [.ident part, .mark .dot]
  | selected {s : Scope} {q : Query} (hblank : q.isBlank = false)
    (hselects : q.selectsRows = true) :
    Adds ⟨s, .query q⟩ (s.dialect.window q.info.limit (properOffset q.info.offset))
  | top {s : Scope} {q : Query} {t : Top} (hblank : q.isBlank = false)
    (hselects : q.selectsRows = true) (h : q.info.top = some t) :
    Adds ⟨s, .query q⟩ [countToken t.count]
  | changed {s : Scope} {q : Query} {n : UInt64} (hblank : q.isBlank = false)
    (hchange : q.info.action.isChange = true) (h : q.info.limit = some n) :
    Adds ⟨s, .query q⟩ (PaginationStyle.limitClause (countToken n))
  | result {s : Scope} {c : Compound} :
    Adds ⟨s, .compound c⟩ (s.dialect.window c.limit (properOffset c.offset))
  | bound {s : Scope} {w : Window} {f : Frame} {b : FrameBound} (hf : w.frame = some f)
    (hb : f.start = b ∨ f.stop = some b) : Adds ⟨s, .window w⟩ (Clause.frameBound b)

/-- A qualifier is written by a plain token and a dot, or not at all. -/
theorem Scope.qualification_cases (s : Scope) (q : Qualifier) :
    s.qualifier? q = none ∧ s.qualification (some q) = [] ∨
      ∃ t, s.qualifier? q = some t ∧ t.standsAlone = true ∧
        s.qualification (some q) = [t, .mark .dot] := by
  cases h : s.qualifier? q with
  | none => exact .inl ⟨rfl, by simp [qualification, h]⟩
  | some t =>
    refine .inr ⟨t, rfl, ?_, by simp [qualification, h]⟩
    cases q with
    | table u =>
      rw [qualifier?] at h
      split at h
      · cases h
        rfl
      · split at h <;> cases h
        rfl
    | subquery id alias? =>
      obtain ⟨name, -, rfl⟩ := Option.map_eq_some_iff.mp h
      rfl
    | raw text =>
      cases h
      rfl

theorem Expr.standsAlone_column {e : Expr} {q : Qualifier} {t : Token}
    (h : e.column? = some (q, t)) : t.standsAlone = true := by
  rcases Expr.name_column h with rfl | ⟨name, rfl⟩ <;> rfl

/-- A column is a fragment if it belongs to something, and a plain token otherwise. -/
theorem Scope.column_made (s : Scope) (q : Option Qualifier) {t : Token}
    (ht : t.standsAlone = true) (h : ∀ r ∈ q, F (s.qualification (some r) ++ [t])) :
    Made F (s.qualification q ++ [t]) := by
  cases q with
  | none => exact .one ht
  | some r => exact .fragment (h r rfl)

/-! ## Lists -/

section Lists

theorem Term.lowerAll_made {ts : List Term} (h : PartsMade F (Term.occurrences s ts)) :
    Yields (AllMade F) (Term.lowerAll s ts) :=
  .lowered (f := Term.lower s) (by rw [lowerAll]) (fun t ts => by rw [lowerAll]) fun t ht =>
    h ⟨s, .term t⟩ (List.mem_map_of_mem ht)

/-- The arguments that a call takes. -/
theorem Term.lowerAll_taken_made {form : CallForm} {args : List Term}
    (h : PartsMade F (Term.occurrences s (form.taken args))) :
    Yields (fun l => AllMade F (form.taken l)) (Term.lowerAll s args) :=
  fun l hl => Term.lowerAll_made h (form.taken l) (Term.lowerAll_taken hl)

theorem Term.lowerAllNamed_made {names : List String} {ts : List Term}
    (h : PartsMade F ((ts.filter fun t => (t.alias?.filter names.contains).isNone).map
      (⟨s, .expr ·.expr⟩))) : Yields (AllMade F) (Term.lowerAllNamed s names ts) := by
  refine .lowered (by rw [lowerAllNamed]) (Term.lowerAllNamed_cons s names) fun t ht => ?_
  cases hname : t.alias?.filter names.contains with
  | some a => exact .ok (.one rfl)
  | none => exact List.forall_mem_map.mp h t (List.mem_filter.mpr ⟨ht, by simp [hname]⟩)

theorem OrderItem.lowerAll_made {names : List String} {items : List OrderItem}
    (h : PartsMade F (OrderItem.occurrences s names items)) :
    Yields (AllMade F) (OrderItem.lowerAll s names items) := by
  refine .lowered (by rw [lowerAll]) (OrderItem.lowerAll_cons s names) fun i hi => ?_
  refine Yields.bind (p := Made F) ?_ fun t ht => .pure (ht.append (.direction i.order))
  cases hname : i.term.alias?.filter names.contains with
  | some a => exact .ok (.one rfl)
  | none => exact List.forall_mem_map.mp h i (List.mem_filter.mpr ⟨hi, by simp [hname]⟩)

theorem Term.lowerColumn_made {t : Term} (h : PartsMade F (t.columnParts s)) :
    Yields (Made F) (t.lowerColumn s) := by
  obtain ⟨expr, alias?⟩ := t
  cases expr with
  | field q name => exact .ok (.one rfl)
  | _ => exact h _ List.mem_cons_self

theorem Term.lowerColumns_made {ts : List Term}
    (h : PartsMade F (ts.flatMap (Term.columnParts s))) :
    Yields (AllMade F) (Term.lowerColumns s ts) :=
  .lowered (by rw [lowerColumns]) (fun t ts => by rw [lowerColumns]) fun t ht =>
    Term.lowerColumn_made (List.forall_mem_flatMap.mp h t ht)

theorem Term.lowerRows_made {rows : List (List Term)}
    (h : PartsMade F (rows.flatMap (Term.occurrences s))) :
    Yields (AllMade F) (Term.lowerRows s rows) :=
  .lowered (by rw [lowerRows]) (Term.lowerRows_cons s) fun row hrow =>
    (Term.lowerAll_made (List.forall_mem_flatMap.mp h row hrow)).bind fun _ hl =>
      .pure (Made.listed hl).parens

theorem Branch.lowerAll_made {branches : List Branch}
    (h : PartsMade F
      (branches.flatMap fun b => [⟨s, .condition b.condition⟩, ⟨s, .term b.result⟩])) :
    Yields (AllMade F) (Branch.lowerAll s branches) := by
  refine .lowered (by rw [lowerAll]) (Branch.lowerAll_cons s) fun b hb => ?_
  obtain ⟨hcondition, hresult⟩ := List.forall_mem_cons.mp (List.forall_mem_flatMap.mp h b hb)
  exact Clause.branch_made hcondition (hresult _ List.mem_cons_self)

theorem Assignment.lowerAll_made {assignments : List Assignment} {s' : Scope}
    (hs : s' = s.quiet)
    (hcolumns : PartsMade F (assignments.flatMap (Term.columnParts s ·.column)))
    (hvalues : PartsMade F (assignments.map (⟨s', .term ·.value⟩))) :
    Yields (AllMade F) (Assignment.lowerAll s assignments) := by
  subst hs
  refine .lowered (by rw [lowerAll]) (fun a as => by rw [lowerAll]) fun a ha => ?_
  have hcolumn := Term.lowerColumn_made (List.forall_mem_flatMap.mp hcolumns a ha)
  have hvalue := List.forall_mem_map.mp hvalues a ha
  obtain ⟨column, value⟩ := a
  rw [lower]
  exact Statement.assignment_made hcolumn hvalue

end Lists

/-! ## Syntax -/

section Syntax

theorem Expr.lower_made {e : Expr} (h : PartsMade F (e.parts s))
    (hown : ∀ ts, Occurrence.Adds ⟨s, .expr e⟩ ts → F ts) : Yields (Made F) (e.lower s) := by
  cases e with
  | field q name =>
    rw [lower]
    refine .ok (s.column_made q rfl fun r hr => hown _ (.column ?_))
    rw [Option.mem_def.mp hr]
    rfl
  | star q =>
    rw [lower]
    refine .ok (s.column_made q rfl fun r hr => hown _ (.column ?_))
    rw [Option.mem_def.mp hr]
    rfl
  | value v =>
    rw [lower]
    exact Clause.value_made v rfl
  | named name v =>
    rw [lower]
    exact Clause.value_made v rfl
  | null | parameter _ | raw _ | interval _ =>
    rw [lower]
    exact .ok (.one rfl)
  | tuple items =>
    rw [lower]
    exact (Term.lowerAll_made h).bind fun _ hl => .pure (Made.listed hl).parens
  | array items =>
    rw [lower]
    exact Clause.array_made _ _ (Term.lowerAll_made h)
  | arithmetic op left right =>
    obtain ⟨hl, hr⟩ := List.forall_mem_cons.mp h
    rw [lower]
    exact Clause.arithmetic_made op _ _ hl (hr _ List.mem_cons_self)
  | negative t =>
    rw [lower]
    exact Clause.negative_made _ (h _ List.mem_cons_self)
  | call c =>
    rw [lower]
    exact h _ List.mem_cons_self
  | case branches otherwise =>
    obtain ⟨hbranches, hrest⟩ := List.forall_mem_append.mp h
    rw [lower.eq_def]
    refine iteInduction (fun _ => .error _) fun _ => ?_
    refine Clause.choice_made (Branch.lowerAll_made hbranches) fun x hx => ?_
    cases otherwise with
    | none => cases hx
    | some t =>
      cases hx
      exact hrest _ List.mem_cons_self
  | subquery q =>
    have hq := h _ List.mem_cons_self
    rw [Occurrence.lower_piece] at hq
    rw [lower]
    exact hq
  | condition c =>
    rw [lower]
    exact h _ List.mem_cons_self

theorem Call.lower_made {c : Call} (h : PartsMade F (c.parts s)) :
    Yields (Made F) (c.lower s) := by
  obtain ⟨name, form, aggregate, distinct, ignoreNulls, args, filter, window⟩ := c
  obtain ⟨hhead, hwindow⟩ := List.forall_mem_append.mp h
  obtain ⟨hargs, hfilter⟩ := List.forall_mem_append.mp hhead
  have hinvoked := Clause.invoked_made name form distinct ignoreNulls
    (Term.lowerAll_taken_made hargs)
  rw [lower.eq_def]
  refine Clause.call_made hinvoked (fun x hx => ?_) fun x hx => ?_
  · cases filter with
    | none => cases hx
    | some c =>
      cases hx
      exact hfilter _ List.mem_cons_self
  · cases window with
    | none => cases hx
    | some w =>
      cases hx
      exact hwindow _ List.mem_cons_self

theorem Condition.lower_made {c : Condition} (h : PartsMade F (c.parts s)) :
    Yields (Made F) (c.lower s) := by
  have hpair {l r : Occurrence} (h : PartsMade F [l, r]) :
      Yields (Made F) l.lower ∧ Yields (Made F) r.lower := by
    obtain ⟨hl, hr⟩ := List.forall_mem_cons.mp h
    exact ⟨hl, hr _ List.mem_cons_self⟩
  cases c with
  | empty =>
    rw [lower]
    exact .ok .nil
  | compare op left right =>
    rw [lower]
    exact Clause.comparison_made op _ (hpair h).1 (hpair h).2
  | «matches» op negated t pattern escape =>
    rw [lower]
    exact Clause.matching_made _ op negated escape (hpair h).1 (hpair h).2
  | json op left right =>
    rw [lower]
    exact Clause.json_made _ op (hpair h).1 (hpair h).2
  | search op t value =>
    rw [lower]
    exact Clause.search_made _ op (hpair h).1 (hpair h).2
  | isNull negated t =>
    rw [lower]
    exact Clause.isNull_made negated (h _ List.mem_cons_self)
  | isIn negated t items =>
    rw [lower]
    refine Clause.isIn_made negated _ (fun hitems => ?_) fun hitems => ?_
    · rw [parts, hitems] at h
      exact h _ List.mem_cons_self
    · rw [parts, hitems] at h
      exact Term.lowerAll_made fun b hb => h b (List.mem_cons_of_mem _ hb)
  | isInRows negated t rows =>
    have hrows := (hpair h).2
    rw [Occurrence.lower_piece] at hrows
    rw [lower]
    exact Clause.isInRows_made negated (hpair h).1 hrows
  | between negated t low high =>
    obtain ⟨ht, hrest⟩ := List.forall_mem_cons.mp h
    rw [lower]
    exact Clause.between_made negated ht (hpair hrest).1 (hpair hrest).2
  | hasRows negated rows =>
    have hrows := h _ List.mem_cons_self
    rw [Occurrence.lower_piece] at hrows
    rw [lower]
    exact Clause.hasRows_made negated hrows
  | combined op left right =>
    rw [lower]
    exact Clause.combined_made op _ _ (hpair h).1 (hpair h).2
  | not c =>
    rw [lower]
    exact Clause.negated_made _ (h _ List.mem_cons_self)
  | term t =>
    rw [lower]
    exact h _ List.mem_cons_self

theorem Window.lower_made {w : Window} (h : PartsMade F (w.parts s))
    (hown : ∀ ts, Occurrence.Adds ⟨s, .window w⟩ ts → F ts) :
    Yields (Made F) (w.lower s) := by
  obtain ⟨partitionBy, orderBy, frame⟩ := w
  obtain ⟨hpartition, horder⟩ := List.forall_mem_append.mp h
  rw [lower]
  refine Clause.window_made (Term.lowerAll_made hpartition)
    (OrderItem.lowerAll_made horder) fun f hf => ?_
  exact Clause.frame_made (.fragment (hown _ (.bound hf (.inl rfl))))
    fun b hb => .fragment (hown _ (.bound hf (.inr hb)))

theorem Compound.lower_made {c : Compound} (h : PartsMade F (c.parts s))
    (hown : ∀ ts, Occurrence.Adds ⟨s, .compound c⟩ ts → F ts) :
    Yields (Made F) (c.lower s) := by
  obtain ⟨id, base, operands, orderBy, limit, offset, alias?⟩ := c
  obtain ⟨hqueries, horder⟩ := List.forall_mem_append.mp h
  obtain ⟨hbase, hoperands⟩ := List.forall_mem_cons.mp hqueries
  -- Each operand stands behind its operator; the row window is the fragment of the whole.
  have hlist : Yields (AllMade F) (Operand.lowerAll s.operands base.selectCount operands) :=
    .lowered (by rw [Operand.lowerAll]) (Operand.lowerAll_cons s.operands _) fun o ho =>
      Statement.operand_made o.operator _ _ (List.forall_mem_map.mp hoperands o ho)
  rw [lower]
  exact (Statement.compound_made _ hbase hlist (OrderItem.lowerAll_made horder)
    (hown _ .result)).bind fun _ hts => .pure (Statement.placed_made s id alias? hts)

/-! ## Queries -/

theorem Source.lower_made (hschema : ∀ part, F [.ident part, .mark .dot]) {x : Source}
    (h : PartsMade F (x.parts s)) : Yields (Made F) (x.lower s) := by
  cases x with
  | table t =>
    rw [lower]
    exact .ok (t.tokens_made hschema s)
  | subquery y =>
    have hy := h _ List.mem_cons_self
    rw [Occurrence.lower_piece] at hy
    rw [lower]
    exact hy

theorem JoinCondition.lower_made {c : JoinCondition} (h : PartsMade F (c.parts s)) :
    Yields (Made F) (c.lower s) := by
  cases c with
  | all =>
    rw [lower]
    exact .ok .nil
  | on c =>
    have hc : Yields (Made F) (c.lower s.quiet) := h _ List.mem_cons_self
    rw [lower]
    exact hc.bind fun _ hts => .pure ((Made.spaced rfl).append hts)
  | sharing columns =>
    rw [lower]
    exact .ok ((Made.spaced rfl).append (Made.idents columns).parens)

/-- A conflict clause is made from the fragments of what stands in it. -/
theorem Query.conflict_made {q : Query}
    (h : ∀ c, q.writes c = true → PartsMade F (q.clauseParts s c)) (hq : q.insertsRows = true) :
    Yields (Made F) (q.parts s).conflict := by
  have htargets := h .conflictTargets hq
  have htargetFilter := h .conflictFilter hq
  have hcolumns := h .conflictColumns hq
  have hvalues := h .conflictSet hq
  have hupdateFilter := h .conflictWhere hq
  simp only [clauseParts] at htargets htargetFilter hcolumns hvalues hupdateFilter
  simp only [parts]
  cases hc : q.conflict with
  | none => exact .ok .nil
  | some c =>
    rw [hc] at htargets htargetFilter hcolumns hvalues hupdateFilter
    -- What a conflict clause writes depends on what is done about a conflict.
    have hhandled (hhandler : c.handler ≠ none) : c ∈ ((some c).bind Conflict.handled?).toList := by
      simp [Conflict.handled?, Option.isSome_iff_ne_none.mpr hhandler]
    have hupdating (hhandler : c.handler = some .update) :
        c ∈ ((some c).bind Conflict.updating?).toList := by
      simp [Conflict.updating?, hhandler]
    obtain ⟨targets, targetFilter, handler, assignments, updateFilter⟩ := c
    dsimp only
    rw [Conflict.lower]
    exact Statement.conflictClause_made
      { targets := fun hhandler => Term.lowerColumns_made
          (List.forall_mem_flatMap.mp htargets _ (hhandled hhandler))
        targetFilter := fun hhandler =>
          List.forall_mem_map.mp htargetFilter _ (hhandled hhandler)
        assignments := fun hhandler => Assignment.lowerAll_made rfl
          (List.forall_mem_flatMap.mp hcolumns _ (hupdating hhandler))
          (List.forall_mem_flatMap.mp hvalues _ (hupdating hhandler))
        updateFilter := fun hhandler =>
          List.forall_mem_map.mp hupdateFilter _ (hupdating hhandler) } _

/-- The parts of a query are made from the fragments of what stands in its clauses. -/
theorem Query.parts_made {q : Query}
    (h : ∀ c, q.writes c = true → PartsMade F (q.clauseParts s c))
    (hschema : ∀ part, F [.ident part, .mark .dot])
    (htop : q.selectsRows = true → ∀ t ∈ q.info.top, F [countToken t.count])
    (hwindow : q.selectsRows = true →
      F (s.dialect.window q.info.limit (properOffset q.info.offset)))
    (hlimit : q.info.action.isChange = true →
      ∀ n ∈ q.info.limit, F (PaginationStyle.limitClause (countToken n))) :
    (q.parts s).Made F s.dialect q where
  schema := hschema
  commonTables := by
    refine .lowered (by rw [CommonTable.lowerAll]) (fun t l => by rw [CommonTable.lowerAll])
      fun t ht => ?_
    have hbody := List.forall_mem_map.mp (h .commonTables rfl) t ht
    rw [Occurrence.lower_piece] at hbody
    obtain ⟨name, columns, recursive, body⟩ := t
    rw [CommonTable.lower]
    exact Statement.commonTable_made name columns hbody
  sources hq := .lowered (by rw [Source.lowerAll]) (fun x l => by rw [Source.lowerAll])
    fun x hx => Source.lower_made hschema (List.forall_mem_flatMap.mp (h .sources hq) x hx)
  joins hq := by
    refine .lowered (by rw [Join.lowerAll]) (fun j l => by rw [Join.lowerAll]) fun j hj => ?_
    have hsource := Source.lower_made hschema (List.forall_mem_flatMap.mp (h .joined hq) j hj)
    have hon := JoinCondition.lower_made (List.forall_mem_flatMap.mp (h .on hq) j hj)
    obtain ⟨kind, source, condition⟩ := j
    rw [Join.lower]
    exact Statement.join_made kind hsource hon
  filter hq := h .filter hq _ List.mem_cons_self
  orderBy hq := OrderItem.lowerAll_made (h .orderBy hq)
  selects hq := Term.lowerAll_made (h .selectList hq)
  distinctOn hq := Term.lowerAll_made (h .distinctOn hq)
  groupBy hq := Term.lowerAllNamed_made (h .groupBy hq)
  having hq := h .having hq _ List.mem_cons_self
  top := htop
  window := hwindow
  columns hq := Term.lowerColumns_made (h .columns hq)
  rows hq := Term.lowerRows_made (h .rows hq)
  conflict hq := conflict_made h hq
  duplicateUpdates hq := Assignment.lowerAll_made rfl (h .duplicateColumns hq)
    (h .duplicateSet hq)
  assignments hq := Assignment.lowerAll_made rfl (h .setColumns hq) (h .set hq)
  limit := hlimit
  returning hq := Term.lowerAll_made (h .returning hq)

theorem Query.lower_made {q : Query} (h : ∀ c, PartsMade F (q.partsIn s c))
    (hown : ∀ ts, Occurrence.Adds ⟨s, .query q⟩ ts → F ts) :
    Yields (Made F) (q.lower s) := by
  rw [lower_eq]
  refine iteInduction (fun _ => .ok .nil) fun hblank => ?_
  have hblank : q.isBlank = false := by simpa using hblank
  -- Only the clauses that the query writes have parts, and only these are asked for.
  have hclauses (c : QueryClause) (hc : q.writes c = true) :
      PartsMade F (q.clauseParts (s.inside q) c) := by
    have hpart := h c
    rw [partsIn, hblank, if_neg Bool.false_ne_true, if_pos hc] at hpart
    exact hpart
  have hparts : (q.parts (s.inside q)).Made F (s.inside q).dialect q :=
    parts_made hclauses (fun part => hown _ (.schema part))
      (fun hq t ht => hown _ (.top hblank hq ht)) (fun hq => hown _ (.selected hblank hq))
      fun hq n hn => hown _ (.changed hblank hq hn)
  exact (Statement.whole_made hparts).bind fun _ hts =>
    .pure (Statement.placed_made s q.info.id q.info.alias? hts)

end Syntax

/-! ## Occurrences -/

namespace Occurrence

variable {a : Occurrence}

/-- An occurrence is made from the fragments of what stands in it at any depth. -/
theorem lower_made (a : Occurrence)
    (h : ∀ b, Within a b → ∀ ts, b.Adds ts → F ts) :
    Yields (Made F) a.lower := by
  induction a using Occurrence.induction with
  | h a ih =>
    -- What stands in a part stands in the whole.
    have hparts (b : Occurrence) (hb : Part a b) : Yields (Made F) b.lower :=
      ih b hb fun c hc => h c (.head hb hc)
    have hown := h a .refl
    obtain ⟨s, piece⟩ := a
    cases piece with
    | term t =>
      obtain ⟨expr, alias?⟩ := t
      have hexpr : Yields (Made F) (expr.lower s) := hparts _ rfl
      rw [lower_term, Term.lower]
      refine hexpr.bind fun _ hts => .pure (hts.append (.ite ?_ .nil))
      cases alias? with
      | none => exact .nil
      | some name => exact s.aliasSuffix_made name
    | expr e => exact Expr.lower_made hparts hown
    | call c => exact Call.lower_made hparts
    | window w => exact Window.lower_made hparts hown
    | condition c => exact Condition.lower_made hparts
    | query q => exact Query.lower_made (fun c b hb => hparts b ⟨c, hb⟩) hown
    | compound c => exact Compound.lower_made hparts hown

end Occurrence

end SqlScribe
