import SqlScribe.Proofs.Combination.Condition
import SqlScribe.Proofs.Masking.Lowering
import SqlScribe.Proofs.Query.Run
import SqlScribe.Render
/-! # Restrictions that are given one by one

A query or an aggregate that is restricted by conditions one by one is written like one that is
restricted by all of them together.

* `Query.Alike`: queries that are written alike, though they have different identities.
* `Query.Restriction`: the calls that restrict the rows of a query, and those that restrict its
  groups.
* `Query.Restriction.run_eq`: a program of such calls.
* `Term.filtered_alike`: an aggregate that is restricted by several conditions.
* `Condition.combination_laws`: conditions are a monoid under each connective, and what is made of
  them does not depend on how they are joined. -/

namespace SqlScribe

namespace Query

/-- Queries that are written alike wherever they are given the same name. -/
structure Alike (q q' : Query) : Prop where
  lower : ∀ s, s.alias? q.info.id = s.alias? q'.info.id → q.lower s = q'.lower s
  dialect : q.info.dialect = q'.info.dialect

section Alike

variable {q q' : Query} (h : q.Alike q') (o : RenderOptions)
include h

theorem Alike.renderDialect_eq : renderDialect q o = renderDialect q' o :=
  congrArg o.dialect.getD h.dialect

theorem Alike.renderTokens_eq : renderTokens q o = renderTokens q' o := by
  rw [renderTokens, renderTokens, h.renderDialect_eq]
  exact h.lower _ rfl

/-- Queries that are written alike have the same text under all options, or the same error. -/
theorem Alike.render_eq : render q o = render q' o := by
  rw [render, render, h.renderTokens_eq, h.renderDialect_eq]

/-- Queries that are written alike have the same text with placeholders, and the same bound
values. -/
theorem Alike.renderParameters_eq (style : ParameterStyle) :
    renderParameters q o style = renderParameters q' o style := by
  rw [renderParameters, renderParameters, renderBound, renderBound, h.renderTokens_eq,
    h.renderDialect_eq]

end Alike

/-- A query under another identity, with other conditions on its rows and groups. -/
def restricted (q : Query) (id : SourceId) (filter having : Condition) : Query :=
  { q with info.id := id, filter := filter, having := having }

theorem restricted_self (q : Query) : q.restricted q.info.id q.filter q.having = q := by
  cases q
  rfl

section

variable (q : Query) (id id' : SourceId) {filter filter' : Condition}
  (hfilter : filter.Alike filter')
include hfilter

theorem changeTail_restricted (having having' : Condition) (s : Scope) (p : QueryParts) :
    Statement.changeTail s (q.restricted id filter having) p =
      Statement.changeTail s (q.restricted id' filter' having') p := by
  rw [Statement.changeTail, Statement.changeTail]
  simp only [restricted, hfilter.isEmpty]
  rfl

theorem inside_restricted (having having' : Condition) (s : Scope) :
    s.inside (q.restricted id filter having) = s.inside (q.restricted id' filter' having') := by
  have hforeign : (q.restricted id filter having).mentionsForeignTable =
      (q.restricted id' filter' having').mentionsForeignTable := by
    rw [mentionsForeignTable, mentionsForeignTable]
    simp only [restricted, hfilter.qualifiers]
    rfl
  rw [Scope.inside, Scope.inside, usesQualifiers, usesQualifiers, hforeign]
  rfl

variable {having having' : Condition} (hhaving : having.Alike having')
include hhaving

theorem selectTail_restricted (s : Scope) (p : QueryParts) :
    Statement.selectTail s (q.restricted id filter having) p =
      Statement.selectTail s (q.restricted id' filter' having') p := by
  rw [Statement.selectTail, Statement.selectTail]
  simp only [restricted, hfilter.isEmpty, hhaving.isEmpty]

theorem selection_restricted (s : Scope) (p : QueryParts) (target : Option Table) :
    Statement.selection s (q.restricted id filter having) p target =
      Statement.selection s (q.restricted id' filter' having') p target := by
  unfold Statement.selection
  rw [q.selectTail_restricted id id' hfilter hhaving]
  rfl

theorem insertion_restricted (s : Scope) (p : QueryParts) (t : Table) :
    Statement.insertion s (q.restricted id filter having) p t =
      Statement.insertion s (q.restricted id' filter' having') p t := by
  have hadded : Statement.addedRows s (q.restricted id filter having) p =
      Statement.addedRows s (q.restricted id' filter' having') p := by
    rw [Statement.addedRows, Statement.addedRows,
      q.selectTail_restricted id id' hfilter hhaving]
    rfl
  rw [Statement.insertion, Statement.insertion, hadded]
  rfl

/-- The clauses of a statement look only at whether there are conditions. -/
theorem whole_restricted (s : Scope) (p : QueryParts) :
    Statement.whole s (q.restricted id filter having) p =
      Statement.whole s (q.restricted id' filter' having') p := by
  have hchange := q.changeTail_restricted id id' hfilter having having' s p
  have hbody : Statement.body s (q.restricted id filter having) p =
      Statement.body s (q.restricted id' filter' having') p := by
    have haction : (q.restricted id filter having).info.action = q.info.action := rfl
    have haction' : (q.restricted id' filter' having').info.action = q.info.action := rfl
    rw [Statement.body, Statement.body, haction, haction']
    cases q.info.action with
    | select => exact q.selection_restricted id id' hfilter hhaving s p none
    | insert t fromList =>
      cases fromList with
      | true => exact q.selection_restricted id id' hfilter hhaving s p (some t)
      | false => exact q.insertion_restricted id id' hfilter hhaving s p t
    | update t => simp only [Statement.update, hchange]
    | delete =>
      simp only [Statement.deletion, hchange]
      rfl
  rw [Statement.whole, Statement.whole, hbody]
  rfl

/-- Queries that differ in their identity and in conditions that are alike are written alike. -/
theorem alike_restricted :
    (q.restricted id filter having).Alike (q.restricted id' filter' having') where
  lower s hs := by
    have hparts (inner : Scope) : (q.restricted id filter having).parts inner =
        (q.restricted id' filter' having').parts inner := by
      rw [parts, parts]
      simp only [restricted, hfilter.lower, hhaving.lower]
      rfl
    have hplaced (body : Tokens) : Statement.placed s (q.restricted id filter having).info.id
          (q.restricted id filter having).info.alias? body =
        Statement.placed s (q.restricted id' filter' having').info.id
          (q.restricted id' filter' having').info.alias? body := by
      rw [Statement.placed, Statement.placed, hs]
      rfl
    have hblank : (q.restricted id filter having).isBlank =
        (q.restricted id' filter' having').isBlank := rfl
    rw [lower_eq, lower_eq, q.inside_restricted id id' hfilter having having', hparts,
      q.whole_restricted id id' hfilter hhaving, hblank]
    simp only [hplaced]
  dialect := rfl

end

/-! ## Calls that restrict -/

/-- A kind of calls that restrict a query: each of them joins a condition to one that the query
has. -/
structure Restriction where
  /-- The call with a condition. -/
  step : Condition → Step
  /-- The condition that the query has. -/
  get : Query → Condition
  /-- The query with another condition, under another identity. -/
  set : Query → SourceId → Condition → Query
  /-- The query is its own condition in itself. -/
  set_get : ∀ q, set q q.info.id (get q) = q
  /-- The condition is what was set. -/
  get_set : ∀ q id c, get (set q id c) = c
  /-- Only the last condition counts. -/
  set_set : ∀ q id id' c c', set (set q id c) id' c' = set q id' c'
  /-- What a call does. -/
  step_eq : ∀ (q : Query) fresh c, ∃ id, q.step fresh (step c) = .ok (set q id ((get q).and c))
  /-- Conditions that are alike are written alike. -/
  alike : ∀ (q : Query) id id' {c c' : Condition}, c.Alike c' → (set q id c).Alike (set q id' c')

namespace Restriction

theorem touched_eq (q : Query) (fresh : SourceId) :
    ∃ id, q.touched fresh = q.restricted id q.filter q.having := by
  rw [touched]
  split
  · exact ⟨fresh, rfl⟩
  · exact ⟨q.info.id, q.restricted_self.symm⟩

/-- The calls that restrict the rows. -/
def rows : Restriction where
  step := .filter
  get := Query.filter
  set q id c := q.restricted id c q.having
  set_get := restricted_self
  get_set _ _ _ := rfl
  set_set _ _ _ _ _ := rfl
  step_eq q fresh c := (touched_eq (q.restrict c) fresh).imp fun _ h => congrArg Except.ok h
  alike q id id' _ _ h := q.alike_restricted id id' h (.refl q.having)

/-- The calls that restrict the groups. -/
def groups : Restriction where
  step := .having
  get := Query.having
  set q id c := q.restricted id q.filter c
  set_get := restricted_self
  get_set _ _ _ := rfl
  set_set _ _ _ _ _ := rfl
  step_eq q fresh c := (touched_eq (q.restrictGroups c) fresh).imp fun _ h => congrArg Except.ok h
  alike q id id' _ _ h := q.alike_restricted id id' (.refl q.filter) h

variable (r : Restriction)

/-- Calls one after the other join their conditions to that of the query one by one. -/
theorem run_eq (q : Query) (calls : List (SourceId × Condition)) :
    ∃ id, q.run (calls.map fun call => (call.1, r.step call.2)) =
      .ok (r.set q id ((calls.map Prod.snd).foldl Condition.and (r.get q))) := by
  induction calls generalizing q with
  | nil =>
    refine ⟨q.info.id, ?_⟩
    rw [List.map_nil, List.map_nil, List.foldl_nil, r.set_get]
    rfl
  | cons call calls ih =>
    obtain ⟨id, hstep⟩ := r.step_eq q call.1 call.2
    obtain ⟨last, hrun⟩ := ih (r.set q id ((r.get q).and call.2))
    refine ⟨last, ?_⟩
    rw [r.get_set, r.set_set] at hrun
    rw [List.map_cons, run, List.foldlM_cons, hstep]
    exact hrun

/-- Calls one after the other leave a query like one call with all their conditions. -/
theorem run_alike (q : Query) (calls : List (SourceId × Condition)) (fresh : SourceId) :
    ∃ q₁ q₂, q.run (calls.map fun call => (call.1, r.step call.2)) = .ok q₁ ∧
      q.step fresh (r.step (.all (calls.map Prod.snd))) = .ok q₂ ∧ q₁.Alike q₂ := by
  obtain ⟨id, hrun⟩ := r.run_eq q calls
  obtain ⟨id', hstep⟩ := r.step_eq q fresh (.all (calls.map Prod.snd))
  exact ⟨_, _, hrun, hstep, r.alike q id id' (Condition.foldl_combine .and _ _)⟩

end Restriction

end Query

/-! ## Filters of aggregates -/

namespace Term

/-- The term of a call under a condition. -/
def ofFiltered (k : Call) (alias? : Option String) (c : Condition) : Term :=
  ⟨.call { k with filter := some c }, alias?⟩

theorem lower_ofFiltered {c d : Condition} (h : c.Alike d) (k : Call) (alias? : Option String)
    (s : Scope) : (ofFiltered k alias? c).lower s = (ofFiltered k alias? d).lower s := by
  have hcall (f : Condition) : Call.lower s.quiet { k with filter := some f } =
      Clause.call (Clause.invoked k.name k.form k.distinct k.ignoreNulls
        (Term.lowerAll s.quiet k.args)) (some (f.lower s.quiet))
        (k.window.map (Window.lower s.quiet)) := by
    rw [Call.lower.eq_def]
    cases k.window <;> rfl
  rw [ofFiltered, ofFiltered, lower, lower, Expr.lower, Expr.lower, hcall, hcall, h.lower]

/-- The condition of an aggregate, if it has one, and another one. -/
def joinedFilter (filter : Option Condition) (c : Condition) : Condition :=
  (filter.map (·.and c)).getD c

/-- An aggregate is restricted; anything else is refused, whatever the condition is. -/
theorem filtered_cases (t : Term) :
    (∃ k : Call, k.aggregate = true ∧
        ∀ c, t.filtered c = .ok (ofFiltered k t.alias? (joinedFilter k.filter c))) ∨
      ∃ e, ∀ c, t.filtered c = .error e := by
  obtain ⟨expr, alias?⟩ := t
  cases expr with
  | call k =>
    cases hk : k.aggregate with
    | true =>
      refine .inl ⟨k, hk, fun c => ?_⟩
      simp only [filtered, mapCall, if_pos hk]
      rfl
    | false =>
      refine .inr ⟨.usage (.filterOnScalar k.name), fun c => ?_⟩
      simp only [filtered, mapCall, hk, Bool.false_eq_true, if_false]
      rfl
  | _ => exact .inr ⟨.usage (.modifierOnOther .filter), fun _ => rfl⟩

theorem foldlM_filtered {k : Call} (hk : k.aggregate = true) (alias? : Option String)
    (c : Condition) (cs : List Condition) :
    cs.foldlM filtered (ofFiltered k alias? c) =
      .ok (ofFiltered k alias? (cs.foldl Condition.and c)) := by
  induction cs generalizing c with
  | nil => rfl
  | cons d cs ih =>
    have hstep : (ofFiltered k alias? c).filtered d = .ok (ofFiltered k alias? (c.and d)) := by
      simp only [ofFiltered, filtered, mapCall, if_pos hk]
      rfl
    rw [List.foldlM_cons, hstep]
    exact ih (c.and d)

/-- An aggregate that is restricted by some conditions one by one is written like one that is
restricted by all of them, and what is no aggregate is refused alike. -/
theorem filtered_alike (t : Term) (c : Condition) (cs : List Condition) (s : Scope) :
    ((c :: cs).foldlM filtered t).map (·.lower s) =
      (t.filtered (.all (c :: cs))).map (·.lower s) := by
  rw [List.foldlM_cons]
  obtain ⟨k, hk, hfiltered⟩ | ⟨e, herror⟩ := t.filtered_cases
  · have hall : Condition.all (c :: cs) = cs.foldl Condition.and c := by
      rw [Condition.all, List.foldl_cons, Condition.and, Condition.combine_empty_left]
    have halike : (cs.foldl Condition.and (joinedFilter k.filter c)).Alike
        (joinedFilter k.filter (.all (c :: cs))) := by
      cases k.filter with
      | none =>
        rw [hall]
        exact .refl _
      | some f => exact Condition.foldl_combine .and f (c :: cs)
    rw [hfiltered, hfiltered]
    show ((cs.foldlM filtered (ofFiltered k t.alias? _)).map _) = _
    rw [foldlM_filtered hk]
    exact congrArg Except.ok (lower_ofFiltered halike k t.alias? s)
  · rw [herror, herror]
    rfl

end Term

/-! ## The laws -/

/-- Calls that restrict a query one after the other leave a query that is written like the one after
one call with all their conditions: under all options, and within other statements. -/
def Query.Merges (restrict : Condition → Query.Step) : Prop :=
  ∀ (q : Query) (calls : List (SourceId × Condition)) (fresh : SourceId),
    ∃ q₁ q₂, q.run (calls.map fun call => (call.1, restrict call.2)) = .ok q₁ ∧
      q.step fresh (restrict (.all (calls.map Prod.snd))) = .ok q₂ ∧
      q₁.Alike q₂ ∧ ∀ o, render q₁ o = render q₂ o

theorem Query.Restriction.merges (r : Restriction) : Merges r.step := by
  intro q calls fresh
  obtain ⟨q₁, q₂, hrun, hstep, halike⟩ := r.run_alike q calls fresh
  exact ⟨q₁, q₂, hrun, hstep, halike, halike.render_eq⟩

/-- **Conditions are a monoid under each connective**, up to what is written of them: brackets may
be moved, and the empty condition disappears. So all conditions of a list, and some of them, are
written alike under whatever brackets and with whatever empty conditions between them; and the rows
or groups of a query, or those of an aggregate, may be restricted by conditions one by one or
together. -/
theorem Condition.combination_laws :
    (∀ (op : Connective) (a b c : Condition) (s : Scope),
        (combine op (combine op a b) c).lower s = (combine op a (combine op b c)).lower s) ∧
      (∀ (op : Connective) (c : Condition), combine op .empty c = c ∧ combine op c .empty = c) ∧
      (∀ (b : Bracketing) (s : Scope), (b.condition .and).lower s = (all b.leaves).lower s ∧
        (b.condition .or).lower s = (any b.leaves).lower s) ∧
      Query.Merges .filter ∧ Query.Merges .having ∧
      ∀ (t : Term) (c : Condition) (cs : List Condition) (s : Scope),
        ((c :: cs).foldlM Term.filtered t).map (·.lower s) =
          (t.filtered (all (c :: cs))).map (·.lower s) :=
  ⟨fun op a b c => (combine_assoc op a b c).lower,
    fun op c => ⟨combine_empty_left op c, combine_empty_right op c⟩,
    fun b s => ⟨(b.alike .and).lower s, (b.alike .or).lower s⟩,
    Query.Restriction.rows.merges, Query.Restriction.groups.merges, Term.filtered_alike⟩

end SqlScribe
