import Mathlib.Data.Set.Function
import SqlScribe.Proofs.Identity.Recast
import SqlScribe.Proofs.Identity.Reference
import SqlScribe.Proofs.Masking.Lowering
/-! # Lowering under other identities

A value and the value that another run has in its place are written alike, as long as the two runs
tell the same identities apart among those that are referred to.

* `Scope.SeenAs`: a scope of one run and that of the other.
* `Statement.whole_recast`: the clauses of a statement do not look at identities.
* `Term.lower_recast`, `Condition.lower_recast`, `Query.lower_recast` and their like: the tokens are
  the same in both scopes. The proof follows the syntax. -/

namespace SqlScribe

variable {r : Recast} {S : List SourceId}

/-! ## Scopes -/

/-- A name is found in one run where it is found in the other one. -/
theorem Recast.lookup_aliases (hr : Set.InjOn r.id {id | id ∈ S}) {l : List (SourceId × String)}
    (hl : l.map (·.1) ⊆ S) {id : SourceId} (hid : id ∈ S) :
    (r.aliases l).lookup (r.id id) = l.lookup id := by
  induction l with
  | nil => rfl
  | cons p l ih =>
    obtain ⟨hp, hl⟩ := List.cons_subset.mp hl
    have hbeq : (r.id id == r.id p.1) = (id == p.1) := by
      rw [Bool.eq_iff_iff, beq_iff_eq, beq_iff_eq]
      exact hr.eq_iff hid hp
    show ((r.id p.1, p.2) :: r.aliases l).lookup (r.id id) = (p :: l).lookup id
    rw [List.lookup_cons, List.lookup_cons, hbeq, ih hl]

/-- A scope and the one that another run has in its place. Nothing but the identities of a list is
referred to, and the other run tells these apart. -/
structure Scope.SeenAs (r : Recast) (S : List SourceId) (s s' : Scope) : Prop where
  injective : Set.InjOn r.id {id | id ∈ S}
  aliases : s.aliases.map (·.1) ⊆ S
  eq : s' = { s with aliases := r.aliases s.aliases }

namespace Scope.SeenAs

variable {s s' : Scope}

theorem quiet (h : SeenAs r S s s') : SeenAs r S s.quiet s'.quiet :=
  ⟨h.injective, h.aliases, congrArg Scope.quiet h.eq⟩

theorem labelled (h : SeenAs r S s s') : SeenAs r S s.labelled s'.labelled :=
  ⟨h.injective, h.aliases, congrArg Scope.labelled h.eq⟩

theorem embedded (h : SeenAs r S s s') : SeenAs r S s.embedded s'.embedded :=
  ⟨h.injective, h.aliases, congrArg Scope.embedded h.eq⟩

theorem standalone (h : SeenAs r S s s') : SeenAs r S s.standalone s'.standalone :=
  ⟨h.injective, h.aliases, congrArg Scope.standalone h.eq⟩

theorem asSource (h : SeenAs r S s s') : SeenAs r S s.asSource s'.asSource :=
  ⟨h.injective, h.aliases, congrArg Scope.asSource h.eq⟩

theorem operands (h : SeenAs r S s s') : SeenAs r S s.operands s'.operands :=
  ⟨h.injective, h.aliases, congrArg Scope.operands h.eq⟩

theorem qualifying (h : SeenAs r S s s') (b : Bool) :
    SeenAs r S (s.qualifying b) (s'.qualifying b) :=
  ⟨h.injective, h.aliases, congrArg (Scope.qualifying · b) h.eq⟩

/-- The scopes inside a query and inside the one that the other run has. -/
theorem inside (h : SeenAs r S s s') {q : Query} (hq : q.info.aliases.map (·.1) ⊆ S) :
    SeenAs r S (s.inside q) (s'.inside (q.recast r)) := by
  refine ⟨h.injective, ?_, ?_⟩
  · show ((q.info.aliases ++ s.aliases).map (·.1)) ⊆ S
    rw [List.map_append]
    exact List.append_subset.mpr ⟨hq, h.aliases⟩
  · rw [Scope.inside, Scope.inside, q.usesQualifiers_recast, q.info_recast, h.eq]
    simp only [QueryInfo.recast, Scope.enter, Recast.aliases, List.map_append]

theorem dialect (h : SeenAs r S s s') : s'.dialect = s.dialect := by rw [h.eq]

theorem showsAlias (h : SeenAs r S s s') : s'.showsAlias = s.showsAlias := by rw [h.eq]

theorem aliasSuffix (h : SeenAs r S s s') : s'.aliasSuffix = s.aliasSuffix := by
  rw [h.eq]
  rfl

theorem groupNames (h : SeenAs r S s s') (q : Query) :
    s'.groupNames (q.recast r) = s.groupNames q := by
  rw [Scope.groupNames, Scope.groupNames, q.selectAliases_recast, h.eq]

theorem orderNames (h : SeenAs r S s s') (q : Query) :
    s'.orderNames (q.recast r) = s.orderNames q := by
  rw [Scope.orderNames, Scope.orderNames, q.selectAliases_recast, h.eq]

theorem tokens (h : SeenAs r S s s') (t : Table) : (t.recast r).tokens s' = t.tokens s := by
  rw [h.eq]
  rfl

theorem alias? (h : SeenAs r S s s') {id : SourceId} (hid : id ∈ S) :
    s'.alias? (r.id id) = s.alias? id := by
  rw [Scope.alias?, Scope.alias?, h.eq]
  exact Recast.lookup_aliases h.injective h.aliases hid

theorem qualifier? (h : SeenAs r S s s') {ns : Qualifier} (hns : ns.references ⊆ S) :
    s'.qualifier? (ns.recast r) = s.qualifier? ns := by
  cases ns with
  | table t =>
    have halias := h.alias? (hns (List.mem_singleton_self _))
    have hqualifies : s'.qualifies = s.qualifies := by rw [h.eq]
    simp only [Qualifier.recast, Scope.qualifier?, Table.recast, halias, hqualifies]
  | subquery id alias? =>
    have halias := h.alias? (hns (List.mem_singleton_self _))
    simp only [Qualifier.recast, Scope.qualifier?, halias]
  | raw text => rfl

theorem qualification (h : SeenAs r S s s') {q : Option Qualifier}
    (hq : q.toList.flatMap Qualifier.references ⊆ S) :
    s'.qualification (q.map (·.recast r)) = s.qualification q := by
  cases q with
  | none => rfl
  | some ns =>
    have hns : ns.references ⊆ S := by simpa using hq
    simp only [Scope.qualification, Option.map_some, Option.bind_some, h.qualifier? hns]

end Scope.SeenAs

/-! ## Statements -/

namespace Statement

variable {s s' : Scope} (q : Query) (p : QueryParts)

theorem foreignReturned?_recast :
    foreignReturned? (q.recast r) = (foreignReturned? q).map (·.recast r) := by
  rw [foreignReturned?, foreignReturned?, q.returning_recast, ← Term.recastAll_eq_map,
    Term.qualifiersAll_recast, q.info_recast]
  induction Term.qualifiersAll q.returning with
  | nil => rfl
  | cons ns qs ih =>
    rw [List.map_cons, List.findSome?_cons, List.findSome?_cons, ih]
    cases ns with
    | table t =>
      simp only [Qualifier.recast, QueryInfo.recast, Action.any_insertTarget?_recast,
        q.hasTable_recast]
      cases q.info.action.insertTarget?.any (· == t) || q.hasTable t <;> rfl
    | subquery id alias? => rfl
    | raw text => rfl

theorem returningClause_recast (d : Dialect) (items : LoweredList) :
    returningClause d (q.recast r) items = returningClause d q items := by
  rw [returningClause, returningClause, q.returning_recast, List.isEmpty_map,
    foreignReturned?_recast]
  cases foreignReturned? q with
  | none => rfl
  | some t => rfl

theorem lockClause_recast (h : s.SeenAs r S s') (l : Option Lock) :
    lockClause s' (l.map (·.recast r)) = lockClause s l := by
  cases l with
  | none => rfl
  | some l =>
    obtain ⟨tables, onLocked⟩ := l
    rw [Option.map_some, lockClause, lockClause, h.dialect]
    cases tables with
    | nil => rfl
    | cons t ts => simp only [Lock.recast, List.map_cons, h.tokens, List.flatMap_map]

theorem selectClause_recast (d : Dialect) : selectClause d (q.recast r) p = selectClause d q p := by
  rw [selectClause, selectClause, q.info_recast, q.distinctOn_recast, List.isEmpty_map]
  rfl

theorem selectTail_recast (h : s.SeenAs r S s') :
    selectTail s' (q.recast r) p = selectTail s q p := by
  rw [selectTail, selectTail, h.dialect, q.info_recast, q.filter_recast, q.having_recast,
    q.orderBy_recast, Condition.isEmpty_recast, Condition.isEmpty_recast, List.isEmpty_map]
  simp only [QueryInfo.recast, lockClause_recast h]

theorem selection_recast (h : s.SeenAs r S s') (target : Option Table) :
    selection s' (q.recast r) p (target.map (·.recast r)) = selection s q p target := by
  cases target with
  | none =>
    simp only [Option.map_none, selection, h.dialect, selectClause_recast, selectTail_recast q p h]
  | some t =>
    simp only [Option.map_some, selection, h.dialect, selectClause_recast, selectTail_recast q p h,
      h.tokens]

theorem insertion_recast (h : s.SeenAs r S s') (t : Table) :
    insertion s' (q.recast r) p (t.recast r) = insertion s q p t := by
  have hadded : addedRows s' (q.recast r) p = addedRows s q p := by
    rw [addedRows, addedRows, h.dialect, selectClause_recast, selectTail_recast q p h,
      q.rows_recast, List.isEmpty_map]
  rw [insertion, insertion, hadded, h.dialect, q.info_recast, q.duplicateUpdates_recast,
    List.isEmpty_map, returningClause_recast, h.tokens]
  rfl

theorem changeTail_recast (h : s.SeenAs r S s') :
    changeTail s' (q.recast r) p = changeTail s q p := by
  rw [changeTail, changeTail, h.dialect, q.info_recast, q.filter_recast, Condition.isEmpty_recast,
    returningClause_recast]
  rfl

theorem usingClause_recast (h : s.SeenAs r S s') (ts : List Table) :
    usingClause s' (ts.map (·.recast r)) = usingClause s ts := by
  cases ts with
  | nil => rfl
  | cons t ts =>
    show Tokens.spaced (.word .USING) ++
        Tokens.listed (((t :: ts).map (·.recast r)).map (·.tokens s')) =
      Tokens.spaced (.word .USING) ++ Tokens.listed ((t :: ts).map (·.tokens s))
    rw [List.map_map]
    exact congrArg (fun f => _ ++ Tokens.listed (List.map f _)) (funext h.tokens)

theorem body_recast (h : s.SeenAs r S s') : body s' (q.recast r) p = body s q p := by
  have haction : (q.recast r).info.action = q.info.action.recast r := by
    rw [q.info_recast]
    rfl
  rw [body, body, haction]
  cases q.info.action with
  | select => exact selection_recast q p h none
  | insert t fromList =>
    cases fromList with
    | true => exact selection_recast q p h (some t)
    | false => exact insertion_recast q p h t
  | update t =>
    show update s' (q.recast r) p (t.recast r) = update s q p t
    rw [update, update, changeTail_recast q p h, h.tokens]
  | delete =>
    show deletion s' (q.recast r) p = deletion s q p
    rw [deletion, deletion, changeTail_recast q p h, q.info_recast]
    simp only [QueryInfo.recast, usingClause_recast h]

theorem whole_recast (h : s.SeenAs r S s') : whole s' (q.recast r) p = whole s q p := by
  have hrecursive : (q.recast r).commonTables.any (·.recursive) =
      q.commonTables.any (·.recursive) := by
    simp [List.any_map, Function.comp_def]
  rw [whole, whole, h.dialect, hrecursive, body_recast q p h]

/-- A conflict clause is looked at for whether it has targets and conditions. -/
theorem conflictClause_recast (d : Dialect) (c : Conflict) (p : ConflictParts) :
    conflictClause d (c.recast r) p = conflictClause d c p := by
  have hhandler (handler : ConflictHandler) :
      conflictHandler (c.recast r) p handler = conflictHandler c p handler := by
    cases handler with
    | nothing => rfl
    | update =>
      simp only [conflictHandler, c.recast_eq, List.isEmpty_map, Condition.isEmpty_recast]
  simp only [conflictClause, hhandler]
  simp only [c.recast_eq, List.isEmpty_map, Condition.isEmpty_recast]

theorem placed_recast (h : s.SeenAs r S s') {id : SourceId} (hid : s.showsAlias = true → id ∈ S)
    (alias? : Option String) (body : Tokens) :
    placed s' (r.id id) alias? body = placed s id alias? body := by
  have hnested : s'.nested = s.nested := by rw [h.eq]
  rw [placed, placed, hnested, h.showsAlias, h.aliasSuffix]
  by_cases hshows : s.showsAlias = true
  · rw [h.alias? (hid hshows)]
  · rw [if_neg hshows, if_neg hshows]

end Statement

/-! ## Syntax -/

mutual

theorem Term.lower_recast {s s' : Scope} (h : s.SeenAs r S s') :
    ∀ t : Term, t.references ⊆ S → (t.recast r).lower s' = t.lower s
  | ⟨expr, alias?⟩, ht => by
    rw [Term.recast, Term.lower, Term.lower, Expr.lower_recast h expr ht, h.showsAlias,
      h.aliasSuffix]

theorem Expr.lower_recast {s s' : Scope} (h : s.SeenAs r S s') :
    ∀ e : Expr, e.references ⊆ S → (e.recast r).lower s' = e.lower s
  | .field q name, he => by rw [Expr.recast, Expr.lower, Expr.lower, h.qualification he]
  | .star q, he => by rw [Expr.recast, Expr.lower, Expr.lower, h.qualification he]
  | .value v, _ => rfl
  | .named name v, _ => rfl
  | .null, _ => rfl
  | .parameter text, _ => rfl
  | .raw sql, _ => rfl
  | .tuple items, he => by
    rw [Expr.recast, Expr.lower, Expr.lower, Term.lowerAll_recast h.quiet items he]
  | .array items, he => by
    rw [Expr.recast, Expr.lower, Expr.lower, Term.lowerAll_recast h.quiet items he, h.dialect,
      Term.recastAll_eq_map, List.isEmpty_map]
  | .interval i, _ => by rw [Expr.recast, Expr.lower, Expr.lower, h.dialect]
  | .arithmetic op left right, he => by
    obtain ⟨hleft, hright⟩ := List.append_subset.mp he
    rw [Expr.recast, Expr.lower, Expr.lower, Term.lower_recast h.quiet left hleft,
      Term.lower_recast h.quiet right hright, left.operator?_recast, right.operator?_recast]
  | .negative t, he => by
    rw [Expr.recast, Expr.lower, Expr.lower, Term.lower_recast h.quiet t he, t.isOperation_recast]
  | .call c, he => by
    rw [Expr.recast, Expr.lower, Expr.lower]
    exact Call.lower_recast h.quiet c he
  | .case branches none, he => by
    obtain ⟨hbranches, -⟩ := List.append_subset.mp he
    rw [Expr.recast, Expr.lower, Expr.lower, Branch.isEmpty_recastAll,
      Branch.lowerAll_recast h.quiet branches hbranches]
  | .case branches (some t), he => by
    obtain ⟨hbranches, ht⟩ := List.append_subset.mp he
    rw [Expr.recast, Expr.lower, Expr.lower, Branch.isEmpty_recastAll,
      Branch.lowerAll_recast h.quiet branches hbranches, Term.lower_recast h.quiet t ht]
  | .subquery q, he => by
    rw [Expr.recast, Expr.lower, Expr.lower]
    exact Subquery.lower_recast h.embedded q nofun he
  | .condition c, he => by
    rw [Expr.recast, Expr.lower, Expr.lower]
    exact Condition.lower_recast h.quiet c he

theorem Call.lower_recast {s s' : Scope} (h : s.SeenAs r S s') :
    ∀ c : Call, c.references ⊆ S → (c.recast r).lower s' = c.lower s
  | ⟨name, form, aggregate, distinct, ignoreNulls, args, none, none⟩, hc => by
    simp only [Call.references, List.append_subset] at hc
    rw [Call.recast, Call.lower, Call.lower, Term.lowerAll_recast h.quiet args hc.1.1]
  | ⟨name, form, aggregate, distinct, ignoreNulls, args, none, some w⟩, hc => by
    simp only [Call.references, List.append_subset] at hc
    rw [Call.recast, Call.lower, Call.lower, Term.lowerAll_recast h.quiet args hc.1.1,
      Window.lower_recast h w hc.2]
  | ⟨name, form, aggregate, distinct, ignoreNulls, args, some c, none⟩, hc => by
    simp only [Call.references, List.append_subset] at hc
    rw [Call.recast, Call.lower, Call.lower, Term.lowerAll_recast h.quiet args hc.1.1,
      Condition.lower_recast h.quiet c hc.1.2]
  | ⟨name, form, aggregate, distinct, ignoreNulls, args, some c, some w⟩, hc => by
    simp only [Call.references, List.append_subset] at hc
    rw [Call.recast, Call.lower, Call.lower, Term.lowerAll_recast h.quiet args hc.1.1,
      Condition.lower_recast h.quiet c hc.1.2, Window.lower_recast h w hc.2]

theorem Window.lower_recast {s s' : Scope} (h : s.SeenAs r S s') :
    ∀ w : Window, w.references ⊆ S → (w.recast r).lower s' = w.lower s
  | ⟨partitionBy, orderBy, frame⟩, hw => by
    obtain ⟨hpartition, horder⟩ := List.append_subset.mp hw
    rw [Window.recast, Window.lower, Window.lower, Term.lowerAll_recast h.quiet _ hpartition,
      OrderItem.lowerAll_recast h.quiet [] _ horder]

theorem Condition.lower_recast {s s' : Scope} (h : s.SeenAs r S s') :
    ∀ c : Condition, c.references ⊆ S → (c.recast r).lower s' = c.lower s
  | .empty, _ => rfl
  | .compare op left right, hc => by
    obtain ⟨hleft, hright⟩ := List.append_subset.mp hc
    rw [Condition.recast, Condition.lower, Condition.lower, Term.lower_recast h.quiet left hleft,
      Term.lower_recast h.quiet right hright, left.isNull_recast, right.isNull_recast]
  | .matches op negated t pattern escape, hc => by
    obtain ⟨ht, hpattern⟩ := List.append_subset.mp hc
    rw [Condition.recast, Condition.lower, Condition.lower, Term.lower_recast h.quiet t ht,
      Term.lower_recast h.quiet pattern hpattern, h.dialect]
  | .json op left right, hc => by
    obtain ⟨hleft, hright⟩ := List.append_subset.mp hc
    rw [Condition.recast, Condition.lower, Condition.lower, Term.lower_recast h.quiet left hleft,
      Term.lower_recast h.quiet right hright, h.dialect]
  | .search op t value, hc => by
    obtain ⟨ht, hvalue⟩ := List.append_subset.mp hc
    rw [Condition.recast, Condition.lower, Condition.lower, Term.lower_recast h.quiet t ht,
      Term.lower_recast h.quiet value hvalue, h.dialect]
  | .isNull negated t, hc => by
    rw [Condition.recast, Condition.lower, Condition.lower, Term.lower_recast h.quiet t hc]
  | .isIn negated t items, hc => by
    obtain ⟨ht, hitems⟩ := List.append_subset.mp hc
    rw [Condition.recast, Condition.lower, Condition.lower, Term.lower_recast h.quiet t ht,
      Term.lowerAll_recast h.quiet items hitems, Term.recastAll_eq_map, List.isEmpty_map]
  | .isInRows negated t rows, hc => by
    obtain ⟨ht, hrows⟩ := List.append_subset.mp hc
    rw [Condition.recast, Condition.lower, Condition.lower, Term.lower_recast h.quiet t ht,
      Subquery.lower_recast h.embedded rows nofun hrows]
  | .between negated t low high, hc => by
    obtain ⟨hleft, hhigh⟩ := List.append_subset.mp hc
    obtain ⟨ht, hlow⟩ := List.append_subset.mp hleft
    rw [Condition.recast, Condition.lower, Condition.lower, Term.lower_recast h.quiet t ht,
      Term.lower_recast h.quiet low hlow, Term.lower_recast h.quiet high hhigh]
  | .hasRows negated rows, hc => by
    rw [Condition.recast, Condition.lower, Condition.lower,
      Subquery.lower_recast h.embedded rows nofun hc]
  | .combined op left right, hc => by
    obtain ⟨hleft, hright⟩ := List.append_subset.mp hc
    rw [Condition.recast, Condition.lower, Condition.lower,
      Condition.lower_recast h.quiet left hleft, Condition.lower_recast h.quiet right hright,
      left.connective?_recast, right.connective?_recast]
  | .not c, hc => by
    rw [Condition.recast, Condition.lower, Condition.lower, Condition.lower_recast h.quiet c hc,
      c.connective?_recast]
  | .term t, hc => by
    rw [Condition.recast, Condition.lower, Condition.lower]
    exact Term.lower_recast h.quiet t hc

-- The identity of a query itself is looked up where the query shows its name, so there it has to be
-- among those that the runs tell apart.
theorem Subquery.lower_recast {s s' : Scope} (h : s.SeenAs r S s') :
    ∀ q : Subquery, (s.showsAlias = true → q.id ∈ S) → q.references ⊆ S →
      (q.recast r).lower s' = q.lower s
  | .query q, hid, hq => by
    rw [Subquery.recast, Subquery.lower, Subquery.lower]
    exact Query.lower_recast h q hid hq
  | .compound c, hid, hc => by
    rw [Subquery.recast, Subquery.lower, Subquery.lower]
    exact Compound.lower_recast h c hid hc

theorem Source.lower_recast {s s' : Scope} (h : s.SeenAs r S s') :
    ∀ x : Source, x.references ⊆ S → (x.recast r).lower s' = x.lower s
  | .table t, _ => by rw [Source.recast, Source.lower, Source.lower, h.tokens]
  | .subquery (.query q), hx => by
    obtain ⟨hid, hq⟩ := List.cons_subset.mp hx
    rw [Source.recast, Source.lower, Source.lower]
    exact Subquery.lower_recast h.asSource (.query q) (fun _ => hid) hq
  | .subquery (.compound c), hx => by
    obtain ⟨hid, hc⟩ := List.cons_subset.mp hx
    rw [Source.recast, Source.lower, Source.lower]
    exact Subquery.lower_recast h.asSource (.compound c) (fun _ => hid) hc

theorem Join.lower_recast {s s' : Scope} (h : s.SeenAs r S s') :
    ∀ j : Join, j.references ⊆ S → (j.recast r).lower s' = j.lower s
  | ⟨kind, source, condition⟩, hj => by
    obtain ⟨hsource, hcondition⟩ := List.append_subset.mp hj
    rw [Join.recast, Join.lower, Join.lower, Source.lower_recast h source hsource,
      JoinCondition.lower_recast h condition hcondition]

theorem JoinCondition.lower_recast {s s' : Scope} (h : s.SeenAs r S s') :
    ∀ c : JoinCondition, c.references ⊆ S → (c.recast r).lower s' = c.lower s
  | .all, _ => rfl
  | .on c, hc => by
    rw [JoinCondition.recast, JoinCondition.lower, JoinCondition.lower,
      Condition.lower_recast h.quiet c hc]
  | .sharing columns, _ => rfl

theorem CommonTable.lower_recast {s s' : Scope} (h : s.SeenAs r S s') :
    ∀ t : CommonTable, t.references ⊆ S → (t.recast r).lower s' = t.lower s
  | ⟨name, columns, recursive, body⟩, ht => by
    rw [CommonTable.recast, CommonTable.lower, CommonTable.lower,
      Subquery.lower_recast h.standalone body nofun ht]

theorem Term.lowerColumn_recast {s s' : Scope} (h : s.SeenAs r S s') :
    ∀ t : Term, t.references ⊆ S → (t.recast r).lowerColumn s' = t.lowerColumn s
  | ⟨expr, alias?⟩, ht => by
    -- A field is written by its name alone, any other column as the expression it is.
    have hexpr := Expr.lower_recast (h.quiet.qualifying false) expr ht
    cases expr with
    | field q name => rfl
    | _ => exact hexpr

theorem Assignment.lower_recast {s s' : Scope} (h : s.SeenAs r S s') :
    ∀ a : Assignment, a.references ⊆ S → (a.recast r).lower s' = a.lower s
  | ⟨column, value⟩, ha => by
    obtain ⟨hcolumn, hvalue⟩ := List.append_subset.mp ha
    rw [Assignment.recast, Assignment.lower, Assignment.lower,
      Term.lowerColumn_recast h column hcolumn, Term.lower_recast h.quiet value hvalue]

theorem Conflict.lower_recast {s s' : Scope} (h : s.SeenAs r S s') :
    ∀ c : Conflict, c.references ⊆ S → (c.recast r).lower s' = c.lower s
  | ⟨targets, targetFilter, handler, assignments, updateFilter⟩, hc => by
    simp only [Conflict.references, List.append_subset] at hc
    obtain ⟨⟨⟨htargets, htargetFilter⟩, hassignments⟩, hupdateFilter⟩ := hc
    rw [Conflict.recast, Conflict.lower, Conflict.lower,
      Term.lowerColumns_recast h targets htargets,
      Condition.lower_recast h.quiet targetFilter htargetFilter,
      Assignment.lowerAll_recast (h.qualifying true) assignments hassignments,
      Condition.lower_recast (h.qualifying true).quiet updateFilter hupdateFilter, h.dialect]
    exact Statement.conflictClause_recast s.dialect
      ⟨targets, targetFilter, handler, assignments, updateFilter⟩ _

theorem Query.lower_recast {s s' : Scope} (h : s.SeenAs r S s') :
    ∀ q : Query, (s.showsAlias = true → q.info.id ∈ S) → q.references ⊆ S →
      (q.recast r).lower s' = q.lower s
  | ⟨info, commonTables, sources, selects, distinctOn, joins, filter, groupBy, having, orderBy,
      columns, rows, conflict, duplicateUpdates, assignments, returning⟩, hid, hq => by
    have hq := Query.refersIn_iff.mpr hq
    have hinner := h.inside hq.aliases
    generalize hwhole : Query.mk info commonTables sources selects distinctOn joins filter groupBy
      having orderBy columns rows conflict duplicateUpdates assignments returning = q at *
    have hparts : ∀ inner inner' : Scope, inner.SeenAs r S inner' →
        (q.recast r).parts inner' = q.parts inner := by
      intro inner inner' h
      subst hwhole
      apply QueryParts.ext
      case commonTables => exact CommonTable.lowerAll_recast h commonTables hq.commonTables
      case sources => exact Source.lowerAll_recast h sources hq.sources
      case selects => exact Term.lowerAll_recast h.labelled selects hq.selects
      case distinctOn => exact Term.lowerAll_recast h.quiet distinctOn hq.distinctOn
      case joins => exact Join.lowerAll_recast h joins hq.joins
      case filter => exact Condition.lower_recast h.quiet filter hq.filter
      case groupBy =>
        rw [Query.parts, h.groupNames]
        exact Term.lowerAllNamed_recast h.quiet _ groupBy hq.groupBy
      case having => exact Condition.lower_recast h.quiet having hq.having
      case orderBy =>
        rw [Query.parts, h.orderNames]
        exact OrderItem.lowerAll_recast h.quiet _ orderBy hq.orderBy
      case columns => exact Term.lowerColumns_recast h columns hq.columns
      case rows => exact Term.lowerRows_recast h.quiet rows hq.rows
      case conflict =>
        cases conflict with
        | none => rfl
        | some c => exact Conflict.lower_recast h c (hq.conflict c rfl)
      case duplicateUpdates =>
        exact Assignment.lowerAll_recast h duplicateUpdates hq.duplicateUpdates
      case assignments => exact Assignment.lowerAll_recast h assignments hq.assignments
      case returning => exact Term.lowerAll_recast h.labelled returning hq.returning
    rw [Query.lower_eq, Query.lower_eq, q.isBlank_recast, hparts _ _ hinner,
      Statement.whole_recast q _ hinner, q.info_recast]
    simp only [QueryInfo.recast, Statement.placed_recast h hid]

theorem Compound.lower_recast {s s' : Scope} (h : s.SeenAs r S s') :
    ∀ c : Compound, (s.showsAlias = true → c.id ∈ S) → c.references ⊆ S →
      (c.recast r).lower s' = c.lower s
  | ⟨id, base, operands, orderBy, limit, offset, alias?⟩, hid, hc => by
    simp only [Compound.references, List.append_subset] at hc
    obtain ⟨⟨hbase, hoperands⟩, horder⟩ := hc
    rw [Compound.recast, Compound.lower, Compound.lower,
      Query.lower_recast h.operands base nofun hbase, base.selectCount_recast,
      Operand.lowerAll_recast h.operands base.selectCount operands hoperands rfl, h.orderNames,
      OrderItem.lowerAll_recast h.standalone (s.orderNames base) orderBy horder, h.dialect,
      OrderItem.recastAll_eq_map, List.isEmpty_map]
    simp only [Statement.placed_recast h hid]

theorem Term.lowerAll_recast {s s' : Scope} (h : s.SeenAs r S s') : ∀ ts : List Term,
    Term.referencesAll ts ⊆ S → Term.lowerAll s' (Term.recastAll r ts) = Term.lowerAll s ts
  | [], _ => rfl
  | t :: ts, hts => by
    obtain ⟨ht, hts⟩ := List.append_subset.mp hts
    rw [Term.recastAll, Term.lowerAll, Term.lowerAll, Term.lower_recast h t ht,
      Term.lowerAll_recast h ts hts]

theorem Term.lowerAllNamed_recast {s s' : Scope} (h : s.SeenAs r S s') (names : List String) :
    ∀ ts : List Term, Term.referencesAll ts ⊆ S →
      Term.lowerAllNamed s' names (Term.recastAll r ts) = Term.lowerAllNamed s names ts
  | [], _ => rfl
  | ⟨expr, alias?⟩ :: ts, hts => by
    obtain ⟨ht, hts⟩ := List.append_subset.mp hts
    rw [Term.recastAll, Term.recast, Term.lowerAllNamed, Term.lowerAllNamed,
      Expr.lower_recast h expr ht, Term.lowerAllNamed_recast h names ts hts]

theorem Term.lowerColumns_recast {s s' : Scope} (h : s.SeenAs r S s') : ∀ ts : List Term,
    Term.referencesAll ts ⊆ S → Term.lowerColumns s' (Term.recastAll r ts) = Term.lowerColumns s ts
  | [], _ => rfl
  | t :: ts, hts => by
    obtain ⟨ht, hts⟩ := List.append_subset.mp hts
    rw [Term.recastAll, Term.lowerColumns, Term.lowerColumns, Term.lowerColumn_recast h t ht,
      Term.lowerColumns_recast h ts hts]

theorem Term.lowerRows_recast {s s' : Scope} (h : s.SeenAs r S s') : ∀ rows : List (List Term),
    Term.referencesRows rows ⊆ S →
      Term.lowerRows s' (Term.recastRows r rows) = Term.lowerRows s rows
  | [], _ => rfl
  | row :: rows, hrows => by
    obtain ⟨hrow, hrows⟩ := List.append_subset.mp hrows
    rw [Term.recastRows, Term.lowerRows, Term.lowerRows, Term.lowerAll_recast h row hrow,
      Term.lowerRows_recast h rows hrows]

theorem OrderItem.lowerAll_recast {s s' : Scope} (h : s.SeenAs r S s') (names : List String) :
    ∀ items : List OrderItem, OrderItem.referencesAll items ⊆ S →
      OrderItem.lowerAll s' names (OrderItem.recastAll r items) = OrderItem.lowerAll s names items
  | [], _ => rfl
  | ⟨⟨expr, alias?⟩, order⟩ :: items, hitems => by
    obtain ⟨ht, hitems⟩ := List.append_subset.mp hitems
    rw [OrderItem.recastAll, Term.recast, OrderItem.lowerAll, OrderItem.lowerAll,
      Expr.lower_recast h expr ht, OrderItem.lowerAll_recast h names items hitems]

theorem Branch.lowerAll_recast {s s' : Scope} (h : s.SeenAs r S s') : ∀ branches : List Branch,
    Branch.referencesAll branches ⊆ S →
      Branch.lowerAll s' (Branch.recastAll r branches) = Branch.lowerAll s branches
  | [], _ => rfl
  | ⟨condition, result⟩ :: branches, hbranches => by
    obtain ⟨hbranch, hbranches⟩ := List.append_subset.mp hbranches
    obtain ⟨hcondition, hresult⟩ := List.append_subset.mp hbranch
    rw [Branch.recastAll, Branch.lowerAll, Branch.lowerAll,
      Condition.lower_recast h condition hcondition, Term.lower_recast h result hresult,
      Branch.lowerAll_recast h branches hbranches]

theorem Source.lowerAll_recast {s s' : Scope} (h : s.SeenAs r S s') : ∀ sources : List Source,
    Source.referencesAll sources ⊆ S →
      Source.lowerAll s' (Source.recastAll r sources) = Source.lowerAll s sources
  | [], _ => rfl
  | source :: sources, hsources => by
    obtain ⟨hsource, hsources⟩ := List.append_subset.mp hsources
    rw [Source.recastAll, Source.lowerAll, Source.lowerAll, Source.lower_recast h source hsource,
      Source.lowerAll_recast h sources hsources]

theorem Join.lowerAll_recast {s s' : Scope} (h : s.SeenAs r S s') : ∀ joins : List Join,
    Join.referencesAll joins ⊆ S → Join.lowerAll s' (Join.recastAll r joins) = Join.lowerAll s joins
  | [], _ => rfl
  | j :: joins, hjoins => by
    obtain ⟨hj, hjoins⟩ := List.append_subset.mp hjoins
    rw [Join.recastAll, Join.lowerAll, Join.lowerAll, Join.lower_recast h j hj,
      Join.lowerAll_recast h joins hjoins]

theorem CommonTable.lowerAll_recast {s s' : Scope} (h : s.SeenAs r S s') : ∀ ts : List CommonTable,
    CommonTable.referencesAll ts ⊆ S →
      CommonTable.lowerAll s' (CommonTable.recastAll r ts) = CommonTable.lowerAll s ts
  | [], _ => rfl
  | t :: ts, hts => by
    obtain ⟨ht, hts⟩ := List.append_subset.mp hts
    rw [CommonTable.recastAll, CommonTable.lowerAll, CommonTable.lowerAll,
      CommonTable.lower_recast h t ht, CommonTable.lowerAll_recast h ts hts]

theorem Assignment.lowerAll_recast {s s' : Scope} (h : s.SeenAs r S s') : ∀ as : List Assignment,
    Assignment.referencesAll as ⊆ S →
      Assignment.lowerAll s' (Assignment.recastAll r as) = Assignment.lowerAll s as
  | [], _ => rfl
  | a :: as, has => by
    obtain ⟨ha, has⟩ := List.append_subset.mp has
    rw [Assignment.recastAll, Assignment.lowerAll, Assignment.lowerAll,
      Assignment.lower_recast h a ha, Assignment.lowerAll_recast h as has]

theorem Operand.lowerAll_recast {s s' : Scope} (h : s.SeenAs r S s') (width : Nat) :
    ∀ operands : List Operand, Operand.referencesAll operands ⊆ S → s.showsAlias = false →
      Operand.lowerAll s' width (Operand.recastAll r operands) = Operand.lowerAll s width operands
  | [], _, _ => rfl
  | ⟨op, query⟩ :: operands, hoperands, hquiet => by
    obtain ⟨hquery, hoperands⟩ := List.append_subset.mp hoperands
    rw [Operand.recastAll, Operand.lowerAll, Operand.lowerAll, query.selectCount_recast,
      Query.lower_recast h query (fun hshows => absurd hshows (hquiet ▸ Bool.false_ne_true)) hquery,
      Operand.lowerAll_recast h width operands hoperands hquiet]

end

end SqlScribe
