import SqlScribe.Proofs.Presence.Composition
import SqlScribe.Proofs.Query.Run
/-! # Calls with conditions

Calls keep a query complete: a clause takes in what is built from leaves, and what the calls make up
by themselves is complete.

* `Query.Complete`: the parts of a query are complete, one by one.
* `Query.Step.Sound`: the conditions of a call are built from leaves, and its other arguments are
  complete.
* `Query.change_complete`, `Query.run_complete`: what such calls make of a complete query is
  complete. -/

namespace SqlScribe

/-! ## Parts -/

/-- The targets, assignments and conditions of a conflict clause are complete. -/
structure Conflict.Complete (c : Conflict) : Prop where
  targets : ∀ t ∈ c.targets, t.isComplete = true
  targetFilter : c.targetFilter.Fit
  assignments : ∀ a ∈ c.assignments, a.isComplete = true
  updateFilter : c.updateFilter.Fit

theorem Conflict.complete_iff (c : Conflict) : c.isComplete = true ↔ c.Complete := by
  obtain ⟨targets, targetFilter, handler, assignments, updateFilter⟩ := c
  rw [Conflict.isComplete]
  simp only [Bool.and_eq_true_iff, Term.allComplete_iff, Assignment.allComplete_iff]
  constructor
  · rintro ⟨htargets, htargetFilter, hassignments, hupdateFilter⟩
    exact ⟨htargets, htargetFilter, hassignments, hupdateFilter⟩
  · intro h
    exact ⟨h.targets, h.targetFilter, h.assignments, h.updateFilter⟩

/-- All parts of a query are complete. -/
structure Query.Complete (q : Query) : Prop where
  commonTables : ∀ t ∈ q.commonTables, t.isComplete = true
  sources : ∀ s ∈ q.sources, s.isComplete = true
  selects : ∀ t ∈ q.selects, t.isComplete = true
  distinctOn : ∀ t ∈ q.distinctOn, t.isComplete = true
  joins : ∀ j ∈ q.joins, j.isComplete = true
  filter : q.filter.Fit
  groupBy : ∀ t ∈ q.groupBy, t.isComplete = true
  having : q.having.Fit
  orderBy : ∀ item ∈ q.orderBy, item.term.isComplete = true
  columns : ∀ t ∈ q.columns, t.isComplete = true
  rows : ∀ row ∈ q.rows, ∀ t ∈ row, t.isComplete = true
  conflict : ∀ c ∈ q.conflict, c.Complete
  duplicateUpdates : ∀ a ∈ q.duplicateUpdates, a.isComplete = true
  assignments : ∀ a ∈ q.assignments, a.isComplete = true
  returning : ∀ t ∈ q.returning, t.isComplete = true

theorem Query.complete_iff (q : Query) : q.isComplete = true ↔ q.Complete := by
  obtain ⟨info, commonTables, sources, selects, distinctOn, joins, filter, groupBy, having, orderBy,
    columns, rows, conflict, duplicateUpdates, assignments, returning⟩ := q
  have hrows : Term.rowsComplete rows = true ↔ ∀ row ∈ rows, ∀ t ∈ row, t.isComplete = true :=
    (Term.rowsComplete_iff rows).trans
      (forall₂_congr fun row _ => Term.allComplete_iff row)
  rw [Query.isComplete.eq_def]
  simp only [Bool.and_eq_true_iff, CommonTable.allComplete_iff, Source.allComplete_iff,
    Term.allComplete_iff, Join.allComplete_iff, OrderItem.allComplete_iff, hrows,
    Assignment.allComplete_iff]
  constructor
  · rintro ⟨h₁, h₂, h₃, h₄, h₅, h₆, h₇, h₈, h₉, h₁₀, h₁₁, h₁₂, h₁₃, h₁₄, h₁₅⟩
    refine ⟨h₁, h₂, h₃, h₄, h₅, h₆, h₇, h₈, h₉, h₁₀, h₁₁, fun c hc => ?_, h₁₃, h₁₄, h₁₅⟩
    cases hc
    exact c.complete_iff.mp h₁₂
  · intro h
    refine ⟨h.commonTables, h.sources, h.selects, h.distinctOn, h.joins, h.filter, h.groupBy,
      h.having, h.orderBy, h.columns, h.rows, ?_, h.duplicateUpdates, h.assignments, h.returning⟩
    cases conflict with
    | none => rfl
    | some c => exact c.complete_iff.mpr (h.conflict c rfl)

/-! ## Arguments -/

/-- An item of a list that is a term is built with conditions made of leaves. -/
def SelectItem.Composed : SelectItem → Prop
  | .column _ => True
  | .term t => t.Composed

namespace SelectItem

variable {item : SelectItem}

theorem Composed.toTerm (h : item.Composed) (ns : Option Qualifier) :
    (item.toTerm ns).isComplete = true := by
  cases item with
  | term t => exact Term.Composed.isComplete h
  | column name =>
    unfold SelectItem.toTerm
    dsimp only
    split
    · rfl
    · cases ns with
      | none => rfl
      | some ns => rfl

theorem Composed.toColumn (h : item.Composed) : item.toColumn.isComplete = true := by
  rw [SelectItem.toColumn]
  split
  · rfl
  · exact h.toTerm none

theorem Composed.toColumns {items : List SelectItem} (h : ∀ item ∈ items, Composed item) :
    ∀ t ∈ items.map SelectItem.toColumn, t.isComplete = true := by
  intro t ht
  obtain ⟨item, hitem, rfl⟩ := List.mem_map.mp ht
  exact (h item hitem).toColumn

end SelectItem

/-- A condition that a join goes by is built from leaves. -/
def JoinRule.Composed : JoinRule → Prop
  | .on c => c.Composed
  | .onFields _ | .sharing _ | .cross => True

namespace Query

/-- The conditions of a call are built from leaves, terms are built with such conditions, and
queries are complete. -/
def Step.Sound : Step → Prop
  | .source s => s.isComplete = true
  | .commonTable t => t.isComplete = true
  | .filter c | .having c | .conflictWhere c => c.Composed
  | .select items | .distinctOn items | .groupBy items | .rollup items | .orderBy items _
  | .columns items | .onConflict items | .returning items => ∀ item ∈ items, item.Composed
  | .join _ s rule => s.isComplete = true ∧ rule.Composed
  | .rows l => ∀ row ∈ l, ∀ t ∈ row, t.Composed
  | .replace row => ∀ t ∈ row, t.Composed
  | .assign item value | .onDuplicateUpdate item value => item.Composed ∧ value.Composed
  | .doUpdate item value => item.Composed ∧ ∀ t ∈ value, t.Composed
  | .setImmutable _ | .fork | .aliased _ | .distinct | .top _ | .limit _ | .offset _ | .lock _
  | .into _ | .ignore | .insertOrReplace | .update _ | .delete | .usingTables _ | .doNothing
  | .onDuplicateIgnore => True

theorem start_isComplete (id : SourceId) (d : Dialect) : (start id d).isComplete = true := rfl

namespace Complete

variable {q : Query} {items : List SelectItem} {t : Term}

/-! ## Selections -/

theorem aliased_isComplete {s : Subquery} (h : s.isComplete = true) (name : String) :
    (s.aliased name).isComplete = true := by
  cases s with
  | query q =>
    rw [Subquery.isComplete, complete_iff] at h
    rw [Subquery.aliased, Subquery.isComplete, complete_iff]
    exact { h with }
  | compound c =>
    obtain ⟨id, base, operands, orderBy, limit, offset, alias?⟩ := c
    rw [Subquery.isComplete, Compound.isComplete] at h
    rwa [Subquery.aliased, Subquery.isComplete, Compound.isComplete]

theorem append_source (h : q.Complete) {s : Source} (hs : s.isComplete = true) :
    Complete { q with sources := q.sources ++ [s] } :=
  { h with
    sources := List.forall_mem_append.mpr ⟨h.sources, List.forall_mem_singleton.mpr hs⟩ }

theorem addSource (h : q.Complete) {s : Source} (hs : s.isComplete = true) :
    (q.addSource s).Complete := by
  cases s with
  | table t => exact h.append_source hs
  | subquery inner =>
    rw [Query.addSource]
    cases inner.alias? with
    | some _ => exact h.append_source hs
    | none =>
      -- The subquery is given a name, which is no part of it that a condition stands in.
      rw [Source.isComplete] at hs
      have hnamed (number next : Nat) : (q.nameSource number next inner).1.Complete := { h with }
      refine (hnamed _ _).append_source ?_
      rw [Source.isComplete]
      exact aliased_isComplete hs _

theorem termsOf (q : Query) (hitems : ∀ item ∈ items, item.Composed) :
    ∀ t ∈ q.termsOf items, t.isComplete = true := by
  intro t ht
  obtain ⟨item, hitem, rfl⟩ := List.mem_map.mp ht
  exact (hitems item hitem).toTerm _

theorem append_select (h : q.Complete) (ht : t.isComplete = true) :
    Complete { q with selects := q.selects ++ [t] } :=
  { h with
    selects := List.forall_mem_append.mpr ⟨h.selects, List.forall_mem_singleton.mpr ht⟩ }

theorem selectColumn (h : q.Complete) (ht : t.isComplete = true) :
    (q.selectColumn t).Complete := by
  unfold Query.selectColumn
  split
  · exact h
  · split
    · split
      · exact { h with selects := List.forall_mem_singleton.mpr ht }
      · have hkept (keep : Term → Bool) : ∀ u ∈ q.selects.filter keep, u.isComplete = true :=
          fun u hu => h.selects u (List.mem_filter.mp hu).1
        exact { h with
          selects := List.forall_mem_append.mpr ⟨hkept _, List.forall_mem_singleton.mpr ht⟩ }
    · exact h.append_select ht

theorem selectItem (h : q.Complete) {item : SelectItem} (hitem : item.Composed) :
    Yields Complete (q.selectItem item) := by
  cases item with
  | column name =>
    rw [Query.selectItem]
    split
    · exact .ok (h.selectColumn (hitem.toTerm _))
    · exact .error _
  | term t =>
    have ht : t.isComplete = true := hitem.toTerm none
    exact iteInduction (fun _ => .ok (h.selectColumn ht)) fun _ => .ok (h.append_select ht)

theorem select (h : q.Complete) (hitems : ∀ item ∈ items, item.Composed) :
    Yields Complete (q.select items) := by
  have hfold : Yields Complete (items.foldlM Query.selectItem q) := by
    induction items generalizing q with
    | nil => exact .pure h
    | cons item items ih =>
      obtain ⟨hitem, hitems⟩ := List.forall_mem_cons.mp hitems
      rw [List.foldlM_cons]
      exact (h.selectItem hitem).bind fun q hq => ih hq hitems
  exact iteInduction (fun _ => .error _) fun _ => iteInduction (fun _ => .error _) fun _ => hfold

theorem extendRollup {groups terms : List Term} (hgroups : ∀ t ∈ groups, t.isComplete = true)
    (hterms : ∀ t ∈ terms, t.isComplete = true) :
    ∀ t ∈ extendRollup groups terms, t.isComplete = true := by
  have hcall (k : Call) (alias? : Option String) :
      (⟨.call k, alias?⟩ : Term).isComplete = k.isComplete := by
    rw [Term.isComplete, Expr.isComplete]
  have hnew : ∀ t ∈ groups ++ [Term.invoke "ROLLUP" terms], t.isComplete = true := by
    refine List.forall_mem_append.mpr ⟨hgroups, List.forall_mem_singleton.mpr ?_⟩
    refine (hcall _ _).trans ((Call.isComplete_iff _).mpr ⟨?_, ?_, ?_⟩)
    · exact (Term.allComplete_iff terms).mpr hterms
    · intro c hc
      cases hc
    · intro w hw
      cases hw
  -- A rollup that is the last group takes in the new terms; otherwise they make one of their own.
  rw [Query.extendRollup]
  split
  · next k alias? hlast =>
    split
    · have hk := hgroups _ (List.mem_of_getLast? hlast)
      rw [hcall, Call.isComplete_iff, Term.allComplete_iff] at hk
      refine List.forall_mem_append.mpr
        ⟨fun t ht => hgroups t (List.dropLast_subset _ ht), List.forall_mem_singleton.mpr ?_⟩
      rw [hcall, Call.isComplete_iff, Term.allComplete_iff]
      exact ⟨List.forall_mem_append.mpr ⟨hk.1, hterms⟩, hk.2⟩
    · exact hnew
  · exact hnew

theorem append_groupBy (h : q.Complete) {ts : List Term} (hts : ∀ t ∈ ts, t.isComplete = true) :
    Complete { q with groupBy := q.groupBy ++ ts } :=
  { h with groupBy := List.forall_mem_append.mpr ⟨h.groupBy, hts⟩ }

theorem rollup (h : q.Complete) (hitems : ∀ item ∈ items, item.Composed) :
    Yields Complete (q.rollup items) := by
  have hterms := termsOf q hitems
  unfold Query.rollup
  dsimp only
  split
  · exact iteInduction (fun _ => .error _) fun _ => iteInduction (fun _ => .error _) fun _ =>
      .ok { h.append_groupBy hterms with }
  · exact .ok { h with groupBy := extendRollup h.groupBy hterms }

/-! ## Joins -/

theorem agreement_present (left right : Qualifier) {names : List String}
    (hne : names.isEmpty = false) : (agreement left right names).Present := by
  have hequals (n : String) :
      ((Term.qualified left n).equals (Term.qualified right n)).Present := ⟨rfl, rfl⟩
  cases names with
  | nil => cases hne
  | cons n names =>
    have hall : agreement left right (n :: names) = (names.map fun n =>
        (Term.qualified left n).equals (Term.qualified right n)).foldl (Condition.combine .and)
          ((Term.qualified left n).equals (Term.qualified right n)) := rfl
    rw [hall]
    refine Condition.Present.foldl .and (hequals n) fun c hc => ?_
    obtain ⟨m, -, rfl⟩ := List.mem_map.mp hc
    exact hequals m

theorem prepareJoin (h : q.Complete) {s : Source} (hs : s.isComplete = true) :
    (q.prepareJoin s).1.Complete ∧ (q.prepareJoin s).2.isComplete = true := by
  cases s with
  | table t => exact ⟨h, hs⟩
  | subquery inner =>
    rw [Query.prepareJoin]
    cases inner.alias? with
    | some _ => exact ⟨h, hs⟩
    | none =>
      rw [Source.isComplete] at hs
      refine ⟨{ h with }, ?_⟩
      dsimp only
      rw [Source.isComplete]
      exact aliased_isComplete hs _

/-- A join goes by a condition that is there. -/
theorem joinCondition (q : Query) (kind : JoinKind) (joined : Source) {rule : JoinRule}
    (hrule : rule.Composed) :
    Yields (fun r => r.2.isComplete = true) (q.joinCondition kind joined rule) := by
  have hon {c : Condition} (hc : c.Present) : (JoinCondition.on c).isComplete = true := by
    rw [JoinCondition.isComplete, hc.1, hc.2]
    rfl
  cases rule with
  | on c =>
    refine iteInduction (fun _ => .error _) fun hne => .ok (hon ?_)
    exact (Condition.Composed.fit hrule).present (Bool.of_not_eq_true hne)
  | onFields names =>
    rw [Query.joinCondition]
    split
    · exact .error _
    · refine iteInduction (fun _ => .error _) fun hne => .ok (hon ?_)
      exact agreement_present _ _ (Bool.of_not_eq_true hne)
  | sharing names => exact iteInduction (fun _ => .error _) fun _ => .ok rfl
  | cross => exact .ok rfl

theorem addJoin (h : q.Complete) (kind : JoinKind) {s : Source} (hs : s.isComplete = true)
    {condition : JoinCondition} (hcondition : condition.isComplete = true) :
    (q.addJoin kind s condition).Complete := by
  have hadded {added : Join} (hj : added.isComplete = true) :
      ∀ j ∈ q.joins ++ [added], j.isComplete = true :=
    List.forall_mem_append.mpr ⟨h.joins, List.forall_mem_singleton.mpr hj⟩
  have hjoin {s : Source} (hs : s.isComplete = true) :
      Join.isComplete ⟨kind, s, condition⟩ = true := by
    rw [Join.isComplete, hs, hcondition]
    rfl
  cases s with
  | table t =>
    have htable (t : Table) : (Source.table t).isComplete = true := by rw [Source.isComplete]
    unfold Query.addJoin
    dsimp only
    split
    · exact { h with joins := hadded (hjoin (htable _)) }
    · exact { h with joins := hadded (hjoin hs) }
  | subquery s => exact { h with joins := hadded (hjoin hs) }

theorem join (h : q.Complete) (kind : JoinKind) {s : Source} (hs : s.isComplete = true)
    {rule : JoinRule} (hrule : rule.Composed) : Yields Complete (q.join kind s rule) := by
  obtain ⟨hq, hs⟩ := h.prepareJoin hs
  refine (joinCondition _ kind _ hrule).bind fun r hr => ?_
  refine Yields.bind (p := fun _ => True) (fun _ _ => trivial) fun _ _ => .pure ?_
  exact hq.addJoin r.1 hs hr

/-! ## Insertions, updates and deletions -/

theorem into (h : q.Complete) (t : Table) : Yields Complete (q.into t) := by
  unfold Query.into
  split
  · exact .error _
  · exact .error _
  · exact .error _
  · exact .ok { h with }

theorem addColumns (h : q.Complete) (hitems : ∀ item ∈ items, item.Composed) :
    Yields Complete (q.addColumns items) :=
  .guarded { h with
    columns := List.forall_mem_append.mpr ⟨h.columns, SelectItem.Composed.toColumns hitems⟩ }

theorem addRows (h : q.Complete) {rows : List (List Term)}
    (hrows : ∀ row ∈ rows, ∀ t ∈ row, t.Composed) : Yields Complete (q.addRows rows) := by
  unfold Query.addRows
  split
  · exact iteInduction (fun _ => .error _) fun _ => .ok { h with
      rows := List.forall_mem_append.mpr
        ⟨h.rows, fun row hrow t ht => (hrows row hrow t ht).isComplete⟩ }
  · exact .error _
  · exact .error _
  · exact .error _

theorem update (h : q.Complete) (t : Table) : Yields Complete (q.update t) := by
  unfold Query.update
  split
  · exact .error _
  · exact .error _
  · exact .error _
  · exact .guarded { h with }

theorem delete (h : q.Complete) : Yields Complete q.delete := by
  unfold Query.delete
  split
  · exact .error _
  · exact .error _
  · exact .guarded { h with }
  · exact .guarded { h with }

theorem assignment {item : SelectItem} {value : Term} (hitem : item.Composed)
    (hvalue : value.isComplete = true) : Assignment.isComplete ⟨item.toColumn, value⟩ = true := by
  rw [Assignment.isComplete, hitem.toColumn, hvalue]
  rfl

/-! ## Conflicts and returned items -/

theorem withConflict (h : q.Complete) {c : Conflict} (hc : c.Complete) :
    Complete { q with conflict := some c } :=
  { h with conflict := fun _ hd => Option.some.inj hd ▸ hc }

theorem onConflict (h : q.Complete) (hitems : ∀ item ∈ items, item.Composed) :
    Yields Complete (q.onConflict items) := by
  have hold : (q.conflict.getD ⟨[], .empty, none, [], .empty⟩).Complete := by
    cases hc : q.conflict with
    | none =>
      exact ⟨List.forall_mem_nil _, .empty, List.forall_mem_nil _, .empty⟩
    | some c => exact h.conflict c hc
  refine .guarded (h.withConflict { hold with targets := ?_ })
  exact List.forall_mem_append.mpr ⟨hold.targets, SelectItem.Composed.toColumns hitems⟩

theorem changeConflict (h : q.Complete) {change : Conflict → Except QueryError Conflict}
    (hchange : ∀ c : Conflict, c.Complete → Yields Conflict.Complete (change c)) :
    Yields Complete (q.changeConflict change) := by
  unfold Query.changeConflict
  split
  · exact .error _
  · next c hc => exact (hchange c (h.conflict c hc)).bind fun d hd => .pure (h.withConflict hd)

theorem doNothing (h : q.Complete) : Yields Complete q.doNothing := by
  refine h.changeConflict fun c hc => ?_
  split
  · exact .error _
  · exact .ok hc
  · exact .ok { hc with }

theorem doUpdate (h : q.Complete) {item : SelectItem} (hitem : item.Composed)
    {value : Option Term} (hvalue : ∀ t ∈ value, t.Composed) :
    Yields Complete (q.doUpdate item value) := by
  refine h.changeConflict fun c hc => ?_
  split
  · exact .error _
  · refine .ok { hc with assignments := ?_ }
    refine List.forall_mem_append.mpr
      ⟨hc.assignments, List.forall_mem_singleton.mpr (assignment hitem ?_)⟩
    cases value with
    | none => rfl
    | some t => exact (hvalue t rfl).isComplete

theorem conflictWhere (h : q.Complete) {c : Condition} (hc : c.Composed) :
    Yields Complete (q.conflictWhere c) := by
  refine h.changeConflict fun d hd => ?_
  refine iteInduction (fun _ => .error _) fun _ => iteInduction (fun _ => .error _) fun _ => ?_
  split
  · exact .ok { hd with updateFilter := hd.updateFilter.combine .and hc.fit }
  · exact .ok { hd with targetFilter := hd.targetFilter.combine .and hc.fit }

theorem returningItems (h : q.Complete) (hitems : ∀ item ∈ items, item.Composed) :
    Yields Complete (q.returningItems items) := by
  have hreturn (q : Query) (h : q.Complete) (t : Term) (ht : t.isComplete = true) :
      Yields Complete (q.returnTerm t) := by
    refine iteInduction (fun _ => .error _) fun _ => iteInduction (fun _ => .ok h) fun _ =>
      iteInduction (fun _ => .ok ?_) fun _ => .ok ?_
    · exact { h with returning := List.forall_mem_singleton.mpr ht }
    · exact { h with
        returning := List.forall_mem_append.mpr ⟨h.returning, List.forall_mem_singleton.mpr ht⟩ }
  have hfold (ts : List Term) (hts : ∀ t ∈ ts, t.isComplete = true) (q : Query)
      (h : q.Complete) : Yields Complete (ts.foldlM returnTerm q) := by
    induction ts generalizing q with
    | nil => exact .pure h
    | cons t ts ih =>
      obtain ⟨ht, hts⟩ := List.forall_mem_cons.mp hts
      rw [List.foldlM_cons]
      exact (hreturn q h t ht).bind fun q hq => ih hts q hq
  unfold Query.returningItems
  split
  · exact .error _
  · refine hfold _ (fun t ht => ?_) q h
    obtain ⟨item, hitem, rfl⟩ := List.mem_map.mp ht
    exact (hitems item hitem).toTerm _

end Complete

/-! ## Programs -/

variable {q : Query}

/-- A call whose conditions are built from leaves keeps a query complete. -/
theorem change_complete (h : q.Complete) {s : Step} (hs : s.Sound) :
    Yields Complete (q.change s) := by
  cases s with
  | fork => exact .ok h
  | setImmutable _ | aliased _ | distinct | limit _ | offset _ | lock _ | ignore | insertOrReplace
  | usingTables _ => exact .ok { h with }
  | source s => exact .ok (h.addSource hs)
  | commonTable t => exact .ok { h with
      commonTables := List.forall_mem_append.mpr
        ⟨h.commonTables, List.forall_mem_singleton.mpr hs⟩ }
  | select items => exact h.select hs
  | distinctOn items => exact .ok { h with
      distinctOn := List.forall_mem_append.mpr ⟨h.distinctOn, Complete.termsOf q hs⟩ }
  | top t => exact iteInduction (fun _ => .error _) fun _ => .ok { h with }
  | filter c => exact .ok { h with filter := h.filter.combine .and hs.fit }
  | having c => exact .ok { h with having := h.having.combine .and hs.fit }
  | groupBy items => exact .ok (h.append_groupBy (Complete.termsOf q hs))
  | rollup items => exact h.rollup hs
  | orderBy items order =>
    refine .ok { h with orderBy := List.forall_mem_append.mpr ⟨h.orderBy, fun item hitem => ?_⟩ }
    obtain ⟨t, ht, rfl⟩ := List.mem_map.mp hitem
    exact Complete.termsOf q hs t ht
  | join kind s rule => exact h.join kind hs.1 hs.2
  | into t => exact h.into t
  | columns items => exact h.addColumns hs
  | rows rows => exact h.addRows hs
  | replace row =>
    have hmode : (q.setInsertMode .replace).Complete := { h with }
    exact hmode.addRows (List.forall_mem_singleton.mpr hs)
  | update t => exact h.update t
  | assign column value => exact .ok { h with
      assignments := List.forall_mem_append.mpr
        ⟨h.assignments, List.forall_mem_singleton.mpr
          (Complete.assignment hs.1 hs.2.isComplete)⟩ }
  | delete => exact h.delete
  | onConflict items => exact h.onConflict hs
  | doNothing => exact h.doNothing
  | doUpdate item value => exact h.doUpdate hs.1 hs.2
  | conflictWhere c => exact h.conflictWhere hs
  | onDuplicateUpdate item value => exact .guarded { h with
      duplicateUpdates := List.forall_mem_append.mpr
        ⟨h.duplicateUpdates, List.forall_mem_singleton.mpr
          (Complete.assignment hs.1 hs.2.isComplete)⟩ }
  | onDuplicateIgnore => exact .guarded { h with }
  | returning items => exact h.returningItems hs

theorem settled_complete (h : q.Complete) (fresh : SourceId) (s : Step) :
    (q.settled fresh s).Complete := by
  have htouched : (q.touched fresh).Complete := by
    unfold touched
    split
    · exact { h with }
    · exact h
  cases s with
  | setImmutable _ | aliased _ => exact h
  | fork => exact { h with }
  | _ => exact htouched

/-- So does a program of such calls. -/
theorem run_complete (h : q.Complete) {steps : List (SourceId × Step)}
    (hsteps : ∀ s ∈ steps, s.2.Sound) : Yields Complete (q.run steps) := by
  induction steps generalizing q with
  | nil => exact .pure h
  | cons s steps ih =>
    obtain ⟨hs, hsteps⟩ := List.forall_mem_cons.mp hsteps
    intro q' hrun
    obtain ⟨next, hstep, hrest⟩ := run_cons hrun
    -- What is settled after the call is the identity of the query, which no condition stands in.
    have hnext : Yields Complete (q.step s.1 s.2) :=
      (change_complete h hs).bind fun q hq => .pure (settled_complete hq s.1 s.2)
    exact ih (hnext next hstep) hsteps q' hrest

end Query

end SqlScribe
