import SqlScribe.Proofs.Query.Run
import SqlScribe.Proofs.Masking.Lowering
import SqlScribe.Render
/-! # The dialect of a query

A query carries a dialect from its beginning. Its calls pass it by, all but one: a roll-up is
attached in the way of that dialect. The rendering asks for it only where no other dialect is given.

* `Query.inDialect`: a query with another dialect.
* `Query.change_inDialect`, `Query.run_inDialect`: calls do the same to the query in another
  dialect, as long as the two dialects attach a roll-up alike or there is none.
* `Query.lower_inDialect`: the tokens of a query do not depend on its own dialect.
* `Query.runs_alike`: what the same calls make of a beginning in one dialect and in another. -/

namespace SqlScribe

namespace Query

/-- The query with another dialect. -/
def inDialect (q : Query) (d : Dialect) : Query := { q with info.dialect := d }

/-- The call is a roll-up. -/
def Step.isRollup : Step → Bool
  | .rollup _ => true
  | _ => false

section Calls

variable (q : Query) (d : Dialect)

theorem inDialect_self : q.inDialect q.info.dialect = q := by
  cases q
  rfl

/-- What each step of a fold does in the other dialect too, the whole fold does. -/
theorem foldlM_inDialect {α : Type} {f : Query → α → Except QueryError Query}
    (hf : ∀ q a, f (q.inDialect d) a = (f q a).map (·.inDialect d)) (l : List α) :
    l.foldlM f (q.inDialect d) = (l.foldlM f q).map (·.inDialect d) := by
  induction l generalizing q with
  | nil => rfl
  | cons a l ih =>
    rw [List.foldlM_cons, List.foldlM_cons, hf]
    cases f q a with
    | error e => rfl
    | ok next => exact ih next

/-! ## Selections -/

theorem addSource_inDialect (s : Source) :
    (q.inDialect d).addSource s = (q.addSource s).inDialect d := by
  cases s with
  | table t => rfl
  | subquery inner =>
    rw [addSource, addSource]
    cases inner.alias? <;> rfl

theorem selectColumn_inDialect (column : Term) :
    (q.inDialect d).selectColumn column = (q.selectColumn column).inDialect d := by
  have hcovered : (q.inDialect d).isCovered column = q.isCovered column := rfl
  rw [selectColumn, selectColumn, hcovered]
  cases q.isCovered column with
  | true => rfl
  | false =>
    cases column.isStar with
    | false => rfl
    | true => cases column.qualifier? <;> rfl

theorem selectItem_inDialect (item : SelectItem) :
    (q.inDialect d).selectItem item = (q.selectItem item).map (·.inDialect d) := by
  cases item with
  | column name =>
    have hsource : (q.inDialect d).sourceQualifier? = q.sourceQualifier? := rfl
    rw [selectItem, selectItem, hsource]
    cases q.sourceQualifier? with
    | none => rfl
    | some ns => exact congrArg Except.ok (q.selectColumn_inDialect d _)
  | term t =>
    rw [selectItem, selectItem]
    cases t.isField || t.isStar with
    | false => rfl
    | true => exact congrArg Except.ok (q.selectColumn_inDialect d t)

theorem select_inDialect (items : List SelectItem) :
    (q.inDialect d).select items = (q.select items).map (·.inDialect d) := by
  have hrows : (q.inDialect d).rows = q.rows := rfl
  have haction : (q.inDialect d).info.action = q.info.action := rfl
  rw [select, select, hrows, haction]
  cases !q.rows.isEmpty with
  | true => rfl
  | false =>
    cases q.info.action.isChange with
    | true => rfl
    | false => exact q.foldlM_inDialect d (fun q item => q.selectItem_inDialect d item) items

theorem top_inDialect (t : Top) : (q.inDialect d).top t = (q.top t).map (·.inDialect d) := by
  rw [top, top]
  cases t.percent && decide (100 < t.count) <;> rfl

/-- A roll-up asks for the dialect of the query, but only for how it is attached. -/
theorem rollup_inDialect (items : List SelectItem)
    (h : q.info.dialect.profile.rollup = d.profile.rollup) :
    (q.inDialect d).rollup items = (q.rollup items).map (·.inDialect d) := by
  have hown : (q.inDialect d).info.dialect.profile.rollup = q.info.dialect.profile.rollup := h.symm
  have honce : (q.inDialect d).info.withRollup = q.info.withRollup := rfl
  have hterms : (q.inDialect d).termsOf items = q.termsOf items := rfl
  have hgroups : (q.inDialect d).groupBy = q.groupBy := rfl
  rw [rollup, rollup, hown, honce, hterms, hgroups]
  cases q.info.dialect.profile.rollup with
  | function => rfl
  | withRollup =>
    cases q.info.withRollup with
    | true => rfl
    | false => cases (q.termsOf items).isEmpty && q.groupBy.isEmpty <;> rfl

/-! ## Joins -/

theorem join_inDialect (kind : JoinKind) (source : Source) (rule : JoinRule) :
    (q.inDialect d).join kind source rule = (q.join kind source rule).map (·.inDialect d) := by
  have hprepare : (q.inDialect d).prepareJoin source =
      ((q.prepareJoin source).1.inDialect d, (q.prepareJoin source).2) := by
    cases source with
    | table t => rfl
    | subquery s =>
      rw [prepareJoin, prepareJoin]
      cases s.alias? <;> rfl
  rw [join, join, hprepare]
  generalize q.prepareJoin source = prepared
  obtain ⟨q, source⟩ := prepared
  have hcondition : (q.inDialect d).joinCondition kind source rule =
      q.joinCondition kind source rule := rfl
  have hcheck : ∀ condition, (q.inDialect d).checkJoin source condition =
      q.checkJoin source condition := fun _ => rfl
  have hadd : ∀ kind condition, (q.inDialect d).addJoin kind source condition =
      (q.addJoin kind source condition).inDialect d := by
    intro kind condition
    cases source with
    | subquery s => rfl
    | table t =>
      have hbase : (q.inDialect d).isBaseTable t = q.isBaseTable t := rfl
      rw [addJoin, addJoin, hbase]
      cases t.alias?.isNone && q.isBaseTable t <;> rfl
  simp only [hcondition, hcheck, hadd]
  cases q.joinCondition kind source rule with
  | error e => rfl
  | ok settled =>
    obtain ⟨kind, condition⟩ := settled
    dsimp only [bind, Except.bind]
    cases q.checkJoin source condition <;> rfl

/-! ## Insertions, updates and deletions -/

theorem into_inDialect (t : Table) : (q.inDialect d).into t = (q.into t).map (·.inDialect d) := by
  have haction : (q.inDialect d).info.action = q.info.action := rfl
  rw [into, into, haction]
  cases q.info.action <;> rfl

theorem addColumns_inDialect (items : List SelectItem) :
    (q.inDialect d).addColumns items = (q.addColumns items).map (·.inDialect d) := by
  have hinsertion : (q.inDialect d).isInsertion = q.isInsertion := rfl
  rw [addColumns, addColumns, hinsertion]
  cases q.isInsertion <;> rfl

theorem addRows_inDialect (rows : List (List Term)) :
    (q.inDialect d).addRows rows = (q.addRows rows).map (·.inDialect d) := by
  have haction : (q.inDialect d).info.action = q.info.action := rfl
  have hselects : (q.inDialect d).selects = q.selects := rfl
  rw [addRows, addRows, haction, hselects]
  cases q.info.action with
  | select => rfl
  | update t => rfl
  | delete => rfl
  | insert t fromList =>
    dsimp only
    cases fromList || !q.selects.isEmpty <;> rfl

theorem update_inDialect (t : Table) :
    (q.inDialect d).update t = (q.update t).map (·.inDialect d) := by
  have haction : (q.inDialect d).info.action = q.info.action := rfl
  have hselects : (q.inDialect d).selects = q.selects := rfl
  rw [update, update, haction, hselects]
  cases q.info.action with
  | select => cases q.selects.isEmpty <;> rfl
  | update t => rfl
  | delete => rfl
  | insert t fromList => rfl

theorem delete_inDialect : (q.inDialect d).delete = q.delete.map (·.inDialect d) := by
  have haction : (q.inDialect d).info.action = q.info.action := rfl
  have hselects : (q.inDialect d).selects = q.selects := rfl
  rw [delete, delete, haction, hselects]
  cases q.info.action with
  | select => cases q.selects.isEmpty <;> rfl
  | update t => rfl
  | delete => cases q.selects.isEmpty <;> rfl
  | insert t fromList => rfl

/-! ## Conflicts and returned items -/

theorem onConflict_inDialect (items : List SelectItem) :
    (q.inDialect d).onConflict items = (q.onConflict items).map (·.inDialect d) := by
  have hinsertion : (q.inDialect d).isInsertion = q.isInsertion := rfl
  rw [onConflict, onConflict, hinsertion]
  cases q.isInsertion <;> rfl

theorem changeConflict_inDialect (change : Conflict → Except QueryError Conflict) :
    (q.inDialect d).changeConflict change = (q.changeConflict change).map (·.inDialect d) := by
  have hconflict : (q.inDialect d).conflict = q.conflict := rfl
  rw [changeConflict, changeConflict, hconflict]
  cases q.conflict with
  | none => rfl
  | some c =>
    dsimp only
    cases change c <;> rfl

theorem onDuplicateUpdate_inDialect (item : SelectItem) (value : Term) :
    (q.inDialect d).onDuplicateUpdate item value =
      (q.onDuplicateUpdate item value).map (·.inDialect d) := by
  have hinsertion : (q.inDialect d).isInsertion = q.isInsertion := rfl
  rw [onDuplicateUpdate, onDuplicateUpdate, hinsertion]
  cases q.isInsertion <;> rfl

theorem onDuplicateIgnore_inDialect :
    (q.inDialect d).onDuplicateIgnore = q.onDuplicateIgnore.map (·.inDialect d) := by
  have hinsertion : (q.inDialect d).isInsertion = q.isInsertion := rfl
  rw [onDuplicateIgnore, onDuplicateIgnore, hinsertion]
  cases q.isInsertion <;> rfl

theorem returnTerm_inDialect (t : Term) :
    (q.inDialect d).returnTerm t = (q.returnTerm t).map (·.inDialect d) := by
  have hstar : (q.inDialect d).info.returnsStar = q.info.returnsStar := rfl
  rw [returnTerm, returnTerm, hstar]
  cases t.aggregation with
  | aggregate => rfl
  | _ =>
    cases q.info.returnsStar with
    | true => rfl
    | false => cases t.isStar && t.qualifier?.isNone <;> rfl

theorem returningItems_inDialect (items : List SelectItem) :
    (q.inDialect d).returningItems items = (q.returningItems items).map (·.inDialect d) := by
  have haction : (q.inDialect d).info.action = q.info.action := rfl
  have hqualifier : (q.inDialect d).returnedQualifier? = q.returnedQualifier? := rfl
  rw [returningItems, returningItems, haction, hqualifier]
  cases q.info.action with
  | select => rfl
  | _ => exact q.foldlM_inDialect d (fun q t => q.returnTerm_inDialect d t) _

/-! ## Programs -/

/-- Every call does the same to the query in the other dialect, a roll-up if that dialect attaches
it as the dialect of the query does. -/
theorem change_inDialect (s : Step)
    (h : q.info.dialect.profile.rollup = d.profile.rollup ∨ s.isRollup = false) :
    (q.inDialect d).change s = (q.change s).map (·.inDialect d) := by
  cases s with
  | source s => exact congrArg Except.ok (q.addSource_inDialect d s)
  | select items => exact q.select_inDialect d items
  | top t => exact q.top_inDialect d t
  | rollup items => exact q.rollup_inDialect d items (h.resolve_right nofun)
  | join kind source rule => exact q.join_inDialect d kind source rule
  | into t => exact q.into_inDialect d t
  | columns items => exact q.addColumns_inDialect d items
  | rows rows => exact q.addRows_inDialect d rows
  | replace row => exact (q.setInsertMode .replace).addRows_inDialect d [row]
  | update t => exact q.update_inDialect d t
  | delete => exact q.delete_inDialect d
  | onConflict items => exact q.onConflict_inDialect d items
  | doNothing => exact q.changeConflict_inDialect d _
  | doUpdate item value => exact q.changeConflict_inDialect d _
  | conflictWhere c => exact q.changeConflict_inDialect d _
  | onDuplicateUpdate item value => exact q.onDuplicateUpdate_inDialect d item value
  | onDuplicateIgnore => exact q.onDuplicateIgnore_inDialect d
  | returning items => exact q.returningItems_inDialect d items
  | _ => rfl

theorem settled_inDialect (fresh : SourceId) (s : Step) :
    (q.inDialect d).settled fresh s = (q.settled fresh s).inDialect d := by
  have htouched : (q.inDialect d).touched fresh = (q.touched fresh).inDialect d := by
    have himmutable : (q.inDialect d).info.immutable = q.info.immutable := rfl
    rw [touched, touched, himmutable]
    cases q.info.immutable <;> rfl
  cases s with
  | setImmutable immutable => rfl
  | aliased name => rfl
  | fork => rfl
  | _ => exact htouched

theorem step_inDialect (fresh : SourceId) (s : Step)
    (h : q.info.dialect.profile.rollup = d.profile.rollup ∨ s.isRollup = false) :
    (q.inDialect d).step fresh s = (q.step fresh s).map (·.inDialect d) := by
  rw [step, step, q.change_inDialect d s h]
  cases q.change s with
  | error e => rfl
  | ok next => exact congrArg Except.ok (next.settled_inDialect d fresh s)

/-- A query keeps its dialect: a step that is taken in that very dialect ends in it. -/
theorem step_dialect (fresh : SourceId) (s : Step) :
    Yields (fun next => next.info.dialect = q.info.dialect) (q.step fresh s) := by
  intro next hnext
  have h := q.step_inDialect q.info.dialect fresh s (.inl rfl)
  rw [inDialect_self, hnext] at h
  exact congrArg (·.info.dialect) (Except.ok.inj h)

/-- **Programs in two dialects.** -/
theorem run_inDialect (steps : List (SourceId × Step))
    (h : q.info.dialect.profile.rollup = d.profile.rollup ∨
      ∀ s ∈ steps, s.2.isRollup = false) :
    (q.inDialect d).run steps = (q.run steps).map (·.inDialect d) := by
  induction steps generalizing q with
  | nil => rfl
  | cons s steps ih =>
    have hs := q.step_inDialect d s.1 s.2 (h.imp_right fun h => h s List.mem_cons_self)
    rw [run, run, List.foldlM_cons, List.foldlM_cons, hs]
    cases hnext : q.step s.1 s.2 with
    | error e => rfl
    | ok next =>
      refine ih next (h.imp (fun h => ?_) fun h s hs => h s (List.mem_cons_of_mem _ hs))
      rw [q.step_dialect s.1 s.2 next hnext, h]

/-! ## Tokens -/

theorem lower_inDialect (s : Scope) : (q.inDialect d).lower s = q.lower s := by
  rw [lower_eq, lower_eq]
  rfl

/-- In a dialect that is asked for, the queries have the same text, or fail with the same error. -/
theorem render_inDialect (o : RenderOptions) (asked : Dialect) :
    render (q.inDialect d) { o with dialect := some asked } =
      render q { o with dialect := some asked } := by
  rw [render, render]
  exact congrArg (Except.map _) (q.lower_inDialect d _)

/-- So do they with placeholders, and they bind the same values. -/
theorem renderBound_inDialect (o : RenderOptions) (asked : Dialect) (b : Bindings) :
    renderBound (q.inDialect d) { o with dialect := some asked } b =
      renderBound q { o with dialect := some asked } b := by
  have htokens : renderTokens (q.inDialect d) { o with dialect := some asked } =
      renderTokens q { o with dialect := some asked } := q.lower_inDialect d _
  rw [renderBound, renderBound, htokens]
  rfl

end Calls

/-- **The dialect of a beginning.** Let two dialects attach a roll-up alike, or let there be none
among some calls. From a beginning in either dialect these calls fail with the same error, or they
end in queries that have the same text in any dialect that is asked for, with literals and with
placeholders, or fail there with the same error. -/
theorem dialects_alike (id : SourceId) (d d' : Dialect) (steps : List (SourceId × Step))
    (h : d.profile.rollup = d'.profile.rollup ∨ ∀ s ∈ steps, s.2.isRollup = false) :
    (∃ e, (start id d).run steps = .error e ∧ (start id d').run steps = .error e) ∨
    ∃ q q', (start id d).run steps = .ok q ∧ (start id d').run steps = .ok q' ∧
      ∀ (o : RenderOptions) (asked : Dialect),
        render q' { o with dialect := some asked } = render q { o with dialect := some asked } ∧
        ∀ b, renderBound q' { o with dialect := some asked } b =
          renderBound q { o with dialect := some asked } b := by
  have hrun : (start id d').run steps = ((start id d).run steps).map (·.inDialect d') :=
    (start id d).run_inDialect d' steps h
  cases hq : (start id d).run steps with
  | error e => exact .inl ⟨e, rfl, by rw [hrun, hq]; rfl⟩
  | ok q =>
    refine .inr ⟨q, q.inDialect d', rfl, by rw [hrun, hq]; rfl, fun o asked => ?_⟩
    exact ⟨q.render_inDialect d' o asked, q.renderBound_inDialect d' o asked⟩

/-- The calls that select a column of a table, with more calls behind. -/
def selectingColumn (more : List Step) : List (SourceId × Step) :=
  (.source (.table ⟨⟨1⟩, "t", [], none, none⟩) :: .select [.column "a"] :: more).map (⟨2⟩, ·)

/-- Groups from a beginning for MySQL and from one for PostgreSQL, in the dialect of Oracle. -/
theorem dialects_alike_group :
    ∃ q q' : Query,
      (start ⟨0⟩ .mysql).run (selectingColumn [.groupBy [.column "a"]]) = .ok q ∧
      (start ⟨0⟩ .postgres).run (selectingColumn [.groupBy [.column "a"]]) = .ok q' ∧
      render q' { dialect := some .oracle } = .ok "SELECT a FROM t GROUP BY a" := by
  have htext : ((start ⟨0⟩ .mysql).run (selectingColumn [.groupBy [.column "a"]]) >>= fun q =>
      render q { dialect := some .oracle }) = .ok "SELECT a FROM t GROUP BY a" := by rfl
  rcases dialects_alike ⟨0⟩ .mysql .postgres (selectingColumn [.groupBy [.column "a"]])
    (.inr (by decide)) with ⟨e, he, -⟩ | ⟨q, q', hq, hq', h⟩
  · rw [he] at htext
    cases htext
  · rw [hq] at htext
    exact ⟨q, q', hq, hq', (h {} .oracle).1.trans htext⟩

/-- A roll-up of nothing is refused in a query for MySQL. In one for any other dialect it is not,
even if the text is for MySQL. -/
theorem rollup_of_nothing :
    (start ⟨0⟩ .mysql).run (selectingColumn [.rollup []]) = .error (.grouping .rollupOfNothing) ∧
    ∃ q, (start ⟨0⟩ .ansi).run (selectingColumn [.rollup []]) = .ok q ∧
      render q { dialect := some .mysql } = .ok "SELECT `a` FROM `t` GROUP BY ROLLUP()" := by
  refine ⟨by rfl, ?_⟩
  have htext : ((start ⟨0⟩ .ansi).run (selectingColumn [.rollup []]) >>= fun q =>
      render q { dialect := some .mysql }) = .ok "SELECT `a` FROM `t` GROUP BY ROLLUP()" := by rfl
  cases hq : (start ⟨0⟩ .ansi).run (selectingColumn [.rollup []]) with
  | error e =>
    rw [hq] at htext
    cases htext
  | ok q =>
    rw [hq] at htext
    exact ⟨q, rfl, htext⟩

end Query

end SqlScribe
