import SqlScribe.Proofs.Query.Run
import SqlScribe.Render
/-! # The mode of a query

A query selects, inserts, updates or deletes, and what it does is settled by the first call that
stages anything of the kind.

* `Query.ModeChange`, `Query.step_mode`: all that a step can do to the action, the select list and
  the added rows of a query.
* `Query.WellModed`: what is staged fits the action; `Query.ModeChange.wellModed` keeps it.
* `Query.Staged`, `Query.run_kind`: once something is staged, no step changes the kind of the
  statement.
* `Statement.body_begins`, `Query.lower_begins`: the statement that is written begins with a keyword
  of that kind.
* `Query.Reachable.mode_exclusive`: all of it for every query that can be built. -/

namespace SqlScribe

namespace Query

variable {q q' q'' : Query}

/-! ## Steps -/

/-- The queries do the same with the same select list and added rows. -/
structure SameMode (q q' : Query) : Prop where
  action : q'.info.action = q.info.action
  selects : q'.selects = q.selects
  rows : q'.rows = q.rows

namespace SameMode

protected theorem refl (q : Query) : SameMode q q := ⟨rfl, rfl, rfl⟩

protected theorem trans (h : SameMode q q') (h' : SameMode q' q'') : SameMode q q'' :=
  ⟨h'.action.trans h.action, h'.selects.trans h.selects, h'.rows.trans h.rows⟩

end SameMode

/-- The queries do the same with the same added rows, and a select list does not vanish. -/
structure KeepsSelecting (q q' : Query) : Prop where
  action : q'.info.action = q.info.action
  rows : q'.rows = q.rows
  selects : q.selects ≠ [] → q'.selects ≠ []

namespace KeepsSelecting

protected theorem refl (q : Query) : KeepsSelecting q q := ⟨rfl, rfl, id⟩

protected theorem trans (h : KeepsSelecting q q') (h' : KeepsSelecting q' q'') :
    KeepsSelecting q q'' :=
  ⟨h'.action.trans h.action, h'.rows.trans h.rows, h'.selects ∘ h.selects⟩

end KeepsSelecting

/-- All that a step can do to the mode of a query. -/
inductive ModeChange (q q' : Query) : Prop where
  /-- Nothing. -/
  | kept (same : SameMode q q')
  /-- Items are selected, in a query without rows that is no update or deletion. -/
  | selected (noRows : q.rows = []) (noChange : q.info.action.isChange = false)
      (keeps : KeepsSelecting q q')
  /-- The target of an insertion is set, in a query that has no target. -/
  | targeted (t : Table) (free : q.info.action = .select)
      (action : q'.info.action = .insert t (!q.selects.isEmpty)) (selects : q'.selects = q.selects)
      (rows : q'.rows = q.rows)
  /-- Rows are added to an insertion without a select list. -/
  | filled (t : Table) (insertion : q.info.action = .insert t false) (noSelects : q.selects = [])
      (action : q'.info.action = q.info.action) (selects : q'.selects = q.selects)
  /-- The query becomes an update or deletion, if it does nothing yet or is a deletion already. -/
  | changing (free : q.info.action = .select ∨ q.info.action = .delete ∧ q'.info.action = .delete)
      (noSelects : q.selects = []) (noInsert : q'.isInsertion = false)
      (selects : q'.selects = q.selects) (rows : q'.rows = q.rows)

theorem addSource_mode (q : Query) (s : Source) : SameMode q (q.addSource s) := by
  unfold addSource
  split
  · exact ⟨rfl, rfl, rfl⟩
  · split <;> exact ⟨rfl, rfl, rfl⟩

theorem prepareJoin_mode (q : Query) (s : Source) : SameMode q (q.prepareJoin s).1 := by
  unfold prepareJoin
  split
  · exact .refl q
  · split <;> exact ⟨rfl, rfl, rfl⟩

theorem addJoin_mode (q : Query) (kind : JoinKind) (s : Source) (c : JoinCondition) :
    SameMode q (q.addJoin kind s c) := by
  unfold addJoin
  split
  · split <;> exact ⟨rfl, rfl, rfl⟩
  · exact ⟨rfl, rfl, rfl⟩

/-- Whatever a result is, it is something. -/
theorem yields_true {α : Type} (x : Except QueryError α) : Yields (fun _ => True) x :=
  fun _ _ => trivial

theorem join_mode (q : Query) (kind : JoinKind) (s : Source) (rule : JoinRule) :
    Yields (SameMode q) (q.join kind s rule) := by
  have hprepared := q.prepareJoin_mode s
  refine (yields_true _).bind fun found _ => (yields_true _).bind fun _ _ => .pure ?_
  exact hprepared.trans (addJoin_mode _ found.1 _ found.2)

theorem selectColumn_mode (q : Query) (column : Term) :
    KeepsSelecting q (q.selectColumn column) := by
  unfold selectColumn
  split
  · exact .refl q
  · split
    · split <;> exact ⟨rfl, rfl, fun _ => by simp⟩
    · exact ⟨rfl, rfl, fun _ => by simp⟩

theorem selectItem_mode (q : Query) (item : SelectItem) :
    Yields (KeepsSelecting q) (q.selectItem item) := by
  unfold selectItem
  split
  · split
    · exact .ok (q.selectColumn_mode _)
    · exact .error _
  · split
    · exact .ok (q.selectColumn_mode _)
    · exact .ok ⟨rfl, rfl, fun _ => by simp⟩

theorem select_mode (q : Query) (items : List SelectItem) :
    Yields (ModeChange q) (q.select items) := by
  unfold select
  split
  · exact .error _
  · next hrows =>
    split
    · exact .error _
    · next hchange =>
      have hrows : q.rows = [] := by simpa using hrows
      have hchange : q.info.action.isChange = false := by simpa using hchange
      exact (Yields.foldlM .refl .trans selectItem_mode items q).mono
        fun _ h => .selected hrows hchange h

theorem changeConflict_mode (q : Query) (change : Conflict → Except QueryError Conflict) :
    Yields (SameMode q) (q.changeConflict change) := by
  unfold changeConflict
  split
  · exact .error _
  · exact (yields_true _).bind fun _ _ => .pure ⟨rfl, rfl, rfl⟩

theorem returnTerm_mode (q : Query) (t : Term) : Yields (SameMode q) (q.returnTerm t) := by
  unfold returnTerm
  split
  · exact .error _
  · split
    · exact .ok (.refl q)
    · split <;> exact .ok ⟨rfl, rfl, rfl⟩

theorem returningItems_mode (q : Query) (items : List SelectItem) :
    Yields (SameMode q) (q.returningItems items) := by
  unfold returningItems
  split
  · exact .error _
  · exact Yields.foldlM .refl .trans returnTerm_mode _ q

theorem into_mode (q : Query) (t : Table) : Yields (ModeChange q) (q.into t) := by
  unfold into
  split
  · exact .error _
  · exact .error _
  · exact .error _
  · next hfree => exact .ok (.targeted t hfree rfl rfl rfl)

theorem addRows_mode (q : Query) (rows : List (List Term)) :
    Yields (ModeChange q) (q.addRows rows) := by
  unfold addRows
  split
  · next t fromList haction =>
    split
    · exact .error _
    · next hfree =>
      have hfree : fromList = false ∧ q.selects = [] := by simpa using hfree
      obtain ⟨rfl, hselects⟩ := hfree
      exact .ok (.filled t haction hselects rfl rfl)
  · exact .error _
  · exact .error _
  · exact .error _

theorem update_mode (q : Query) (t : Table) : Yields (ModeChange q) (q.update t) := by
  unfold update
  split
  · exact .error _
  · exact .error _
  · exact .error _
  · next hfree =>
    split
    · next hselects => exact .ok (.changing (.inl hfree) (by simpa using hselects) rfl rfl rfl)
    · exact .error _

theorem delete_mode (q : Query) : Yields (ModeChange q) q.delete := by
  unfold delete
  split
  · exact .error _
  · exact .error _
  · next hfree =>
    split
    · next hselects => exact .ok (.changing (.inl hfree) (by simpa using hselects) rfl rfl rfl)
    · exact .error _
  · next hdelete =>
    split
    · next hselects =>
      exact .ok (.changing (.inr ⟨hdelete, rfl⟩) (by simpa using hselects) rfl rfl rfl)
    · exact .error _

/-- How an insertion treats existing rows is no matter of the mode. -/
theorem ModeChange.of_setInsertMode {mode : InsertMode}
    (h : ModeChange (q.setInsertMode mode) q') : ModeChange q q' := by
  cases h with
  | kept h => exact .kept ⟨h.action, h.selects, h.rows⟩
  | selected hrows hchange h => exact .selected hrows hchange ⟨h.action, h.rows, h.selects⟩
  | targeted t hfree haction hselects hrows => exact .targeted t hfree haction hselects hrows
  | filled t hinsert hnone haction hselects => exact .filled t hinsert hnone haction hselects
  | changing hfree hnone hinsert hselects hrows =>
    exact .changing hfree hnone hinsert hselects hrows

theorem rollup_mode (q : Query) (items : List SelectItem) :
    Yields (SameMode q) (q.rollup items) := by
  unfold rollup
  dsimp only
  split
  · split
    · exact .error _
    · split
      · exact .error _
      · exact .ok ⟨rfl, rfl, rfl⟩
  · exact .ok ⟨rfl, rfl, rfl⟩

theorem change_mode (q : Query) (s : Step) : Yields (ModeChange q) (q.change s) := by
  -- A call that takes no part in the mode keeps it, whether or not it can be refused.
  have hsame : ∀ {x : Except QueryError Query}, Yields (SameMode q) x → Yields (ModeChange q) x :=
    fun h => h.mono fun _ h => .kept h
  cases s with
  | setImmutable _ | fork | aliased _ | commonTable _ | distinct | distinctOn _ | filter _
  | having _ | groupBy _ | orderBy _ _ | limit _ | offset _ | lock _ | ignore | insertOrReplace
  | assign _ _ | usingTables _ => exact .ok (.kept ⟨rfl, rfl, rfl⟩)
  | source s => exact .ok (.kept (q.addSource_mode s))
  | select items => exact q.select_mode items
  | join kind source rule => exact hsame (q.join_mode kind source rule)
  | into t => exact q.into_mode t
  | rows rows => exact q.addRows_mode rows
  | replace row => exact (addRows_mode _ [row]).mono fun _ h => h.of_setInsertMode
  | update t => exact q.update_mode t
  | delete => exact q.delete_mode
  | top t =>
    show Yields _ (q.top t)
    unfold top
    split
    · exact .error _
    · exact .ok (.kept ⟨rfl, rfl, rfl⟩)
  | rollup items => exact hsame (q.rollup_mode items)
  | columns items => exact hsame (.guarded ⟨rfl, rfl, rfl⟩)
  | onConflict items => exact hsame (.guarded ⟨rfl, rfl, rfl⟩)
  | doNothing => exact hsame (q.changeConflict_mode _)
  | doUpdate item value => exact hsame (q.changeConflict_mode _)
  | conflictWhere c => exact hsame (q.changeConflict_mode _)
  | onDuplicateUpdate item value => exact hsame (.guarded ⟨rfl, rfl, rfl⟩)
  | onDuplicateIgnore => exact hsame (.guarded ⟨rfl, rfl, rfl⟩)
  | returning items => exact hsame (q.returningItems_mode items)

/-- The identity of a query is no matter of its mode. -/
theorem settled_mode (q : Query) (fresh : SourceId) (s : Step) :
    SameMode q (q.settled fresh s) := by
  have htouched : SameMode q (q.touched fresh) := by
    unfold touched
    split <;> exact ⟨rfl, rfl, rfl⟩
  cases s with
  | setImmutable _ | aliased _ => exact .refl q
  | fork => exact ⟨rfl, rfl, rfl⟩
  | _ => exact htouched

/-- All that a step does to the mode. -/
theorem step_mode {fresh : SourceId} {s : Step} (h : q.step fresh s = .ok q') :
    ∃ next, ModeChange q next ∧ SameMode next q' := by
  cases hc : q.change s with
  | error e =>
    rw [step, hc] at h
    cases h
  | ok next =>
    rw [step, hc] at h
    cases h
    exact ⟨next, q.change_mode s next hc, next.settled_mode fresh s⟩

/-! ## What is staged -/

/-- What is staged fits what the query does: a select list no update or deletion, and rows only an
insertion that does not select them. -/
structure WellModed (q : Query) : Prop where
  selects : q.selects ≠ [] → q.info.action.isChange = false
  rows : q.rows ≠ [] → (∃ t, q.info.action = .insert t false) ∧ q.selects = []

theorem SameMode.wellModed (h : SameMode q q') (hq : q.WellModed) : q'.WellModed := by
  constructor
  · rw [h.selects, h.action]
    exact hq.selects
  · rw [h.rows, h.action, h.selects]
    exact hq.rows

/-- Every call keeps what is staged in line with what the query does. -/
theorem ModeChange.wellModed (h : ModeChange q q') (hq : q.WellModed) : q'.WellModed := by
  cases h with
  | kept h => exact h.wellModed hq
  | selected hrows hchange h =>
    refine ⟨fun _ => ?_, fun hne => absurd (h.rows.trans hrows) hne⟩
    rw [h.action]
    exact hchange
  | targeted t hfree haction hselects hrows =>
    refine ⟨fun _ => ?_, fun hne => ?_⟩
    · rw [haction]
      rfl
    · -- A query without a target has no rows.
      obtain ⟨⟨t', ht'⟩, -⟩ := hq.rows (hrows ▸ hne)
      rw [hfree] at ht'
      cases ht'
  | filled t hinsert hnone haction hselects =>
    refine ⟨fun hne => absurd (hselects.trans hnone) hne, fun _ => ?_⟩
    exact ⟨⟨t, haction.trans hinsert⟩, hselects.trans hnone⟩
  | changing hfree hnone hinsert hselects hrows =>
    refine ⟨fun hne => absurd (hselects.trans hnone) hne, fun hne => ?_⟩
    obtain ⟨⟨t', ht'⟩, -⟩ := hq.rows (hrows ▸ hne)
    rcases hfree with hfree | ⟨hdelete, -⟩
    · rw [hfree] at ht'
      cases ht'
    · rw [hdelete] at ht'
      cases ht'

/-- A query with neither a select list nor rows. -/
theorem WellModed.of_nil (hselects : q.selects = []) (hrows : q.rows = []) : q.WellModed :=
  ⟨fun h => absurd hselects h, fun h => absurd hrows h⟩

theorem Begun.wellModed (h : q.Begun) : q.WellModed := by
  cases h with
  | start id d => exact .of_nil rfl rfl
  | into id t => exact .of_nil rfl rfl
  | update id t => exact .of_nil rfl rfl
  | tableSelect t id items h => exact (select_mode _ items q h).wellModed (.of_nil rfl rfl)
  | tableUpdate t id => exact .of_nil rfl rfl
  | tableInsert t id row h =>
    have hnone : (t.newQuery id).WellModed := .of_nil rfl rfl
    have hrow : Yields WellModed (t.insert id row) :=
      Yields.bind (into_mode (t.newQuery id) t) fun next hnext =>
        (addRows_mode next [row]).mono fun _ h => h.wellModed (hnext.wellModed hnone)
    exact hrow q h

theorem Reachable.wellModed (h : q.Reachable) : q.WellModed := by
  induction h with
  | begun h => exact h.wellModed
  | step _ hs ih =>
    obtain ⟨next, hchange, hsame⟩ := step_mode hs
    exact hsame.wellModed (hchange.wellModed ih)

/-! ## The kind of the statement -/

/-- Something is staged that settles what the query does: a selected item, or a target. -/
def Staged (q : Query) : Prop :=
  q.selects ≠ [] ∨ q.isInsertion = true ∨ q.info.action.isChange = true

theorem kind_eq_of_action (h : q'.info.action = q.info.action) : q'.kind = q.kind := by
  rw [kind, kind, h]

theorem SameMode.kind (h : SameMode q q') : q'.kind = q.kind := kind_eq_of_action h.action

theorem SameMode.staged (h : SameMode q q') (hq : q.Staged) : q'.Staged := by
  unfold Staged isInsertion
  rw [h.selects, h.action]
  exact hq

/-- Once something is staged, no call changes the kind of the statement. -/
theorem ModeChange.kind_of_staged (h : ModeChange q q') (hq : q.Staged) :
    q'.Staged ∧ q'.kind = q.kind := by
  cases h with
  | kept h => exact ⟨h.staged hq, h.kind⟩
  | selected hrows hchange h =>
    refine ⟨?_, kind_eq_of_action h.action⟩
    unfold Staged isInsertion
    rw [h.action]
    exact hq.imp_left h.selects
  | targeted t hfree haction hselects hrows =>
    -- Only a select list can be staged, so that the items go into the table.
    have hne : q.selects ≠ [] := by
      rcases hq with hne | hinsert | hchange
      · exact hne
      · simp [isInsertion, hfree, Action.insertTarget?] at hinsert
      · simp [hfree, Action.isChange, Action.updateTarget?, Action.isDelete] at hchange
    refine ⟨.inl (hselects ▸ hne), ?_⟩
    have hlist : q.selects.isEmpty = false := by simpa using hne
    rw [kind, kind, haction, hfree, hlist]
    rfl
  | filled t hinsert hnone haction hselects =>
    refine ⟨.inr (.inl ?_), kind_eq_of_action haction⟩
    rw [isInsertion, haction, hinsert]
    rfl
  | changing hfree hnone hinsert hselects hrows =>
    rcases hfree with hfree | ⟨hdelete, hdelete'⟩
    · rcases hq with hne | hinsert | hchange
      · exact absurd hnone hne
      · simp [isInsertion, hfree, Action.insertTarget?] at hinsert
      · simp [hfree, Action.isChange, Action.updateTarget?, Action.isDelete] at hchange
    · refine ⟨.inr (.inr ?_), kind_eq_of_action (hdelete'.trans hdelete.symm)⟩
      rw [hdelete']
      rfl

/-- Once something is staged, no program of steps changes the kind of the statement. -/
theorem run_kind {steps : List (SourceId × Step)} (hq : q.Staged) (h : q.run steps = .ok q') :
    q'.Staged ∧ q'.kind = q.kind := by
  induction steps generalizing q with
  | nil =>
    cases h
    exact ⟨hq, rfl⟩
  | cons s steps ih =>
    obtain ⟨next, hs, hrest⟩ := run_cons h
    obtain ⟨changed, hchange, hsame⟩ := step_mode hs
    obtain ⟨hstaged, hkind⟩ := hchange.kind_of_staged hq
    obtain ⟨hstaged', hkind'⟩ := ih (hsame.staged hstaged) hrest
    exact ⟨hstaged', hkind'.trans (hsame.kind.trans hkind)⟩

end Query

/-! ## The statement that is written -/

/-- The kind of the statements that begin with a keyword. -/
def Keyword.statementKind? : Keyword → Option String
  | .SELECT => some "select"
  | .INSERT => some "insert"
  | .REPLACE => some "insert"
  | .UPDATE => some "update"
  | .DELETE => some "delete"
  | _ => none

/-- The tokens begin with a keyword of statements of a kind. -/
def Tokens.Begins (kind : String) (ts : Tokens) : Prop :=
  ∃ k rest, ts = .word k :: rest ∧ k.statementKind? = some kind

theorem Tokens.Begins.append {kind : String} {ts : Tokens} (h : Begins kind ts) (us : Tokens) :
    Begins kind (ts ++ us) := by
  obtain ⟨k, rest, rfl, hk⟩ := h
  exact ⟨k, rest ++ us, rfl, hk⟩

namespace Statement

open Query

variable (s : Scope) (q : Query) (p : QueryParts)

theorem selectClause_begins (d : Dialect) :
    Yields (Tokens.Begins "select") (selectClause d q p) :=
  (yields_true _).bind fun _ _ => (yields_true _).bind fun _ _ => (yields_true _).bind fun _ _ =>
    .pure ⟨.SELECT, _, rfl, rfl⟩

theorem selection_begins (target : Option Table) :
    Yields (Tokens.Begins "select") (selection s q p target) :=
  (selectClause_begins q p s.dialect).bind fun _ h => (yields_true _).bind fun _ _ =>
    .pure ((h.append _).append _)

theorem insertHead_begins (d : Dialect) (mode : InsertMode) :
    Yields (Tokens.Begins "insert") (insertHead d mode) := by
  cases mode with
  | insert => exact .ok ⟨.INSERT, _, rfl, rfl⟩
  | ignore =>
    rw [insertHead]
    split
    · exact .ok ⟨.INSERT, _, rfl, rfl⟩
    · exact .error _
  | replace => exact .guarded ⟨.REPLACE, _, rfl, rfl⟩
  | insertOrReplace => exact .guarded ⟨.INSERT, _, rfl, rfl⟩

theorem insertion_begins (target : Table) :
    Yields (Tokens.Begins "insert") (insertion s q p target) := by
  refine (insertHead_begins s.dialect q.info.insertMode).bind fun head h => ?_
  iterate 5 refine (yields_true _).bind fun _ _ => ?_
  refine .pure ?_
  simp only [List.append_assoc]
  exact h.append _

theorem update_begins (target : Table) :
    Yields (Tokens.Begins "update") (update s q p target) := by
  unfold update
  iterate 4 refine (yields_true _).bind fun _ _ => ?_
  exact .pure ⟨.UPDATE, _, rfl, rfl⟩

theorem deletion_begins : Yields (Tokens.Begins "delete") (deletion s q p) := by
  unfold deletion
  iterate 3 refine (yields_true _).bind fun _ _ => ?_
  exact .pure ⟨.DELETE, _, rfl, rfl⟩

/-- The statement of a query is of the query's kind. -/
theorem body_begins : Yields (Tokens.Begins q.kind) (body s q p) := by
  rw [body, kind]
  generalize q.info.action = action
  cases action with
  | select => exact selection_begins s q p none
  | insert t fromList =>
    cases fromList with
    | true => exact selection_begins s q p (some t)
    | false => exact insertion_begins s q p t
  | update t => exact update_begins s q p t
  | delete => exact deletion_begins s q p

/-- Behind the common tables of a query stands a statement of its kind. -/
theorem whole_begins : Yields
    (fun ts => ∃ commonTables body,
      withClause s.dialect (q.commonTables.any (·.recursive)) p.commonTables = .ok commonTables ∧
      body.Begins q.kind ∧ ts = commonTables ++ body)
    (whole s q p) := by
  -- The tokens of the common tables are named by the result that yields them.
  refine Yields.bind (fun ts h => h) fun commonTables htables => ?_
  exact (body_begins s q p).bind fun body hbody => .pure ⟨commonTables, body, htables, hbody, rfl⟩

end Statement

namespace Query

/-- The tokens of a query: none of a blank one, else its common tables and behind them a statement
of its kind, in their place. -/
theorem lower_begins (s : Scope) (q : Query) : Yields
    (fun ts => q.isBlank = true ∧ ts = [] ∨
      q.isBlank = false ∧ ∃ commonTables body,
        Statement.withClause s.dialect (q.commonTables.any (·.recursive))
          (CommonTable.lowerAll (s.inside q) q.commonTables) = .ok commonTables ∧
        body.Begins q.kind ∧
        ts = Statement.placed s q.info.id q.info.alias? (commonTables ++ body)) (q.lower s) := by
  obtain ⟨info, commonTables, sources, selects, distinctOn, joins, filter, groupBy, having, orderBy,
    columns, rows, conflict, duplicateUpdates, assignments, returning⟩ := q
  rw [Query.lower]
  refine iteInduction (fun h => .ok (.inl ⟨h, rfl⟩)) fun hblank => ?_
  refine Yields.bind (Statement.whole_begins _ _ _) fun whole h => .pure ?_
  obtain ⟨tables, body, htables, hbody, rfl⟩ := h
  exact .inr ⟨Bool.eq_false_iff.mpr hblank, tables, body, htables, hbody, rfl⟩

/-- A query has at most one of a target for insertions, a target for updates and the mark of a
deletion. -/
theorem change_exclusive (q : Query) :
    [q.isInsertion, q.info.action.updateTarget?.isSome, q.info.action.isDelete].count true ≤ 1 := by
  rw [isInsertion]
  cases q.info.action with
  | select => decide
  | insert t fromList => simp [Action.insertTarget?, Action.updateTarget?, Action.isDelete]
  | update t => simp [Action.insertTarget?, Action.updateTarget?, Action.isDelete]
  | delete => decide

end Query

end SqlScribe
