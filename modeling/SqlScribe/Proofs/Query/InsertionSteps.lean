import SqlScribe.Proofs.Query.Mode
/-! # What an insertion gathers

The calls that shape an insertion add to what it has: columns, a conflict clause, updates of rows
with duplicate keys and returned items stay once they are there, and so does the target. Only the
way in which existing rows are treated is a choice that a later call makes anew.

* `Query.KeepsClauses`: a query has the clauses of an insertion that another one has.
* `Query.Step.insertMode?`, `Query.run_insertMode`: the last choice of a program counts.
* `Query.Step.Gathered`: what a step asked for is part of a query.
* `Query.step_gathered`, `Query.run_gathered`: a step gathers what it asks for, and no program of
  steps drops it. -/

namespace SqlScribe

/-- A conflict clause has the columns, the handler and the updates of another one. -/
structure Conflict.KeepsParts (c c' : Conflict) : Prop where
  targets : c.targets <+: c'.targets
  handler : ∀ handler, c.handler = some handler → c'.handler = some handler
  assignments : c.assignments <+: c'.assignments

namespace Conflict.KeepsParts

variable {c c' c'' : Conflict}

protected theorem refl (c : Conflict) : KeepsParts c c :=
  ⟨List.prefix_refl _, fun _ h => h, List.prefix_refl _⟩

protected theorem trans (h : KeepsParts c c') (h' : KeepsParts c' c'') : KeepsParts c c'' :=
  ⟨h.targets.trans h'.targets, fun handler hc => h'.handler handler (h.handler handler hc),
    h.assignments.trans h'.assignments⟩

end Conflict.KeepsParts

/-- The star of all columns. -/
def Term.IsBareStar (t : Term) : Prop := t.isStar = true ∧ t.qualifier? = none

namespace Query

variable {q q' q'' : Query}

/-- The term is among the returned items, or a star that takes it in is. -/
def Returns (q : Query) (t : Term) : Prop := t ∈ q.returning ∨ ∃ star ∈ q.returning, star.IsBareStar

/-- A query that says that it returns all columns has the star among its returned items. -/
def StarReturned (q : Query) : Prop :=
  q.info.returnsStar = true → ∃ star ∈ q.returning, star.IsBareStar

/-- The queries have the same clauses of an insertion. -/
structure SameClauses (q q' : Query) : Prop where
  action : q'.info.action = q.info.action
  insertMode : q'.info.insertMode = q.info.insertMode
  columns : q'.columns = q.columns
  conflict : q'.conflict = q.conflict
  duplicateUpdates : q'.duplicateUpdates = q.duplicateUpdates
  returning : q'.returning = q.returning
  returnsStar : q'.info.returnsStar = q.info.returnsStar

namespace SameClauses

protected theorem refl (q : Query) : SameClauses q q := ⟨rfl, rfl, rfl, rfl, rfl, rfl, rfl⟩

protected theorem trans (h : SameClauses q q') (h' : SameClauses q' q'') : SameClauses q q'' :=
  ⟨h'.action.trans h.action, h'.insertMode.trans h.insertMode, h'.columns.trans h.columns,
    h'.conflict.trans h.conflict, h'.duplicateUpdates.trans h.duplicateUpdates,
    h'.returning.trans h.returning, h'.returnsStar.trans h.returnsStar⟩

end SameClauses

/-- What the first query has gathered for an insertion the second one has too. -/
structure KeepsClauses (q q' : Query) : Prop where
  action : q.isInsertion = true → q'.info.action = q.info.action
  columns : q.columns <+: q'.columns
  conflict : ∀ c, q.conflict = some c → ∃ c', q'.conflict = some c' ∧ c.KeepsParts c'
  duplicateUpdates : q.duplicateUpdates <+: q'.duplicateUpdates
  returning : ∀ t, q.Returns t → q'.Returns t
  starReturned : q.StarReturned → q'.StarReturned

namespace KeepsClauses

protected theorem refl (q : Query) : KeepsClauses q q :=
  ⟨fun _ => rfl, List.prefix_refl _, fun c hc => ⟨c, hc, .refl c⟩, List.prefix_refl _,
    fun _ h => h, fun h => h⟩

protected theorem trans (h : KeepsClauses q q') (h' : KeepsClauses q' q'') :
    KeepsClauses q q'' := by
  refine ⟨fun hq => ?_, h.columns.trans h'.columns, fun c hc => ?_,
    h.duplicateUpdates.trans h'.duplicateUpdates, fun t ht => h'.returning t (h.returning t ht),
    fun hq => h'.starReturned (h.starReturned hq)⟩
  · -- The query in between inserts too, so that its target is kept in turn.
    have haction := h.action hq
    refine (h'.action ?_).trans haction
    rw [isInsertion, haction]
    exact hq
  · obtain ⟨c', hc', hkeeps⟩ := h.conflict c hc
    obtain ⟨c'', hc'', hkeeps'⟩ := h'.conflict c' hc'
    exact ⟨c'', hc'', hkeeps.trans hkeeps'⟩

/-- Clauses that are the same are kept, whatever becomes of the target of a query without one. -/
theorem of_eq (haction : q.isInsertion = true → q'.info.action = q.info.action)
    (hcolumns : q'.columns = q.columns) (hconflict : q'.conflict = q.conflict)
    (hduplicates : q'.duplicateUpdates = q.duplicateUpdates)
    (hreturning : q'.returning = q.returning)
    (hstar : q'.info.returnsStar = q.info.returnsStar) : KeepsClauses q q' := by
  refine ⟨haction, hcolumns ▸ List.prefix_refl _, fun c hc => ⟨c, hconflict.trans hc, .refl c⟩,
    hduplicates ▸ List.prefix_refl _, fun t ht => ?_, fun hq => ?_⟩
  · unfold Returns
    rw [hreturning]
    exact ht
  · unfold StarReturned
    rw [hreturning, hstar]
    exact hq

end KeepsClauses

theorem SameClauses.keeps (h : SameClauses q q') : KeepsClauses q q' :=
  .of_eq (fun _ => h.action) h.columns h.conflict h.duplicateUpdates h.returning h.returnsStar

namespace Step

/-- The way of treating existing rows that a step chooses. -/
def insertMode? : Step → Option InsertMode
  | .replace _ => some .replace
  | .ignore => some .ignore
  | .insertOrReplace => some .insertOrReplace
  | .onDuplicateIgnore => some .ignore
  | _ => none

/-- What the step asked for is part of a query that inserts into a table. -/
def Gathered (target : Table) (q : Query) : Step → Prop
  | .columns items => ∀ item ∈ items, item.toColumn ∈ q.columns
  | .onConflict items => ∃ c, q.conflict = some c ∧ ∀ item ∈ items, item.toColumn ∈ c.targets
  | .doNothing => ∃ c, q.conflict = some c ∧ c.handler = some .nothing
  | .doUpdate item value => ∃ c, q.conflict = some c ∧ c.handler = some .update ∧
      ⟨item.toColumn, value.getD (Term.excluded (item.toColumn.fieldName?.getD ""))⟩ ∈
        c.assignments
  | .onDuplicateUpdate item value => ⟨item.toColumn, value⟩ ∈ q.duplicateUpdates
  | .returning items => ∀ item ∈ items, q.Returns (item.toTerm (some (.table target)))
  | _ => True

/-- What a step asked for is kept with the clauses. -/
theorem Gathered.mono {s : Step} {target : Table} (h : s.Gathered target q)
    (hkeeps : KeepsClauses q q') : s.Gathered target q' := by
  cases s with
  | columns items => exact fun item hitem => hkeeps.columns.subset (h item hitem)
  | onConflict items =>
    obtain ⟨c, hc, htargets⟩ := h
    obtain ⟨c', hc', hparts⟩ := hkeeps.conflict c hc
    exact ⟨c', hc', fun item hitem => hparts.targets.subset (htargets item hitem)⟩
  | doNothing =>
    obtain ⟨c, hc, hhandler⟩ := h
    obtain ⟨c', hc', hparts⟩ := hkeeps.conflict c hc
    exact ⟨c', hc', hparts.handler _ hhandler⟩
  | doUpdate item value =>
    obtain ⟨c, hc, hhandler, hmem⟩ := h
    obtain ⟨c', hc', hparts⟩ := hkeeps.conflict c hc
    exact ⟨c', hc', hparts.handler _ hhandler, hparts.assignments.subset hmem⟩
  | onDuplicateUpdate item value => exact hkeeps.duplicateUpdates.subset h
  | returning items => exact fun item hitem => hkeeps.returning _ (h item hitem)
  | _ => trivial

end Step

/-! ## Steps -/

theorem addSource_clauses (q : Query) (s : Source) : SameClauses q (q.addSource s) := by
  unfold addSource
  split
  · exact ⟨rfl, rfl, rfl, rfl, rfl, rfl, rfl⟩
  · split <;> exact ⟨rfl, rfl, rfl, rfl, rfl, rfl, rfl⟩

theorem prepareJoin_clauses (q : Query) (s : Source) : SameClauses q (q.prepareJoin s).1 := by
  unfold prepareJoin
  split
  · exact .refl q
  · split <;> exact ⟨rfl, rfl, rfl, rfl, rfl, rfl, rfl⟩

theorem addJoin_clauses (q : Query) (kind : JoinKind) (s : Source) (c : JoinCondition) :
    SameClauses q (q.addJoin kind s c) := by
  unfold addJoin
  split
  · split <;> exact ⟨rfl, rfl, rfl, rfl, rfl, rfl, rfl⟩
  · exact ⟨rfl, rfl, rfl, rfl, rfl, rfl, rfl⟩

theorem join_clauses (q : Query) (kind : JoinKind) (s : Source) (rule : JoinRule) :
    Yields (SameClauses q) (q.join kind s rule) :=
  (yields_true _).bind fun found _ => (yields_true _).bind fun _ _ => .pure
    ((q.prepareJoin_clauses s).trans (addJoin_clauses _ found.1 _ found.2))

theorem selectColumn_clauses (q : Query) (column : Term) :
    SameClauses q (q.selectColumn column) := by
  unfold selectColumn
  split
  · exact .refl q
  · split
    · split <;> exact ⟨rfl, rfl, rfl, rfl, rfl, rfl, rfl⟩
    · exact ⟨rfl, rfl, rfl, rfl, rfl, rfl, rfl⟩

theorem selectItem_clauses (q : Query) (item : SelectItem) :
    Yields (SameClauses q) (q.selectItem item) := by
  unfold selectItem
  split
  · split
    · exact .ok (q.selectColumn_clauses _)
    · exact .error _
  · split
    · exact .ok (q.selectColumn_clauses _)
    · exact .ok ⟨rfl, rfl, rfl, rfl, rfl, rfl, rfl⟩

theorem select_clauses (q : Query) (items : List SelectItem) :
    Yields (SameClauses q) (q.select items) := by
  unfold select
  split
  · exact .error _
  · split
    · exact .error _
    · exact Yields.foldlM .refl .trans selectItem_clauses items q

theorem addRows_clauses (q : Query) (rows : List (List Term)) :
    Yields (SameClauses q) (q.addRows rows) := by
  unfold addRows
  split
  · split
    · exact .error _
    · exact .ok ⟨rfl, rfl, rfl, rfl, rfl, rfl, rfl⟩
  · exact .error _
  · exact .error _
  · exact .error _

theorem rollup_clauses (q : Query) (items : List SelectItem) :
    Yields (SameClauses q) (q.rollup items) := by
  unfold rollup
  dsimp only
  split
  · split
    · exact .error _
    · split
      · exact .error _
      · exact .ok ⟨rfl, rfl, rfl, rfl, rfl, rfl, rfl⟩
  · exact .ok ⟨rfl, rfl, rfl, rfl, rfl, rfl, rfl⟩

/-- A change of the conflict clause that keeps its parts keeps the clauses of the insertion. -/
theorem changeConflict_keeps (q : Query) {change : Conflict → Except QueryError Conflict}
    (h : ∀ c, Yields c.KeepsParts (change c)) :
    Yields (fun q' => KeepsClauses q q' ∧ q'.info.insertMode = q.info.insertMode)
      (q.changeConflict change) := by
  unfold changeConflict
  split
  · exact .error _
  · next c hconflict =>
    refine (h c).bind fun c' hparts => .pure ⟨?_, rfl⟩
    refine ⟨fun _ => rfl, List.prefix_refl _, fun d hd => ?_, List.prefix_refl _, fun _ h => h,
      fun h => h⟩
    cases hconflict.symm.trans hd
    exact ⟨c', rfl, hparts⟩

theorem returnTerm_keeps (q : Query) (t : Term) : Yields
    (fun q' => KeepsClauses q q' ∧ q'.info.insertMode = q.info.insertMode) (q.returnTerm t) := by
  unfold returnTerm
  split
  · exact .error _
  · split
    · exact .ok ⟨.refl q, rfl⟩
    · split
      · next hstar =>
        -- The star takes the place of all that was returned before, and takes it in.
        have hbare : t.IsBareStar := by simpa [Term.IsBareStar] using hstar
        refine .ok ⟨⟨fun _ => rfl, List.prefix_refl _, fun c hc => ⟨c, hc, .refl c⟩,
          List.prefix_refl _, fun _ _ => ?_, fun _ _ => ?_⟩, rfl⟩
        · exact .inr ⟨t, List.mem_singleton_self t, hbare⟩
        · exact ⟨t, List.mem_singleton_self t, hbare⟩
      · next hreturns hstar =>
        refine .ok ⟨⟨fun _ => rfl, List.prefix_refl _, fun c hc => ⟨c, hc, .refl c⟩,
          List.prefix_refl _, fun u hu => ?_, fun _ hq' => absurd hq' hreturns⟩, rfl⟩
        exact hu.imp (List.mem_append_left _) fun ⟨star, hmem, h⟩ =>
          ⟨star, List.mem_append_left _ hmem, h⟩

theorem returningItems_keeps (q : Query) (items : List SelectItem) : Yields
    (fun q' => KeepsClauses q q' ∧ q'.info.insertMode = q.info.insertMode)
    (q.returningItems items) := by
  unfold returningItems
  split
  · exact .error _
  · exact Yields.foldlM (r := fun q q' => KeepsClauses q q' ∧ q'.info.insertMode = q.info.insertMode)
      (fun q => ⟨.refl q, rfl⟩) (fun h h' => ⟨h.1.trans h'.1, h'.2.trans h.2⟩) returnTerm_keeps _ q

/-- A query that inserts nothing may be made to do something else. -/
theorem KeepsClauses.of_action (h : q.isInsertion = false) (action : Action) :
    KeepsClauses q { q with info.action := action } :=
  .of_eq (fun hq => absurd (h.symm.trans hq) Bool.false_ne_true) rfl rfl rfl rfl rfl

theorem into_keeps (q : Query) (t : Table) : Yields
    (fun q' => KeepsClauses q q' ∧ q'.info.insertMode = q.info.insertMode) (q.into t) := by
  unfold into
  split
  · exact .error _
  · exact .error _
  · exact .error _
  · next hfree => exact .ok ⟨.of_action (by rw [isInsertion, hfree]; rfl) _, rfl⟩

theorem update_keeps (q : Query) (t : Table) : Yields
    (fun q' => KeepsClauses q q' ∧ q'.info.insertMode = q.info.insertMode) (q.update t) := by
  unfold update
  split
  · exact .error _
  · exact .error _
  · exact .error _
  · next hfree => exact .guarded ⟨.of_action (by rw [isInsertion, hfree]; rfl) _, rfl⟩

theorem delete_keeps (q : Query) : Yields
    (fun q' => KeepsClauses q q' ∧ q'.info.insertMode = q.info.insertMode) q.delete := by
  unfold delete
  split
  · exact .error _
  · exact .error _
  · next hfree => exact .guarded ⟨.of_action (by rw [isInsertion, hfree]; rfl) _, rfl⟩
  · next hdelete => exact .guarded ⟨.of_action (by rw [isInsertion, hdelete]; rfl) _, rfl⟩

theorem onConflict_keeps (q : Query) (items : List SelectItem) : Yields
    (fun q' => KeepsClauses q q' ∧ q'.info.insertMode = q.info.insertMode)
    (q.onConflict items) := by
  refine .guarded ⟨⟨fun _ => rfl, List.prefix_refl _, fun c hc => ?_, List.prefix_refl _,
    fun _ h => h, fun h => h⟩, rfl⟩
  refine ⟨_, rfl, ?_⟩
  rw [hc]
  exact ⟨List.prefix_append _ _, fun _ h => h, List.prefix_refl _⟩

theorem doNothing_keeps (q : Query) : Yields
    (fun q' => KeepsClauses q q' ∧ q'.info.insertMode = q.info.insertMode) q.doNothing := by
  refine q.changeConflict_keeps fun c => ?_
  split
  · exact .error _
  · exact .ok (.refl c)
  · next hnone =>
    exact .ok ⟨List.prefix_refl _, fun handler h => absurd (hnone.symm.trans h) (by simp),
      List.prefix_refl _⟩

theorem doUpdate_keeps (q : Query) (item : SelectItem) (value : Option Term) : Yields
    (fun q' => KeepsClauses q q' ∧ q'.info.insertMode = q.info.insertMode)
    (q.doUpdate item value) := by
  refine q.changeConflict_keeps fun c => ?_
  split
  · exact .error _
  · next hother =>
    refine .ok ⟨List.prefix_refl _, fun handler h => ?_, List.prefix_append _ _⟩
    cases handler with
    | nothing => exact absurd h hother
    | update => rfl

theorem conflictWhere_keeps (q : Query) (condition : Condition) : Yields
    (fun q' => KeepsClauses q q' ∧ q'.info.insertMode = q.info.insertMode)
    (q.conflictWhere condition) := by
  refine q.changeConflict_keeps fun c => ?_
  split
  · exact .error _
  · split
    · exact .error _
    · split <;> exact .ok ⟨List.prefix_refl _, fun _ h => h, List.prefix_refl _⟩

/-- What a step does to the clauses of an insertion: it keeps them, and it chooses the way of
treating existing rows anew if it chooses one. -/
theorem change_keeps (q : Query) (s : Step) : Yields
    (fun q' => KeepsClauses q q' ∧ q'.info.insertMode = s.insertMode?.getD q.info.insertMode)
    (q.change s) := by
  have hsame : ∀ {x : Except QueryError Query}, Yields (SameClauses q) x → Yields
      (fun q' => KeepsClauses q q' ∧ q'.info.insertMode = q.info.insertMode) x :=
    fun h => h.mono fun _ h => ⟨h.keeps, h.insertMode⟩
  cases s with
  | setImmutable _ | fork | aliased _ | commonTable _ | distinct | distinctOn _ | filter _
  | having _ | groupBy _ | orderBy _ _ | limit _ | offset _ | lock _ | ignore | insertOrReplace
  | assign _ _ | usingTables _ => exact .ok ⟨.of_eq (fun _ => rfl) rfl rfl rfl rfl rfl, rfl⟩
  | source s => exact hsame (.ok (q.addSource_clauses s))
  | select items => exact hsame (q.select_clauses items)
  | join kind source rule => exact hsame (q.join_clauses kind source rule)
  | rows rows => exact hsame (q.addRows_clauses rows)
  | rollup items => exact hsame (q.rollup_clauses items)
  | top t =>
    show Yields _ (q.top t)
    unfold top
    split
    · exact .error _
    · exact .ok ⟨.of_eq (fun _ => rfl) rfl rfl rfl rfl rfl, rfl⟩
  | into t => exact q.into_keeps t
  | update t => exact q.update_keeps t
  | delete => exact q.delete_keeps
  | replace row =>
    refine (addRows_clauses (q.setInsertMode .replace) [row]).mono fun q' h => ⟨?_, h.insertMode⟩
    exact .of_eq (fun _ => h.action) h.columns h.conflict h.duplicateUpdates h.returning
      h.returnsStar
  | columns items =>
    exact .guarded ⟨⟨fun _ => rfl, List.prefix_append _ _, fun c hc => ⟨c, hc, .refl c⟩,
      List.prefix_refl _, fun _ h => h, fun h => h⟩, rfl⟩
  | onConflict items => exact q.onConflict_keeps items
  | doNothing => exact q.doNothing_keeps
  | doUpdate item value => exact q.doUpdate_keeps item value
  | conflictWhere c => exact q.conflictWhere_keeps c
  | onDuplicateUpdate item value =>
    exact .guarded ⟨⟨fun _ => rfl, List.prefix_refl _, fun c hc => ⟨c, hc, .refl c⟩,
      List.prefix_append _ _, fun _ h => h, fun h => h⟩, rfl⟩
  | onDuplicateIgnore => exact .guarded ⟨.of_eq (fun _ => rfl) rfl rfl rfl rfl rfl, rfl⟩
  | returning items => exact q.returningItems_keeps items

/-- The identity of a query is no matter of its clauses. -/
theorem settled_clauses (q : Query) (fresh : SourceId) (s : Step) :
    SameClauses q (q.settled fresh s) := by
  have htouched : SameClauses q (q.touched fresh) := by
    unfold touched
    split <;> exact ⟨rfl, rfl, rfl, rfl, rfl, rfl, rfl⟩
  cases s with
  | setImmutable _ | aliased _ => exact .refl q
  | fork => exact ⟨rfl, rfl, rfl, rfl, rfl, rfl, rfl⟩
  | _ => exact htouched

theorem step_keeps (q : Query) (fresh : SourceId) (s : Step) : Yields
    (fun q' => KeepsClauses q q' ∧ q'.info.insertMode = s.insertMode?.getD q.info.insertMode)
    (q.step fresh s) :=
  (q.change_keeps s).bind fun next h => .pure
    ⟨h.1.trans (next.settled_clauses fresh s).keeps,
      (next.settled_clauses fresh s).insertMode.trans h.2⟩

/-! ## Runs -/

/-- The way of treating existing rows that a program of steps chooses: that of its last step which
chooses one. -/
def lastInsertMode? (steps : List (SourceId × Step)) : Option InsertMode :=
  (steps.filterMap fun s => s.2.insertMode?).getLast?

/-- No program of steps drops a clause, and its last choice of how to treat existing rows counts. -/
theorem run_keeps (q : Query) (steps : List (SourceId × Step)) : Yields
    (fun q' => KeepsClauses q q' ∧
      q'.info.insertMode = (lastInsertMode? steps).getD q.info.insertMode)
    (q.run steps) := by
  induction steps generalizing q with
  | nil => exact .ok ⟨.refl q, rfl⟩
  | cons s steps ih =>
    rw [run, List.foldlM_cons]
    refine (q.step_keeps s.1 s.2).bind fun next h => (ih next).mono fun q' h' =>
      ⟨h.1.trans h'.1, h'.2.trans ?_⟩
    rw [h.2, lastInsertMode?, lastInsertMode?]
    cases hmode : s.2.insertMode? with
    | none => simp [hmode]
    | some mode => simp [hmode, List.getLast?_cons]

/-! ## What steps ask for -/

theorem returnTerm_returns (q : Query) (hstar : q.StarReturned) (t : Term) :
    Yields (fun q' => q'.Returns t) (q.returnTerm t) := by
  unfold returnTerm
  split
  · exact .error _
  · split
    · next hreturns => exact .ok (.inr (hstar hreturns))
    · split
      · exact .ok (.inl (List.mem_singleton_self t))
      · exact .ok (.inl (List.mem_append_right _ (List.mem_singleton_self t)))

/-- Each of the returned terms is among the returned items in the end. -/
theorem foldlM_returns (q : Query) (hstar : q.StarReturned) (terms : List Term) :
    Yields (fun q' => ∀ t ∈ terms, q'.Returns t) (terms.foldlM returnTerm q) := by
  induction terms generalizing q with
  | nil => exact .pure (by simp)
  | cons t terms ih =>
    rw [List.foldlM_cons]
    refine ((q.returnTerm_returns hstar t).and (q.returnTerm_keeps t)).bind fun next h => ?_
    obtain ⟨hreturns, hkeeps, -⟩ := h
    have hrest := Yields.foldlM
      (r := fun q q' => KeepsClauses q q' ∧ q'.info.insertMode = q.info.insertMode)
      (fun q => ⟨.refl q, rfl⟩) (fun h h' => ⟨h.1.trans h'.1, h'.2.trans h.2⟩) returnTerm_keeps
      terms next
    refine ((ih next (hkeeps.starReturned hstar)).and hrest).mono fun q' h' => ?_
    rintro u hu
    rcases List.mem_cons.mp hu with rfl | hu
    · exact h'.2.1.returning u hreturns
    · exact h'.1 u hu

/-- What a change makes of the conflict clause is the conflict clause then. -/
theorem changeConflict_yields (q : Query) {change : Conflict → Except QueryError Conflict}
    {p : Conflict → Prop} (h : ∀ c, Yields p (change c)) :
    Yields (fun q' => ∃ c, q'.conflict = some c ∧ p c) (q.changeConflict change) := by
  unfold changeConflict
  split
  · exact .error _
  · next c _ => exact (h c).bind fun c' hc' => .pure ⟨c', rfl, hc'⟩

/-- A query that inserts into a table gathers what a step asks for. -/
theorem change_gathered (q : Query) {target : Table} (s : Step)
    (htarget : q.info.action.insertTarget? = some target) (hstar : q.StarReturned) :
    Yields (fun q' => s.Gathered target q') (q.change s) := by
  cases s with
  | columns items =>
    exact .guarded fun item hitem => List.mem_append_right _ (List.mem_map_of_mem hitem)
  | onConflict items =>
    exact .guarded ⟨_, rfl, fun item hitem => List.mem_append_right _ (List.mem_map_of_mem hitem)⟩
  | doNothing =>
    refine q.changeConflict_yields fun c => ?_
    split
    · exact .error _
    · next hnothing => exact .ok hnothing
    · exact .ok rfl
  | doUpdate item value =>
    refine q.changeConflict_yields fun c => ?_
    split
    · exact .error _
    · exact .ok ⟨rfl, List.mem_append_right _ (List.mem_singleton_self _)⟩
  | onDuplicateUpdate item value =>
    exact .guarded (List.mem_append_right _ (List.mem_singleton_self _))
  | returning items =>
    have hqualifier : q.returnedQualifier? = some (.table target) := by
      unfold returnedQualifier?
      cases haction : q.info.action <;> simp_all [Action.insertTarget?]
    show Yields _ (q.returningItems items)
    unfold returningItems
    split
    · exact .error _
    · rw [hqualifier]
      exact (q.foldlM_returns hstar _).mono fun q' h item hitem => h _ (List.mem_map_of_mem hitem)
  | _ => exact fun _ _ => trivial

/-- A query that inserts into a table gathers what a step asks for, and no program of steps drops
it. -/
theorem run_gathered {target : Table} {fresh : SourceId} {s : Step} {next : Query}
    {steps : List (SourceId × Step)} (htarget : q.info.action.insertTarget? = some target)
    (hstar : q.StarReturned) (hstep : q.step fresh s = .ok next) (hrun : next.run steps = .ok q') :
    s.Gathered target q' := by
  have hnext : Yields (fun next => s.Gathered target next) (q.step fresh s) :=
    (q.change_gathered s htarget hstar).bind fun changed h => .pure
      (h.mono (changed.settled_clauses fresh s).keeps)
  exact (hnext next hstep).mono (next.run_keeps steps q' hrun).1

theorem Begun.starReturned (h : q.Begun) : q.StarReturned := by
  cases h with
  | start | into | update | tableUpdate => exact nofun
  | tableSelect t id items h =>
    have hnone : (t.newQuery id).StarReturned := nofun
    refine (KeepsClauses.trans ?_ (select_clauses _ items q h).keeps).starReturned hnone
    exact (addSource_clauses _ _).keeps
  | tableInsert t id row h =>
    have hnone : (t.newQuery id).StarReturned := nofun
    have hrow : Yields (KeepsClauses (t.newQuery id)) (t.insert id row) :=
      (into_keeps _ t).bind fun next hnext => (addRows_clauses next [row]).mono fun q' h =>
        hnext.1.trans h.keeps
    exact (hrow q h).starReturned hnone

/-- A query that can be built has the star among its returned items if it says that it returns all
columns. -/
theorem Reachable.starReturned (h : q.Reachable) : q.StarReturned := by
  induction h with
  | begun h => exact h.starReturned
  | step _ hs ih => exact (step_keeps _ _ _ _ hs).1.starReturned ih

end Query

end SqlScribe
