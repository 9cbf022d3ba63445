import SqlScribe.Proofs.Query.InsertionText
/-! # Conflict clauses

The calls about conflicts may come in any order, and `conflictWhere` means another thing once a
handler is chosen. Half of what a conflict clause has to be is settled by the calls, which refuse
what does not fit, and half when the clause is written.

* `Conflict.Edit`, `Query.change_conflict`: all that a call can do to a conflict clause.
* `Conflict.Consistent`, `Conflict.Edit.consistent`: what fits together, and every call keeps it.
* `Query.Reachable.conflictFits`: so it does in every query that can be built.
* `Statement.whole_eq_around`: an insertion from what stands before its conflict clause, the clause
  and what stands behind it.
* `Query.Reachable.conflict_consistent`: all of it, with what is written. -/

namespace SqlScribe

open Tokens

/-! ## Edits -/

namespace Conflict

variable {c c' : Conflict}

/-- A conflict clause of which nothing is known yet. -/
def unset : Conflict := ⟨[], .empty, none, [], .empty⟩

/-- All that a call can do to a conflict clause. -/
inductive Edit (c : Conflict) : Conflict → Prop where
  /-- Columns are added. -/
  | targets (columns : List Term) : Edit c { c with targets := c.targets ++ columns }
  /-- Rows in conflict are to be passed over. -/
  | nothing (free : c.handler ≠ some .update) : Edit c { c with handler := some .nothing }
  /-- A change of the existing row is added. -/
  | update (free : c.handler ≠ some .nothing) (a : Assignment) :
    Edit c { c with handler := some .update, assignments := c.assignments ++ [a] }
  /-- The changed rows are restricted. -/
  | restrictUpdate (chosen : c.handler = some .update) (targeted : c.targets ≠ [])
    (condition : Condition) : Edit c { c with updateFilter := c.updateFilter.and condition }
  /-- The index is restricted. -/
  | restrictTargets (free : c.handler = none) (targeted : c.targets ≠ []) (condition : Condition) :
    Edit c { c with targetFilter := c.targetFilter.and condition }

/-- The parts of a conflict clause fit together. -/
structure Consistent (c : Conflict) : Prop where
  /-- An update changes something. -/
  assigned : c.handler = some .update → c.assignments ≠ []
  /-- Only an update has rows to restrict, and then it has columns in conflict. -/
  updateFilter : c.updateFilter.isEmpty = false → c.handler = some .update ∧ c.targets ≠ []
  /-- Only an index on columns is restricted. -/
  targetFilter : c.targetFilter.isEmpty = false → c.targets ≠ []

theorem Consistent.unset : unset.Consistent := ⟨nofun, nofun, nofun⟩

/-- Every call keeps the parts of a conflict clause fit. -/
theorem Edit.consistent (h : Edit c c') (hc : c.Consistent) : c'.Consistent := by
  cases h with
  | targets columns =>
    have hgrown (h : c.targets ≠ []) : c.targets ++ columns ≠ [] :=
      List.append_ne_nil_of_left_ne_nil h columns
    refine ⟨hc.assigned, fun hfilter => ?_, fun hfilter => hgrown (hc.targetFilter hfilter)⟩
    obtain ⟨hhandler, htargets⟩ := hc.updateFilter hfilter
    exact ⟨hhandler, hgrown htargets⟩
  | nothing free =>
    -- No update was chosen, so that no rows of one are restricted.
    refine ⟨nofun, fun hfilter => ?_, hc.targetFilter⟩
    exact absurd (hc.updateFilter hfilter).1 free
  | update free a =>
    refine ⟨fun _ => List.concat_ne_nil a _, fun hfilter => ?_, hc.targetFilter⟩
    exact ⟨rfl, (hc.updateFilter hfilter).2⟩
  | restrictUpdate chosen targeted condition =>
    exact ⟨hc.assigned, fun _ => ⟨chosen, targeted⟩, hc.targetFilter⟩
  | restrictTargets free targeted condition =>
    exact ⟨hc.assigned, hc.updateFilter, fun _ => targeted⟩

end Conflict

namespace Query

variable {q q' : Query}

/-! ## Steps -/

/-- All that a call can do to the conflict clause of a query. -/
inductive ConflictChange (q q' : Query) : Prop where
  /-- Nothing. An insertion stays one. -/
  | kept (conflict : q'.conflict = q.conflict)
    (insertion : q.isInsertion = true → q'.isInsertion = true)
  /-- An insertion, or a query with a conflict clause, gets an edited one. -/
  | edited {c : Conflict} (edit : (q.conflict.getD .unset).Edit c)
    (staged : q.isInsertion = true ∨ q.conflict ≠ none) (conflict : q'.conflict = some c)
    (action : q'.info.action = q.info.action)

theorem SameClauses.conflictChange (h : SameClauses q q') : ConflictChange q q' :=
  .kept h.conflict fun hq => by
    rw [isInsertion, h.action]
    exact hq

/-- A query that inserts nothing keeps its conflict clause when it is made to do something. -/
theorem ConflictChange.of_action (h : q.isInsertion = false) (action : Action) :
    ConflictChange q { q with info.action := action } :=
  .kept rfl fun hq => absurd (h.symm.trans hq) Bool.false_ne_true

theorem into_conflict (q : Query) (t : Table) : Yields (ConflictChange q) (q.into t) := by
  unfold into
  split
  · exact .error _
  · exact .error _
  · exact .error _
  · exact .ok (.kept rfl fun _ => rfl)

theorem update_conflict (q : Query) (t : Table) : Yields (ConflictChange q) (q.update t) := by
  unfold update
  split
  · exact .error _
  · exact .error _
  · exact .error _
  · next hfree => exact .guarded (.of_action (by rw [isInsertion, hfree]; rfl) _)

theorem delete_conflict (q : Query) : Yields (ConflictChange q) q.delete := by
  unfold delete
  split
  · exact .error _
  · exact .error _
  · next hfree => exact .guarded (.of_action (by rw [isInsertion, hfree]; rfl) _)
  · next hdelete => exact .guarded (.of_action (by rw [isInsertion, hdelete]; rfl) _)

theorem onConflict_conflict (q : Query) (items : List SelectItem) :
    Yields (ConflictChange q) (q.onConflict items) := by
  unfold onConflict
  split
  · next hinsertion => exact .ok (.edited (.targets _) (.inl hinsertion) rfl rfl)
  · exact .error _

/-- A change that only edits conflict clauses edits that of a query which has one. -/
theorem changeConflict_conflict (q : Query) {change : Conflict → Except QueryError Conflict}
    (h : ∀ c, Yields c.Edit (change c)) : Yields (ConflictChange q) (q.changeConflict change) := by
  unfold changeConflict
  split
  · exact .error _
  · next c hconflict =>
    refine (h c).bind fun c' hedit => .pure (.edited ?_ (.inr ?_) rfl rfl)
    · rw [hconflict]
      exact hedit
    · rw [hconflict]
      exact Option.some_ne_none c

theorem doNothing_conflict (q : Query) : Yields (ConflictChange q) q.doNothing := by
  refine q.changeConflict_conflict fun c => ?_
  split
  · exact .error _
  · next hnothing =>
    -- The handler is what it was.
    have hsame : { c with handler := some .nothing } = c := by
      cases c
      cases hnothing
      rfl
    have hedit : c.Edit { c with handler := some .nothing } := .nothing (by simp [hnothing])
    exact .ok (hsame ▸ hedit)
  · next hnone => exact .ok (.nothing (by simp [hnone]))

theorem doUpdate_conflict (q : Query) (item : SelectItem) (value : Option Term) :
    Yields (ConflictChange q) (q.doUpdate item value) := by
  refine q.changeConflict_conflict fun c => ?_
  split
  · exact .error _
  · next hother => exact .ok (.update hother _)

theorem conflictWhere_conflict (q : Query) (condition : Condition) :
    Yields (ConflictChange q) (q.conflictWhere condition) := by
  refine q.changeConflict_conflict fun c => ?_
  split
  · exact .error _
  · next hother =>
    split
    · exact .error _
    · next htargets =>
      have htargeted : c.targets ≠ [] := by simpa using htargets
      split
      · next handler hhandler =>
        cases handler with
        | nothing => exact absurd hhandler hother
        | update => exact .ok (.restrictUpdate hhandler htargeted condition)
      · next hnone => exact .ok (.restrictTargets hnone htargeted condition)

theorem returnTerm_conflict (q : Query) (t : Term) :
    Yields (fun q' => q'.conflict = q.conflict ∧ q'.info.action = q.info.action)
      (q.returnTerm t) := by
  unfold returnTerm
  split
  · exact .error _
  · split
    · exact .ok ⟨rfl, rfl⟩
    · split <;> exact .ok ⟨rfl, rfl⟩

theorem returningItems_conflict (q : Query) (items : List SelectItem) :
    Yields (ConflictChange q) (q.returningItems items) := by
  unfold returningItems
  split
  · exact .error _
  · have hsame := Yields.foldlM
      (r := fun q q' => q'.conflict = q.conflict ∧ q'.info.action = q.info.action)
      (fun _ => ⟨rfl, rfl⟩) (fun ⟨h, ha⟩ ⟨h', ha'⟩ => ⟨h'.trans h, ha'.trans ha⟩)
      returnTerm_conflict (items.map (SelectItem.toTerm q.returnedQualifier?)) q
    refine hsame.mono fun q' h => .kept h.1 fun hq => ?_
    rw [isInsertion, h.2]
    exact hq

theorem change_conflict (q : Query) (s : Step) : Yields (ConflictChange q) (q.change s) := by
  -- A call that is no matter of an insertion keeps all of its clauses.
  have hsame : ∀ {x : Except QueryError Query},
      Yields (SameClauses q) x → Yields (ConflictChange q) x :=
    fun h => h.mono fun _ h => h.conflictChange
  cases s with
  | setImmutable _ | fork | aliased _ | commonTable _ | distinct | distinctOn _ | filter _
  | having _ | groupBy _ | orderBy _ _ | limit _ | offset _ | lock _ | ignore | insertOrReplace
  | assign _ _ | usingTables _ => exact .ok (.kept rfl id)
  | source s => exact hsame (.ok (q.addSource_clauses s))
  | select items => exact hsame (q.select_clauses items)
  | join kind source rule => exact hsame (q.join_clauses kind source rule)
  | rows rows => exact hsame (q.addRows_clauses rows)
  | rollup items => exact hsame (q.rollup_clauses items)
  | top t =>
    show Yields _ (q.top t)
    unfold top
    split
    · exact .error _
    · exact .ok (.kept rfl id)
  | into t => exact q.into_conflict t
  | update t => exact q.update_conflict t
  | delete => exact q.delete_conflict
  | replace row =>
    refine (addRows_clauses (q.setInsertMode .replace) [row]).mono fun q' h => ?_
    exact .kept h.conflict fun hq => by
      rw [isInsertion, h.action]
      exact hq
  | columns items => exact .guarded (.kept rfl id)
  | onConflict items => exact q.onConflict_conflict items
  | doNothing => exact q.doNothing_conflict
  | doUpdate item value => exact q.doUpdate_conflict item value
  | conflictWhere c => exact q.conflictWhere_conflict c
  | onDuplicateUpdate item value => exact .guarded (.kept rfl id)
  | onDuplicateIgnore => exact .guarded (.kept rfl id)
  | returning items => exact q.returningItems_conflict items

/-! ## Queries that can be built -/

/-- A conflict clause stands in an insertion, and its parts fit together. -/
def ConflictFits (q : Query) : Prop :=
  ∀ c, q.conflict = some c → q.isInsertion = true ∧ c.Consistent

theorem ConflictFits.of_none (h : q.conflict = none) : q.ConflictFits :=
  fun _ hc => absurd (h.symm.trans hc) nofun

theorem ConflictChange.fits (h : ConflictChange q q') (hq : q.ConflictFits) :
    q'.ConflictFits := by
  intro c hc
  cases h with
  | kept conflict insertion =>
    obtain ⟨hinsertion, hconsistent⟩ := hq c (conflict.symm.trans hc)
    exact ⟨insertion hinsertion, hconsistent⟩
  | edited edit staged conflict action =>
    cases conflict.symm.trans hc
    rw [isInsertion, action]
    cases hconflict : q.conflict with
    | none =>
      rw [hconflict] at edit
      refine ⟨staged.resolve_right (· hconflict), edit.consistent ?_⟩
      exact Conflict.Consistent.unset
    | some d =>
      rw [hconflict] at edit
      obtain ⟨hinsertion, hconsistent⟩ := hq d hconflict
      exact ⟨hinsertion, edit.consistent hconsistent⟩

theorem Begun.conflictFits (h : q.Begun) : q.ConflictFits := by
  cases h with
  | start | into | update | tableUpdate => exact .of_none rfl
  | tableSelect t id items h =>
    refine .of_none ?_
    exact ((addSource_clauses _ _).trans (select_clauses _ items q h)).conflict
  | tableInsert t id row h =>
    have hrow : Yields ConflictFits (t.insert id row) :=
      (into_conflict _ t).bind fun next hnext => (addRows_clauses next [row]).mono fun q' h =>
        h.conflictChange.fits (hnext.fits (.of_none rfl))
    exact hrow q h

theorem step_conflictFits {fresh : SourceId} {s : Step} (h : q.step fresh s = .ok q')
    (hq : q.ConflictFits) : q'.ConflictFits := by
  have hstep : Yields ConflictFits (q.step fresh s) :=
    (q.change_conflict s).bind fun next hnext => .pure
      ((next.settled_clauses fresh s).conflictChange.fits (hnext.fits hq))
  exact hstep q' h

/-- Whatever calls made a query, in whatever order, its conflict clause stands in an insertion and
fits together. -/
theorem Reachable.conflictFits (h : q.Reachable) : q.ConflictFits := by
  induction h with
  | begun h => exact h.conflictFits
  | step _ hs ih => exact step_conflictFits hs ih

/-- A condition on rows that are passed over is refused. -/
theorem step_conflictWhere_of_nothing {c : Conflict} (hc : q.conflict = some c)
    (hnothing : c.handler = some .nothing) (fresh : SourceId) (condition : Condition) :
    q.step fresh (.conflictWhere condition) = .error (.configuration .conditionOnNothing) := by
  have hchange : q.change (.conflictWhere condition) =
      .error (.configuration .conditionOnNothing) := by
    show q.conflictWhere condition = _
    unfold conflictWhere changeConflict
    simp only [hc, if_pos hnothing]
    rfl
  rw [step, hchange]
  rfl

end Query

/-! ## What is written -/

namespace Statement

/-- What an insertion writes before its conflict clause. -/
def upToConflict (s : Scope) (q : Query) (p : QueryParts) (target : Table) : Lowered := do
  let commonTables ← withClause s.dialect (q.commonTables.any (·.recursive)) p.commonTables
  let head ← insertHead s.dialect q.info.insertMode
  let columns ← columnClause p.columns
  let added ← addedRows s q p
  return commonTables ++ (head ++ .space :: target.tokens s ++ columns ++ added)

/-- What an insertion writes behind its conflict clause. -/
def fromConflict (s : Scope) (q : Query) (p : QueryParts) : Lowered := do
  let duplicates ← duplicateClause s.dialect q.duplicateUpdates.isEmpty p.duplicateUpdates
  let returning ← returningClause s.dialect q p.returning
  return duplicates ++ returning

theorem whole_eq_around (s : Scope) {q : Query} (p : QueryParts) {target : Table}
    (haction : q.info.action = .insert target false) :
    whole s q p = do
      let before ← upToConflict s q p target
      let conflict ← p.conflict
      let after ← fromConflict s q p
      return before ++ (conflict ++ after) := by
  have hbody : body s q p = insertion s q p target := by rw [body, haction]
  simp only [whole, hbody, insertion, upToConflict, fromConflict, bind_assoc, pure_bind,
    List.append_assoc]

/-- A conflict clause that cannot be written lets an insertion fail, once what stands before it
is written. -/
theorem whole_eq_error (s : Scope) {q : Query} (p : QueryParts) {target : Table}
    (haction : q.info.action = .insert target false) {e : QueryError}
    (hconflict : p.conflict = .error e) :
    whole s q p = upToConflict s q p target >>= fun _ => .error e := by
  rw [whole_eq_around s p haction, hconflict]
  rfl

variable {c : Conflict} {p : ConflictParts} {d : Dialect}

/-- An update on conflict is not written without columns in conflict. -/
theorem conflictClause_of_untargeted (hd : d.profile.upsert = .onConflict) (hc : c.Consistent)
    (hhandler : c.handler = some .update) (htargets : c.targets = []) (hp : p.targets = .ok []) :
    conflictClause d c p = .error (.configuration .conflictUpdateWithoutTargets) := by
  -- Without columns there is no condition on an index either.
  have hfilter : c.targetFilter.isEmpty = true := by
    cases hfilter : c.targetFilter.isEmpty with
    | true => rfl
    | false => exact absurd htargets (hc.targetFilter hfilter)
  have hfails : conflictHandler c p .update =
      .error (.configuration .conflictUpdateWithoutTargets) := by
    rw [conflictHandler, htargets]
    rfl
  simp only [conflictClause, hd, ne_eq, not_true_eq_false, if_false, hhandler, hp, hfilter,
    whereClause, hfails]
  rfl

theorem duplicateClause_of_onConflict (hd : d.profile.upsert = .onConflict) (isEmpty : Bool)
    (items : LoweredList) : Yields (· = []) (duplicateClause d isEmpty items) := by
  refine iteInduction (fun _ => .ok rfl) fun _ => iteInduction (fun _ => .error _) fun h => ?_
  rw [hd] at h
  exact absurd nofun h

/-- Behind a conflict clause, only returned items are written. -/
theorem fromConflict_lays (s : Scope) (hd : s.dialect.profile.upsert = .onConflict) (q : Query)
    (p : QueryParts) :
    Yields (fun ts => ∃ returned, ts = clauseOf (spaced (.word .RETURNING)) returned)
      (fromConflict s q p) := by
  refine (duplicateClause_of_onConflict hd _ _).bind fun duplicates hduplicates =>
    (returningClause_lays s.dialect q).bind fun ts h => ?_
  obtain ⟨returned, -, rfl⟩ := h
  exact .pure ⟨returned, by rw [hduplicates, List.nil_append]⟩

end Statement

/-- The tokens of a conflict clause are those of its handler: no condition stands behind one that
does nothing, and before one that changes something stand columns. -/
def Conflict.WrittenAs (c : Conflict) : Option ConflictTokens → Prop
  | none => c.handler = none
  | some t => (c.handler = some .nothing ∧ t.handler = .nothing) ∨
      (c.handler = some .update ∧ t.targets ≠ [] ∧
        ∃ assignments filter, assignments ≠ [] ∧ t.handler = .update assignments filter)

namespace Query

variable {q : Query} {s : Scope}

theorem parts_conflict {c : Conflict} (hc : q.conflict = some c) :
    (q.parts s).conflict = Statement.conflictClause s.dialect c (conflictParts s c) := by
  rw [parts, hc]
  cases c
  simp only [Conflict.lower, conflictParts]

theorem conflictParts_targets_nil {c : Conflict} (htargets : c.targets = []) :
    (conflictParts s c).targets = .ok [] := by
  rw [conflictParts, htargets]
  rfl

/-- The conflict clause of a query is written as its handler asks. -/
theorem conflict_writtenAs (hd : s.dialect.profile.upsert = .onConflict) {c : Conflict}
    (hc : q.conflict = some c) (hfits : c.Consistent) : Yields
      (fun ts => ∃ t : Option ConflictTokens, ts = (t.map ConflictTokens.tokens).getD [] ∧
        c.WrittenAs t) (q.parts s).conflict := by
  rw [parts_conflict hc]
  intro ts hts
  obtain ⟨t, rfl, hlays⟩ := Statement.conflictClause_lays s.dialect c (conflictParts s c) ts hts
  cases hhandler : c.handler with
  | none =>
    refine ⟨none, ?_, hhandler⟩
    -- A clause without a handler is written only if it is without columns too.
    cases t with
    | none => rfl
    | some t =>
      rw [Statement.conflictClause, if_neg (by simp [hd]), hhandler] at hts
      simp only at hts
      split at hts
      · exact (Except.ok.inj hts).symm
      · cases hts
  | some handler =>
    obtain ⟨written, rfl, hparts⟩ := hlays.exists_some (.inl (by simp [hhandler]))
    refine ⟨some written, rfl, ?_⟩
    cases handler with
    | nothing => exact .inl ⟨hhandler, hparts.nothing hhandler⟩
    | update =>
      have htargets : c.targets ≠ [] := fun htargets => by
        rw [Statement.conflictClause_of_untargeted hd hfits hhandler htargets
          (conflictParts_targets_nil htargets)] at hts
        cases hts
      obtain ⟨column, hcolumn⟩ := List.exists_mem_of_ne_nil _ htargets
      obtain ⟨a, ha⟩ := List.exists_mem_of_ne_nil _ (hfits.assigned hhandler)
      obtain ⟨assignments, filter, hassignments, hupdate⟩ := hparts.update hhandler
      obtain ⟨ts, hmem, -⟩ :=
        exists_mem_of_lowered (fun t ts => by rw [Term.lowerColumns]) hparts.targets hcolumn
      obtain ⟨us, hmem', -⟩ :=
        exists_mem_of_lowered (fun a as => by rw [Assignment.lowerAll]) hassignments ha
      exact .inr ⟨hhandler, List.ne_nil_of_mem hmem, assignments, filter,
        List.ne_nil_of_mem hmem', hupdate⟩

/-- What an insertion writes before its conflict clause. -/
def upToConflict (q : Query) (s : Scope) (target : Table) : Lowered :=
  Statement.upToConflict (s.inside q) q (q.parts (s.inside q)) target

/-- An insertion with a conflict clause in tokens: what stands before the clause, the clause as its
handler asks, and returned items. -/
def WritesConflict (q : Query) (s : Scope) (target : Table) (c : Conflict) (ts : Tokens) : Prop :=
  ∃ before clause returned, q.upToConflict s target = .ok before ∧ c.WrittenAs clause ∧
    ts = before ++ ((clause.map ConflictTokens.tokens).getD [] ++
      clauseOf (spaced (.word .RETURNING)) returned)

theorem whole_writesConflict (hd : s.dialect.profile.upsert = .onConflict) {target : Table}
    (haction : q.info.action = .insert target false) {c : Conflict} (hc : q.conflict = some c)
    (hfits : c.Consistent) : Yields (q.WritesConflict s target c)
      (Statement.whole (s.inside q) q (q.parts (s.inside q))) := by
  rw [Statement.whole_eq_around _ _ haction]
  have hwritten := conflict_writtenAs (s := s.inside q) hd hc hfits
  have hreturned := Statement.fromConflict_lays (s.inside q) hd q (q.parts (s.inside q))
  refine (Yields.self _).bind fun before hbefore => hwritten.bind fun _ hclause =>
    hreturned.bind fun _ hbehind => ?_
  obtain ⟨clause, rfl, hclause⟩ := hclause
  obtain ⟨returned, rfl⟩ := hbehind
  exact .pure ⟨before, clause, returned, hbefore, hclause, rfl⟩

/-- **A conflict clause fits together, whatever calls made it, and only then it is written.** Let a
query that can be built have a conflict clause. Then it is an insertion; an update changes
something; a condition on the changed rows stands in an update with columns in conflict, and one on
the index has columns too. No program of steps changes the handler once it is chosen, and a
condition on rows that are passed over is refused. Where the query adds its own rows, so that there
is an insertion to write, `DO NOTHING` has no condition behind it, and an update without columns
fails: once what stands before the conflict clause can be written, with a configuration error. -/
theorem Reachable.conflict_consistent (hq : q.Reachable) {c : Conflict}
    (hc : q.conflict = some c) :
    (∃ target fromList, q.info.action = .insert target fromList) ∧
    c.Consistent ∧
    (∀ handler, c.handler = some handler → ∀ steps q', q.run steps = .ok q' →
      ∃ c', q'.conflict = some c' ∧ c'.handler = some handler) ∧
    (c.handler = some .nothing → ∀ fresh condition,
      q.step fresh (.conflictWhere condition) = .error (.configuration .conditionOnNothing)) ∧
    ∀ (s : Scope) (target : Table), s.dialect = .postgres ∨ s.dialect = .sqlite →
      q.info.action = .insert target false → q.isBlank = false →
      (c.handler = some .update → c.targets = [] → q.lower s =
        q.upToConflict s target >>= fun _ =>
          .error (.configuration .conflictUpdateWithoutTargets)) ∧
      ∀ ts, q.lower s = .ok ts → ∃ whole, q.WritesConflict s target c whole ∧
        ts = Statement.placed s q.info.id q.info.alias? whole := by
  obtain ⟨hinsertion, hfits⟩ := hq.conflictFits c hc
  refine ⟨?_, hfits, ?_, step_conflictWhere_of_nothing hc, ?_⟩
  · unfold isInsertion at hinsertion
    cases haction : q.info.action with
    | insert target fromList => exact ⟨target, fromList, rfl⟩
    | select | update | delete =>
      rw [haction] at hinsertion
      cases hinsertion
  · intro handler hhandler steps q' hrun
    obtain ⟨c', hc', hparts⟩ := (q.run_keeps steps q' hrun).1.conflict c hc
    exact ⟨c', hc', hparts.handler handler hhandler⟩
  · intro s target hdialect haction hblank
    have hd : s.dialect.profile.upsert = .onConflict := by
      rcases hdialect with hd | hd <;> rw [hd] <;> rfl
    have hlower : q.lower s = do
        let whole ← Statement.whole (s.inside q) q (q.parts (s.inside q))
        return Statement.placed s q.info.id q.info.alias? whole := by
      rw [lower_eq, hblank, if_neg Bool.false_ne_true]
    rw [hlower]
    constructor
    · intro hhandler htargets
      have hconflict : (q.parts (s.inside q)).conflict =
          .error (.configuration .conflictUpdateWithoutTargets) := by
        rw [parts_conflict hc]
        exact Statement.conflictClause_of_untargeted hd hfits hhandler htargets
          (conflictParts_targets_nil htargets)
      rw [Statement.whole_eq_error _ _ haction hconflict, bind_assoc]
      rfl
    · intro ts hts
      have hplaced := (whole_writesConflict hd haction hc hfits).bind
        (q := fun ts => ∃ whole, q.WritesConflict s target c whole ∧
          ts = Statement.placed s q.info.id q.info.alias? whole)
        fun whole h => .pure ⟨whole, h, rfl⟩
      exact hplaced ts hts

/-- An update on conflict without columns. -/
theorem Reachable.conflict_consistent_untargeted :
    let abc : Table := { id := ⟨1⟩, name := "abc" }
    let c : Conflict :=
      ⟨[], .empty, some .update, [⟨Term.field "n", Term.excluded "n"⟩], .empty⟩
    let q : Query :=
      { start ⟨5⟩ .postgres with
        info.action := .insert abc false, rows := [[Term.int 1]], conflict := some c }
    (start ⟨0⟩ .postgres).run [(⟨2⟩, .into abc), (⟨3⟩, .rows [[Term.int 1]]),
        (⟨4⟩, .onConflict []), (⟨5⟩, .doUpdate (.column "n") none)] = .ok q ∧
      c.Consistent ∧ q.lower (.ofOptions .postgres {}) =
        .error (.configuration .conflictUpdateWithoutTargets) := by
  intro abc c q
  have hrun : (start ⟨0⟩ .postgres).run [(⟨2⟩, .into abc), (⟨3⟩, .rows [[Term.int 1]]),
      (⟨4⟩, .onConflict []), (⟨5⟩, .doUpdate (.column "n") none)] = .ok q := rfl
  have hreachable := Reachable.run (.begun (.start ⟨0⟩ .postgres)) hrun
  obtain ⟨-, hfits, -, -, hwritten⟩ := Reachable.conflict_consistent hreachable (c := c) rfl
  refine ⟨hrun, hfits, ?_⟩
  rw [(hwritten (.ofOptions .postgres {}) abc (.inl rfl) rfl rfl).1 rfl rfl]
  rfl

/-- Two updates on conflict without columns for which there is no configuration error: the dialect
has no `REPLACE`, or there are no rows, so that nothing is written. -/
theorem untargeted_update_not_reached :
    let abc : Table := { id := ⟨1⟩, name := "abc" }
    let c : Conflict :=
      ⟨[], .empty, some .update, [⟨Term.field "n", Term.excluded "n"⟩], .empty⟩
    let q : Query :=
      { start ⟨5⟩ .postgres with
        info.action := .insert abc false, info.insertMode := .replace, rows := [[Term.int 1]]
        conflict := some c }
    let blank : Query :=
      { start ⟨4⟩ .postgres with info.action := .insert abc false, conflict := some c }
    (start ⟨0⟩ .postgres).run [(⟨2⟩, .into abc), (⟨3⟩, .replace [Term.int 1]),
        (⟨4⟩, .onConflict []), (⟨5⟩, .doUpdate (.column "n") none)] = .ok q ∧
      q.conflict = some c ∧ renderTokens q {} = .error (.unsupported .postgres .replace) ∧
      (start ⟨0⟩ .postgres).run [(⟨2⟩, .into abc), (⟨3⟩, .onConflict []),
        (⟨4⟩, .doUpdate (.column "n") none)] = .ok blank ∧
      blank.conflict = some c ∧ renderTokens blank {} = .ok [] :=
  ⟨rfl, rfl, rfl, rfl, rfl, rfl⟩

end Query

end SqlScribe
