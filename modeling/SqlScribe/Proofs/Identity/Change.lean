import SqlScribe.Proofs.Identity.Select
/-! # Insertions, updates and deletions under other identities

The calls that make a query change rows look at what it does already, which is the same in both
runs; none of them compares identities. -/

namespace SqlScribe

variable {r : Recast} {S : List SourceId}

namespace Query

variable {q : Query}

/-! ## Targets, columns and rows -/

theorem toColumns_recast (items : List SelectItem) :
    (items.map (·.recast r)).map SelectItem.toColumn =
      (items.map SelectItem.toColumn).map (·.recast r) := by
  rw [List.map_map, List.map_map]
  exact congrArg (List.map · items) (funext SelectItem.toColumn_recast)

theorem toColumns_references {items : List SelectItem}
    (hitems : items.flatMap SelectItem.references ⊆ S) :
    Term.referencesAll (items.map SelectItem.toColumn) ⊆ S := by
  refine Term.referencesAll_subset.mpr fun t ht => ?_
  obtain ⟨item, hitem, rfl⟩ := List.mem_map.mp ht
  exact SelectItem.toColumn_references fun id hid =>
    hitems (List.mem_flatMap.mpr ⟨item, hitem, hid⟩)

theorem isInsertion_recast (q : Query) : (q.recast r).isInsertion = q.isInsertion := by
  rw [isInsertion, isInsertion, q.info_recast]
  exact q.info.action.isSome_insertTarget?_recast

theorem action_recast (q : Query) : (q.recast r).info.action = q.info.action.recast r := by
  rw [q.info_recast]
  rfl

theorem isEmpty_selects_recast (q : Query) :
    (q.recast r).selects.isEmpty = q.selects.isEmpty := by
  rw [q.selects_recast, List.isEmpty_map]

theorem withAction_recast (q : Query) (a : Action) :
    { q.recast r with info.action := a.recast r } =
      ({ q with info.action := a } : Query).recast r := by
  rw [recast_eq, recast_eq]
  rfl

theorem into_recast (h : q.RefersIn S) {t : Table} (ht : t.id ∈ S) :
    Outcome r S (q.into t) ((q.recast r).into (t.recast r)) := by
  rw [into, into, action_recast, isEmpty_selects_recast]
  cases q.info.action with
  | select =>
    refine .ok { h with action := ?_ } (q.withAction_recast (.insert t _))
    exact List.cons_subset.mpr ⟨ht, List.nil_subset _⟩
  | _ => exact .error _

theorem addColumns_recast (h : q.RefersIn S) {items : List SelectItem}
    (hitems : items.flatMap SelectItem.references ⊆ S) :
    Outcome r S (q.addColumns items) ((q.recast r).addColumns (items.map (·.recast r))) := by
  rw [addColumns, addColumns, isInsertion_recast, toColumns_recast]
  split
  · refine .ok { h with columns := ?_ } ?_
    · rw [Term.referencesAll_append]
      exact List.append_subset.mpr ⟨h.columns, toColumns_references hitems⟩
    · simp only [recast_eq, List.map_append]
  · exact .error _

theorem addRows_recast (h : q.RefersIn S) {rows : List (List Term)}
    (hrows : Term.referencesRows rows ⊆ S) :
    Outcome r S (q.addRows rows)
      ((q.recast r).addRows (rows.map fun row => row.map (·.recast r))) := by
  rw [addRows, addRows, action_recast, isEmpty_selects_recast]
  cases q.info.action with
  | insert t fromList =>
    simp only [Action.recast]
    split
    · exact .error _
    · refine .ok { h with rows := ?_ } ?_
      · rw [Term.referencesRows_append]
        exact List.append_subset.mpr ⟨h.rows, hrows⟩
      · simp only [recast_eq, List.map_append]
  | _ => exact .error _

theorem setInsertMode_recast (q : Query) (mode : InsertMode) :
    (q.recast r).setInsertMode mode = (q.setInsertMode mode).recast r := by
  rw [setInsertMode, setInsertMode, recast_eq, recast_eq]
  rfl

theorem replaceRow_recast (h : q.RefersIn S) {row : List Term} (hrow : Term.referencesAll row ⊆ S) :
    Outcome r S (q.replaceRow row) ((q.recast r).replaceRow (row.map (·.recast r))) := by
  have hreplace : (q.setInsertMode .replace).RefersIn S := { h with }
  rw [replaceRow, replaceRow, setInsertMode_recast]
  exact addRows_recast hreplace (List.append_subset.mpr ⟨hrow, List.nil_subset _⟩)

theorem update_recast (h : q.RefersIn S) {t : Table} (ht : t.id ∈ S) :
    Outcome r S (q.update t) ((q.recast r).update (t.recast r)) := by
  rw [Query.update, Query.update, action_recast, isEmpty_selects_recast]
  cases q.info.action with
  | select =>
    simp only [Action.recast]
    split
    · refine .ok { h with action := ?_ } (q.withAction_recast (.update t))
      exact List.cons_subset.mpr ⟨ht, List.nil_subset _⟩
    · exact .error _
  | _ => exact .error _

theorem assign_recast (h : q.RefersIn S) {column : SelectItem} (hcolumn : column.references ⊆ S)
    {value : Term} (hvalue : value.references ⊆ S) :
    Outcome r S (.ok (q.assign column value))
      (.ok ((q.recast r).assign (column.recast r) (value.recast r))) := by
  refine .ok { h with assignments := ?_ } ?_
  · simp only [Query.assign, Assignment.referencesAll_append, Assignment.referencesAll,
      Assignment.references, List.append_subset]
    exact ⟨h.assignments, ⟨SelectItem.toColumn_references hcolumn, hvalue⟩, List.nil_subset _⟩
  · simp only [assign, recast_eq, List.map_append, List.map_cons, List.map_nil, Assignment.recast,
      column.toColumn_recast]

theorem delete_recast (h : q.RefersIn S) : Outcome r S q.delete (q.recast r).delete := by
  have hdelete : Outcome r S
      (if q.selects.isEmpty then .ok { q with info.action := .delete }
        else .error (.configuration .deleteBesideSelect))
      (if q.selects.isEmpty then .ok { q.recast r with info.action := .delete }
        else .error (.configuration .deleteBesideSelect)) := by
    split
    · exact .ok { h with action := List.nil_subset _ } (q.withAction_recast .delete)
    · exact .error _
  rw [delete, delete, action_recast, isEmpty_selects_recast]
  cases q.info.action with
  | select => exact hdelete
  | delete => exact hdelete
  | _ => exact .error _

/-! ## Conflicts -/

theorem withConflict_recast (q : Query) (c : Conflict) :
    { q.recast r with conflict := some (c.recast r) } =
      ({ q with conflict := some c } : Query).recast r := by
  rw [recast_eq, recast_eq]
  rfl

theorem RefersIn.withConflict (h : q.RefersIn S) {c : Conflict} (hc : c.references ⊆ S) :
    ({ q with conflict := some c } : Query).RefersIn S :=
  { h with conflict := fun _ hd => Option.some.inj hd ▸ hc }

theorem onConflict_recast (h : q.RefersIn S) {items : List SelectItem}
    (hitems : items.flatMap SelectItem.references ⊆ S) :
    Outcome r S (q.onConflict items) ((q.recast r).onConflict (items.map (·.recast r))) := by
  have hadd (c : Conflict) (hc : c.references ⊆ S) : Outcome r S
      (.ok { q with
        conflict := some { c with targets := c.targets ++ items.map SelectItem.toColumn } })
      (.ok { q.recast r with
        conflict := some { c.recast r with
          targets := (c.recast r).targets ++
            (items.map SelectItem.toColumn).map (·.recast r) } }) := by
    obtain ⟨targets, targetFilter, handler, assignments, updateFilter⟩ := c
    simp only [Conflict.references, List.append_subset] at hc
    refine .ok (h.withConflict ?_) ?_
    · simp only [Conflict.references, Term.referencesAll_append, List.append_subset]
      exact ⟨⟨⟨⟨hc.1.1.1, toColumns_references hitems⟩, hc.1.1.2⟩, hc.1.2⟩, hc.2⟩
    · rw [← withConflict_recast]
      simp only [Conflict.recast, Term.recastAll_eq_map, List.map_append]
  rw [onConflict, onConflict, isInsertion_recast, toColumns_recast, q.conflict_recast]
  split
  · cases hc : q.conflict with
    | none => exact hadd ⟨[], .empty, none, [], .empty⟩ (List.nil_subset _)
    | some c => exact hadd c (h.conflict c hc)
  · exact .error _

theorem changeConflict_recast (h : q.RefersIn S)
    {change change' : Conflict → Except QueryError Conflict}
    (hchange : ∀ c : Conflict, c.references ⊆ S →
      Recast.Outcome r (·.references ⊆ S) (·.recast r) (change c) (change' (c.recast r))) :
    Outcome r S (q.changeConflict change) ((q.recast r).changeConflict change') := by
  rw [changeConflict, changeConflict, q.conflict_recast]
  cases hc : q.conflict with
  | none => exact .error _
  | some c =>
    refine (hchange c (h.conflict c hc)).bind fun d hd => ?_
    exact .ok (h.withConflict hd) (q.withConflict_recast d)

theorem doNothing_recast (h : q.RefersIn S) : Outcome r S q.doNothing (q.recast r).doNothing := by
  refine changeConflict_recast h fun c hc => ?_
  obtain ⟨targets, targetFilter, handler, assignments, updateFilter⟩ := c
  cases handler with
  | none => exact .ok hc rfl
  | some handler =>
    cases handler with
    | nothing => exact .ok hc rfl
    | update => exact .error _

theorem doUpdate_recast (h : q.RefersIn S) {item : SelectItem} (hitem : item.references ⊆ S)
    {value : Option Term} (hvalue : value.toList.flatMap Term.references ⊆ S) :
    Outcome r S (q.doUpdate item value)
      ((q.recast r).doUpdate (item.recast r) (value.map (·.recast r))) := by
  refine changeConflict_recast h fun c hc => ?_
  obtain ⟨targets, targetFilter, handler, assignments, updateFilter⟩ := c
  simp only [Conflict.references, List.append_subset] at hc
  simp only [Conflict.recast, item.toColumn_recast, Term.fieldName?_recast]
  split
  · exact .error _
  · refine .ok ?_ ?_
    · have hset :
          (value.getD (Term.excluded (item.toColumn.fieldName?.getD ""))).references ⊆ S := by
        cases value with
        | none => exact List.nil_subset _
        | some t => simpa using hvalue
      simp only [Conflict.references, Assignment.referencesAll_append, Assignment.referencesAll,
        Assignment.references, List.append_subset]
      exact ⟨⟨hc.1.1, hc.1.2, ⟨SelectItem.toColumn_references hitem, hset⟩, List.nil_subset _⟩,
        hc.2⟩
    · simp only [Conflict.recast, Assignment.recastAll_eq_map, List.map_append, List.map_cons,
        List.map_nil, Assignment.recast]
      cases value <;> rfl

theorem conflictWhere_recast (h : q.RefersIn S) {condition : Condition}
    (hcondition : condition.references ⊆ S) :
    Outcome r S (q.conflictWhere condition)
      ((q.recast r).conflictWhere (condition.recast r)) := by
  refine changeConflict_recast h fun c hc => ?_
  obtain ⟨targets, targetFilter, handler, assignments, updateFilter⟩ := c
  simp only [Conflict.references, List.append_subset] at hc
  simp only [Conflict.recast, Term.recastAll_eq_map, List.isEmpty_map]
  split
  · exact .error _
  · split
    · exact .error _
    · cases handler with
      | none =>
        refine .ok ?_ ?_
        · simp only [Conflict.references, List.append_subset]
          exact ⟨⟨⟨hc.1.1.1, Condition.combine_references .and hc.1.1.2 hcondition⟩, hc.1.2⟩, hc.2⟩
        · simp only [Conflict.recast, Term.recastAll_eq_map, Condition.and,
            Condition.combine_recast]
      | some handler =>
        refine .ok ?_ ?_
        · simp only [Conflict.references, List.append_subset]
          exact ⟨hc.1, Condition.combine_references .and hc.2 hcondition⟩
        · simp only [Conflict.recast, Term.recastAll_eq_map, Condition.and,
            Condition.combine_recast]

theorem onDuplicateUpdate_recast (h : q.RefersIn S) {item : SelectItem}
    (hitem : item.references ⊆ S) {value : Term} (hvalue : value.references ⊆ S) :
    Outcome r S (q.onDuplicateUpdate item value)
      ((q.recast r).onDuplicateUpdate (item.recast r) (value.recast r)) := by
  rw [onDuplicateUpdate, onDuplicateUpdate, isInsertion_recast, item.toColumn_recast]
  split
  · refine .ok { h with duplicateUpdates := ?_ } ?_
    · simp only [Assignment.referencesAll_append, Assignment.referencesAll,
        Assignment.references, List.append_subset]
      exact ⟨h.duplicateUpdates, ⟨SelectItem.toColumn_references hitem, hvalue⟩, List.nil_subset _⟩
    · simp only [recast_eq, List.map_append, List.map_cons, List.map_nil, Assignment.recast]
  · exact .error _

theorem onDuplicateIgnore_recast (h : q.RefersIn S) :
    Outcome r S q.onDuplicateIgnore (q.recast r).onDuplicateIgnore := by
  rw [onDuplicateIgnore, onDuplicateIgnore, isInsertion_recast]
  split
  · exact .ok { h with } (setInsertMode_recast q .ignore)
  · exact .error _

/-! ## Returned items -/

theorem returnedQualifier?_recast (q : Query) :
    (q.recast r).returnedQualifier? = q.returnedQualifier?.map (·.recast r) := by
  rw [returnedQualifier?, returnedQualifier?, action_recast, q.sourceQualifier?_recast]
  cases q.info.action <;> rfl

theorem RefersIn.returnedQualifier? (h : q.RefersIn S) :
    q.returnedQualifier?.toList.flatMap Qualifier.references ⊆ S := by
  have haction := h.action
  rw [Query.returnedQualifier?]
  cases hq : q.info.action with
  | insert t fromList =>
    rw [hq] at haction
    exact haction
  | update t =>
    rw [hq] at haction
    exact haction
  | select => exact h.sourceQualifier?
  | delete => exact h.sourceQualifier?

theorem returnTerm_recast (h : q.RefersIn S) {t : Term} (ht : t.references ⊆ S) :
    Outcome r S (q.returnTerm t) ((q.recast r).returnTerm (t.recast r)) := by
  have hqualifier : (t.recast r).qualifier?.isNone = t.qualifier?.isNone := by
    rw [t.qualifier?_recast]
    exact Option.isNone_map
  have hreturns : (q.recast r).info.returnsStar = q.info.returnsStar := by
    rw [q.info_recast]
    rfl
  rw [returnTerm, returnTerm, t.aggregation_recast, t.isStar_recast, hqualifier, hreturns]
  split
  · exact .error _
  · split
    · exact .ok h rfl
    · split
      · refine .ok { h with returning := List.append_subset.mpr ⟨ht, List.nil_subset _⟩ } ?_
        simp only [recast_eq, QueryInfo.recast, List.map_cons, List.map_nil]
      · refine .ok { h with returning := ?_ } ?_
        · rw [Term.referencesAll_append]
          exact List.append_subset.mpr ⟨h.returning,
            List.append_subset.mpr ⟨ht, List.nil_subset _⟩⟩
        · simp only [recast_eq, List.map_append, List.map_cons, List.map_nil]

theorem returningItems_recast (h : q.RefersIn S) {items : List SelectItem}
    (hitems : items.flatMap SelectItem.references ⊆ S) :
    Outcome r S (q.returningItems items)
      ((q.recast r).returningItems (items.map (·.recast r))) := by
  have hterms : (items.map (·.recast r)).map (SelectItem.toTerm (q.recast r).returnedQualifier?) =
      (items.map (SelectItem.toTerm q.returnedQualifier?)).map (·.recast r) := by
    rw [returnedQualifier?_recast, List.map_map, List.map_map]
    exact congrArg (List.map · items) (funext fun item => item.toTerm_recast _)
  have hfold : Outcome r S
      ((items.map (SelectItem.toTerm q.returnedQualifier?)).foldlM returnTerm q)
      (((items.map (·.recast r)).map (SelectItem.toTerm (q.recast r).returnedQualifier?)).foldlM
        returnTerm (q.recast r)) := by
    rw [hterms]
    refine Recast.Outcome.foldlM (fun q hq t ht => returnTerm_recast hq ?_) h
    obtain ⟨item, hitem, rfl⟩ := List.mem_map.mp ht
    exact SelectItem.toTerm_references h.returnedQualifier? fun id hid =>
      hitems (List.mem_flatMap.mpr ⟨item, hitem, hid⟩)
  rw [returningItems, returningItems, action_recast]
  cases q.info.action with
  | select => exact .error _
  | _ => exact hfold

end Query

end SqlScribe
