import SqlScribe.Proofs.Identity.Change
import SqlScribe.Proofs.Identity.Join
import SqlScribe.Proofs.Query.Handle
/-! # Steps under other identities

A call on the query that another run has, with the arguments that it has there, gives the query that
it has afterwards, as long as the two runs tell the same identities apart among those that the query
and the arguments refer to (`Query.change_recast`). -/

namespace SqlScribe

variable {r : Recast} {S : List SourceId}

namespace Query

variable {q : Query}

theorem Step.touches_recast (r : Recast) (s : Step) : (s.recast r).touches = s.touches := by
  cases s <;> rfl

theorem fork_references (q : Query) (fresh : SourceId) :
    (q.fork fresh).references = q.references := by
  cases q
  rfl

theorem aliased_references (q : Query) (name : String) :
    (q.aliased name).references = q.references := by
  cases q
  rfl

/-- **A call does the same in both runs.** On the query that the other run has, with the arguments
that it has there, it gives what the other run has of its result. -/
theorem change_recast (hr : Set.InjOn r.id {id | id ∈ S}) (h : q.RefersIn S) {s : Step}
    (hs : s.references ⊆ S) : Outcome r S (q.change s) ((q.recast r).change (s.recast r)) := by
  cases s with
  | fork => exact .ok h rfl
  | setImmutable _ | aliased _ | distinct | limit _ | offset _ | lock _ =>
    -- What is set here is set of the image in the same way, and is no source of anything.
    refine .ok { h with } ?_
    cases q
    rfl
  | source s => exact .ok (h.addSource hs) (addSource_recast q s)
  | commonTable t =>
    refine .ok { h with commonTables := ?_ } ?_
    · rw [addCommonTable, CommonTable.referencesAll_append]
      exact List.append_subset.mpr ⟨h.commonTables, List.append_subset.mpr ⟨hs, List.nil_subset _⟩⟩
    · simp only [addCommonTable, recast_eq, List.map_append, List.map_cons, List.map_nil]
  | select items => exact select_recast hr h hs
  | distinctOn items =>
    refine .ok { h with distinctOn := ?_ } ?_
    · rw [distinctOver, Term.referencesAll_append]
      exact List.append_subset.mpr ⟨h.distinctOn, h.termsOf hs⟩
    · rw [distinctOver, distinctOver, termsOf_recast]
      simp only [recast_eq, List.map_append]
  | top t =>
    show Outcome r S (q.top t) ((q.recast r).top t)
    rw [top, top]
    split
    · exact .error _
    · refine .ok { h with } ?_
      rw [recast_eq, recast_eq]
      rfl
  | filter c =>
    refine .ok { h with filter := Condition.combine_references .and h.filter hs } ?_
    simp only [restrict, recast_eq, Condition.and, Condition.combine_recast]
  | having c =>
    refine .ok { h with having := Condition.combine_references .and h.having hs } ?_
    simp only [restrictGroups, recast_eq, Condition.and, Condition.combine_recast]
  | groupBy items =>
    refine .ok (h.append_groupBy (h.termsOf hs)) ?_
    rw [group, group, termsOf_recast]
    simp only [recast_eq, List.map_append]
  | rollup items => exact rollup_recast h hs
  | orderBy items direction =>
    refine .ok { h with orderBy := ?_ } ?_
    · rw [order, OrderItem.referencesAll_append]
      refine List.append_subset.mpr ⟨h.orderBy, ?_⟩
      rw [OrderItem.referencesAll_map]
      exact h.termsOf hs
    · rw [order, order, termsOf_recast]
      simp only [recast_eq, List.map_append, List.map_map]
      rfl
  | join kind s rule =>
    obtain ⟨hs, hrule⟩ := List.append_subset.mp hs
    exact join_recast hr h kind hs hrule
  | into t => exact into_recast h (hs (List.mem_singleton_self _))
  | columns items => exact addColumns_recast h hs
  | rows rows => exact addRows_recast h hs
  | replace row => exact replaceRow_recast h hs
  | ignore => exact .ok { h with } (setInsertMode_recast q .ignore)
  | insertOrReplace => exact .ok { h with } (setInsertMode_recast q .insertOrReplace)
  | update t => exact update_recast h (hs (List.mem_singleton_self _))
  | assign column value =>
    obtain ⟨hcolumn, hvalue⟩ := List.append_subset.mp hs
    exact assign_recast h hcolumn hvalue
  | delete => exact delete_recast h
  | usingTables tables =>
    refine .ok { h with } ?_
    rw [addUsing, addUsing, recast_eq, recast_eq]
    simp only [QueryInfo.recast, List.map_append]
  | onConflict items => exact onConflict_recast h hs
  | doNothing => exact doNothing_recast h
  | doUpdate item value =>
    obtain ⟨hitem, hvalue⟩ := List.append_subset.mp hs
    exact doUpdate_recast h hitem hvalue
  | conflictWhere c => exact conflictWhere_recast h hs
  | onDuplicateUpdate item value =>
    obtain ⟨hitem, hvalue⟩ := List.append_subset.mp hs
    exact onDuplicateUpdate_recast h hitem hvalue
  | onDuplicateIgnore => exact onDuplicateIgnore_recast h
  | returning items => exact returningItems_recast h hs

end Query

end SqlScribe
