import SqlScribe.Proofs.Identity.Call
/-! # Selections under other identities

The calls that make up a selection do in another run what they do in this one. Where a call compares
identities, the runs have to tell the same ones apart: a star in the select list takes the place of
the fields of its source.

* `Query.addSource_recast`: a source is named alike in both runs.
* `Query.selectColumn_recast`, `Query.select_recast`: the select list.
* `Query.rollup_recast`: groups. -/

namespace SqlScribe

variable {r : Recast} {S : List SourceId}

namespace Query

variable {q : Query}

/-! ## Sources -/

theorem RefersIn.sourceQualifier? (h : q.RefersIn S) :
    q.sourceQualifier?.toList.flatMap Qualifier.references ⊆ S := by
  have hsources := h.sources
  rw [Query.sourceQualifier?]
  cases hs : q.sources with
  | nil => exact List.nil_subset _
  | cons source sources =>
    rw [hs, Source.referencesAll, List.append_subset] at hsources
    simpa using List.Subset.trans source.qualifier_references hsources.1

theorem nameSource_recast (q : Query) (number next : Nat) (s : Subquery) :
    (q.recast r).nameSource number next (s.recast r) =
      ((q.nameSource number next s).1.recast r, (q.nameSource number next s).2.recast r) := by
  rw [nameSource, nameSource, s.aliased_recast, s.id_recast, recast_eq, recast_eq]
  rfl

theorem RefersIn.nameSource (h : q.RefersIn S) {s : Subquery} (hs : s.id ∈ S) (number next : Nat) :
    (q.nameSource number next s).1.RefersIn S :=
  { h with aliases := List.cons_subset.mpr ⟨hs, h.aliases⟩ }

theorem append_sources_recast (q : Query) (s : Source) :
    { q.recast r with sources := (q.recast r).sources ++ [s.recast r] } =
      ({ q with sources := q.sources ++ [s] } : Query).recast r := by
  rw [recast_eq, recast_eq]
  simp only [List.map_append, List.map_cons, List.map_nil]

theorem RefersIn.append_sources (h : q.RefersIn S) {s : Source} (hs : s.references ⊆ S) :
    ({ q with sources := q.sources ++ [s] } : Query).RefersIn S := by
  refine { h with sources := ?_ }
  rw [Source.referencesAll_append, Source.referencesAll, Source.referencesAll, List.append_nil]
  exact List.append_subset.mpr ⟨h.sources, hs⟩

theorem addSource_recast (q : Query) (s : Source) :
    (q.recast r).addSource (s.recast r) = (q.addSource s).recast r := by
  cases s with
  | table t => exact q.append_sources_recast (.table t)
  | subquery inner =>
    rw [Source.recast, addSource, addSource, inner.alias?_recast]
    cases inner.alias? with
    | some _ => exact q.append_sources_recast (.subquery inner)
    | none =>
      have hcount : (q.recast r).info.subqueryCount = q.info.subqueryCount := by
        rw [q.info_recast]
        rfl
      simp only [hcount, inner.subqueryCount_recast, nameSource_recast]
      exact append_sources_recast _ (.subquery _)

theorem RefersIn.addSource (h : q.RefersIn S) {s : Source} (hs : s.references ⊆ S) :
    (q.addSource s).RefersIn S := by
  cases s with
  | table t => exact h.append_sources hs
  | subquery inner =>
    rw [Query.addSource]
    cases inner.alias? with
    | some _ => exact h.append_sources hs
    | none =>
      have hid := hs (Source.id_mem_references (.subquery inner))
      refine (h.nameSource hid _ _).append_sources ?_
      rw [Source.references_aliased]
      exact hs

/-! ## Select lists -/

theorem termsOf_recast (q : Query) (items : List SelectItem) :
    (q.recast r).termsOf (items.map (·.recast r)) = (q.termsOf items).map (·.recast r) := by
  rw [termsOf, termsOf, q.sourceQualifier?_recast, List.map_map, List.map_map]
  exact congrArg (List.map · items) (funext fun item => item.toTerm_recast _)

theorem RefersIn.termsOf (h : q.RefersIn S) {items : List SelectItem}
    (hitems : items.flatMap SelectItem.references ⊆ S) :
    Term.referencesAll (q.termsOf items) ⊆ S := by
  refine Term.referencesAll_subset.mpr fun t ht => ?_
  obtain ⟨item, hitem, rfl⟩ := List.mem_map.mp ht
  refine SelectItem.toTerm_references h.sourceQualifier? fun id hid => ?_
  exact hitems (List.mem_flatMap.mpr ⟨item, hitem, hid⟩)

theorem isCovered_recast (hr : Set.InjOn r.id {id | id ∈ S}) (h : q.RefersIn S) {t : Term}
    (ht : t.references ⊆ S) : (q.recast r).isCovered (t.recast r) = q.isCovered t := by
  rw [isCovered, isCovered, q.info_recast, t.qualifier?_recast]
  cases hns : t.qualifier? with
  | none => rfl
  | some ns =>
    have hcontains := Qualifier.contains_recast hr h.starred
      (List.Subset.trans (Term.qualifier?_references hns) ht)
    exact congrArg (q.info.selectsStar || ·) hcontains

/-- Whatever a star takes the place of in one run, it does in the other. -/
theorem filter_qualifier?_recast (hr : Set.InjOn r.id {id | id ∈ S}) {ts : List Term}
    (hts : Term.referencesAll ts ⊆ S) {ns : Qualifier} (hns : ns.references ⊆ S) :
    (ts.map (·.recast r)).filter (fun t => !t.qualifier?.any (· == ns.recast r)) =
      (ts.filter fun t => !t.qualifier?.any (· == ns)).map (·.recast r) := by
  rw [List.filter_map]
  refine congrArg (List.map _) (List.filter_congr fun t ht => congrArg Bool.not ?_)
  rw [t.qualifier?_recast]
  cases hq : t.qualifier? with
  | none => rfl
  | some ns' =>
    have hns' := List.Subset.trans (Term.qualifier?_references hq)
      (Term.referencesAll_subset.mp hts t ht)
    exact Qualifier.beq_recast hr hns' hns

theorem selectColumn_recast (hr : Set.InjOn r.id {id | id ∈ S}) (h : q.RefersIn S) {t : Term}
    (ht : t.references ⊆ S) :
    (q.recast r).selectColumn (t.recast r) = (q.selectColumn t).recast r := by
  rw [selectColumn, selectColumn, isCovered_recast hr h ht, t.isStar_recast, t.qualifier?_recast]
  split
  · rfl
  · split
    · cases hns : t.qualifier? with
      | none =>
        rw [Option.map_none, recast_eq, recast_eq]
        rfl
      | some ns =>
        have hfilter := filter_qualifier?_recast hr h.selects
          (List.Subset.trans (Term.qualifier?_references hns) ht)
        simp only [Option.map_some, recast_eq, hfilter, List.map_append, QueryInfo.recast,
          List.map_cons, List.map_nil]
    · rw [recast_eq, recast_eq]
      simp only [List.map_append, List.map_cons, List.map_nil]

theorem RefersIn.append_selects (h : q.RefersIn S) {t : Term} (ht : t.references ⊆ S) :
    ({ q with selects := q.selects ++ [t] } : Query).RefersIn S := by
  refine { h with selects := ?_ }
  rw [Term.referencesAll_append, Term.referencesAll, Term.referencesAll, List.append_nil]
  exact List.append_subset.mpr ⟨h.selects, ht⟩

theorem RefersIn.selectColumn (h : q.RefersIn S) {t : Term} (ht : t.references ⊆ S) :
    (q.selectColumn t).RefersIn S := by
  unfold Query.selectColumn
  split
  · exact h
  · split
    · split
      · exact { h with selects := List.append_subset.mpr ⟨ht, List.nil_subset _⟩ }
      · next ns hns =>
        have hkept : Term.referencesAll
            (q.selects.filter fun t => !t.qualifier?.any (· == ns)) ⊆ S :=
          Term.referencesAll_subset.mpr fun t ht =>
            Term.referencesAll_subset.mp h.selects t (List.mem_filter.mp ht).1
        have hstar : ns.references ⊆ S := List.Subset.trans (Term.qualifier?_references hns) ht
        refine { h with starred := ?_, selects := ?_ }
        · rw [List.flatMap_append, List.flatMap_singleton]
          exact List.append_subset.mpr ⟨h.starred, hstar⟩
        · rw [Term.referencesAll_append, Term.referencesAll, Term.referencesAll, List.append_nil]
          exact List.append_subset.mpr ⟨hkept, ht⟩
    · exact h.append_selects ht

theorem selectItem_recast (hr : Set.InjOn r.id {id | id ∈ S}) (h : q.RefersIn S)
    {item : SelectItem} (hitem : item.references ⊆ S) :
    Outcome r S (q.selectItem item) ((q.recast r).selectItem (item.recast r)) := by
  cases item with
  | column name =>
    have hsource := h.sourceQualifier?
    rw [SelectItem.recast, Query.selectItem, Query.selectItem, q.sourceQualifier?_recast]
    cases hq : q.sourceQualifier? with
    | none => exact .error _
    | some ns =>
      have hterm : ((SelectItem.column name).toTerm (some ns)).references ⊆ S :=
        SelectItem.toTerm_references (hq ▸ hsource) hitem
      refine .ok (h.selectColumn hterm) ?_
      rw [← selectColumn_recast hr h hterm, ← SelectItem.toTerm_recast]
      rfl
  | term t =>
    rw [SelectItem.recast, Query.selectItem, Query.selectItem, t.isField_recast, t.isStar_recast]
    split
    · exact .ok (h.selectColumn hitem) (selectColumn_recast hr h hitem)
    · refine .ok (h.append_selects hitem) ?_
      rw [recast_eq, recast_eq]
      simp only [List.map_append, List.map_cons, List.map_nil]

theorem select_recast (hr : Set.InjOn r.id {id | id ∈ S}) (h : q.RefersIn S)
    {items : List SelectItem} (hitems : items.flatMap SelectItem.references ⊆ S) :
    Outcome r S (q.select items) ((q.recast r).select (items.map (·.recast r))) := by
  have haction : (q.recast r).info.action.isChange = q.info.action.isChange := by
    rw [q.info_recast]
    exact q.info.action.isChange_recast
  rw [select, select, q.rows_recast, List.isEmpty_map, haction]
  split
  · exact .error _
  · split
    · exact .error _
    · refine Recast.Outcome.foldlM (fun q hq item hitem => ?_) h
      refine selectItem_recast hr hq fun id hid => ?_
      exact hitems (List.mem_flatMap.mpr ⟨item, hitem, hid⟩)

/-! ## Groups -/

theorem extendRollup_recast (groups terms : List Term) :
    extendRollup (groups.map (·.recast r)) (terms.map (·.recast r)) =
      (extendRollup groups terms).map (·.recast r) := by
  have hnew : groups.map (·.recast r) ++ [Term.invoke "ROLLUP" (terms.map (·.recast r))] =
      (groups ++ [Term.invoke "ROLLUP" terms]).map (·.recast r) := by
    rw [List.map_append, ← Term.recastAll_eq_map terms]
    rfl
  rw [extendRollup, extendRollup, List.getLast?_map]
  cases groups.getLast? with
  | none => exact hnew
  | some t =>
    obtain ⟨expr, alias?⟩ := t
    cases expr with
    | call c =>
      simp only [Option.map_some, Term.recast, Expr.recast]
      by_cases hname : c.name = "ROLLUP"
      · rw [if_pos hname, if_pos (c.name_recast.trans hname), List.map_append, List.map_dropLast]
        exact congrArg (fun d : Call => _ ++ [(⟨.call d, alias?⟩ : Term)])
          (c.append_args_recast terms)
      · rw [if_neg hname, if_neg fun h => hname (c.name_recast.symm.trans h)]
        exact hnew
    | _ => exact hnew

theorem extendRollup_references {groups terms : List Term} (hgroups : Term.referencesAll groups ⊆ S)
    (hterms : Term.referencesAll terms ⊆ S) :
    Term.referencesAll (extendRollup groups terms) ⊆ S := by
  have hnew : Term.referencesAll (groups ++ [Term.invoke "ROLLUP" terms]) ⊆ S := by
    rw [Term.referencesAll_append]
    refine List.append_subset.mpr ⟨hgroups, ?_⟩
    simpa [Term.referencesAll, Term.references, Expr.references, Call.references, Term.invoke,
      Term.ofCall, Term.ofExpr] using hterms
  rw [extendRollup]
  split
  · next c alias? hlast =>
    split
    · have hmem := List.mem_of_getLast? hlast
      have hcall : c.references ⊆ S := Term.referencesAll_subset.mp hgroups _ hmem
      have hkept : Term.referencesAll groups.dropLast ⊆ S :=
        Term.referencesAll_subset.mpr fun t ht =>
          Term.referencesAll_subset.mp hgroups t (List.dropLast_subset _ ht)
      rw [Term.referencesAll_append]
      refine List.append_subset.mpr ⟨hkept, List.append_subset.mpr ⟨?_, List.nil_subset _⟩⟩
      exact Call.append_args_references hcall hterms
    · exact hnew
  · exact hnew

theorem RefersIn.append_groupBy (h : q.RefersIn S) {ts : List Term}
    (hts : Term.referencesAll ts ⊆ S) :
    ({ q with groupBy := q.groupBy ++ ts } : Query).RefersIn S := by
  refine { h with groupBy := ?_ }
  rw [Term.referencesAll_append]
  exact List.append_subset.mpr ⟨h.groupBy, hts⟩

theorem rollup_recast (h : q.RefersIn S) {items : List SelectItem}
    (hitems : items.flatMap SelectItem.references ⊆ S) :
    Outcome r S (q.rollup items) ((q.recast r).rollup (items.map (·.recast r))) := by
  have hterms := h.termsOf hitems
  simp only [rollup, termsOf_recast, q.info_recast, q.groupBy_recast, List.isEmpty_map,
    QueryInfo.recast]
  split
  · split
    · exact .error _
    · split
      · exact .error _
      · refine .ok { h.append_groupBy hterms with } ?_
        simp only [recast_eq, List.map_append, QueryInfo.recast]
  · refine .ok { h with groupBy := extendRollup_references h.groupBy hterms } ?_
    simp only [recast_eq, extendRollup_recast, QueryInfo.recast]

end Query

end SqlScribe
