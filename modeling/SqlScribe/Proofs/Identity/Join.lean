import SqlScribe.Proofs.Identity.Select
/-! # Joins under other identities

A join is admitted in one run if it is in the other one, and refused with the same message.

* `Query.admits_recast`: what a condition may mention.
* `Query.joinCondition_recast`, `Query.addJoin_recast`: the condition, and the join that is added.
* `Query.join_recast`: the whole call. -/

namespace SqlScribe

variable {r : Recast} {S : List SourceId}

namespace Query

variable {q : Query}

theorem hasSource_recast (hr : Set.InjOn r.id {id | id ∈ S}) (h : q.RefersIn S) {id : SourceId}
    (hid : id ∈ S) : (q.recast r).hasSource (r.id id) = q.hasSource id := by
  have hbeq (s : Source) (hs : s.references ⊆ S) : ((s.recast r).id == r.id id) = (s.id == id) := by
    rw [s.id_recast, Bool.eq_iff_iff, beq_iff_eq, beq_iff_eq]
    exact hr.eq_iff (hs s.id_mem_references) hid
  have hsources : ∀ l : List Source, Source.referencesAll l ⊆ S →
      (l.map (·.recast r)).any (·.id == r.id id) = l.any (·.id == id) := by
    intro l hl
    induction l with
    | nil => rfl
    | cons s l ih =>
      rw [Source.referencesAll, List.append_subset] at hl
      rw [List.map_cons, List.any_cons, List.any_cons, hbeq s hl.1, ih hl.2]
  have hjoins : ∀ l : List Join, Join.referencesAll l ⊆ S →
      (l.map (·.recast r)).any (·.source.id == r.id id) = l.any (·.source.id == id) := by
    intro l hl
    induction l with
    | nil => rfl
    | cons j l ih =>
      obtain ⟨kind, s, condition⟩ := j
      rw [Join.referencesAll, Join.references, List.append_subset, List.append_subset] at hl
      rw [List.map_cons, List.any_cons, List.any_cons, Join.source_recast, hbeq s hl.1.1, ih hl.2]
  rw [hasSource, hasSource, q.sources_recast, q.joins_recast, hsources _ h.sources,
    hjoins _ h.joins]

theorem admits_recast (hr : Set.InjOn r.id {id | id ∈ S}) (h : q.RefersIn S) {s : Source}
    (hs : s.references ⊆ S) {ns : Qualifier} (hns : ns.references ⊆ S) :
    (q.recast r).admits (s.recast r) (ns.recast r) = q.admits s ns := by
  cases ns with
  | table t =>
    rw [Qualifier.recast, admits, admits, s.any_table?_recast, q.hasTable_recast]
  | subquery id alias? =>
    have hid := hns (List.mem_singleton_self _)
    have hbeq : ((s.recast r).id == r.id id) = (s.id == id) := by
      rw [s.id_recast, Bool.eq_iff_iff, beq_iff_eq, beq_iff_eq]
      exact hr.eq_iff (hs s.id_mem_references) hid
    rw [Qualifier.recast, admits, admits, hbeq, hasSource_recast hr h hid]
  | raw text => rfl

theorem checkJoin_recast (hr : Set.InjOn r.id {id | id ∈ S}) (h : q.RefersIn S) {s : Source}
    (hs : s.references ⊆ S) {condition : JoinCondition} (hcondition : condition.references ⊆ S) :
    Recast.Outcome r (fun _ : Unit => True) id (q.checkJoin s condition)
      ((q.recast r).checkJoin (s.recast r) (condition.recast r)) := by
  cases condition with
  | all => exact .ok trivial rfl
  | sharing columns => exact .ok trivial rfl
  | on c =>
    have hfind : ∀ qs : List Qualifier, qs.flatMap Qualifier.references ⊆ S →
        (qs.map (·.recast r)).find? (fun ns => !(q.recast r).admits (s.recast r) ns) =
          (qs.find? fun ns => !q.admits s ns).map (·.recast r) := by
      intro qs hqs
      induction qs with
      | nil => rfl
      | cons ns qs ih =>
        rw [List.flatMap_cons, List.append_subset] at hqs
        rw [List.map_cons, List.find?_cons, List.find?_cons, admits_recast hr h hs hqs.1, ih hqs.2]
        cases q.admits s ns <;> rfl
    have hqualifiers := List.Subset.trans (Condition.qualifiers_references c) hcondition
    rw [JoinCondition.recast, checkJoin, checkJoin, Condition.qualifiers_recast,
      hfind _ hqualifiers]
    cases c.qualifiers.find? fun ns => !q.admits s ns with
    | none => exact .ok trivial rfl
    | some ns => exact .error _

theorem prepareJoin_recast (q : Query) (s : Source) :
    (q.recast r).prepareJoin (s.recast r) =
      ((q.prepareJoin s).1.recast r, (q.prepareJoin s).2.recast r) := by
  cases s with
  | table t => rfl
  | subquery inner =>
    rw [Source.recast, prepareJoin, prepareJoin, inner.alias?_recast]
    cases inner.alias? with
    | some _ => rfl
    | none =>
      have hcount : (q.recast r).info.subqueryCount = q.info.subqueryCount := by
        rw [q.info_recast]
        rfl
      simp only [hcount, nameSource_recast, Source.recast]

theorem RefersIn.prepareJoin (h : q.RefersIn S) {s : Source} (hs : s.references ⊆ S) :
    (q.prepareJoin s).1.RefersIn S ∧ (q.prepareJoin s).2.references ⊆ S := by
  cases s with
  | table t => exact ⟨h, hs⟩
  | subquery inner =>
    rw [Query.prepareJoin]
    cases inner.alias? with
    | some _ => exact ⟨h, hs⟩
    | none =>
      refine ⟨h.nameSource (hs (Source.id_mem_references (.subquery inner))) _ _, ?_⟩
      show (Source.subquery (inner.aliased _)).references ⊆ S
      rw [Source.references_aliased]
      exact hs

theorem agreement_recast (left right : Qualifier) (names : List String) :
    agreement (left.recast r) (right.recast r) names = (agreement left right names).recast r := by
  rw [agreement, agreement, Condition.all_recast, List.map_map]
  rfl

theorem agreement_references {left right : Qualifier} (hleft : left.references ⊆ S)
    (hright : right.references ⊆ S) (names : List String) :
    (agreement left right names).references ⊆ S := by
  refine Condition.all_references fun c hc => ?_
  obtain ⟨name, -, rfl⟩ := List.mem_map.mp hc
  have hfield (ns : Qualifier) (hns : ns.references ⊆ S) :
      (Term.qualified ns name).references ⊆ S := by
    show [ns].flatMap Qualifier.references ⊆ S
    rw [List.flatMap_singleton]
    exact hns
  exact List.append_subset.mpr ⟨hfield left hleft, hfield right hright⟩

theorem joinCondition_recast (h : q.RefersIn S) (kind : JoinKind) {s : Source}
    (hs : s.references ⊆ S) {rule : JoinRule} (hrule : rule.references ⊆ S) :
    Recast.Outcome r (fun p => p.2.references ⊆ S) (fun p => (p.1, p.2.recast r))
      (q.joinCondition kind s rule)
      ((q.recast r).joinCondition kind (s.recast r) (rule.recast r)) := by
  cases rule with
  | on c =>
    rw [JoinRule.recast, joinCondition, joinCondition, c.isEmpty_recast]
    split
    · exact .error _
    · exact .ok hrule rfl
  | onFields names =>
    have hsource := h.sourceQualifier?
    simp only [JoinRule.recast, joinCondition, q.sourceQualifier?_recast]
    cases hq : q.sourceQualifier? with
    | none => exact .error _
    | some first =>
      have hfirst : first.references ⊆ S := by simpa [hq] using hsource
      have hjoined := List.Subset.trans s.qualifier_references hs
      simp only [Option.map_some]
      split
      · exact .error _
      · refine .ok (agreement_references hfirst hjoined names) ?_
        rw [s.qualifier_recast, agreement_recast]
        rfl
  | sharing names =>
    simp only [JoinRule.recast, joinCondition]
    split
    · exact .error _
    · exact .ok (List.nil_subset _) rfl
  | cross => exact .ok (List.nil_subset _) rfl

theorem append_joins_recast (q : Query) (kind : JoinKind) (s : Source) (condition : JoinCondition) :
    { q.recast r with joins := (q.recast r).joins ++ [⟨kind, s.recast r, condition.recast r⟩] } =
      ({ q with joins := q.joins ++ [⟨kind, s, condition⟩] } : Query).recast r := by
  rw [recast_eq, recast_eq]
  simp only [List.map_append, List.map_cons, List.map_nil, Join.recast]

theorem RefersIn.append_joins (h : q.RefersIn S) (kind : JoinKind) {s : Source}
    (hs : s.references ⊆ S) {condition : JoinCondition} (hcondition : condition.references ⊆ S) :
    ({ q with joins := q.joins ++ [⟨kind, s, condition⟩] } : Query).RefersIn S := by
  refine { h with joins := ?_ }
  simp only [Join.referencesAll_append, Join.referencesAll, Join.references, List.append_subset]
  exact ⟨h.joins, ⟨hs, hcondition⟩, List.nil_subset _⟩

theorem addJoin_recast (q : Query) (kind : JoinKind) (s : Source) (condition : JoinCondition) :
    (q.recast r).addJoin kind (s.recast r) (condition.recast r) =
      (q.addJoin kind s condition).recast r := by
  cases s with
  | table t =>
    have halias : (t.recast r).alias? = t.alias? := rfl
    simp only [Source.recast, addJoin, halias, q.isBaseTable_recast]
    split
    · simp only [recast_eq, QueryInfo.recast, List.map_append, List.map_cons, List.map_nil,
        Join.recast, Source.recast]
      rfl
    · exact q.append_joins_recast kind (.table t) condition
  | subquery inner => exact q.append_joins_recast kind (.subquery inner) condition

theorem RefersIn.addJoin (h : q.RefersIn S) (kind : JoinKind) {s : Source}
    (hs : s.references ⊆ S) {condition : JoinCondition} (hcondition : condition.references ⊆ S) :
    (q.addJoin kind s condition).RefersIn S := by
  cases s with
  | table t =>
    rw [Query.addJoin]
    split
    · have hjoined := h.append_joins kind (s := .table (t.aliased (selfJoinName t))) hs hcondition
      refine { hjoined with aliases := List.cons_subset.mpr ⟨?_, h.aliases⟩ }
      exact hs (List.mem_singleton_self _)
    · exact h.append_joins kind hs hcondition
  | subquery inner => exact h.append_joins kind hs hcondition

theorem join_recast (hr : Set.InjOn r.id {id | id ∈ S}) (h : q.RefersIn S) (kind : JoinKind)
    {s : Source} (hs : s.references ⊆ S) {rule : JoinRule} (hrule : rule.references ⊆ S) :
    Outcome r S (q.join kind s rule) ((q.recast r).join kind (s.recast r) (rule.recast r)) := by
  obtain ⟨hq, hs⟩ := h.prepareJoin hs
  rw [join, join, q.prepareJoin_recast]
  refine (joinCondition_recast hq kind hs hrule).bind fun found hfound => ?_
  refine (checkJoin_recast hr hq hs hfound).bind fun _ _ => ?_
  exact .ok (hq.addJoin found.1 hs hfound) (addJoin_recast _ found.1 _ found.2)

end Query

end SqlScribe
