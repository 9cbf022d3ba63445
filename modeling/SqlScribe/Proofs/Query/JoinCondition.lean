import SqlScribe.Proofs.Occurrence.Operand
import SqlScribe.Proofs.Query.Sources
/-! # Conditions of joins

A join is refused if its condition mentions something that takes no part in the query, and no later
step takes anything out of a query.

* `Query.knows`, `Source.provides`: what takes part in a query, and what belongs to a source.
* `Query.Extends`, `Query.step_extends`: a step keeps what takes part in a query.
* `Query.JoinsKnown`, `Query.step_known`: the conditions of all joins mention only what takes part,
  before a step and after it.
* `Query.Reachable.joins_known`: so it is for every query that can be built, and a join is refused
  exactly where it would be otherwise. -/

namespace SqlScribe

/-- What the qualifier names is the source. -/
def Source.provides (s : Source) : Qualifier → Bool
  | .table t => s.table?.any (· == t)
  | .subquery id _ => s.id == id
  | .raw _ => true

namespace Query

variable {q q' q'' : Query}

/-- What the qualifier names takes part in the query: a table that it has, or a query among its
sources. A word that is written as it stands names nothing. -/
def knows (q : Query) : Qualifier → Bool
  | .table t => q.hasTable t
  | .subquery id _ => q.hasSource id
  | .raw _ => true

theorem admits_eq (q : Query) (s : Source) (ns : Qualifier) :
    q.admits s ns = (s.provides ns || q.knows ns) := by
  cases ns <;> rfl

/-! ## What takes part stays -/

/-- Whatever takes part in the first query takes part in the second one. -/
structure Extends (q q' : Query) : Prop where
  sources : q.sources ⊆ q'.sources
  joins : q.joins ⊆ q'.joins
  commonTables : q.commonTables ⊆ q'.commonTables
  target : ∀ t, q.info.action.updateTarget? = some t → q'.info.action.updateTarget? = some t

namespace Extends

/-- The name and the identity of a query are no matter of what takes part in it. -/
theorem of_same (hsources : q'.sources = q.sources) (hjoins : q'.joins = q.joins)
    (htables : q'.commonTables = q.commonTables) (haction : q'.info.action = q.info.action) :
    Extends q q' :=
  ⟨hsources ▸ List.Subset.refl _, hjoins ▸ List.Subset.refl _, htables ▸ List.Subset.refl _,
    fun _ ht => haction ▸ ht⟩

protected theorem trans (h : Extends q q') (h' : Extends q' q'') : Extends q q'' :=
  ⟨List.Subset.trans h.sources h'.sources, List.Subset.trans h.joins h'.joins,
    List.Subset.trans h.commonTables h'.commonTables, fun t ht => h'.target t (h.target t ht)⟩

theorem isBaseTable (h : Extends q q') {t : Table} (ht : q.isBaseTable t = true) :
    q'.isBaseTable t = true := by
  rw [Query.isBaseTable, Bool.or_eq_true, Bool.or_eq_true] at ht ⊢
  rcases ht with (hsource | htarget) | htable
  · obtain ⟨s, hs, hst⟩ := List.any_eq_true.mp hsource
    exact .inl (.inl (List.any_eq_true.mpr ⟨s, h.sources hs, hst⟩))
  · cases hu : q.info.action.updateTarget? with
    | none =>
      rw [hu] at htarget
      cases htarget
    | some u =>
      rw [hu] at htarget
      rw [h.target u hu]
      exact .inl (.inr htarget)
  · obtain ⟨c, hc, hct⟩ := List.any_eq_true.mp htable
    exact .inr (List.any_eq_true.mpr ⟨c, h.commonTables hc, hct⟩)

theorem knows (h : Extends q q') {ns : Qualifier} (hns : q.knows ns = true) :
    q'.knows ns = true := by
  cases ns with
  | raw text => rfl
  | table t =>
    rw [Query.knows, hasTable, Bool.or_eq_true] at hns ⊢
    rcases hns with hbase | hjoin
    · exact .inl (h.isBaseTable hbase)
    · obtain ⟨j, hj, hjt⟩ := List.any_eq_true.mp hjoin
      exact .inr (List.any_eq_true.mpr ⟨j, h.joins hj, hjt⟩)
  | subquery id alias? =>
    rw [Query.knows, hasSource, Bool.or_eq_true] at hns ⊢
    rcases hns with hsource | hjoin
    · obtain ⟨s, hs, hid⟩ := List.any_eq_true.mp hsource
      exact .inl (List.any_eq_true.mpr ⟨s, h.sources hs, hid⟩)
    · obtain ⟨j, hj, hid⟩ := List.any_eq_true.mp hjoin
      exact .inr (List.any_eq_true.mpr ⟨j, h.joins hj, hid⟩)

end Extends

/-- No step drops the target of an update. -/
theorem ModeChange.target (h : ModeChange q q') {t : Table}
    (ht : q.info.action.updateTarget? = some t) : q'.info.action.updateTarget? = some t := by
  cases h with
  | kept h => rw [h.action, ht]
  | selected _ _ h => rw [h.action, ht]
  | targeted _ hfree _ _ _ =>
    rw [hfree] at ht
    cases ht
  | filled _ _ _ haction _ => rw [haction, ht]
  | changing hfree _ _ _ _ =>
    rcases hfree with hfree | ⟨hfree, -⟩ <;>
    · rw [hfree] at ht
      cases ht

/-! ### Common tables

Only one step is about common tables, and it adds one. -/

/-- The queries refer to the same queries by name. -/
abbrev SameCommonTables (q q' : Query) : Prop := q'.commonTables = q.commonTables

theorem selectColumn_commonTables (q : Query) (column : Term) :
    (q.selectColumn column).commonTables = q.commonTables := by
  unfold selectColumn
  split
  · rfl
  · split
    · split <;> rfl
    · rfl

theorem selectItem_commonTables (q : Query) (item : SelectItem) :
    Yields (SameCommonTables q) (q.selectItem item) := by
  unfold selectItem
  split
  · split
    · exact .ok (q.selectColumn_commonTables _)
    · exact .error _
  · split
    · exact .ok (q.selectColumn_commonTables _)
    · exact .ok rfl

theorem select_commonTables (q : Query) (items : List SelectItem) :
    Yields (SameCommonTables q) (q.select items) := by
  unfold select
  split
  · exact .error _
  · split
    · exact .error _
    · exact Yields.foldlM (r := SameCommonTables) (fun _ => rfl)
        (fun h h' => Eq.trans h' h) selectItem_commonTables items q

theorem returnTerm_commonTables (q : Query) (t : Term) :
    Yields (SameCommonTables q) (q.returnTerm t) := by
  unfold returnTerm
  split
  · exact .error _
  · split
    · exact .ok rfl
    · split <;> exact .ok rfl

theorem returningItems_commonTables (q : Query) (items : List SelectItem) :
    Yields (SameCommonTables q) (q.returningItems items) := by
  unfold returningItems
  split
  · exact .error _
  · exact Yields.foldlM (r := SameCommonTables) (fun _ => rfl)
      (fun h h' => Eq.trans h' h) returnTerm_commonTables _ q

theorem changeConflict_commonTables (q : Query)
    (change : Conflict → Except QueryError Conflict) :
    Yields (SameCommonTables q) (q.changeConflict change) := by
  unfold changeConflict
  split
  · exact .error _
  · exact (yields_true _).bind fun _ _ => .pure rfl

theorem addSource_commonTables (q : Query) (s : Source) :
    (q.addSource s).commonTables = q.commonTables := by
  unfold addSource
  split
  · rfl
  · split <;> rfl

theorem prepareJoin_commonTables (q : Query) (s : Source) :
    (q.prepareJoin s).1.commonTables = q.commonTables := by
  unfold prepareJoin
  split
  · rfl
  · split <;> rfl

theorem addJoin_commonTables (q : Query) (kind : JoinKind) (s : Source) (c : JoinCondition) :
    (q.addJoin kind s c).commonTables = q.commonTables := by
  unfold addJoin
  split
  · split <;> rfl
  · rfl

theorem join_commonTables (q : Query) (kind : JoinKind) (s : Source) (rule : JoinRule) :
    Yields (SameCommonTables q) (q.join kind s rule) :=
  (yields_true _).bind fun found _ => (yields_true _).bind fun _ _ =>
    .pure ((addJoin_commonTables _ found.1 _ found.2).trans (q.prepareJoin_commonTables s))

theorem addRows_commonTables (q : Query) (rows : List (List Term)) :
    Yields (SameCommonTables q) (q.addRows rows) := by
  unfold addRows
  split
  · split
    · exact .error _
    · exact .ok rfl
  · exact .error _
  · exact .error _
  · exact .error _

theorem change_commonTables (q : Query) (s : Step) :
    Yields (fun q' => q.commonTables ⊆ q'.commonTables) (q.change s) := by
  have hsame : ∀ {x : Except QueryError Query}, Yields (SameCommonTables q) x →
      Yields (fun q' => q.commonTables ⊆ q'.commonTables) x :=
    fun h => h.mono fun _ h => h ▸ List.Subset.refl _
  cases s with
  | commonTable t => exact .ok (List.subset_append_left _ _)
  | setImmutable _ | fork | aliased _ | distinct | distinctOn _ | filter _ | having _ | groupBy _
  | orderBy _ _ | limit _ | offset _ | lock _ | ignore | insertOrReplace | assign _ _
  | usingTables _ => exact .ok (List.Subset.refl _)
  | source s => exact hsame (.ok (q.addSource_commonTables s))
  | join kind source rule => exact hsame (q.join_commonTables kind source rule)
  | select items => exact hsame (q.select_commonTables items)
  | rows rows => exact hsame (q.addRows_commonTables rows)
  | replace row => exact hsame ((q.setInsertMode .replace).addRows_commonTables [row])
  | returning items => exact hsame (q.returningItems_commonTables items)
  | doNothing => exact hsame (q.changeConflict_commonTables _)
  | doUpdate item value => exact hsame (q.changeConflict_commonTables _)
  | conflictWhere c => exact hsame (q.changeConflict_commonTables _)
  | columns items => exact hsame (.guarded rfl)
  | onConflict items => exact hsame (.guarded rfl)
  | onDuplicateUpdate item value => exact hsame (.guarded rfl)
  | onDuplicateIgnore => exact hsame (.guarded rfl)
  | top t =>
    show Yields _ (q.top t)
    unfold top
    split
    · exact .error _
    · exact .ok (List.Subset.refl _)
  | into t =>
    show Yields _ (q.into t)
    unfold into
    split
    · exact .error _
    · exact .error _
    · exact .error _
    · exact .ok (List.Subset.refl _)
  | update t =>
    show Yields _ (q.update t)
    unfold update
    split
    · exact .error _
    · exact .error _
    · exact .error _
    · split
      · exact .ok (List.Subset.refl _)
      · exact .error _
  | delete =>
    show Yields _ q.delete
    unfold delete
    split
    · exact .error _
    · exact .error _
    · exact hsame (.guarded rfl)
    · exact hsame (.guarded rfl)
  | rollup items =>
    show Yields _ (q.rollup items)
    unfold rollup
    dsimp only
    split
    · split
      · exact .error _
      · split
        · exact .error _
        · exact .ok (List.Subset.refl _)
    · exact .ok (List.Subset.refl _)

/-! ### Sources and joins -/

theorem addSource_grows (q : Query) (s : Source) :
    q.sources ⊆ (q.addSource s).sources ∧ (q.addSource s).joins = q.joins := by
  unfold addSource
  split
  · exact ⟨List.subset_append_left _ _, rfl⟩
  · split <;> exact ⟨List.subset_append_left _ _, rfl⟩

theorem prepareJoin_grows (q : Query) (s : Source) :
    (q.prepareJoin s).1.sources = q.sources ∧ (q.prepareJoin s).1.joins = q.joins := by
  unfold prepareJoin
  split
  · exact ⟨rfl, rfl⟩
  · split <;> exact ⟨rfl, rfl⟩

/-- A name made up for a source changes nothing about what belongs to it. -/
theorem provides_prepareJoin (q : Query) (s : Source) (ns : Qualifier) :
    (q.prepareJoin s).2.provides ns = s.provides ns := by
  cases s with
  | table t => rfl
  | subquery x =>
    unfold prepareJoin
    dsimp only
    split
    · rfl
    · cases x <;> cases ns <;> rfl

/-- A join is added behind the others, and what belonged to the source belongs to the joined one. -/
theorem addJoin_joins (q : Query) (kind : JoinKind) (s : Source) (c : JoinCondition) :
    (q.addJoin kind s c).sources = q.sources ∧
      ∃ j : Join, (q.addJoin kind s c).joins = q.joins ++ [j] ∧ j.condition = c ∧
        j.source.provides = s.provides := by
  unfold addJoin
  split
  · split
    · refine ⟨rfl, _, rfl, rfl, funext fun ns => ?_⟩
      cases ns <;> rfl
    · exact ⟨rfl, _, rfl, rfl, rfl⟩
  · exact ⟨rfl, _, rfl, rfl, rfl⟩

theorem knows_prepareJoin (q : Query) (s : Source) (ns : Qualifier) :
    (q.prepareJoin s).1.knows ns = q.knows ns := by
  unfold prepareJoin
  split
  · rfl
  · split
    · rfl
    · cases ns <;> rfl

/-- What the condition of a join may mention is settled by the query and the source as they were
before names were made up. -/
theorem admits_prepareJoin (q : Query) (s : Source) :
    (q.prepareJoin s).1.admits (q.prepareJoin s).2 = fun ns => s.provides ns || q.knows ns := by
  funext ns
  rw [admits_eq, provides_prepareJoin, knows_prepareJoin]

theorem checkJoin_admits (q : Query) (joined : Source) (condition : JoinCondition) :
    Yields (fun _ => ∀ c, condition = .on c → ∀ ns ∈ c.qualifiers, q.admits joined ns = true)
      (q.checkJoin joined condition) := by
  cases condition with
  | all => exact .ok nofun
  | sharing columns => exact .ok nofun
  | on c =>
    unfold checkJoin
    dsimp only
    split
    · exact .error _
    · next hnone =>
      refine .ok fun c' hc ns hns => ?_
      cases hc
      simpa using List.find?_eq_none.mp hnone ns hns

/-- A join names the source, finds its condition, looks at that and adds the join. -/
theorem join_eq (q : Query) (kind : JoinKind) (s : Source) (rule : JoinRule) :
    q.join kind s rule =
      (q.prepareJoin s).1.joinCondition kind (q.prepareJoin s).2 rule >>= fun found =>
        (q.prepareJoin s).1.checkJoin (q.prepareJoin s).2 found.2 >>= fun _ =>
          pure ((q.prepareJoin s).1.addJoin found.1 (q.prepareJoin s).2 found.2) := rfl

/-- Whatever the rule of a join is, the source is added if the join is granted. -/
theorem join_prepared (q : Query) (kind : JoinKind) (s : Source) (rule : JoinRule) :
    Yields (fun q' => ∃ kind' c,
      q' = (q.prepareJoin s).1.addJoin kind' (q.prepareJoin s).2 c) (q.join kind s rule) := by
  rw [join_eq]
  exact (yields_true _).bind fun found _ => (yields_true _).bind fun _ _ =>
    .pure ⟨found.1, found.2, rfl⟩

/-- A join adds one to those that are there. What its condition mentions belongs to the joined
source or takes part in the query before. -/
theorem join_joins (q : Query) (kind : JoinKind) (s : Source) (rule : JoinRule) :
    Yields (fun q' => q'.sources = q.sources ∧ ∃ j : Join, q'.joins = q.joins ++ [j] ∧
      ∀ c, j.condition = .on c → ∀ ns ∈ c.qualifiers,
        j.source.provides ns = true ∨ q.knows ns = true) (q.join kind s rule) := by
  obtain ⟨hsources, hjoins⟩ := q.prepareJoin_grows s
  rw [join_eq]
  refine (yields_true _).bind fun found _ =>
    (checkJoin_admits _ _ found.2).bind fun _ hadmits => .pure ?_
  obtain ⟨hsources', j, hj, hcondition, hprovides⟩ :=
    addJoin_joins (q.prepareJoin s).1 found.1 (q.prepareJoin s).2 found.2
  refine ⟨hsources'.trans hsources, j, by rw [hj, hjoins], fun c hc ns hns => ?_⟩
  have hns := hadmits c (hcondition ▸ hc) ns hns
  rw [admits_prepareJoin, Bool.or_eq_true] at hns
  rw [hprovides, provides_prepareJoin]
  exact hns

theorem change_grows (q : Query) (s : Step) :
    Yields (fun q' => q.sources ⊆ q'.sources ∧ q.joins ⊆ q'.joins) (q.change s) := by
  cases hs : s.addsSource with
  | false =>
    exact (q.change_sources hs).mono fun q' h =>
      ⟨h.sources ▸ List.Subset.refl _, h.joins ▸ List.Subset.refl _⟩
  | true =>
    cases s with
    | source s => exact .ok ⟨(q.addSource_grows s).1, (q.addSource_grows s).2 ▸ List.Subset.refl _⟩
    | join kind source rule =>
      refine (q.join_joins kind source rule).mono fun q' h => ?_
      obtain ⟨hsources, j, hjoins, -⟩ := h
      exact ⟨hsources ▸ List.Subset.refl _, hjoins ▸ List.subset_append_left _ _⟩
    | _ => cases hs

theorem change_extends (q : Query) (s : Step) : Yields (Extends q) (q.change s) := by
  intro q' h
  obtain ⟨hsources, hjoins⟩ := q.change_grows s q' h
  exact ⟨hsources, hjoins, q.change_commonTables s q' h, fun t => (q.change_mode s q' h).target⟩

theorem settled_extends (q : Query) (fresh : SourceId) (s : Step) :
    Extends q (q.settled fresh s) ∧ (q.settled fresh s).joins = q.joins := by
  have htouched : Extends q (q.touched fresh) ∧ (q.touched fresh).joins = q.joins := by
    unfold touched
    split <;> exact ⟨.of_same rfl rfl rfl rfl, rfl⟩
  cases s with
  | setImmutable _ | aliased _ | fork => exact ⟨.of_same rfl rfl rfl rfl, rfl⟩
  | _ => exact htouched

/-- **A step keeps what takes part in a query.** -/
theorem step_extends {fresh : SourceId} {s : Step} : Yields (Extends q) (q.step fresh s) :=
  (q.change_extends s).bind fun next h => .pure (h.trans (next.settled_extends fresh s).1)

/-- So does a program of steps. -/
theorem run_extends {steps : List (SourceId × Step)} (hrun : q.run steps = .ok q') :
    Extends q q' := by
  induction steps generalizing q with
  | nil =>
    cases hrun
    exact .of_same rfl rfl rfl rfl
  | cons s steps ih =>
    obtain ⟨next, hstep, hrest⟩ := run_cons hrun
    exact (step_extends next hstep).trans (ih hrest)

/-! ## Conditions mention what takes part -/

/-- The conditions of all joins mention only what takes part in the query. -/
def JoinsKnown (q : Query) : Prop :=
  ∀ j ∈ q.joins, ∀ c, j.condition = .on c → ∀ ns ∈ c.qualifiers, q.knows ns = true

theorem knows_of_join {j : Join} {ns : Qualifier} (hj : j ∈ q.joins)
    (h : j.source.provides ns = true) : q.knows ns = true := by
  cases ns with
  | table t => exact Bool.or_eq_true_iff.mpr (.inr (List.any_eq_true.mpr ⟨j, hj, h⟩))
  | subquery id alias? => exact Bool.or_eq_true_iff.mpr (.inr (List.any_eq_true.mpr ⟨j, hj, h⟩))
  | raw text => rfl

theorem Extends.joinsKnown (h : Extends q q') (hjoins : q'.joins = q.joins) (hq : q.JoinsKnown) :
    q'.JoinsKnown :=
  fun j hj c hc ns hns => h.knows (hq j (hjoins ▸ hj) c hc ns hns)

/-- The conditions of the joins that are there already still hold good, and that of a new join was
looked at when it was added. -/
theorem change_known (q : Query) (s : Step) (hq : q.JoinsKnown) :
    Yields JoinsKnown (q.change s) := by
  intro q' h
  have hextends := q.change_extends s q' h
  cases hs : s.addsSource with
  | false => exact hextends.joinsKnown (q.change_sources hs q' h).joins hq
  | true =>
    cases s with
    | source s =>
      cases h
      exact hextends.joinsKnown (q.addSource_grows s).2 hq
    | join kind source rule =>
      obtain ⟨-, j, hjoins, hj⟩ := q.join_joins kind source rule q' h
      have hmem : j ∈ q'.joins := by
        rw [hjoins]
        exact List.mem_append_right _ (List.mem_singleton_self j)
      intro j' hj' c hc ns hns
      rw [hjoins] at hj'
      rcases List.mem_append.mp hj' with hold | hnew
      · exact hextends.knows (hq j' hold c hc ns hns)
      · cases List.mem_singleton.mp hnew
        rcases hj c hc ns hns with hprovides | hknown
        · exact knows_of_join hmem hprovides
        · exact hextends.knows hknown
    | _ => cases hs

theorem step_known {fresh : SourceId} {s : Step} (hq : q.JoinsKnown) :
    Yields JoinsKnown (q.step fresh s) := by
  refine (q.change_known s hq).bind fun next hnext => .pure ?_
  obtain ⟨hextends, hjoins⟩ := next.settled_extends fresh s
  exact hextends.joinsKnown hjoins hnext

theorem JoinsKnown.of_nil (h : q.joins = []) : q.JoinsKnown := by
  intro j hj
  rw [h] at hj
  cases hj

theorem Begun.joinsKnown (h : q.Begun) : q.JoinsKnown := by
  cases h with
  | start id d => exact .of_nil rfl
  | into id t => exact .of_nil rfl
  | update id t => exact .of_nil rfl
  | tableSelect t id items h => exact .of_nil (select_sources _ items q h).joins
  | tableUpdate t id => exact .of_nil rfl
  | tableInsert t id row h =>
    have hrow : Yields (·.joins = []) (t.insert id row) :=
      Yields.bind (p := (·.joins = []))
        (change_sources (t.newQuery id) (s := .into t) rfl |>.mono fun _ h => h.joins)
        fun next hnext => (next.addRows_sources [row]).mono fun _ h => h.joins.trans hnext
    exact .of_nil (hrow q h)

theorem Reachable.joinsKnown (h : q.Reachable) : q.JoinsKnown := by
  induction h with
  | begun h => exact h.joinsKnown
  | step _ hs ih => exact step_known ih _ hs

/-! ## Refused joins -/

/-- The condition that a join of a source comes to by a rule, before it is looked at. -/
def joinedBy (q : Query) (kind : JoinKind) (s : Source) (rule : JoinRule) :
    Except QueryError JoinCondition :=
  ((q.prepareJoin s).1.joinCondition kind (q.prepareJoin s).2 rule).map (·.2)

/-- A condition that is not empty is the one that a join by it comes to. -/
theorem joinedBy_on (q : Query) (kind : JoinKind) (s : Source) {c : Condition}
    (hc : c.isEmpty = false) : q.joinedBy kind s (.on c) = .ok (.on c) := by
  rw [joinedBy, joinCondition, hc]
  rfl

/-- A join by a condition is refused for the first thing in it that neither takes part in the query
nor is the joined source. -/
theorem join_on {kind : JoinKind} {s : Source} {rule : JoinRule} {c : Condition}
    (h : q.joinedBy kind s rule = .ok (.on c)) :
    (∀ ns, (c.qualifiers.find? fun ns => !(s.provides ns || q.knows ns)) = some ns →
      q.join kind s rule = .error (.join (.foreignQualifier ns))) ∧
    ((c.qualifiers.find? fun ns => !(s.provides ns || q.knows ns)) = none →
      ∃ q', q.join kind s rule = .ok q') := by
  cases hfound : (q.prepareJoin s).1.joinCondition kind (q.prepareJoin s).2 rule with
  | error e =>
    rw [joinedBy, hfound] at h
    cases h
  | ok found =>
    obtain ⟨kind', condition⟩ := found
    rw [joinedBy, hfound] at h
    obtain rfl : condition = .on c := Except.ok.inj h
    rw [join_eq, hfound]
    constructor
    · intro ns hns
      have hcheck : (q.prepareJoin s).1.checkJoin (q.prepareJoin s).2 (.on c) =
          .error (.join (.foreignQualifier ns)) := by
        rw [checkJoin, admits_prepareJoin, hns]
      exact congrArg (· >>= fun _ => _) hcheck
    · intro hnone
      have hcheck : (q.prepareJoin s).1.checkJoin (q.prepareJoin s).2 (.on c) = .ok () := by
        rw [checkJoin, admits_prepareJoin, hnone]
      exact ⟨(q.prepareJoin s).1.addJoin kind' (q.prepareJoin s).2 (.on c),
        congrArg (· >>= fun _ => _) hcheck⟩

/-- **The conditions of joins never go stale.** In a query that can be built, whatever the condition
of a join refers to, outside nested queries, is a table that the query has, a query among its
sources, or a word written as it stands. A join whose condition refers to anything else than that
and the joined source is refused for it, and no other join by a condition is refused. -/
theorem Reachable.joins_known (h : q.Reachable) :
    (∀ j ∈ q.joins, ∀ c, j.condition = .on c → ∀ ns, (Piece.condition c).RefersTo ns →
      (∃ t, ns = .table t ∧ q.hasTable t = true) ∨
      (∃ id alias?, ns = .subquery id alias? ∧ q.hasSource id = true) ∨ ∃ text, ns = .raw text) ∧
    ∀ kind s rule c, q.joinedBy kind s rule = .ok (.on c) →
      ((∃ ns, (Piece.condition c).RefersTo ns ∧ s.provides ns = false ∧ q.knows ns = false) →
        ∃ ns, (Piece.condition c).RefersTo ns ∧ s.provides ns = false ∧ q.knows ns = false ∧
          q.join kind s rule = .error (.join (.foreignQualifier ns))) ∧
      ((∀ ns, (Piece.condition c).RefersTo ns → s.provides ns = true ∨ q.knows ns = true) →
        ∃ q', q.join kind s rule = .ok q') := by
  constructor
  · intro j hj c hc ns hns
    have hknown := h.joinsKnown j hj c hc ns (Piece.mem_qualifiers_iff.mpr hns)
    cases ns with
    | table t => exact .inl ⟨t, rfl, hknown⟩
    | subquery id alias? => exact .inr (.inl ⟨id, alias?, rfl, hknown⟩)
    | raw text => exact .inr (.inr ⟨text, rfl⟩)
  · intro kind s rule c hjoined
    obtain ⟨hrefused, hgranted⟩ := join_on hjoined
    cases hfind : c.qualifiers.find? fun ns => !(s.provides ns || q.knows ns) with
    | some ns =>
      have hmem : ns ∈ (Piece.condition c).qualifiers := List.mem_of_find?_eq_some hfind
      rw [Piece.mem_qualifiers_iff] at hmem
      have hforeign : s.provides ns = false ∧ q.knows ns = false := by
        simpa using List.find?_some hfind
      refine ⟨fun _ => ⟨ns, hmem, hforeign.1, hforeign.2, hrefused ns hfind⟩, fun hall => ?_⟩
      rcases hall ns hmem with hprovides | hknown
      · simp [hforeign.1] at hprovides
      · simp [hforeign.2] at hknown
    | none =>
      refine ⟨fun ⟨ns, hns, hprovides, hknown⟩ => ?_, fun _ => hgranted hfind⟩
      have hadmitted := List.find?_eq_none.mp hfind ns (Piece.mem_qualifiers_iff.mpr hns)
      simp [hprovides, hknown] at hadmitted

/-- A table joined to itself under a made-up name, and more sources after that. -/
theorem Reachable.joins_known_selfJoin :
    ∃ q, (start ⟨0⟩ .ansi).run
        [(⟨1⟩, .source (.table { id := ⟨2⟩, name := "abc" })),
          (⟨3⟩, .join .inner (.table { id := ⟨4⟩, name := "abc" })
            (.on ((Term.qualified (.table { id := ⟨2⟩, name := "abc" }) "x").equals
              (Term.qualified (.table { id := ⟨4⟩, name := "abc" }) "y")))),
          (⟨5⟩, .source (.table { id := ⟨6⟩, name := "efg" })), (⟨7⟩, .aliased "q")] = .ok q ∧
      q.joins.length = 1 ∧
      ∀ j ∈ q.joins, ∀ c, j.condition = .on c → ∀ ns, (Piece.condition c).RefersTo ns →
        (∃ t, ns = .table t ∧ q.hasTable t = true) ∨
        (∃ id alias?, ns = .subquery id alias? ∧ q.hasSource id = true) ∨ ∃ text, ns = .raw text := by
  have hrun : (start ⟨0⟩ .ansi).run
      [(⟨1⟩, .source (.table { id := ⟨2⟩, name := "abc" })),
        (⟨3⟩, .join .inner (.table { id := ⟨4⟩, name := "abc" })
          (.on ((Term.qualified (.table { id := ⟨2⟩, name := "abc" }) "x").equals
            (Term.qualified (.table { id := ⟨4⟩, name := "abc" }) "y")))),
        (⟨5⟩, .source (.table { id := ⟨6⟩, name := "efg" })), (⟨7⟩, .aliased "q")] = .ok _ := rfl
  exact ⟨_, hrun, rfl, (joins_known (.run (.begun (.start ⟨0⟩ .ansi)) hrun)).1⟩

end Query

end SqlScribe
