import SqlScribe.Proofs.Query.Mode
/-! # Steps that add no source

Most steps leave the sources of a query, and the names that it has given them, alone.

* `Query.SameSources`: two queries have the same sources under the same names.
* `Query.Step.addsSource`: the steps that may change them.
* `Query.step_sources`: the others do not. -/

namespace SqlScribe

namespace Query

variable {q q' q'' : Query}

/-- The queries have the same sources under the same names, and the same number for the next one
without a name. -/
structure SameSources (q q' : Query) : Prop where
  sources : q'.sources = q.sources
  joins : q'.joins = q.joins
  aliases : q'.info.aliases = q.info.aliases
  count : q'.info.subqueryCount = q.info.subqueryCount

namespace SameSources

protected theorem refl (q : Query) : SameSources q q := ⟨rfl, rfl, rfl, rfl⟩

protected theorem trans (h : SameSources q q') (h' : SameSources q' q'') : SameSources q q'' :=
  ⟨h'.sources.trans h.sources, h'.joins.trans h.joins, h'.aliases.trans h.aliases,
    h'.count.trans h.count⟩

end SameSources

/-- The step adds a source. -/
def Step.addsSource : Step → Bool
  | .source _ => true
  | .join _ _ _ => true
  | _ => false

theorem selectColumn_sources (q : Query) (column : Term) :
    SameSources q (q.selectColumn column) := by
  unfold selectColumn
  split
  · exact .refl q
  · split
    · split <;> exact ⟨rfl, rfl, rfl, rfl⟩
    · exact ⟨rfl, rfl, rfl, rfl⟩

theorem selectItem_sources (q : Query) (item : SelectItem) :
    Yields (SameSources q) (q.selectItem item) := by
  unfold selectItem
  split
  · split
    · exact .ok (q.selectColumn_sources _)
    · exact .error _
  · split
    · exact .ok (q.selectColumn_sources _)
    · exact .ok ⟨rfl, rfl, rfl, rfl⟩

theorem changeConflict_sources (q : Query) (change : Conflict → Except QueryError Conflict) :
    Yields (SameSources q) (q.changeConflict change) := by
  unfold changeConflict
  split
  · exact .error _
  · exact (yields_true _).bind fun _ _ => .pure ⟨rfl, rfl, rfl, rfl⟩

theorem returnTerm_sources (q : Query) (t : Term) : Yields (SameSources q) (q.returnTerm t) := by
  unfold returnTerm
  split
  · exact .error _
  · split
    · exact .ok (.refl q)
    · split <;> exact .ok ⟨rfl, rfl, rfl, rfl⟩

theorem returningItems_sources (q : Query) (items : List SelectItem) :
    Yields (SameSources q) (q.returningItems items) := by
  unfold returningItems
  split
  · exact .error _
  · exact Yields.foldlM .refl .trans returnTerm_sources _ q

theorem select_sources (q : Query) (items : List SelectItem) :
    Yields (SameSources q) (q.select items) := by
  unfold select
  split
  · exact .error _
  · split
    · exact .error _
    · exact Yields.foldlM .refl .trans selectItem_sources items q

theorem addRows_sources (q : Query) (rows : List (List Term)) :
    Yields (SameSources q) (q.addRows rows) := by
  unfold addRows
  split
  · split
    · exact .error _
    · exact .ok ⟨rfl, rfl, rfl, rfl⟩
  · exact .error _
  · exact .error _
  · exact .error _

theorem rollup_sources (q : Query) (items : List SelectItem) :
    Yields (SameSources q) (q.rollup items) := by
  unfold rollup
  dsimp only
  split
  · split
    · exact .error _
    · split
      · exact .error _
      · exact .ok ⟨rfl, rfl, rfl, rfl⟩
  · exact .ok ⟨rfl, rfl, rfl, rfl⟩

theorem update_sources (q : Query) (t : Table) : Yields (SameSources q) (q.update t) := by
  unfold update
  split
  · exact .error _
  · exact .error _
  · exact .error _
  · split
    · exact .ok ⟨rfl, rfl, rfl, rfl⟩
    · exact .error _

theorem delete_sources (q : Query) : Yields (SameSources q) q.delete := by
  unfold delete
  split
  · exact .error _
  · exact .error _
  · exact .guarded ⟨rfl, rfl, rfl, rfl⟩
  · exact .guarded ⟨rfl, rfl, rfl, rfl⟩

theorem change_sources (q : Query) {s : Step} (h : s.addsSource = false) :
    Yields (SameSources q) (q.change s) := by
  cases s with
  | source s => cases h
  | join kind source rule => cases h
  | setImmutable _ | fork | aliased _ | commonTable _ | distinct | distinctOn _ | filter _
  | having _ | groupBy _ | orderBy _ _ | limit _ | offset _ | lock _ | ignore | insertOrReplace
  | assign _ _ | usingTables _ => exact .ok ⟨rfl, rfl, rfl, rfl⟩
  | select items => exact q.select_sources items
  | into t =>
    show Yields _ (q.into t)
    unfold into
    split
    · exact .error _
    · exact .error _
    · exact .error _
    · exact .ok ⟨rfl, rfl, rfl, rfl⟩
  | rows rows => exact q.addRows_sources rows
  | replace row =>
    exact ((q.setInsertMode .replace).addRows_sources [row]).mono fun _ h =>
      ⟨h.sources, h.joins, h.aliases, h.count⟩
  | update t => exact q.update_sources t
  | delete => exact q.delete_sources
  | top t =>
    show Yields _ (q.top t)
    unfold top
    split
    · exact .error _
    · exact .ok ⟨rfl, rfl, rfl, rfl⟩
  | rollup items => exact q.rollup_sources items
  | columns items => exact .guarded ⟨rfl, rfl, rfl, rfl⟩
  | onConflict items => exact .guarded ⟨rfl, rfl, rfl, rfl⟩
  | doNothing => exact q.changeConflict_sources _
  | doUpdate item value => exact q.changeConflict_sources _
  | conflictWhere c => exact q.changeConflict_sources _
  | onDuplicateUpdate item value => exact .guarded ⟨rfl, rfl, rfl, rfl⟩
  | onDuplicateIgnore => exact .guarded ⟨rfl, rfl, rfl, rfl⟩
  | returning items => exact q.returningItems_sources items

/-- The identity of a query is no matter of its sources. -/
theorem settled_sources (q : Query) (fresh : SourceId) (s : Step) :
    SameSources q (q.settled fresh s) := by
  have htouched : SameSources q (q.touched fresh) := by
    unfold touched
    split <;> exact ⟨rfl, rfl, rfl, rfl⟩
  cases s with
  | setImmutable _ | aliased _ => exact .refl q
  | fork => exact ⟨rfl, rfl, rfl, rfl⟩
  | _ => exact htouched

/-- A step that adds no source leaves the sources alone. -/
theorem step_sources {fresh : SourceId} {s : Step} (h : s.addsSource = false) :
    Yields (SameSources q) (q.step fresh s) :=
  (q.change_sources h).bind fun next hnext => .pure (hnext.trans (next.settled_sources fresh s))

end Query

end SqlScribe
