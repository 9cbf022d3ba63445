import SqlScribe.Proofs.Query.Mode
/-! # The handle of a query

A query is a handle: it has an identity, and a mode that says whether calls give it a new one. What
a call changes is neither; the identity is settled when the call is done.

* `Query.Step.touches`: the calls that give an immutable query a new identity.
* `Query.change_handle`: such a call leaves the handle alone until its identity is settled.
* `Query.settled_of_touches`: how it is settled. -/

namespace SqlScribe

namespace Query

/-- The call gives an immutable query a new identity. Naming a query and setting its mode do not,
and a fork gives one to every query. -/
def Step.touches : Step → Bool
  | .setImmutable _ => false
  | .fork => false
  | .aliased _ => false
  | _ => true

/-- The queries are one handle. -/
structure SameHandle (q q' : Query) : Prop where
  id : q'.info.id = q.info.id
  immutable : q'.info.immutable = q.info.immutable

namespace SameHandle

variable {q q' q'' : Query}

protected theorem refl (q : Query) : SameHandle q q := ⟨rfl, rfl⟩

protected theorem trans (h : SameHandle q q') (h' : SameHandle q' q'') : SameHandle q q'' :=
  ⟨h'.id.trans h.id, h'.immutable.trans h.immutable⟩

end SameHandle

variable (q : Query)

theorem addSource_handle (s : Source) : SameHandle q (q.addSource s) := by
  unfold addSource
  split
  · exact ⟨rfl, rfl⟩
  · split <;> exact ⟨rfl, rfl⟩

theorem selectColumn_handle (column : Term) : SameHandle q (q.selectColumn column) := by
  unfold selectColumn
  split
  · exact .refl q
  · split
    · split <;> exact ⟨rfl, rfl⟩
    · exact ⟨rfl, rfl⟩

theorem selectItem_handle (item : SelectItem) : Yields (SameHandle q) (q.selectItem item) := by
  unfold selectItem
  split
  · split
    · exact .ok (q.selectColumn_handle _)
    · exact .error _
  · split
    · exact .ok (q.selectColumn_handle _)
    · exact .ok ⟨rfl, rfl⟩

theorem select_handle (items : List SelectItem) : Yields (SameHandle q) (q.select items) := by
  unfold select
  split
  · exact .error _
  · split
    · exact .error _
    · exact Yields.foldlM .refl .trans selectItem_handle items q

theorem rollup_handle (items : List SelectItem) : Yields (SameHandle q) (q.rollup items) := by
  unfold rollup
  dsimp only
  split
  · split
    · exact .error _
    · split
      · exact .error _
      · exact .ok ⟨rfl, rfl⟩
  · exact .ok ⟨rfl, rfl⟩

theorem prepareJoin_handle (s : Source) : SameHandle q (q.prepareJoin s).1 := by
  unfold prepareJoin
  split
  · exact .refl q
  · split
    · exact .refl q
    · exact ⟨rfl, rfl⟩

theorem addJoin_handle (kind : JoinKind) (s : Source) (c : JoinCondition) :
    SameHandle q (q.addJoin kind s c) := by
  unfold addJoin
  split
  · split <;> exact ⟨rfl, rfl⟩
  · exact ⟨rfl, rfl⟩

theorem join_handle (kind : JoinKind) (s : Source) (rule : JoinRule) :
    Yields (SameHandle q) (q.join kind s rule) :=
  (yields_true _).bind fun found _ => (yields_true _).bind fun _ _ =>
    .pure ((q.prepareJoin_handle s).trans (addJoin_handle _ found.1 _ found.2))

theorem into_handle (t : Table) : Yields (SameHandle q) (q.into t) := by
  unfold into
  split
  · exact .error _
  · exact .error _
  · exact .error _
  · exact .ok ⟨rfl, rfl⟩

theorem addRows_handle (rows : List (List Term)) : Yields (SameHandle q) (q.addRows rows) := by
  unfold addRows
  split
  · split
    · exact .error _
    · exact .ok ⟨rfl, rfl⟩
  · exact .error _
  · exact .error _
  · exact .error _

theorem update_handle (t : Table) : Yields (SameHandle q) (q.update t) := by
  unfold update
  split
  · exact .error _
  · exact .error _
  · exact .error _
  · exact .guarded ⟨rfl, rfl⟩

theorem delete_handle : Yields (SameHandle q) q.delete := by
  unfold delete
  split
  · exact .error _
  · exact .error _
  · exact .guarded ⟨rfl, rfl⟩
  · exact .guarded ⟨rfl, rfl⟩

theorem changeConflict_handle (change : Conflict → Except QueryError Conflict) :
    Yields (SameHandle q) (q.changeConflict change) := by
  unfold changeConflict
  split
  · exact .error _
  · exact (yields_true _).bind fun _ _ => .pure ⟨rfl, rfl⟩

theorem returnTerm_handle (t : Term) : Yields (SameHandle q) (q.returnTerm t) := by
  unfold returnTerm
  split
  · exact .error _
  · split
    · exact .ok (.refl q)
    · split <;> exact .ok ⟨rfl, rfl⟩

theorem returningItems_handle (items : List SelectItem) :
    Yields (SameHandle q) (q.returningItems items) := by
  unfold returningItems
  split
  · exact .error _
  · exact Yields.foldlM .refl .trans returnTerm_handle _ q

/-- What a call changes of a query is not the handle. -/
theorem change_handle {s : Step} (hs : s.touches = true) : Yields (SameHandle q) (q.change s) := by
  cases s with
  | setImmutable _ | fork | aliased _ => cases hs
  | commonTable _ | distinct | distinctOn _ | filter _ | having _ | groupBy _ | orderBy _ _
  | limit _ | offset _ | lock _ | ignore | insertOrReplace | assign _ _ | usingTables _ =>
    exact .ok ⟨rfl, rfl⟩
  | source s => exact .ok (q.addSource_handle s)
  | select items => exact q.select_handle items
  | top t =>
    show Yields _ (q.top t)
    unfold top
    split
    · exact .error _
    · exact .ok ⟨rfl, rfl⟩
  | rollup items => exact q.rollup_handle items
  | join kind source rule => exact q.join_handle kind source rule
  | into t => exact q.into_handle t
  | rows rows => exact q.addRows_handle rows
  | replace row =>
    exact ((q.setInsertMode .replace).addRows_handle [row]).mono fun _ h => ⟨h.id, h.immutable⟩
  | update t => exact q.update_handle t
  | delete => exact q.delete_handle
  | columns items => exact .guarded ⟨rfl, rfl⟩
  | onConflict items => exact .guarded ⟨rfl, rfl⟩
  | doNothing => exact q.changeConflict_handle _
  | doUpdate item value => exact q.changeConflict_handle _
  | conflictWhere c => exact q.changeConflict_handle _
  | onDuplicateUpdate item value => exact .guarded ⟨rfl, rfl⟩
  | onDuplicateIgnore => exact .guarded ⟨rfl, rfl⟩
  | returning items => exact q.returningItems_handle items

/-- A call that touches a query settles its identity by its mode. -/
theorem settled_of_touches {fresh : SourceId} {s : Step} (hs : s.touches = true) :
    q.settled fresh s = q.touched fresh := by
  cases s with
  | setImmutable _ | fork | aliased _ => cases hs
  | _ => rfl

end Query

end SqlScribe
