import SqlScribe.Proofs.Query.Sources
import SqlScribe.Proofs.Query.Survivors
/-! # Select lists

Items are selected by several calls, among which any other calls may stand. What the select list has
in the end depends on the items alone, in the order in which they were selected.

* `Query.SameSelection`: a query has the select list of another one, and the same stars in it.
* `Query.Selecting`: the queries that can be built, with all items that were selected.
* `Query.Absorbs`, `Query.selectTerm_absorbs`: the select list is what survives of the items, and
  one more item keeps it so.
* `Query.Selecting.selects_eq_survivors`: so it is in every query that can be built. -/

namespace SqlScribe

namespace Query

variable {q q' q'' : Query}

/-! ## Steps that select nothing -/

/-- The queries have the same select list with the same stars in it. -/
structure SameSelection (q q' : Query) : Prop where
  selects : q'.selects = q.selects
  selectsStar : q'.info.selectsStar = q.info.selectsStar
  starred : q'.info.starred = q.info.starred

namespace SameSelection

protected theorem refl (q : Query) : SameSelection q q := ⟨rfl, rfl, rfl⟩

protected theorem trans (h : SameSelection q q') (h' : SameSelection q' q'') :
    SameSelection q q'' :=
  ⟨h'.selects.trans h.selects, h'.selectsStar.trans h.selectsStar, h'.starred.trans h.starred⟩

end SameSelection

theorem addSource_selection (q : Query) (s : Source) : SameSelection q (q.addSource s) := by
  unfold addSource
  split
  · exact ⟨rfl, rfl, rfl⟩
  · split <;> exact ⟨rfl, rfl, rfl⟩

theorem prepareJoin_selection (q : Query) (s : Source) :
    SameSelection q (q.prepareJoin s).1 := by
  unfold prepareJoin
  split
  · exact .refl q
  · split <;> exact ⟨rfl, rfl, rfl⟩

theorem addJoin_selection (q : Query) (kind : JoinKind) (s : Source) (c : JoinCondition) :
    SameSelection q (q.addJoin kind s c) := by
  unfold addJoin
  split
  · split <;> exact ⟨rfl, rfl, rfl⟩
  · exact ⟨rfl, rfl, rfl⟩

theorem join_selection (q : Query) (kind : JoinKind) (s : Source) (rule : JoinRule) :
    Yields (SameSelection q) (q.join kind s rule) :=
  (yields_true _).bind fun found _ => (yields_true _).bind fun _ _ => .pure
    ((q.prepareJoin_selection s).trans (addJoin_selection _ found.1 _ found.2))

theorem changeConflict_selection (q : Query) (change : Conflict → Except QueryError Conflict) :
    Yields (SameSelection q) (q.changeConflict change) := by
  unfold changeConflict
  split
  · exact .error _
  · exact (yields_true _).bind fun _ _ => .pure ⟨rfl, rfl, rfl⟩

theorem returnTerm_selection (q : Query) (t : Term) :
    Yields (SameSelection q) (q.returnTerm t) := by
  unfold returnTerm
  split
  · exact .error _
  · split
    · exact .ok (.refl q)
    · split <;> exact .ok ⟨rfl, rfl, rfl⟩

theorem returningItems_selection (q : Query) (items : List SelectItem) :
    Yields (SameSelection q) (q.returningItems items) := by
  unfold returningItems
  split
  · exact .error _
  · exact Yields.foldlM .refl .trans returnTerm_selection _ q

theorem addRows_selection (q : Query) (rows : List (List Term)) :
    Yields (SameSelection q) (q.addRows rows) := by
  unfold addRows
  split
  · split
    · exact .error _
    · exact .ok ⟨rfl, rfl, rfl⟩
  · exact .error _
  · exact .error _
  · exact .error _

theorem into_selection (q : Query) (t : Table) : Yields (SameSelection q) (q.into t) := by
  unfold into
  split
  · exact .error _
  · exact .error _
  · exact .error _
  · exact .ok ⟨rfl, rfl, rfl⟩

theorem update_selection (q : Query) (t : Table) : Yields (SameSelection q) (q.update t) := by
  unfold update
  split
  · exact .error _
  · exact .error _
  · exact .error _
  · exact .guarded ⟨rfl, rfl, rfl⟩

theorem delete_selection (q : Query) : Yields (SameSelection q) q.delete := by
  unfold delete
  split
  · exact .error _
  · exact .error _
  · exact .guarded ⟨rfl, rfl, rfl⟩
  · exact .guarded ⟨rfl, rfl, rfl⟩

theorem rollup_selection (q : Query) (items : List SelectItem) :
    Yields (SameSelection q) (q.rollup items) := by
  unfold rollup
  dsimp only
  split
  · split
    · exact .error _
    · split
      · exact .error _
      · exact .ok ⟨rfl, rfl, rfl⟩
  · exact .ok ⟨rfl, rfl, rfl⟩

/-- The terms that a step selects; columns given by name belong to the first source. -/
def Step.selected (q : Query) : Step → List Term
  | .select items => q.termsOf items
  | _ => []

/-- A step that selects nothing leaves the select list alone. -/
theorem change_selection (q : Query) {s : Step} (hs : ∀ items, s ≠ .select items) :
    Yields (SameSelection q) (q.change s) := by
  cases s with
  | select items => exact absurd rfl (hs items)
  | setImmutable _ | fork | aliased _ | commonTable _ | distinct | distinctOn _ | filter _
  | having _ | groupBy _ | orderBy _ _ | limit _ | offset _ | lock _ | ignore | insertOrReplace
  | assign _ _ | usingTables _ => exact .ok ⟨rfl, rfl, rfl⟩
  | source s => exact .ok (q.addSource_selection s)
  | join kind source rule => exact q.join_selection kind source rule
  | into t => exact q.into_selection t
  | rows rows => exact q.addRows_selection rows
  | replace row =>
    refine (addRows_selection (q.setInsertMode .replace) [row]).mono fun q' h => ?_
    exact ⟨h.selects, h.selectsStar, h.starred⟩
  | update t => exact q.update_selection t
  | delete => exact q.delete_selection
  | top t =>
    show Yields _ (q.top t)
    unfold top
    split
    · exact .error _
    · exact .ok ⟨rfl, rfl, rfl⟩
  | rollup items => exact q.rollup_selection items
  | columns items => exact .guarded ⟨rfl, rfl, rfl⟩
  | onConflict items => exact .guarded ⟨rfl, rfl, rfl⟩
  | doNothing => exact q.changeConflict_selection _
  | doUpdate item value => exact q.changeConflict_selection _
  | conflictWhere c => exact q.changeConflict_selection _
  | onDuplicateUpdate item value => exact .guarded ⟨rfl, rfl, rfl⟩
  | onDuplicateIgnore => exact .guarded ⟨rfl, rfl, rfl⟩
  | returning items => exact q.returningItems_selection items

/-- The identity of a query is no matter of its select list. -/
theorem settled_selection (q : Query) (fresh : SourceId) (s : Step) :
    SameSelection q (q.settled fresh s) := by
  have htouched : SameSelection q (q.touched fresh) := by
    unfold touched
    split <;> exact ⟨rfl, rfl, rfl⟩
  cases s with
  | setImmutable _ | aliased _ => exact .refl q
  | fork => exact ⟨rfl, rfl, rfl⟩
  | _ => exact htouched

/-! ## What is selected -/

/-- The queries that can be built, with all terms that were selected, in order. -/
inductive Selecting : Query → List Term → Prop where
  /-- Nothing is staged. -/
  | start (id : SourceId) (d : Dialect) : Selecting (start id d) []
  /-- An insertion into a table. -/
  | into (id : SourceId) (t : Table) : Selecting ((start id .ansi).insertingInto t) []
  /-- An update of a table. -/
  | update (id : SourceId) (t : Table) : Selecting ((start id .ansi).updating t) []
  /-- A selection from the table of a handle. -/
  | tableSelect (t : Table) (id : SourceId) (items : List SelectItem) {q : Query}
      (h : t.select id items = .ok q) :
      Selecting q (items.map (SelectItem.toTerm (some (.table t))))
  /-- An update of the table of a handle. -/
  | tableUpdate (t : Table) (id : SourceId) : Selecting (t.update id) []
  /-- An insertion of a row into the table of a handle. -/
  | tableInsert (t : Table) (id : SourceId) (row : List Term) {q : Query}
      (h : t.insert id row = .ok q) : Selecting q []
  /-- A query after one more step. -/
  | step {q q' : Query} {xs : List Term} {fresh : SourceId} {s : Step} (h : Selecting q xs)
      (hs : q.step fresh s = .ok q') : Selecting q' (xs ++ s.selected q)

/-- Every query that can be built is one in which something was selected, or nothing. -/
theorem Reachable.selecting (h : q.Reachable) : ∃ xs, Selecting q xs := by
  induction h with
  | begun h =>
    cases h with
    | start id d => exact ⟨_, .start id d⟩
    | into id t => exact ⟨_, .into id t⟩
    | update id t => exact ⟨_, .update id t⟩
    | tableSelect t id items h => exact ⟨_, .tableSelect t id items h⟩
    | tableUpdate t id => exact ⟨_, .tableUpdate t id⟩
    | tableInsert t id row h => exact ⟨_, .tableInsert t id row h⟩
  | step _ hs ih =>
    obtain ⟨xs, hxs⟩ := ih
    exact ⟨_, hxs.step hs⟩

/-- The select list of a query is what survives of some terms, and the query knows the stars among
them. Once there is a star of all columns, it asks for no other one. -/
structure Absorbs (q : Query) (xs : List Term) : Prop where
  selects : q.selects = Term.survivors [] xs
  selectsStar : q.info.selectsStar = xs.any Term.isFullStar
  starred : xs.any Term.isFullStar = false →
    ∀ s, q.info.starred.contains s = xs.any (Term.isStarOf s)

theorem SameSelection.absorbs (h : SameSelection q q') {xs : List Term} (hq : q.Absorbs xs) :
    q'.Absorbs xs := by
  constructor
  · rw [h.selects, hq.selects]
  · rw [h.selectsStar, hq.selectsStar]
  · rw [h.starred]
    exact hq.starred

/-- A query that has selected nothing. -/
theorem Absorbs.of_blank (hselects : q.selects = []) (hstar : q.info.selectsStar = false)
    (hstarred : q.info.starred = []) : q.Absorbs [] :=
  ⟨hselects, hstar, fun _ s => by rw [hstarred]; rfl⟩

/-- Selects a term. Only fields and stars are taken in. -/
def selectTerm (q : Query) (t : Term) : Query :=
  if t.isColumn then q.selectColumn t else { q with selects := q.selects ++ [t] }

theorem isCovered_eq {xs : List Term} (hq : q.Absorbs xs) {t : Term} (ht : t.isColumn = true) :
    q.isCovered t = Term.isTaken xs t [] := by
  unfold isCovered
  rw [hq.selectsStar]
  cases hfull : xs.any Term.isFullStar with
  | true => rw [Term.isTaken_of_full hfull, ht, Bool.true_or]
  | false =>
    rw [Term.isTaken, hfull]
    cases t.qualifier? with
    | none => simp
    | some s => simp [hq.starred hfull s]

/-- An item that is no star leaves the stars of a list alone. -/
theorem Absorbs.concat_of_not_star {xs : List Term} {t : Term} (hq : q.Absorbs xs)
    (hstar : t.isStar = false) (hselects : q'.selects = Term.survivors [] (xs ++ [t]))
    (hsame : q'.info.selectsStar = q.info.selectsStar)
    (hstarred : q'.info.starred = q.info.starred) : q'.Absorbs (xs ++ [t]) := by
  have hfull : (xs ++ [t]).any Term.isFullStar = xs.any Term.isFullStar := by
    simp [Term.isFullStar, hstar]
  refine ⟨hselects, ?_, fun hnone s => ?_⟩
  · rw [hsame, hq.selectsStar, hfull]
  · rw [hstarred, hq.starred (hfull ▸ hnone)]
    simp [Term.isStarOf, hstar]

/-- An item that is taken in leaves the whole query as it is. -/
theorem Absorbs.concat_of_taken {xs : List Term} {t : Term} (hq : q.Absorbs xs)
    (htaken : Term.isTaken xs t [] = true) : q.Absorbs (xs ++ [t]) := by
  have hselects : q.selects = Term.survivors [] (xs ++ [t]) := by
    rw [Term.survivors_concat_of_taken htaken, hq.selects]
  cases hfull : xs.any Term.isFullStar with
  | true =>
    have hmore : (xs ++ [t]).any Term.isFullStar = true := by simp_all
    refine ⟨hselects, ?_, fun hnone => ?_⟩
    · rw [hq.selectsStar, hfull, hmore]
    · rw [hmore] at hnone
      cases hnone
  | false =>
    -- The star of the source of the item is there.
    obtain ⟨s, hs, hstars⟩ := Term.exists_star_of_isTaken hfull htaken
    refine ⟨hselects, ?_, fun _ s' => ?_⟩
    · rw [hq.selectsStar, hfull]
      simp_all [Term.isFullStar_of_qualifier? hs]
    · rw [hq.starred hfull]
      cases hsame : s' == s with
      | false => simp [Term.isStarOf_of_qualifier? hs, hsame]
      | true =>
        have hstars' : xs.any (Term.isStarOf s') = true := by
          rw [← hstars, funext (Term.isStarOf_congr hsame)]
        rw [List.any_append, hstars', Bool.true_or]

/-- One more item is selected as it should be. -/
theorem selectTerm_absorbs {xs : List Term} (hq : q.Absorbs xs) (t : Term) :
    (q.selectTerm t).Absorbs (xs ++ [t]) := by
  unfold selectTerm
  cases hcolumn : t.isColumn with
  | false =>
    have hstar : t.isStar = false := by simp_all [Term.isColumn]
    have hkept : Term.isTaken xs t [] = false := Term.isTaken_nil_of_not_column hcolumn
    rw [if_neg Bool.false_ne_true]
    refine hq.concat_of_not_star hstar ?_ rfl rfl
    rw [Term.survivors_concat_of_kept hstar hkept, hq.selects]
  | true =>
    rw [if_pos rfl, selectColumn, isCovered_eq hq hcolumn]
    cases hkept : Term.isTaken xs t [] with
    | true =>
      rw [if_pos rfl]
      exact hq.concat_of_taken hkept
    | false =>
      rw [if_neg Bool.false_ne_true]
      cases hstar : t.isStar with
      | false =>
        rw [if_neg Bool.false_ne_true]
        refine hq.concat_of_not_star hstar ?_ rfl rfl
        rw [Term.survivors_concat_of_kept hstar hkept, hq.selects]
      | true =>
        have hfull : xs.any Term.isFullStar = false := Term.any_isFullStar_of_kept hcolumn hkept
        rw [if_pos rfl]
        cases hs : t.qualifier? with
        | none =>
          have ht : t.isFullStar = true := by simp [Term.isFullStar, hstar, hs]
          have hmore : (xs ++ [t]).any Term.isFullStar = true := by simp [ht]
          refine ⟨(Term.survivors_concat_of_first hfull ht).symm, hmore.symm, fun hnone => ?_⟩
          rw [hmore] at hnone
          cases hnone
        | some s =>
          refine ⟨?_, ?_, fun _ s' => ?_⟩
          · rw [Term.survivors_concat_of_star hs hstar hkept, hq.selects]
          · simp [hq.selectsStar, Term.isFullStar_of_qualifier? hs]
          · have hbefore := hq.starred hfull s'
            simp_all [Term.isStarOf_of_qualifier? hs]

theorem SelectItem.isColumn_toTerm (s : Qualifier) (name : String) :
    (SelectItem.toTerm (some s) (.column name)).isColumn = true := by
  show Term.isColumn (if name = "*" then Term.star else Term.qualified s name) = true
  split <;> rfl

theorem selectItem_eq (q : Query) (item : SelectItem) :
    Yields (· = q.selectTerm (item.toTerm q.sourceQualifier?)) (q.selectItem item) := by
  cases item with
  | column name =>
    unfold selectItem
    cases hs : q.sourceQualifier? with
    | none => exact .error _
    | some s =>
      refine .ok ?_
      rw [selectTerm, if_pos (SelectItem.isColumn_toTerm s name)]
  | term t =>
    show Yields (· = q.selectTerm t) (q.selectItem (.term t))
    unfold selectTerm
    cases hcolumn : t.isColumn with
    | true =>
      have hitem : q.selectItem (.term t) = .ok (q.selectColumn t) := if_pos hcolumn
      rw [hitem]
      exact .ok rfl
    | false =>
      have hitem : q.selectItem (.term t) = .ok { q with selects := q.selects ++ [t] } :=
        if_neg (by simpa [Term.isColumn] using hcolumn)
      rw [hitem]
      exact .ok rfl

theorem select_absorbs {xs : List Term} (hq : q.Absorbs xs) (items : List SelectItem) :
    Yields (·.Absorbs (xs ++ q.termsOf items)) (items.foldlM selectItem q) := by
  induction items generalizing q xs with
  | nil =>
    refine .pure ?_
    rw [termsOf, List.map_nil, List.append_nil]
    exact hq
  | cons item items ih =>
    rw [List.foldlM_cons]
    refine ((q.selectItem_eq item).and (q.selectItem_sources item)).bind fun next h => ?_
    obtain ⟨rfl, hsources⟩ := h
    -- The first source is what it was, so that columns by name belong to it all along.
    have hqualifier : (q.selectTerm (item.toTerm q.sourceQualifier?)).sourceQualifier? =
        q.sourceQualifier? := by
      rw [sourceQualifier?, hsources.sources, sourceQualifier?]
    have hterms : xs ++ q.termsOf (item :: items) = (xs ++ [item.toTerm q.sourceQualifier?]) ++
        (q.selectTerm (item.toTerm q.sourceQualifier?)).termsOf items := by
      rw [termsOf, termsOf, hqualifier, List.map_cons, List.append_assoc, List.singleton_append]
    rw [hterms]
    exact ih (selectTerm_absorbs hq _)

theorem step_absorbs {xs : List Term} {fresh : SourceId} {s : Step} (hq : q.Absorbs xs)
    (h : q.step fresh s = .ok q') : q'.Absorbs (xs ++ s.selected q) := by
  have hchange : Yields (·.Absorbs (xs ++ s.selected q)) (q.change s) := by
    by_cases hs : ∃ items, s = .select items
    · obtain ⟨items, rfl⟩ := hs
      show Yields _ (q.select items)
      unfold select
      split
      · exact .error _
      · split
        · exact .error _
        · exact select_absorbs hq items
    · have hother : ∀ items, s ≠ .select items := fun items heq => hs ⟨items, heq⟩
      have hnone : s.selected q = [] := by
        cases s with
        | select items => exact absurd rfl (hother items)
        | _ => rfl
      rw [hnone, List.append_nil]
      exact (q.change_selection hother).mono fun next hnext => hnext.absorbs hq
  have hstep : Yields (·.Absorbs (xs ++ s.selected q)) (q.step fresh s) :=
    hchange.bind fun next hnext => .pure ((next.settled_selection fresh s).absorbs hnext)
  exact hstep q' h

theorem Selecting.absorbs {xs : List Term} (h : Selecting q xs) : q.Absorbs xs := by
  induction h with
  | start | into | update | tableUpdate => exact .of_blank rfl rfl rfl
  | tableSelect t id items h =>
    have hblank : ((t.newQuery id).addSource (.table t)).Absorbs [] := .of_blank rfl rfl rfl
    unfold Table.select Query.select at h
    exact select_absorbs hblank items _ h
  | tableInsert t id row h =>
    have hblank : (t.newQuery id).Absorbs [] := .of_blank rfl rfl rfl
    have hrow : Yields (·.Absorbs []) (t.insert id row) :=
      (into_selection _ t).bind fun next hnext => (addRows_selection next [row]).mono
        fun q' h => (hnext.trans h).absorbs hblank
    exact hrow _ h
  | step _ hs ih => exact step_absorbs ih hs

/-- **Of the selected items only those are absent that a star takes in.** Whatever calls made a
query, its select list consists of the selected items, in their order, except for those that are
taken in: a field or star behind a star of all columns; whatever stands before the first star of all
columns; and a field whose source has its star selected, or a later star of that source. Sources are
the same if they are tables of one schema and name, whatever their aliases, or one query. So there
is at most one star of all columns, and no field whose source has its star selected. -/
theorem Selecting.selects_eq_survivors {xs : List Term} (h : Selecting q xs) :
    q.selects.Sublist xs ∧ q.selects = Term.survivors [] xs ∧
    q.selects.countP Term.isFullStar ≤ 1 ∧
    ∀ t ∈ q.selects, t.isField = true → ∀ s, t.qualifier? = some s →
      ∀ star ∈ xs, star.isStarOf s = false := by
  have hselects : q.selects = Term.survivors [] xs := h.absorbs.selects
  refine ⟨?_, hselects, ?_, ?_⟩
  · rw [hselects]
    exact Term.survivors_sublist [] xs
  · rw [hselects]
    exact Term.countP_survivors [] xs
  · intro t ht hfield s hs
    rw [hselects] at ht
    exact Term.not_isStarOf_of_mem_survivors ht hfield hs

/-- The star of a table between fields of the table and a literal. -/
theorem selects_eq_survivors_table :
    let abc : Table := { id := ⟨1⟩, name := "abc" }
    let items : List SelectItem := [.column "x", .term (.int 1), .term abc.star, .column "y"]
    let next : Query := { start ⟨2⟩ .ansi with sources := [.table abc] }
    let q : Query :=
      { start ⟨3⟩ .ansi with
        sources := [.table abc], selects := [.int 1, abc.star], info.starred := [.table abc] }
    Selecting q [abc.field "x", .int 1, abc.star, abc.field "y"] ∧
      next.step ⟨3⟩ (.select items) = .ok q ∧
      q.selects = Term.survivors [] [abc.field "x", .int 1, abc.star, abc.field "y"] := by
  intro abc items next q
  have hsource : (start ⟨0⟩ .ansi).step ⟨2⟩ (.source (.table abc)) = .ok next := rfl
  have hselect : next.step ⟨3⟩ (.select items) = .ok q := rfl
  have hselecting : Selecting q [abc.field "x", .int 1, abc.star, abc.field "y"] :=
    ((Selecting.start ⟨0⟩ .ansi).step hsource).step hselect
  exact ⟨hselecting, hselect, hselecting.selects_eq_survivors.2.1⟩

/-- A literal that the star of all columns takes the place of, and a field of one handle of a table
that the star of another handle takes in. -/
theorem star_takes_in_more :
    let abc : Table := { id := ⟨1⟩, name := "abc" }
    let a : Table := { id := ⟨2⟩, name := "abc", alias? := some "a" }
    let b : Table := { id := ⟨3⟩, name := "abc", alias? := some "b" }
    ((start ⟨0⟩ .ansi).run [(⟨4⟩, .source (.table abc)),
        (⟨5⟩, .select [.term (.int 1), .column "*"])]).map (·.selects) = .ok [.star] ∧
      (Term.int 1).isColumn = false ∧
      ((start ⟨0⟩ .ansi).run [(⟨4⟩, .source (.table a)),
        (⟨5⟩, .join .inner (.table b) .cross),
        (⟨6⟩, .select [.term (b.field "x"), .term a.star])]).map (·.selects) = .ok [a.star] :=
  ⟨rfl, rfl, rfl⟩

end Query

end SqlScribe
