import SqlScribe.Proofs.Qualification.SourceName
/-! # Queries under a name

A query that was named before it became a source is written under its name. What is written before
one of its columns depends on when the column was taken.

* `Query.step_adds`, `Query.run_adds`: a source with a name is added as it is, and stays.
* `Query.aliased_source_columns`: what its columns are qualified by.
* `Query.aliased_source_bare`: a column that was taken before the query was named.

A column remembers the name that its query had when it was taken, and a query remembers names for
those sources only that it has named itself. So a column that was taken before its query was named
is not told from columns of other sources. -/

namespace SqlScribe

open Tokens

namespace Query

variable {q q' : Query}

/-- A source with a name is added as it is. -/
theorem step_adds {fresh : SourceId} {s : Step} {y : Subquery}
    (hs : s.source? = some (.subquery y)) {name : String} (halias : y.alias? = some name) :
    Yields (fun q' => .subquery y ∈ q'.allSources) (q.step fresh s) := by
  have hchange : Yields (fun q' => .subquery y ∈ q'.allSources) (q.change s) := by
    cases s with
    | source x =>
      cases hs
      have hmem : .subquery y ∈ (q.addSource (.subquery y)).allSources := by
        rw [addSource, halias]
        exact mem_allSources.mpr (.inl (List.mem_append_right _ (List.mem_singleton_self _)))
      exact .ok hmem
    | join kind x rule =>
      cases hs
      refine (q.join_prepared kind (.subquery y) rule).mono fun q' h => ?_
      obtain ⟨kind', c, rfl⟩ := h
      rw [prepareJoin, halias]
      exact mem_allSources.mpr
        (.inr ⟨⟨kind', .subquery y, c⟩, List.mem_append_right _ (List.mem_singleton_self _), rfl⟩)
    | _ => cases hs
  refine hchange.bind fun next hnext => .pure ?_
  have hsame := next.settled_sources fresh s
  rwa [allSources, hsame.sources, hsame.joins]

/-- It is still there after the steps that follow. -/
theorem run_adds {steps : List (SourceId × Step)} (hrun : q.run steps = .ok q')
    {s : SourceId × Step} (hmem : s ∈ steps) {y : Subquery}
    (hs : s.2.source? = some (.subquery y)) {name : String} (halias : y.alias? = some name) :
    .subquery y ∈ q'.allSources := by
  induction steps generalizing q with
  | nil => cases hmem
  | cons first steps ih =>
    obtain ⟨next, hstep, hrest⟩ := run_cons hrun
    rcases List.mem_cons.mp hmem with rfl | hmem
    · exact (run_extends hrest).allSources (step_adds hs halias next hstep)
    · exact ih hrest hmem

/-- **The columns of a named source.** A query is begun and built by a program of steps, one of
which adds a query or set operation under a name. It is a source under that name, and written so by
a statement that reads rows. A column that was taken from it after it was named is qualified by that
name, whatever other sources there are. A column that was taken before is qualified by the name that
it had then; if it had none, by the one that the query made up for a further source of its identity;
and it is written alone if there is no such source and nothing around has named it. -/
theorem aliased_source_columns (hbegun : q.Begun) {steps : List (SourceId × Step)}
    (hrun : q.run steps = .ok q') {added : SourceId × Step} (hadded : added ∈ steps)
    {x : Subquery} {name : String} (hsource : added.2.source? = some (.subquery (x.aliased name)))
    (htables : x.id ∉ (steps.filterMap (·.2.joined?)).map (·.id)) {s : Scope} :
    .subquery (x.aliased name) ∈ q'.allSources ∧
    (q'.isBlank = false → q'.readsRows = true →
      Yields (Holds (x.lowerNamed (s.inside q') name)) (q'.lower s)) ∧
    ∀ {c : QueryClause} {tok : Token} {occ : Occurrence},
      (q'.WritesColumn s c (Source.subquery (x.aliased name)).qualifier tok occ →
        occ.lower = .ok [.ident name, .mark .dot, tok] ∧ Yields (Holds occ.lower) (q'.lower s)) ∧
      (q'.WritesColumn s c (Source.subquery x).qualifier tok occ →
        (∀ old, x.alias? = some old → occ.lower = .ok [.ident old, .mark .dot, tok]) ∧
        (x.alias? = none → x.id ∈ (steps.filterMap (·.2.unnamed?)).map (·.id) →
          ∃ (y : Subquery) (n : Nat), y.id = x.id ∧
            .subquery (y.aliased (sourceName n)) ∈ q'.allSources ∧
            occ.lower = .ok [.ident (sourceName n), .mark .dot, tok]) ∧
        (x.alias? = none → x.id ∉ (steps.filterMap (·.2.unnamed?)).map (·.id) →
          s.alias? x.id = none → occ.lower = .ok [tok])) := by
  obtain ⟨named, hnamed, hnumbered⟩ := hbegun.numbered hrun
  have hids : (steps.filterMap (·.2.unnamed?)).map (·.id) = named.map (·.1.id) := by
    rw [← hnamed, List.map_map]
    rfl
  have hmem := run_adds hrun hadded hsource (x.alias?_aliased name)
  refine ⟨hmem, fun hblank hreads => ?_, fun {c tok occ} => ⟨fun h => ⟨?_, h.within.holds⟩,
    fun h => ⟨fun old hold => ?_, fun hnone hgiven => ?_, fun hnone hgiven hs => ?_⟩⟩⟩
  · rw [← Source.lower_aliased]
    exact holds_source hblank hreads hmem
  · rw [h.lower_subquery, x.alias?_aliased]
    rfl
  · rw [h.lower_subquery, hold]
    rfl
  · rw [hids] at hgiven
    obtain ⟨p, hp, hid, halias⟩ := hnumbered.exists_alias? hgiven htables s
    refine ⟨p.1, p.2, hid, hnumbered.sources p hp, ?_⟩
    -- The column remembers no name, so it goes by the one that the identity has here.
    rw [h.lower_subquery, hnone, Option.none_or, halias]
    rfl
  · rw [hids] at hgiven
    rw [h.lower_subquery, hnone, Option.none_or, hnumbered.alias?_of_not_mem hgiven htables, hs]
    rfl

/-- One column is taken before the query is named, another one after. -/
theorem aliased_source_columns_taken :
    let abc : Table := { id := ⟨0⟩, name := "abc" }
    let efg : Table := { id := ⟨1⟩, name := "efg" }
    let rows : Query :=
      { Query.start ⟨2⟩ .ansi with sources := [.table abc], selects := [abc.field "x"] }
    let named := rows.aliased "a"
    let steps : List (SourceId × Step) :=
      [(⟨4⟩, .source (.subquery (.query named))), (⟨5⟩, .source (.table efg)),
        (⟨6⟩, .select [.term (named.field "x"), .term (rows.field "y")])]
    let q : Query :=
      { Query.start ⟨6⟩ .ansi with
        sources := [.subquery (.query named), .table efg]
        selects := [named.field "x", rows.field "y"] }
    let s := Scope.ofOptions .ansi {}
    let after : Occurrence := ⟨(s.inside q).labelled, .expr (.field (some named.qualifier) "x")⟩
    let before : Occurrence := ⟨(s.inside q).labelled, .expr (.field (some rows.qualifier) "y")⟩
    (start ⟨3⟩ .ansi).run steps = .ok q ∧ (q.isBlank = false ∧ q.readsRows = true) ∧
      (q.WritesColumn s .selectList named.qualifier (.ident "x") after ∧
        q.WritesColumn s .selectList rows.qualifier (.ident "y") before) ∧
      Yields (Holds ((Subquery.query rows).lowerNamed (s.inside q) "a")) (q.lower s) ∧
      after.lower = .ok [.ident "a", .mark .dot, .ident "x"] ∧
      before.lower = .ok [.ident "y"] := by
  intro abc efg rows named steps q s after before
  have hrun : (start ⟨3⟩ .ansi).run steps = .ok q := rfl
  have hafter : q.WritesColumn s .selectList named.qualifier (.ident "x") after :=
    .of_term (List.Mem.head _) rfl
  have hbefore : q.WritesColumn s .selectList rows.qualifier (.ident "y") before :=
    .of_term (List.Mem.tail _ (List.Mem.head _)) rfl
  have hsource : (Step.source (.subquery (.query named))).source? =
      some (.subquery ((Subquery.query rows).aliased "a")) := rfl
  obtain ⟨-, hwritten, hcolumns⟩ :=
    aliased_source_columns (.start ⟨3⟩ .ansi) hrun (List.Mem.head _) hsource (by decide) (s := s)
  exact ⟨hrun, ⟨rfl, rfl⟩, ⟨hafter, hbefore⟩, hwritten rfl rfl, (hcolumns.1 hafter).1,
    (hcolumns.2 hbefore).2.2 rfl nofun rfl⟩

/-- A column is taken before its query is named, and the query is joined with a table that has a
column of the same name. -/
theorem aliased_source_bare :
    let abc : Table := { id := ⟨0⟩, name := "abc" }
    let efg : Table := { id := ⟨1⟩, name := "efg" }
    let rows : Query :=
      { Query.start ⟨2⟩ .ansi with sources := [.table abc], selects := [abc.field "x"] }
    let x := rows.field "x"
    let named := rows.aliased "a"
    let on := (named.field "x").equals (efg.field "x")
    let steps : List Step :=
      [.source (.subquery (.query named)), .join .inner (.table efg) (.on on),
        .select [.term x, .term (efg.field "x")]]
    named.info.id = rows.info.id ∧
      (((start ⟨3⟩ .ansi).run (steps.map ((⟨3⟩, ·)))).toOption.bind fun q =>
        (render q {}).toOption) =
      some ("SELECT \"x\",\"efg\".\"x\" FROM (SELECT \"x\" FROM \"abc\") \"a\" " ++
        "JOIN \"efg\" ON \"a\".\"x\"=\"efg\".\"x\"") := by
  decide +kernel

end Query

end SqlScribe
