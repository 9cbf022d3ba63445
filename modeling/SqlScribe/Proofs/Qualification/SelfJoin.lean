import SqlScribe.Proofs.Qualification.Uniform
import SqlScribe.Proofs.Query.JoinCondition
/-! # Self joins

A query that selects from a table and joins further handles of the same table.

* `Query.SelfJoined`: what a query of that kind is made of; `Query.SelfJoined.run` keeps it.
* `Query.sourceNames`: the names under which the sources of a query are written.
* `Query.selfJoin_names`: the names of such a query, and what its columns are qualified by.
* `Query.selfJoin_third`: two handles that are joined go by one name.

The name made up for a handle is that of the table with a `2` behind it, however many handles are
joined already, so that a second handle is told from the table but a third not from the second. -/

namespace SqlScribe

namespace Query

variable {q q' : Query}

/-! ## Joins of further handles -/

/-- The query selects from a table and joins handles, each under the name made up for the table. -/
structure SelfJoined (t : Table) (handles : List Table) (q : Query) : Prop where
  unnamed : ∀ h ∈ handles, h.alias? = none
  sources : q.sources = [.table t]
  joins : q.joins.map (·.source) = handles.map fun h => .table (h.aliased (selfJoinName t))
  aliases : q.info.aliases = (handles.map fun h => (h.id, selfJoinName t)).reverse

variable {t : Table} {handles : List Table}

theorem SelfJoined.begin (t : Table) (id : SourceId) (d : Dialect) :
    SelfJoined t [] ((start id d).addSource (.table t)) :=
  ⟨by simp, rfl, rfl, rfl⟩

theorem SelfJoined.of_same (h : SelfJoined t handles q) (hsame : SameSources q q') :
    SelfJoined t handles q' :=
  ⟨h.unnamed, hsame.sources.trans h.sources, hsame.joins ▸ h.joins, hsame.aliases.trans h.aliases⟩

/-- A further handle of the table is joined under the name made up for it. -/
theorem SelfJoined.addJoin (h : SelfJoined t handles q) {u : Table} (halias : u.alias? = none)
    (hsame : (u == t) = true) (kind : JoinKind) (c : JoinCondition) :
    SelfJoined t (handles ++ [u]) (q.addJoin kind (.table u) c) := by
  have hsame' : (t == u) = true := by
    obtain ⟨hschema, hname⟩ := (Table.beq_iff u t).mp hsame
    exact (Table.beq_iff t u).mpr ⟨hschema.symm, hname.symm⟩
  have hbase : (u.alias?.isNone && q.isBaseTable u) = true := by
    simp [halias, isBaseTable, h.sources, Source.table?, hsame']
  have hname : selfJoinName u = selfJoinName t := by
    rw [selfJoinName, selfJoinName, ((Table.beq_iff u t).mp hsame).2]
  -- The handle equals the source, so the first branch of the definition is taken: it is renamed.
  rw [Query.addJoin, if_pos hbase]
  refine ⟨fun v hv => ?_, h.sources, ?_, ?_⟩
  · rcases List.mem_append.mp hv with hv | hv
    · exact h.unnamed v hv
    · rw [List.mem_singleton.mp hv, halias]
  · simp [h.joins, hname]
  · simp [h.aliases, hname]

/-- The handle that a step joins. -/
def Step.joined? : Step → Option Table
  | .join _ (.table u) _ => some u
  | _ => none

/-- The step adds no source, or joins a handle of the table that has no alias. -/
def Step.Rejoins (t : Table) (s : Step) : Prop :=
  s.addsSource = false ∨ ∃ kind u rule, s = .join kind (.table u) rule ∧ u.alias? = none ∧
    (u == t) = true

/-- A step of that kind keeps a query made of one table, with the handle that it joins. -/
theorem SelfJoined.step (h : SelfJoined t handles q) {fresh : SourceId} {s : Step}
    (hs : s.Rejoins t) : Yields (SelfJoined t (handles ++ s.joined?.toList)) (q.step fresh s) := by
  rcases hs with hs | ⟨kind, u, rule, rfl, halias, hsame⟩
  · have hnone : s.joined? = none := by
      cases s with
      | join kind source rule => cases hs
      | _ => rfl
    rw [hnone, Option.toList_none, List.append_nil]
    exact (step_sources hs).mono fun _ hq => h.of_same hq
  · refine (q.join_prepared kind (.table u) rule).bind fun next hnext => .pure ?_
    obtain ⟨kind', c, rfl⟩ := hnext
    exact (h.addJoin halias hsame kind' c).of_same (settled_sources _ fresh _)

/-- So does a program of them. -/
theorem SelfJoined.run {steps : List (SourceId × Step)} (hsteps : ∀ s ∈ steps, s.2.Rejoins t)
    (h : SelfJoined t handles q) (hrun : q.run steps = .ok q') :
    SelfJoined t (handles ++ steps.filterMap (·.2.joined?)) q' := by
  -- The handles joined so far are general: a step puts at most one behind them.
  induction steps generalizing q handles with
  | nil =>
    cases hrun
    simpa using h
  | cons s steps ih =>
    obtain ⟨next, hstep, hrest⟩ := run_cons hrun
    have hnext := h.step (hsteps s List.mem_cons_self) next hstep
    have hall := ih (fun s' hs' => hsteps s' (List.mem_cons_of_mem _ hs')) hnext hrest
    rw [List.append_assoc] at hall
    cases hjoined : s.2.joined? with
    | none => simpa [hjoined] using hall
    | some u => simpa [hjoined] using hall

/-! ## Names -/

/-- The sources of a query, first those of `FROM`, then the joined ones. -/
def allSources (q : Query) : List Source := q.sources ++ q.joins.map (·.source)

theorem mem_allSources {x : Source} :
    x ∈ q.allSources ↔ x ∈ q.sources ∨ ∃ j ∈ q.joins, j.source = x := by
  simp [allSources]

/-- The name that a token writes. -/
def nameOf : Token → Option String
  | .ident name => some name
  | .aliasName name => some name
  | _ => none

/-- The name under which a source is written: that of its last token. -/
def writtenName (s : Scope) (x : Source) : Option String :=
  (x.lower s).toOption.bind fun tokens => tokens.getLast?.bind nameOf

theorem writtenName_table (s : Scope) (u : Table) :
    writtenName s (.table u) = some u.shownName := by
  have hlast : writtenName s (.table u) = (u.tokens s).getLast?.bind nameOf := by
    rw [writtenName, Source.lower]
    rfl
  rw [hlast, Table.tokens, Table.shownName]
  cases u.alias? with
  | none => simp [nameOf]
  | some name => cases hkeyword : s.asKeyword <;> simp [Scope.aliasSuffix, hkeyword, nameOf]

/-- The names under which the sources of a query are written. -/
def sourceNames (s : Scope) (q : Query) : List (Option String) :=
  q.allSources.map (writtenName (s.inside q))

theorem alias?_inside (s : Scope) (q : Query) (id : SourceId) :
    (s.inside q).alias? id = (q.info.aliases.lookup id).or (s.alias? id) :=
  List.lookup_append

theorem selfJoinName_ne (t : Table) : selfJoinName t ≠ t.name := by
  intro h
  -- The made-up name is longer.
  have hlength := congrArg String.length h
  simp [selfJoinName] at hlength

namespace SelfJoined

theorem allSources_eq (h : SelfJoined t handles q) :
    q.allSources = .table t :: handles.map fun h => .table (h.aliased (selfJoinName t)) := by
  rw [allSources, h.sources, h.joins, List.singleton_append]

theorem sourceNames_eq (h : SelfJoined t handles q) (halias : t.alias? = none) (s : Scope) :
    q.sourceNames s = some t.name :: List.replicate handles.length (some (selfJoinName t)) := by
  have hjoined : ∀ h : Table, writtenName (s.inside q) (.table (h.aliased (selfJoinName t))) =
      some (selfJoinName t) := fun h => writtenName_table _ _
  rw [sourceNames, h.allSources_eq, List.map_cons, List.map_map, writtenName_table,
    Table.shownName, halias, Option.getD_none]
  simp [Function.comp_def, hjoined, List.map_const']

/-- A handle that is joined goes by the name made up for the table. -/
theorem alias?_of_mem (h : SelfJoined t handles q) {u : Table} (hu : u ∈ handles) (s : Scope) :
    (s.inside q).alias? u.id = some (selfJoinName t) := by
  have hmem : (u.id, selfJoinName t) ∈ q.info.aliases := by
    rw [h.aliases, List.mem_reverse]
    exact List.mem_map_of_mem hu
  rw [alias?_inside]
  -- Whichever entry the search finds first, all of them bear the one name.
  cases hname : q.info.aliases.lookup u.id with
  | none => simpa using List.lookup_eq_none_iff.mp hname _ hmem
  | some name =>
    obtain ⟨before, after, heq, _⟩ := List.lookup_eq_some_iff.mp hname
    have hmem' : (u.id, name) ∈ q.info.aliases := by simp [heq]
    rw [h.aliases, List.mem_reverse] at hmem'
    obtain ⟨v, _, hv⟩ := List.mem_map.mp hmem'
    rw [← (Prod.mk.inj hv).2, Option.some_or]

/-- The query says nothing about the names of other sources. -/
theorem alias?_of_not_mem (h : SelfJoined t handles q) {id : SourceId}
    (hid : id ∉ handles.map (·.id)) (s : Scope) : (s.inside q).alias? id = s.alias? id := by
  have hnone : q.info.aliases.lookup id = none := by
    rw [h.aliases, List.lookup_eq_none_iff]
    intro p hp
    obtain ⟨v, hv, rfl⟩ := List.mem_map.mp (List.mem_reverse.mp hp)
    exact bne_iff_ne.mpr fun heq => hid (heq ▸ List.mem_map_of_mem hv)
  rw [alias?_inside, hnone, Option.none_or]

/-- Each handle has a source of its own, written under the name by which the scope inside the query
knows the handle. -/
theorem exists_source (h : SelfJoined t handles q) (halias : t.alias? = none)
    (hid : t.id ∉ handles.map (·.id)) {s : Scope} (hs : s.alias? t.id = none) {u : Table}
    (hu : u ∈ t :: handles) : ∃ v, .table v ∈ q.allSources ∧ v.id = u.id ∧
      writtenName (s.inside q) (.table v) = some ((s.inside q).shownName u) := by
  rw [h.allSources_eq]
  -- The query has no name for the table itself, so that it goes by its own; the copy of a handle
  -- among the joins has the name that the query has for the handle.
  rcases List.mem_cons.mp hu with rfl | hu
  · refine ⟨u, List.mem_cons_self, rfl, ?_⟩
    rw [writtenName_table, Table.shownName, Scope.shownName, halias, h.alias?_of_not_mem hid, hs]
    rfl
  · refine ⟨u.aliased (selfJoinName t), List.mem_cons_of_mem _ (List.mem_map_of_mem hu), rfl, ?_⟩
    rw [writtenName_table, Scope.shownName, h.unnamed u hu, h.alias?_of_mem hu]
    rfl

/-- With a join every column of the query is qualified, save those that are given values. -/
theorem clauseQualifies (h : SelfJoined t handles q) {s : Scope}
    (hneeds : handles ≠ [] ∨ s.alwaysQualifies = true) {c : QueryClause}
    (hc : c.followsQuery = true ∨ c = .conflictSet ∨ c = .conflictWhere) :
    q.clauseQualifies s c = true := by
  rcases hc with hc | rfl | rfl
  · rw [clauseQualifies_of_followsQuery hc, Bool.or_eq_true, usesQualifiers_iff]
    rcases hneeds with hjoined | halways
    · refine .inr (.inl fun hnil => hjoined ?_)
      have hmap := h.joins
      rw [hnil] at hmap
      exact List.map_eq_nil_iff.mp hmap.symm
    · exact .inl halways
  · rfl
  · rfl

end SelfJoined

/-- A query that selects from a table, after a program that joins further handles of the table. The
table is written under its own name and all the handles under one name made up for it, so the names
differ if and only if there is at most one handle. A column of a handle is qualified by the name of
the handle's own source. -/
theorem selfJoin_names {t : Table} (halias : t.alias? = none) (hstart : SelfJoined t [] q)
    {steps : List (SourceId × Step)} (hsteps : ∀ s ∈ steps, s.2.Rejoins t)
    (hrun : q.run steps = .ok q') {handles : List Table}
    (hhandles : steps.filterMap (·.2.joined?) = handles)
    (hids : ((t :: handles).map (·.id)).Nodup) {s : Scope} (hs : s.alias? t.id = none) :
    q'.sourceNames s = some t.name :: List.replicate handles.length (some (t.name ++ "2")) ∧
    ((q'.sourceNames s).Nodup ↔ handles.length ≤ 1) ∧
    ∀ u ∈ t :: handles, ∃ v, .table v ∈ q'.allSources ∧ v.id = u.id ∧
      ((handles ≠ [] ∨ s.alwaysQualifies = true) → ∀ {c tok occ}, q'.HasColumn s c u tok occ →
        c.followsQuery = true ∨ c = .conflictSet ∨ c = .conflictWhere →
        ∃ name, writtenName (s.inside q') (.table v) = some name ∧
          occ.lower = .ok [.ident name, .mark .dot, tok]) := by
  have hjoined : SelfJoined t handles q' := by
    rw [← hhandles]
    exact hstart.run hsteps hrun
  have hnames := hjoined.sourceNames_eq halias s
  refine ⟨hnames, ?_, fun u hu => ?_⟩
  · rw [hnames, List.nodup_cons, List.nodup_replicate, and_iff_right]
    intro hmem
    exact selfJoinName_ne t (Option.some.inj (List.eq_of_mem_replicate hmem)).symm
  · have hid : t.id ∉ handles.map (·.id) := (List.nodup_cons.mp hids).1
    obtain ⟨v, hv, hvid, hname⟩ := hjoined.exists_source halias hid hs hu
    refine ⟨v, hv, hvid, fun hneeds c tok occ hcolumn hc => ⟨_, hname, ?_⟩⟩
    rw [hcolumn.lower_eq, hjoined.clauseQualifies hneeds hc, Bool.or_true, if_pos rfl]
    rfl

/-- A handle is joined and a column of it selected. -/
theorem selfJoin_names_second :
    let abc : Table := { id := ⟨0⟩, name := "abc" }
    let other : Table := { id := ⟨1⟩, name := "abc" }
    let on := (abc.field "id").equals (other.field "parent")
    let steps : List (SourceId × Step) :=
      [(⟨3⟩, .join .inner (.table other) (.on on)), (⟨4⟩, .select [.term (other.field "x")])]
    let q : Query :=
      { Query.start ⟨4⟩ .ansi with
        sources := [.table abc], selects := [other.field "x"]
        joins := [⟨.inner, .table (other.aliased "abc2"), .on on⟩]
        info.aliases := [(other.id, "abc2")] }
    let s := Scope.ofOptions .ansi {}
    let occ : Occurrence := ⟨(s.inside q).labelled, .expr (.field (some (.table other)) "x")⟩
    ((start ⟨2⟩ .ansi).addSource (.table abc)).run steps = .ok q ∧
      q.sourceNames s = [some "abc", some "abc2"] ∧ (q.sourceNames s).Nodup ∧
      q.HasColumn s .selectList other (.ident "x") occ ∧
      ∃ v name, .table v ∈ q.allSources ∧ v.id = other.id ∧
        writtenName (s.inside q) (.table v) = some name ∧
        occ.lower = .ok [.ident name, .mark .dot, .ident "x"] := by
  intro abc other on steps q s occ
  have hsteps : ∀ step ∈ steps, step.2.Rejoins abc := by
    intro step hstep
    rcases List.mem_cons.mp hstep with rfl | hstep
    · exact .inr ⟨.inner, other, _, rfl, rfl, rfl⟩
    · rw [List.mem_singleton.mp hstep]
      exact .inl rfl
  have hrun : ((start ⟨2⟩ .ansi).addSource (.table abc)).run steps = .ok q := rfl
  have hhandles : steps.filterMap (·.2.joined?) = [other] := rfl
  have hs : s.alias? abc.id = none := rfl
  obtain ⟨hnames, hnodup, hcolumns⟩ :=
    selfJoin_names rfl (SelfJoined.begin abc ⟨2⟩ .ansi) hsteps hrun hhandles (by decide) hs
  have hselected : q.HasColumn s .selectList other (.ident "x") occ :=
    .of_term (List.Mem.head _) rfl
  obtain ⟨v, hv, hid, hcolumn⟩ := hcolumns other (List.mem_cons_of_mem _ List.mem_cons_self)
  obtain ⟨name, hname, hlower⟩ := hcolumn (.inl (List.cons_ne_nil _ _)) hselected (.inl rfl)
  exact ⟨hrun, hnames, hnodup.mpr (Nat.le_refl 1), hselected, v, name, hv, hid, hname, hlower⟩

/-- Two handles are joined and go by one name. -/
theorem selfJoin_third :
    let abc : Table := { id := ⟨0⟩, name := "abc" }
    let second : Table := { id := ⟨1⟩, name := "abc" }
    let third : Table := { id := ⟨2⟩, name := "abc" }
    let on := (abc.field "id").equals (second.field "parent")
    let on' := (second.field "id").equals (third.field "parent")
    let q : Query :=
      { Query.start ⟨4⟩ .ansi with
        sources := [.table abc], joins := [⟨.inner, .table (second.aliased "abc2"), .on on⟩]
        info.aliases := [(second.id, "abc2")] }
    let q' : Query :=
      { q with
        joins := q.joins ++ [⟨.inner, .table (third.aliased "abc2"), .on on'⟩]
        info.id := ⟨5⟩, info.aliases := (third.id, "abc2") :: q.info.aliases }
    let s := Scope.ofOptions .ansi {}
    ((start ⟨3⟩ .ansi).addSource (.table abc)).step ⟨4⟩ (.join .inner (.table second) (.on on)) =
        .ok q ∧
      q.step ⟨5⟩ (.join .inner (.table third) (.on on')) = .ok q' ∧
      q'.sourceNames s = [some "abc", some "abc2", some "abc2"] ∧ ¬ (q'.sourceNames s).Nodup ∧
      (second.field "x").lower (s.inside q') = .ok [.ident "abc2", .mark .dot, .ident "x"] ∧
      (third.field "x").lower (s.inside q') = .ok [.ident "abc2", .mark .dot, .ident "x"] := by
  intro abc second third on on' q q' s
  have hnames : q'.sourceNames s = [some "abc", some "abc2", some "abc2"] := by
    simp [sourceNames, allSources, writtenName_table, Table.shownName, Table.aliased, q, q', abc,
      second, third]
  refine ⟨rfl, rfl, hnames, ?_, rfl, rfl⟩
  rw [hnames]
  decide

end Query

end SqlScribe
