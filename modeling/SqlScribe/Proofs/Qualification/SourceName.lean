import Mathlib.Data.List.Nodup
import SqlScribe.Proofs.Occurrence.Placed
import SqlScribe.Proofs.Qualification.SelfJoin
/-! # Names made up for queries

A query or set operation without a name is given one by number when it becomes a source, and the
query that it is a source of remembers the name by identity.

* `Query.Step.unnamed?`: the sources that are given names.
* `Query.NameChange`, `Query.step_names`: what a step does to the names that a query has given.
* `Query.Numbered`, `Query.Numbered.run`: the numbers ascend, so that no name is given twice.
* `Query.numbered_sources`: each source is written under its own name, and so are its columns. -/

namespace SqlScribe

open Tokens

/-- The query or set operation without a name that is the source. -/
def Source.unnamed? : Source → Option Subquery
  | .table _ => none
  | .subquery x => if x.alias?.isNone then some x else none

theorem Source.alias?_of_unnamed? {x : Source} {y : Subquery} (h : x.unnamed? = some y) :
    y.alias? = none := by
  cases x with
  | table t => cases h
  | subquery x =>
    rw [unnamed?] at h
    split at h
    · next hnone =>
      cases h
      exact Option.isNone_iff_eq_none.mp hnone
    · cases h

namespace Query

variable {q q' : Query}

/-- The source that a step adds. -/
def Step.source? : Step → Option Source
  | .source x => some x
  | .join _ x _ => some x
  | _ => none

/-- The query or set operation without a name that a step adds as a source. -/
def Step.unnamed? (s : Step) : Option Subquery := s.source?.bind Source.unnamed?

theorem Extends.allSources (h : Extends q q') : q.allSources ⊆ q'.allSources := by
  intro x hx
  rw [mem_allSources] at hx ⊢
  rcases hx with hx | ⟨j, hj, hsource⟩
  · exact .inl (h.sources hx)
  · exact .inr ⟨j, h.joins hj, hsource⟩

/-! ## What a step does to names -/

/-- What a step does to the names that a query has given. -/
inductive NameChange (s : Step) (q q' : Query) : Prop where
  /-- No name is given. -/
  | kept (hs : s.unnamed? = none) (aliases : q'.info.aliases = q.info.aliases)
    (count : q'.info.subqueryCount = q.info.subqueryCount)
  /-- The added source is named by a number that was not used before. -/
  | numbered {x : Subquery} {n : Nat} (hs : s.unnamed? = some x)
    (fresh : q.info.subqueryCount ≤ n) (count : q'.info.subqueryCount = n + 1)
    (aliases : q'.info.aliases = (x.id, sourceName n) :: q.info.aliases)
    (source : .subquery (x.aliased (sourceName n)) ∈ q'.allSources)
  /-- A joined handle of a table is renamed. -/
  | renamed {t : Table} {name : String} (hs : s.unnamed? = none) (hjoined : s.joined? = some t)
    (aliases : q'.info.aliases = (t.id, name) :: q.info.aliases)
    (count : q'.info.subqueryCount = q.info.subqueryCount)

/-- Nothing later that leaves the sources alone changes this. -/
theorem NameChange.of_same {s : Step} {next : Query} (h : NameChange s q next)
    (hsame : SameSources next q') : NameChange s q q' := by
  cases h with
  | kept hs aliases count =>
    exact .kept hs (hsame.aliases.trans aliases) (hsame.count.trans count)
  | numbered hs fresh count aliases source =>
    refine .numbered hs fresh (hsame.count.trans count) (hsame.aliases.trans aliases) ?_
    rwa [allSources, hsame.sources, hsame.joins]
  | renamed hs hjoined aliases count =>
    exact .renamed hs hjoined (hsame.aliases.trans aliases) (hsame.count.trans count)

theorem addSource_names (q : Query) (x : Source) :
    NameChange (.source x) q (q.addSource x) := by
  cases x with
  | table t => exact .kept rfl rfl rfl
  | subquery x =>
    cases halias : x.alias? with
    | some name =>
      rw [addSource, halias]
      exact .kept (by simp [Step.unnamed?, Step.source?, Source.unnamed?, halias]) rfl rfl
    | none =>
      rw [addSource, halias]
      refine .numbered (by simp [Step.unnamed?, Step.source?, Source.unnamed?, halias])
        (Nat.le_max_left _ x.subqueryCount) rfl rfl (mem_allSources.mpr (.inl ?_))
      exact List.mem_append_right _ (List.mem_singleton_self _)

theorem addJoin_names (q : Query) (kind : JoinKind) (x : Source) (rule : JoinRule)
    (kind' : JoinKind) (c : JoinCondition) :
    NameChange (.join kind x rule) q ((q.prepareJoin x).1.addJoin kind' (q.prepareJoin x).2 c) := by
  cases x with
  | table t =>
    rw [prepareJoin, addJoin]
    split
    · exact .renamed rfl rfl rfl rfl
    · exact .kept rfl rfl rfl
  | subquery x =>
    cases halias : x.alias? with
    | some name =>
      rw [prepareJoin, halias]
      exact .kept (by simp [Step.unnamed?, Step.source?, Source.unnamed?, halias]) rfl rfl
    | none =>
      rw [prepareJoin, halias]
      refine .numbered (by simp [Step.unnamed?, Step.source?, Source.unnamed?, halias])
        (Nat.le_refl _) rfl rfl (mem_allSources.mpr (.inr ?_))
      exact ⟨_, List.mem_append_right _ (List.mem_singleton_self _), rfl⟩

theorem change_names (q : Query) (s : Step) : Yields (NameChange s q) (q.change s) := by
  cases hs : s.addsSource with
  | false =>
    refine (q.change_sources hs).mono fun q' h => .kept ?_ h.aliases h.count
    cases s with
    | source x => cases hs
    | join kind x rule => cases hs
    | _ => rfl
  | true =>
    cases s with
    | source x => exact .ok (q.addSource_names x)
    | join kind x rule =>
      refine (q.join_prepared kind x rule).mono fun q' h => ?_
      obtain ⟨kind', c, rfl⟩ := h
      exact q.addJoin_names kind x rule kind' c
    | _ => cases hs

/-- Only a source without a name, or a handle of a table that is there already, is given a name. -/
theorem step_names {fresh : SourceId} {s : Step} : Yields (NameChange s q) (q.step fresh s) :=
  (q.change_names s).bind fun next h => .pure (h.of_same (next.settled_sources fresh s))

/-! ## Numbers -/

/-- Different numbers make different names. -/
theorem sourceName_inj {m n : Nat} : sourceName m = sourceName n ↔ m = n := by
  constructor
  · intro h
    have hdigits : Nat.toDigits 10 m = Nat.toDigits 10 n := by
      have hlist := congrArg String.toList h
      simpa [sourceName] using hlist
    rw [← Nat.ofDigitChars_ten_toDigits (n := m), hdigits, Nat.ofDigitChars_ten_toDigits]
  · rintro rfl
    rfl

/-- A query has given names by number to some queries, in their order, and other names to handles
of some tables only. -/
structure Numbered (named : List (Subquery × Nat)) (tables : List Table) (q : Query) : Prop where
  unnamed : ∀ p ∈ named, p.1.alias? = none
  ascending : (named.map (·.2)).Pairwise (· < ·)
  below : ∀ p ∈ named, p.2 < q.info.subqueryCount
  sources : ∀ p ∈ named, .subquery (p.1.aliased (sourceName p.2)) ∈ q.allSources
  entries : ∀ p ∈ named, (p.1.id, sourceName p.2) ∈ q.info.aliases
  only : ∀ e ∈ q.info.aliases,
    (∃ p ∈ named, e = (p.1.id, sourceName p.2)) ∨ ∃ t ∈ tables, e.1 = t.id

namespace Numbered

variable {named : List (Subquery × Nat)} {tables : List Table}

theorem of_nil (h : q.info.aliases = []) : Numbered [] [] q := by
  refine ⟨nofun, .nil, nofun, nofun, nofun, ?_⟩
  rw [h]
  exact nofun

/-- A step keeps the names that were given, and the source that it adds without a name is given the
next one. -/
theorem step (h : Numbered named tables q) {fresh : SourceId} {s : Step} :
    Yields (fun q' => ∃ more, more.map (·.1) = s.unnamed?.toList ∧
      Numbered (named ++ more) (tables ++ s.joined?.toList) q') (q.step fresh s) := by
  intro q' hstep
  have hsources := (step_extends q' hstep).allSources
  have honly : ∀ e ∈ q.info.aliases, (∃ p ∈ named, e = (p.1.id, sourceName p.2)) ∨
      ∃ t ∈ tables ++ s.joined?.toList, e.1 = t.id := by
    intro e he
    rcases h.only e he with hnamed | ⟨t, ht, heq⟩
    · exact .inl hnamed
    · exact .inr ⟨t, List.mem_append_left _ ht, heq⟩
  cases step_names q' hstep with
  | kept hs aliases count =>
    refine ⟨[], by simp [hs], ?_⟩
    rw [List.append_nil]
    exact ⟨h.unnamed, h.ascending, count ▸ h.below, fun p hp => hsources (h.sources p hp),
      aliases ▸ h.entries, aliases ▸ honly⟩
  | @renamed t name hs hjoined aliases count =>
    refine ⟨[], by simp [hs], ?_⟩
    rw [List.append_nil]
    refine ⟨h.unnamed, h.ascending, count ▸ h.below, fun p hp => hsources (h.sources p hp),
      ?_, ?_⟩
    · rw [aliases]
      exact fun p hp => List.mem_cons_of_mem _ (h.entries p hp)
    · rw [aliases]
      refine List.forall_mem_cons.mpr ⟨.inr ⟨t, ?_, rfl⟩, honly⟩
      simp [hjoined]
  | @numbered x n hs hfresh count aliases source =>
    have halias : x.alias? = none := by
      obtain ⟨_, _, hx⟩ := Option.bind_eq_some_iff.mp hs
      exact Source.alias?_of_unnamed? hx
    refine ⟨[(x, n)], by simp [hs], ?_⟩
    constructor
    case unnamed =>
      exact List.forall_mem_append.mpr ⟨h.unnamed, List.forall_mem_singleton.mpr halias⟩
    case ascending =>
      -- All numbers so far are below the count, and the new one is not.
      rw [List.map_append, List.pairwise_append]
      refine ⟨h.ascending, List.pairwise_singleton _ _, fun a ha b hb => ?_⟩
      obtain ⟨p, hp, rfl⟩ := List.mem_map.mp ha
      cases List.mem_singleton.mp hb
      exact Nat.lt_of_lt_of_le (h.below p hp) hfresh
    case below =>
      rw [count]
      exact List.forall_mem_append.mpr ⟨fun p hp => by have := h.below p hp; omega,
        List.forall_mem_singleton.mpr (Nat.lt_succ_self n)⟩
    case sources =>
      exact List.forall_mem_append.mpr ⟨fun p hp => hsources (h.sources p hp),
        List.forall_mem_singleton.mpr source⟩
    case entries =>
      rw [aliases]
      exact List.forall_mem_append.mpr ⟨fun p hp => List.mem_cons_of_mem _ (h.entries p hp),
        List.forall_mem_singleton.mpr List.mem_cons_self⟩
    case only =>
      rw [aliases]
      refine List.forall_mem_cons.mpr
        ⟨.inl ⟨_, List.mem_append_right _ List.mem_cons_self, rfl⟩, fun e he => ?_⟩
      rcases honly e he with ⟨p, hp, heq⟩ | htable
      · exact .inl ⟨p, List.mem_append_left _ hp, heq⟩
      · exact .inr htable

/-- So does a program of steps. -/
theorem run (h : Numbered named tables q) {steps : List (SourceId × Step)}
    (hrun : q.run steps = .ok q') : ∃ more, more.map (·.1) = steps.filterMap (·.2.unnamed?) ∧
      Numbered (named ++ more) (tables ++ steps.filterMap (·.2.joined?)) q' := by
  -- What was named before is general: a step puts at most one name behind it.
  induction steps generalizing q named tables with
  | nil =>
    cases hrun
    exact ⟨[], rfl, by simpa using h⟩
  | cons s steps ih =>
    obtain ⟨next, hstep, hrest⟩ := run_cons hrun
    obtain ⟨first, hfirst, hnext⟩ := h.step next hstep
    obtain ⟨more, hmore, hall⟩ := ih hnext hrest
    refine ⟨first ++ more, ?_, ?_⟩
    · rw [List.map_append, hfirst, hmore]
      cases hs : s.2.unnamed? <;> simp [hs]
    · rw [List.append_assoc, List.append_assoc] at hall
      cases hs : s.2.joined? <;> simpa [hs] using hall

theorem names_nodup (h : Numbered named tables q) :
    (named.map fun p => sourceName p.2).Nodup := by
  have hascending := List.pairwise_map.mp h.ascending
  exact List.pairwise_map.mpr
    (hascending.imp fun hlt heq => Nat.ne_of_lt hlt (sourceName_inj.mp heq))

/-- What the query has named goes by a name of its own identity. -/
theorem exists_alias? (h : Numbered named tables q) {id : SourceId}
    (hid : id ∈ named.map (·.1.id)) (htables : id ∉ tables.map (·.id)) (s : Scope) :
    ∃ p ∈ named, p.1.id = id ∧ (s.inside q).alias? id = some (sourceName p.2) := by
  obtain ⟨p, hp, rfl⟩ := List.mem_map.mp hid
  rw [alias?_inside]
  -- Several entries may be those of the identity; the first of them is found.
  cases hname : q.info.aliases.lookup p.1.id with
  | none => simpa using List.lookup_eq_none_iff.mp hname _ (h.entries p hp)
  | some name =>
    obtain ⟨before, after, heq, _⟩ := List.lookup_eq_some_iff.mp hname
    have hmem : (p.1.id, name) ∈ q.info.aliases := by simp [heq]
    rcases h.only _ hmem with ⟨p', hp', heq⟩ | ⟨t, ht, heq⟩
    · obtain ⟨hid', rfl⟩ := Prod.mk.inj heq
      exact ⟨p', hp', hid'.symm, Option.some_or⟩
    · exact absurd (List.mem_map.mpr ⟨t, ht, heq.symm⟩) htables

/-- If all identities differ, it is the name of the source itself. -/
theorem alias?_of_mem (h : Numbered named tables q) (hids : (named.map (·.1.id)).Nodup)
    {p : Subquery × Nat} (hp : p ∈ named) (htables : p.1.id ∉ tables.map (·.id)) (s : Scope) :
    (s.inside q).alias? p.1.id = some (sourceName p.2) := by
  obtain ⟨p', hp', hid, halias⟩ := h.exists_alias? (List.mem_map_of_mem hp) htables s
  rwa [List.inj_on_of_nodup_map hids hp' hp hid] at halias

/-- What the query has not named goes by the name that it has around the query. -/
theorem alias?_of_not_mem (h : Numbered named tables q) {id : SourceId}
    (hid : id ∉ named.map (·.1.id)) (htables : id ∉ tables.map (·.id)) (s : Scope) :
    (s.inside q).alias? id = s.alias? id := by
  have hnone : q.info.aliases.lookup id = none := by
    rw [List.lookup_eq_none_iff]
    intro e he
    refine bne_iff_ne.mpr fun heq => ?_
    rcases h.only e he with ⟨p, hp, rfl⟩ | ⟨t, ht, htid⟩
    · exact hid (heq ▸ List.mem_map_of_mem hp)
    · exact htables (List.mem_map.mpr ⟨t, ht, htid.symm.trans heq.symm⟩)
  rw [alias?_inside, hnone, Option.none_or]

end Numbered

theorem Begun.aliases_nil (h : q.Begun) : q.info.aliases = [] := by
  cases h with
  | start id d => rfl
  | into id t => rfl
  | update id t => rfl
  | tableSelect t id items h => exact (select_sources _ items q h).aliases
  | tableUpdate t id => rfl
  | tableInsert t id row h =>
    have hrow : Yields (·.info.aliases = []) (t.insert id row) :=
      Yields.bind (p := (·.info.aliases = []))
        (change_sources (t.newQuery id) (s := .into t) rfl |>.mono fun _ h => h.aliases)
        fun next hnext => (next.addRows_sources [row]).mono fun _ h => h.aliases.trans hnext
    exact hrow q h

/-- What a program names in a query that was just begun. -/
theorem Begun.numbered (h : q.Begun) {steps : List (SourceId × Step)}
    (hrun : q.run steps = .ok q') :
    ∃ named, named.map (·.1) = steps.filterMap (·.2.unnamed?) ∧
      Numbered named (steps.filterMap (·.2.joined?)) q' := by
  obtain ⟨named, hnamed, hall⟩ := (Numbered.of_nil h.aliases_nil).run hrun
  exact ⟨named, hnamed, by simpa using hall⟩

end Query

/-! ## Sources under their names -/

/-- A query or set operation as a source under a name: its statement between parentheses and the
name behind them, or nothing if there is nothing to write. -/
def Subquery.lowerNamed (s : Scope) (name : String) (y : Subquery) : Lowered :=
  if y.isBlank then .ok []
  else (y.lower s.standalone).map fun body => parens body ++ s.aliasSuffix name

@[simp] theorem Subquery.isBlank_aliased (y : Subquery) (name : String) :
    (y.aliased name).isBlank = y.isBlank := by
  cases y <;> rfl

@[simp] theorem Subquery.alias?_aliased (y : Subquery) (name : String) :
    (y.aliased name).alias? = some name := by
  cases y <;> rfl

/-- The name of a query is no matter where it stands alone. -/
theorem Subquery.lower_aliased_standalone (s : Scope) (y : Subquery) (name : String) :
    (y.aliased name).lower s.standalone = y.lower s.standalone := by
  cases y with
  | query q =>
    obtain ⟨info, commonTables, sources, selects, distinctOn, joins, filter, groupBy, having,
      orderBy, columns, rows, conflict, duplicateUpdates, assignments, returning⟩ := q
    rw [aliased, Subquery.lower, Subquery.lower, Query.aliased, Query.lower, Query.lower]
    rfl
  | compound c =>
    obtain ⟨id, base, operands, orderBy, limit, offset, alias?⟩ := c
    rw [aliased, Subquery.lower, Subquery.lower, Compound.lower, Compound.lower]
    rfl

theorem Source.lower_aliased (s : Scope) (y : Subquery) (name : String) :
    (Source.subquery (y.aliased name)).lower s = y.lowerNamed s name := by
  rw [Source.lower, Subquery.lowerNamed]
  cases hblank : y.isBlank with
  | true =>
    cases y with
    | query q =>
      rw [Subquery.aliased, Subquery.lower, Query.lower_eq]
      exact if_pos hblank
    | compound c => cases hblank
  | false =>
    have hwrites : (y.aliased name).isBlank = false := by rw [y.isBlank_aliased, hblank]
    have hplace := QueryPlace.source.lower_subquery s hwrites
    rw [y.lower_aliased_standalone] at hplace
    refine hplace.trans ?_
    simp [QueryPlace.fill, QueryPlace.wraps, QueryPlace.names, parensIf]

namespace Query

variable {q q' : Query} {s : Scope}

/-- A statement that reads rows has each of its sources. -/
theorem holds_source (hblank : q.isBlank = false) (hreads : q.readsRows = true) {y : Subquery}
    (hy : .subquery y ∈ q.allSources) :
    Yields (Holds ((Source.subquery y).lower (s.inside q))) (q.lower s) := by
  have hholds {p : QueryPlace} (hscope : p.scope (s.inside q) = (s.inside q).asSource)
      (hasks : Occurrence.Asks ⟨s, .query q⟩ p (s.inside q) y) :
      Yields (Holds ((Source.subquery y).lower (s.inside q))) (q.lower s) := by
    have hpart : Yields (Holds (y.lower (p.scope (s.inside q)))) (q.lower s) := by
      rw [← Occurrence.lower_piece]
      exact hasks.part.holds
    rwa [Source.lower, ← hscope]
  rcases mem_allSources.mp hy with hsource | ⟨j, hj, hjoined⟩
  · exact hholds rfl (.source hblank hreads hsource)
  · exact hholds rfl (.joined hblank hreads hj hjoined)

/-- **Names made up for sources are unique and resolve.** A query is begun and built by a program
of steps, the sources without a name that it is given having identities of their own. Then no two
of them are given the same name, each of them is a source under its own name and is written so by a
statement that reads rows, and a column that the query writes of one of them is qualified by the
name of that very source. -/
theorem numbered_sources (hbegun : q.Begun) {steps : List (SourceId × Step)}
    (hrun : q.run steps = .ok q') {given : List Subquery}
    (hgiven : steps.filterMap (·.2.unnamed?) = given) (hids : (given.map (·.id)).Nodup)
    (htables : ∀ t ∈ steps.filterMap (·.2.joined?), t.id ∉ given.map (·.id)) :
    ∃ named : List (Subquery × Nat), named.map (·.1) = given ∧
      (named.map fun p => sourceName p.2).Nodup ∧
      ∀ p ∈ named, .subquery (p.1.aliased (sourceName p.2)) ∈ q'.allSources ∧
        (q'.isBlank = false → q'.readsRows = true → ∀ s : Scope,
          Yields (Holds (p.1.lowerNamed (s.inside q') (sourceName p.2))) (q'.lower s)) ∧
        ∀ {s : Scope} {c : QueryClause} {tok : Token} {occ : Occurrence},
          q'.WritesColumn s c (Source.subquery p.1).qualifier tok occ →
          occ.lower = .ok [.ident (sourceName p.2), .mark .dot, tok] ∧
            Yields (Holds occ.lower) (q'.lower s) := by
  obtain ⟨named, hnamed, hnumbered⟩ := hbegun.numbered hrun
  rw [hgiven] at hnamed
  have hmap : named.map (·.1.id) = given.map (·.id) := by rw [← hnamed, List.map_map]; rfl
  refine ⟨named, hnamed, hnumbered.names_nodup, fun p hp => ⟨hnumbered.sources p hp, ?_, ?_⟩⟩
  · intro hblank hreads s
    rw [← Source.lower_aliased]
    exact holds_source hblank hreads (hnumbered.sources p hp)
  · intro s c tok occ hcolumn
    have htable : p.1.id ∉ (steps.filterMap (·.2.joined?)).map (·.id) := by
      intro hmem
      obtain ⟨t, ht, hid⟩ := List.mem_map.mp hmem
      exact htables t ht (hid ▸ hmap ▸ List.mem_map_of_mem hp)
    have halias := hnumbered.alias?_of_mem (hmap ▸ hids) hp htable s
    rw [Source.qualifier, hnumbered.unnamed p hp] at hcolumn
    refine ⟨?_, hcolumn.within.holds⟩
    rw [hcolumn.lower_subquery, Option.none_or, halias]
    rfl

/-- A query is selected from and another joined. -/
theorem numbered_sources_joined :
    let abc : Table := { id := ⟨0⟩, name := "abc" }
    let efg : Table := { id := ⟨1⟩, name := "efg" }
    let first : Query :=
      { Query.start ⟨2⟩ .ansi with sources := [.table abc], selects := [abc.field "x"] }
    let second : Query :=
      { Query.start ⟨3⟩ .ansi with sources := [.table efg], selects := [efg.field "x"] }
    let on := (first.field "x").equals (second.field "x")
    let steps : List (SourceId × Step) :=
      [(⟨5⟩, .source (.subquery (.query first))),
        (⟨6⟩, .join .inner (.subquery (.query second)) (.on on)),
        (⟨7⟩, .select [.term (second.field "x")])]
    let q : Query :=
      { Query.start ⟨7⟩ .ansi with
        sources := [.subquery (.query (first.aliased (sourceName 0)))]
        selects := [second.field "x"]
        joins := [⟨.inner, .subquery (.query (second.aliased (sourceName 1))), .on on⟩]
        info.aliases := [(second.info.id, sourceName 1), (first.info.id, sourceName 0)]
        info.subqueryCount := 2 }
    let s := Scope.ofOptions .ansi {}
    let occ : Occurrence := ⟨(s.inside q).labelled, .expr (.field (some second.qualifier) "x")⟩
    (start ⟨4⟩ .ansi).run steps = .ok q ∧ q.isBlank = false ∧ q.readsRows = true ∧
      q.WritesColumn s .selectList second.qualifier (.ident "x") occ ∧
      ∃ m n, sourceName m ≠ sourceName n ∧
        .subquery (.query (first.aliased (sourceName m))) ∈ q.allSources ∧
        .subquery (.query (second.aliased (sourceName n))) ∈ q.allSources ∧
        Yields (Holds ((Subquery.query second).lowerNamed (s.inside q) (sourceName n)))
          (q.lower s) ∧
        occ.lower = .ok [.ident (sourceName n), .mark .dot, .ident "x"] := by
  intro abc efg first second on steps q s occ
  have hrun : (start ⟨4⟩ .ansi).run steps = .ok q := rfl
  have hcolumn : q.WritesColumn s .selectList second.qualifier (.ident "x") occ :=
    .of_term (List.Mem.head _) rfl
  have hgiven : steps.filterMap (·.2.unnamed?) = [.query first, .query second] := rfl
  obtain ⟨named, hnamed, hnodup, hall⟩ :=
    numbered_sources (.start ⟨4⟩ .ansi) hrun hgiven (by decide) nofun
  obtain ⟨⟨y, m⟩, rest, rfl, rfl, hrest⟩ := List.map_eq_cons_iff.mp hnamed
  obtain ⟨⟨z, n⟩, _, rfl, rfl, -⟩ := List.map_eq_cons_iff.mp hrest
  have hne : sourceName m ≠ sourceName n := fun heq =>
    (List.nodup_cons.mp hnodup).1 (List.mem_cons.mpr (.inl heq))
  obtain ⟨hfirst, -, -⟩ := hall (.query first, m) List.mem_cons_self
  obtain ⟨hsecond, hwritten, hcolumns⟩ :=
    hall (.query second, n) (List.mem_cons_of_mem _ List.mem_cons_self)
  exact ⟨hrun, rfl, rfl, hcolumn, m, n, hne, hfirst, hsecond, hwritten rfl rfl s,
    (hcolumns hcolumn).1⟩

/-- What is not written of a source or of its columns: a source with nothing selected, the
qualifier of a column that is given a value, a column that goes by its alias, and the sources of an
insertion of rows. -/
theorem source_unwritten :
    let abc : Table := { id := ⟨0⟩, name := "abc" }
    let hij : Table := { id := ⟨1⟩, name := "hij" }
    let blank : Query := { Query.start ⟨2⟩ .ansi with sources := [.table abc] }
    let rows : Query := { blank with selects := [abc.field "x"] }
    let x := rows.field "x"
    let text (steps : List Step) : Option String :=
      ((start ⟨3⟩ .ansi).run (steps.map ((⟨3⟩, ·)))).toOption.bind fun q => (render q {}).toOption
    let source : Step := .source (.subquery (.query rows))
    text [.source (.subquery (.query blank)), .select [.term (blank.field "x")]] =
        some "SELECT \"sq0\".\"x\" FROM " ∧
      text [.update hij, source, .assign (.term x) (Term.int 1)] =
        some "UPDATE \"hij\" SET \"x\"=1 FROM (SELECT \"x\" FROM \"abc\") \"sq0\"" ∧
      text [source, .select [.term (x.aliased "y")], .groupBy [.term (x.aliased "y")]] =
        some ("SELECT \"sq0\".\"x\" \"y\" FROM (SELECT \"x\" FROM \"abc\") \"sq0\" " ++
          "GROUP BY \"y\"") ∧
      text [.into hij, source, .rows [[x]]] =
        some "INSERT INTO \"hij\" VALUES (\"sq0\".\"x\")" := by
  decide +kernel

end Query

end SqlScribe
