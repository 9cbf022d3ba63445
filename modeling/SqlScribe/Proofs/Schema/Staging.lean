import Mathlib.Data.List.Forall2
import SqlScribe.Proofs.Occurrence.Clause
import SqlScribe.Proofs.Query.Run
import SqlScribe.Schema.Create
/-! # Staged parts of a new table

Columns and constraints are staged for a new table by calls in any order, and so is a query for its
rows.

* `CreateTable.Part`, `CreateTable.Step`: what is staged, and the calls that stage it.
* `CreateTable.Follows`, `CreateTable.run_follows`: a step keeps what was staged and adds its own
  behind it, and so does a run of steps. Columns never stand beside a query.
* `CreateTable.bodyTokens_parts`: the parts of a table are written one by one, kind by kind.
* `CreateTable.staged_written`: what is written after a run of steps.
* `CreateTable.constraints_dropped`: constraints that are staged beside a query are not written. -/

namespace SqlScribe

open Tokens

namespace CreateTable

/-! ## Parts -/

/-- The kinds of parts of a new table, in the order in which they are written. -/
inductive PartKind where
  /-- Columns. -/
  | column
  /-- Groups of columns whose values are unique. -/
  | unique
  /-- Primary keys. -/
  | primaryKey
  /-- Foreign keys. -/
  | foreignKey
deriving DecidableEq

/-- A part of a new table. -/
inductive Part where
  /-- A column. -/
  | column (c : Column)
  /-- A group of columns whose values are unique. -/
  | unique (columns : List String)
  /-- A primary key. -/
  | primaryKey (columns : List String)
  /-- A foreign key. -/
  | foreignKey (key : ForeignKey)

namespace Part

/-- The kind of a part. -/
def kind : Part → PartKind
  | .column _ => .column
  | .unique _ => .unique
  | .primaryKey _ => .primaryKey
  | .foreignKey _ => .foreignKey

/-- The tokens of a part. -/
def lower (s : Scope) : Part → Lowered
  | .column c => columnTokens s c
  | .unique columns => .ok (uniqueTokens columns)
  | .primaryKey columns => .ok (primaryKeyTokens columns)
  | .foreignKey key => .ok (foreignKeyTokens s key)

end Part

/-- The parts of one kind in some parts. -/
def ofKind (kind : PartKind) (parts : List Part) : List Part := parts.filter (·.kind = kind)

/-- The parts of a table that are of one kind. -/
def partsOf (c : CreateTable) : PartKind → List Part
  | .column => c.columns.map .column
  | .unique => c.unique.map .unique
  | .primaryKey => c.primaryKey.toList.map .primaryKey
  | .foreignKey => c.foreignKey.toList.map .foreignKey

/-- The parts of a table, kind by kind. -/
def parts (c : CreateTable) : List Part :=
  c.partsOf .column ++ c.partsOf .unique ++ c.partsOf .primaryKey ++ c.partsOf .foreignKey

/-! ## Steps -/

/-- A call that stages something for a new table. -/
inductive Step where
  /-- Adds columns. -/
  | columns (columns : List Column)
  /-- Adds a group of columns whose values are unique. -/
  | unique (columns : List String)
  /-- Sets the primary key. -/
  | primaryKey (columns : List String)
  /-- Sets the foreign key. -/
  | foreignKey (key : ForeignKey)
  /-- Sets the query that gives the rows. -/
  | query (y : Subquery)
  /-- Lets the table last as long as the session. -/
  | temporary
  /-- Leaves the table out of the log. -/
  | unlogged
  /-- Leaves a table alone that exists. -/
  | ifNotExists
  /-- Sets the dialect. -/
  | forDialect (d : Dialect)

namespace Step

/-- The parts that a step stages. -/
def parts : Step → List Part
  | .columns cs => cs.map .column
  | .unique names => [.unique names]
  | .primaryKey names => [.primaryKey names]
  | .foreignKey key => [.foreignKey key]
  | .query _ | .temporary | .unlogged | .ifNotExists | .forDialect _ => []

/-- The query that a step stages. -/
def query? : Step → Option Subquery
  | .query y => some y
  | .columns _ | .unique _ | .primaryKey _ | .foreignKey _ | .temporary | .unlogged | .ifNotExists
  | .forDialect _ => none

end Step

/-- The table after a step. -/
def change (c : CreateTable) : Step → Except QueryError CreateTable
  | .columns cs => c.addColumns cs
  | .unique names => .ok (c.addUnique names)
  | .primaryKey names => c.setPrimaryKey names
  | .foreignKey key => c.setForeignKey key
  | .query y => c.setQuery y
  | .temporary => .ok { c with temporary := true }
  | .unlogged => .ok { c with unlogged := true }
  | .ifNotExists => .ok { c with ifNotExists := true }
  | .forDialect d => .ok { c with dialect := some d }

/-- The table after some steps. -/
def run (c : CreateTable) (steps : List Step) : Except QueryError CreateTable :=
  steps.foldlM change c

/-- The parts that some steps stage. -/
def staged (steps : List Step) : List Part := steps.flatMap Step.parts

/-- The query that some steps stage, the last one if there are several. -/
def lastQuery? (steps : List Step) : Option Subquery := steps.reverse.findSome? Step.query?

variable {c c' c'' : CreateTable} {kind : PartKind} {ps qs : List Part} {y? z? : Option Subquery}

theorem ofKind_append : ofKind kind (ps ++ qs) = ofKind kind ps ++ ofKind kind qs :=
  List.filter_append _ _

/-- Of parts that are all of one kind, either all are of a kind or none is. -/
theorem ofKind_eq {k : PartKind} (h : ∀ p ∈ ps, p.kind = k) :
    ofKind kind ps = if k = kind then ps else [] := by
  split
  · next hkind => exact List.filter_eq_self.mpr fun p hp => by simp [h p hp, hkind]
  · next hkind => exact List.filter_eq_nil_iff.mpr fun p hp => by simp [h p hp, hkind]

theorem kind_of_mem_partsOf {p : Part} (hp : p ∈ c.partsOf kind) : p.kind = kind := by
  cases kind <;>
  · obtain ⟨a, -, rfl⟩ := List.mem_map.mp hp
    rfl

/-- The parts of a table that are of a kind are those that it has of the kind. -/
theorem ofKind_parts (c : CreateTable) (kind : PartKind) :
    ofKind kind c.parts = c.partsOf kind := by
  have hof (k : PartKind) : ofKind kind (c.partsOf k) = if k = kind then c.partsOf k else [] :=
    ofKind_eq fun _ hp => kind_of_mem_partsOf hp
  simp only [parts, ofKind_append, hof]
  cases kind <;> simp

/-- A table has grown by some parts, which stand behind those of their kind, and its query is the
given one if there is one. Columns did not come to stand beside a query. -/
structure Follows (c : CreateTable) (ps : List Part) (y? : Option Subquery)
    (c' : CreateTable) : Prop where
  table : c'.table = c.table
  parts : ∀ kind, c'.partsOf kind = c.partsOf kind ++ ofKind kind ps
  query : c'.query = y?.or c.query
  exclusive : c.columns = [] ∨ c.query = none → c'.columns = [] ∨ c'.query = none

theorem Follows.refl (c : CreateTable) : c.Follows [] none c :=
  ⟨rfl, fun _ => (List.append_nil _).symm, rfl, id⟩

theorem Follows.trans (h : c.Follows ps y? c') (h' : c'.Follows qs z? c'') :
    c.Follows (ps ++ qs) (z?.or y?) c'' where
  table := h'.table.trans h.table
  parts kind := by rw [h'.parts, h.parts, ofKind_append, List.append_assoc]
  query := by rw [h'.query, h.query, Option.or_assoc]
  exclusive hc := h'.exclusive (h.exclusive hc)

theorem change_follows (c : CreateTable) (step : Step) :
    Yields (c.Follows step.parts step.query?) (c.change step) := by
  cases step with
  | columns cs =>
    show Yields _ (c.addColumns cs)
    unfold addColumns
    split
    · exact .error _
    · next hquery =>
      refine .ok ⟨rfl, fun kind => ?_, rfl, fun _ => .inr hquery⟩
      have hcolumns : ∀ p ∈ (Step.columns cs).parts, p.kind = .column := by
        intro p hp
        obtain ⟨column, -, rfl⟩ := List.mem_map.mp hp
        rfl
      rw [ofKind_eq hcolumns]
      cases kind <;> simp [partsOf, Step.parts]
  | unique names =>
    refine .ok ⟨rfl, fun kind => ?_, rfl, id⟩
    cases kind <;> simp [addUnique, partsOf, Step.parts, ofKind, Part.kind]
  | primaryKey names =>
    show Yields _ (c.setPrimaryKey names)
    unfold setPrimaryKey
    split
    · exact .error _
    · next hnone =>
      refine .ok ⟨rfl, fun kind => ?_, rfl, id⟩
      cases kind <;> simp [partsOf, Step.parts, ofKind, Part.kind, hnone]
  | foreignKey key =>
    show Yields _ (c.setForeignKey key)
    unfold setForeignKey
    split
    · exact .error _
    · next hnone =>
      refine .ok ⟨rfl, fun kind => ?_, rfl, id⟩
      cases kind <;> simp [partsOf, Step.parts, ofKind, Part.kind, hnone]
  | query y =>
    show Yields _ (c.setQuery y)
    unfold setQuery
    split
    · next hcolumns =>
      exact .ok ⟨rfl, fun _ => (List.append_nil _).symm, rfl,
        fun _ => .inl (List.isEmpty_iff.mp hcolumns)⟩
    · exact .error _
  | temporary | unlogged | ifNotExists | forDialect _ =>
    exact .ok ⟨rfl, fun kind => by cases kind <;> exact (List.append_nil _).symm, rfl, id⟩

/-- **Nothing that was staged is lost.** After a run of steps a table has the parts that it had and
behind them, kind by kind, those that the steps staged, in their order, and the query is the one
that was staged last. -/
theorem run_follows {steps : List Step} :
    Yields (c.Follows (staged steps) (lastQuery? steps)) (c.run steps) := by
  induction steps generalizing c with
  | nil => exact .pure (.refl c)
  | cons step steps ih =>
    rw [run, List.foldlM_cons]
    refine (c.change_follows step).bind fun next hnext => ih.mono fun c' hrest => ?_
    have hquery : (lastQuery? steps).or step.query? = lastQuery? (step :: steps) := by
      rw [lastQuery?, lastQuery?, List.reverse_cons, List.findSome?_append, List.findSome?_singleton]
    exact hquery ▸ hnext.trans hrest

/-! ## Tokens -/

/-- The columns of a new table are written one by one. -/
theorem mapM_columnTokens (s : Scope) (columns : List Column) :
    Yields (List.Forall₂ (fun c us => columnTokens s c = .ok us) columns)
      (columns.mapM (columnTokens s)) := by
  induction columns with
  | nil => exact .pure .nil
  | cons c columns ih =>
    rw [List.mapM_cons]
    exact (Yields.self _).bind fun us hus => ih.bind fun l hl => .pure (.cons hus hl)

/-- The parts of a table are written one by one, kind by kind. -/
theorem bodyTokens_parts (s : Scope) (c : CreateTable) :
    Yields (fun ts => ∃ l, List.Forall₂ (fun p us => Part.lower s p = .ok us) c.parts l ∧
      ts = parens (listed l)) (bodyTokens s c) := by
  refine (mapM_columnTokens s c.columns).bind fun l hl => .pure ⟨_, ?_, rfl⟩
  have hmap {α : Type} {f : α → Part} {g : α → Tokens} (hfg : ∀ a, (f a).lower s = .ok (g a))
      (as : List α) :
      List.Forall₂ (fun p us => Part.lower s p = .ok us) (as.map f) (as.map g) :=
    List.forall₂_map_left_iff.mpr (List.forall₂_map_right_iff.mpr
      (List.forall₂_same.mpr fun a _ => hfg a))
  have htoList {α β : Type} (o : Option α) (g : α → β) : (o.map g).toList = o.toList.map g := by
    cases o <;> rfl
  rw [htoList, htoList]
  refine List.rel_append (List.rel_append (List.rel_append ?_ ?_) ?_) ?_
  · exact List.forall₂_map_left_iff.mpr hl
  · exact hmap (fun _ => rfl) c.unique
  · exact hmap (fun _ => rfl) c.primaryKey.toList
  · exact hmap (fun _ => rfl) c.foreignKey.toList

/-- The tokens of a statement that creates a table from some parts. They are written one by one, and
those of one kind in the order in which they are given. -/
def Lists (s : Scope) (c : CreateTable) (ps : List Part) (ts : Tokens) : Prop :=
  ∃ parts l, (∀ kind, ofKind kind parts = ofKind kind ps) ∧
    List.Forall₂ (fun p us => Part.lower s p = .ok us) parts l ∧
    ts = c.headTokens ++ c.table.tokens s ++ .space :: parens (listed l)

/-- The tokens of a statement that creates a table from the rows of a query. -/
def Fills (s : Scope) (c : CreateTable) (y : Subquery) (ts : Tokens) : Prop :=
  ∃ us, y.lower s.embedded = .ok us ∧
    ts = c.headTokens ++ c.table.tokens s ++ spaced (.word .AS) ++ us

theorem lower_lists (s : Scope) (hquery : c.query = none) :
    Yields (fun ts => ts ≠ [] → Lists s c c.parts ts) (c.lower s) := by
  rw [lower, hquery]
  refine iteInduction (fun _ => .ok fun h => absurd rfl h) fun _ => ?_
  refine (bodyTokens_parts s c).bind fun us hus => .pure fun _ => ?_
  obtain ⟨l, hl, rfl⟩ := hus
  exact ⟨c.parts, l, fun _ => rfl, hl, rfl⟩

theorem lower_fills (s : Scope) {y : Subquery} (hquery : c.query = some y) :
    Yields (Fills s c y) (c.lower s) := by
  rw [lower, hquery]
  exact (Yields.self _).bind fun us hus => .pure ⟨us, hus, rfl⟩

/-- **What is staged is written, except for constraints beside a query.** Calls that stage both a
column and a query fail. Let calls not fail. Then the table never has both, and if its statement
can be written and is not empty, without a query all staged columns and constraints stand in it, in
the order of their calls within each kind; with a query no column was staged, and the statement is
that of the query, whatever constraints there are. -/
theorem staged_written (t : Table) (steps : List Step) :
    (∀ column, .column column ∈ staged steps → (lastQuery? steps).isSome →
      ∃ e, run { table := t } steps = .error e) ∧
    ∀ c, run { table := t } steps = .ok c → (c.columns = [] ∨ c.query = none) ∧
      ∀ s ts, c.lower s = .ok ts → ts ≠ [] →
        (lastQuery? steps = none → Lists s c (staged steps) ts) ∧
        ∀ y, lastQuery? steps = some y → ofKind .column (staged steps) = [] ∧ Fills s c y ts := by
  have hstaged (c : CreateTable) (hrun : run { table := t } steps = .ok c) :
      (∀ kind, c.partsOf kind = ofKind kind (staged steps)) ∧ c.query = lastQuery? steps ∧
        (c.columns = [] ∨ c.query = none) := by
    have hfollows := run_follows c hrun
    refine ⟨fun kind => ?_, ?_, hfollows.exclusive (.inl rfl)⟩
    · rw [hfollows.parts]
      cases kind <;> rfl
    · rw [hfollows.query, Option.or_none]
  constructor
  · intro column hcolumn hquery
    cases hrun : run { table := t } steps with
    | error e => exact ⟨e, rfl⟩
    | ok c =>
      obtain ⟨hparts, hlast, hexclusive⟩ := hstaged c hrun
      have hmem : Part.column column ∈ c.partsOf .column := by
        rw [hparts]
        exact List.mem_filter.mpr ⟨hcolumn, rfl⟩
      rcases hexclusive with hnone | hnone
      · rw [partsOf, hnone] at hmem
        cases hmem
      · rw [← hlast, hnone] at hquery
        cases hquery
  · intro c hrun
    obtain ⟨hparts, hlast, hexclusive⟩ := hstaged c hrun
    refine ⟨hexclusive, fun s ts hts hne => ⟨fun hquery => ?_, fun y hquery => ⟨?_, ?_⟩⟩⟩
    · obtain ⟨parts, l, hkinds, hl, htokens⟩ := lower_lists s (hlast.trans hquery) ts hts hne
      exact ⟨parts, l, fun kind => by rw [hkinds, ofKind_parts, hparts], hl, htokens⟩
    · have hcolumns : c.columns = [] := hexclusive.resolve_right (by rw [hlast, hquery]; exact nofun)
      rw [← hparts, partsOf, hcolumns]
      rfl
    · exact lower_fills s (hlast.trans hquery) ts hts

/-- Columns and constraints of all kinds, staged in an order of their own. -/
theorem staged_written_kinds :
    let t : Table := { id := ⟨1⟩, name := "t" }
    let key : ForeignKey := ⟨["b"], { id := ⟨2⟩, name := "u" }, ["id"], some .cascade, none⟩
    let a : Column := { name := "a", type := some .int32 }
    let b : Column := { name := "b" }
    let steps : List Step :=
      [.unique ["b", "a"], .columns [a], .foreignKey key, .temporary, .primaryKey ["a"],
        .columns [b], .unique ["b"]]
    let c : CreateTable :=
      { table := t, temporary := true, columns := [a, b], unique := [["b", "a"], ["b"]]
        primaryKey := some ["a"], foreignKey := some key }
    let sql := "CREATE TEMPORARY TABLE \"t\" (\"a\" INTEGER,\"b\",UNIQUE (\"b\",\"a\")," ++
      "UNIQUE (\"b\"),PRIMARY KEY (\"a\")," ++
      "FOREIGN KEY (\"b\") REFERENCES \"u\" (\"id\") ON DELETE CASCADE)"
    run { table := t } steps = .ok c ∧ (render c {}).toOption = some sql ∧
      ∃ ts, renderTokens c {} = .ok ts ∧ ts ≠ [] ∧
        Lists (.ofOptions .ansi {}) c (staged steps) ts := by
  intro t key a b steps c sql
  have htext : (render c {}).toOption = some sql := by decide +kernel +revert
  have hrun : run { table := t } steps = .ok c := rfl
  obtain ⟨ts, hts⟩ : ∃ ts, c.lower (.ofOptions .ansi {}) = .ok (.word .CREATE :: ts) := ⟨_, rfl⟩
  have hwritten := ((staged_written t steps).2 c hrun).2 _ _ hts (List.cons_ne_nil _ _)
  exact ⟨hrun, htext, _, hts, List.cons_ne_nil _ _, hwritten.1 rfl⟩

/-- **Constraints beside a query are dropped.** A uniqueness constraint and a primary key are staged
before a query, and none of them is written. -/
theorem constraints_dropped :
    let t : Table := { id := ⟨1⟩, name := "t" }
    let u : Table := { id := ⟨2⟩, name := "u" }
    let rows : Query :=
      { Query.start ⟨3⟩ .ansi with sources := [.table u], selects := [Term.field "a"] }
    let steps : List Step := [.unique ["a"], .primaryKey ["a"], .query (.query rows)]
    let c : CreateTable :=
      { table := t, unique := [["a"]], primaryKey := some ["a"], query := some (.query rows) }
    staged steps = [.unique ["a"], .primaryKey ["a"]] ∧ run { table := t } steps = .ok c ∧
      (render c {}).toOption = some "CREATE TABLE \"t\" AS (SELECT \"a\" FROM \"u\")" ∧
      ∃ ts, renderTokens c {} = .ok ts ∧ ¬ uniqueTokens ["a"] <:+: ts ∧
        ¬ primaryKeyTokens ["a"] <:+: ts := by
  intro t u rows steps c
  have htext : (render c {}).toOption =
      some "CREATE TABLE \"t\" AS (SELECT \"a\" FROM \"u\")" := by decide +kernel +revert
  let ts : Tokens := [.word .CREATE, .space, .word .TABLE, .space, .ident "t", .space, .word .AS,
    .space, .mark .openParen, .word .SELECT, .space, .ident "a", .space, .word .FROM, .space,
    .ident "u", .mark .closeParen]
  refine ⟨rfl, rfl, htext, ts, rfl, fun h => ?_, fun h => ?_⟩
  · have hmem : Token.word .UNIQUE ∈ ts := h.subset List.mem_cons_self
    simp [ts] at hmem
  · have hmem : Token.word .PRIMARY ∈ ts := h.subset List.mem_cons_self
    simp [ts] at hmem

end CreateTable

end SqlScribe
