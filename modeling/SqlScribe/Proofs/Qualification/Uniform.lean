import SqlScribe.Proofs.Qualification.Column
import SqlScribe.Query.Step
/-! # When columns are qualified

Whether a column is written with a qualifier is settled once for each query, and its clauses keep to
it.

* `Query.NeedsQualifiers`: when a query qualifies its columns unasked.
* `Query.clauseQualifies`: which clauses do so.
* `Query.WritesColumn`, `Query.HasColumn`: the columns that a query writes itself.
* `Query.column_uniform`: a column of a table without another name is qualified when its query says
  so.
* `Query.foreign_column`: when a column of a table outside a query is qualified. -/

namespace SqlScribe

open Tokens Relation

/-- Columns in the clause are qualified as its query says; those that are given values never are,
and those in the change of a row in conflict always, for there the added row has the same
columns. -/
def QueryClause.followsQuery : QueryClause → Bool
  | .columns | .conflictTargets | .conflictColumns | .duplicateColumns | .setColumns => false
  | .conflictSet | .conflictWhere => false
  | _ => true

namespace Query

/-- The query qualifies its columns unasked: it has a join or several sources, its first source is a
query, it is an update with sources, or its condition on rows mentions a table that takes no part in
it. -/
def NeedsQualifiers (q : Query) : Prop :=
  q.joins ≠ [] ∨ 1 < q.sources.length ∨ (∃ x, q.sources.head? = some (.subquery x)) ∨
    ((∃ t, q.info.action = .update t) ∧ q.sources ≠ []) ∨
    ∃ t, .table t ∈ q.filter.qualifiers ∧ q.hasTable t = false

theorem mentionsForeignTable_iff (q : Query) :
    q.mentionsForeignTable = true ↔ ∃ t, .table t ∈ q.filter.qualifiers ∧ q.hasTable t = false := by
  rw [mentionsForeignTable, List.any_eq_true]
  constructor
  · rintro ⟨x, hx, hforeign⟩
    cases x with
    | table t => exact ⟨t, hx, by simpa using hforeign⟩
    | subquery id alias? => cases hforeign
    | raw text => cases hforeign
  · rintro ⟨t, ht, hforeign⟩
    exact ⟨.table t, ht, by simpa using hforeign⟩

theorem usesQualifiers_iff (q : Query) : q.usesQualifiers = true ↔ q.NeedsQualifiers := by
  have hhead : (q.sources.head?.any fun s => s.table?.isNone) = true ↔
      ∃ x, q.sources.head? = some (.subquery x) := by
    cases q.sources.head? with
    | none => simp
    | some x => cases x <;> simp [Source.table?]
  have hupdate : q.info.action.updateTarget?.isSome = true ↔ ∃ t, q.info.action = .update t := by
    cases q.info.action <;> simp [Action.updateTarget?]
  simp only [usesQualifiers, NeedsQualifiers, Bool.or_eq_true, Bool.and_eq_true, hhead, hupdate,
    mentionsForeignTable_iff, decide_eq_true_eq, Bool.not_eq_true', List.isEmpty_eq_false_iff,
    or_assoc]

/-- Whether a clause qualifies columns of tables that have no name of their own. -/
def clauseQualifies (s : Scope) (q : Query) : QueryClause → Bool
  | .columns | .conflictTargets | .conflictColumns | .duplicateColumns | .setColumns => false
  | .conflictSet | .conflictWhere => true
  | _ => s.alwaysQualifies || q.usesQualifiers

theorem clauseQualifies_of_followsQuery {s : Scope} {q : Query} {c : QueryClause}
    (h : c.followsQuery = true) :
    q.clauseQualifies s c = (s.alwaysQualifies || q.usesQualifiers) := by
  cases c <;> first | rfl | cases h

theorem scope_of_mem_columnParts {s : Scope} {t : Term} {b : Occurrence}
    (h : b ∈ t.columnParts s) : b.scope = (s.qualifying false).quiet := by
  obtain ⟨expr, alias?⟩ := t
  cases expr with
  | field q name => cases h
  | _ =>
    cases List.mem_singleton.mp h
    rfl

theorem scope_of_mem_occurrences {s : Scope} {ts : List Term} {b : Occurrence}
    (h : b ∈ Term.occurrences s ts) : b.scope = s := by
  obtain ⟨t, _, rfl⟩ := List.mem_map.mp h
  rfl

theorem mem_clauseParts {s : Scope} {q : Query} {c : QueryClause} {b : Occurrence}
    (h : b ∈ q.partsIn s c) : b ∈ q.clauseParts (s.inside q) c := by
  unfold partsIn at h
  split at h
  · cases h
  · split at h
    · exact h
    · cases h

/-- What stands in a clause of a query and is not a query is written in the scope of the clause, up
to the aliases that it shows. -/
theorem quiet_scope_of_mem {s : Scope} {q : Query} {c : QueryClause} {b : Occurrence}
    (h : b ∈ q.partsIn s c) (hb : b.piece.isQuery = false) :
    b.scope.quiet = ((s.inside q).qualifying (q.clauseQualifies s c)).quiet := by
  -- Entering the query has set its flag already, so most clauses leave the scope as it is.
  have hmem := mem_clauseParts h
  cases c with
  | commonTables =>
    obtain ⟨t, _, rfl⟩ := List.mem_map.mp hmem
    simp at hb
  | sources =>
    obtain ⟨x, _, hx⟩ := List.mem_flatMap.mp hmem
    cases x with
    | table t => cases hx
    | subquery x =>
      cases List.mem_singleton.mp hx
      simp at hb
  | joined =>
    obtain ⟨j, _, hx⟩ := List.mem_flatMap.mp hmem
    cases hj : j.source with
    | table t => simp [hj, Source.parts] at hx
    | subquery x =>
      simp only [hj, Source.parts, List.mem_singleton] at hx
      simp [hx] at hb
  | on =>
    obtain ⟨j, _, hx⟩ := List.mem_flatMap.mp hmem
    cases hj : j.condition with
    | all => simp [hj, JoinCondition.parts] at hx
    | sharing columns => simp [hj, JoinCondition.parts] at hx
    | on c =>
      simp only [hj, JoinCondition.parts, List.mem_singleton] at hx
      rw [hx]
      rfl
  | selectList => rw [scope_of_mem_occurrences hmem]; rfl
  | distinctOn => rw [scope_of_mem_occurrences hmem]; rfl
  | filter => cases List.mem_singleton.mp hmem; rfl
  | groupBy => obtain ⟨t, _, rfl⟩ := List.mem_map.mp hmem; rfl
  | having => cases List.mem_singleton.mp hmem; rfl
  | orderBy => obtain ⟨i, _, rfl⟩ := List.mem_map.mp hmem; rfl
  | columns =>
    obtain ⟨t, _, ht⟩ := List.mem_flatMap.mp hmem
    rw [scope_of_mem_columnParts ht]
    rfl
  | rows =>
    obtain ⟨row, _, hrow⟩ := List.mem_flatMap.mp hmem
    rw [scope_of_mem_occurrences hrow]
    rfl
  | conflictTargets =>
    obtain ⟨c, _, hc⟩ := List.mem_flatMap.mp hmem
    obtain ⟨t, _, ht⟩ := List.mem_flatMap.mp hc
    rw [scope_of_mem_columnParts ht]
    rfl
  | conflictFilter => obtain ⟨c, _, rfl⟩ := List.mem_map.mp hmem; rfl
  | conflictColumns =>
    obtain ⟨c, _, hc⟩ := List.mem_flatMap.mp hmem
    obtain ⟨a, _, ha⟩ := List.mem_flatMap.mp hc
    rw [scope_of_mem_columnParts ha]
    rfl
  | conflictSet =>
    obtain ⟨c, _, hc⟩ := List.mem_flatMap.mp hmem
    obtain ⟨a, _, rfl⟩ := List.mem_map.mp hc
    rfl
  | conflictWhere => obtain ⟨c, _, rfl⟩ := List.mem_map.mp hmem; rfl
  | duplicateColumns =>
    obtain ⟨a, _, ha⟩ := List.mem_flatMap.mp hmem
    rw [scope_of_mem_columnParts ha]
    rfl
  | duplicateSet => obtain ⟨a, _, rfl⟩ := List.mem_map.mp hmem; rfl
  | setColumns =>
    obtain ⟨a, _, ha⟩ := List.mem_flatMap.mp hmem
    rw [scope_of_mem_columnParts ha]
    rfl
  | set => obtain ⟨a, _, rfl⟩ := List.mem_map.mp hmem; rfl
  | returning => rw [scope_of_mem_occurrences hmem]; rfl

/-- The query writes a column itself, not by a query that it holds, in a clause. -/
structure WritesColumn (s : Scope) (q : Query) (c : QueryClause) (x : Qualifier) (tok : Token)
    (occ : Occurrence) : Prop where
  /-- The column stands in something in the clause. -/
  own : ∃ root ∈ q.partsIn s c, root.piece.isQuery = false ∧ Occurrence.Own root occ
  /-- It belongs to the qualifier. -/
  column : ∃ e, occ.piece = .expr e ∧ e.column? = some (x, tok)

/-- The query writes a column of a table itself, not by a query that it holds, in a clause. -/
structure HasColumn (s : Scope) (q : Query) (c : QueryClause) (t : Table) (tok : Token)
    (occ : Occurrence) : Prop where
  /-- The column stands in something in the clause. -/
  own : ∃ root ∈ q.partsIn s c, root.piece.isQuery = false ∧ Occurrence.Own root occ
  /-- It is a column of the table. -/
  column : ∃ e, occ.piece = .expr e ∧ e.column? = some (.table t, tok)

variable {s : Scope} {q : Query} {c : QueryClause} {x : Qualifier} {t : Table} {tok : Token}
  {occ : Occurrence}

theorem WritesColumn.within (h : q.WritesColumn s c x tok occ) :
    Occurrence.Within ⟨s, .query q⟩ occ := by
  obtain ⟨root, hroot, _, hown⟩ := h.own
  exact ReflTransGen.head ⟨c, hroot⟩ hown.within

/-- A column that is an item of a clause. -/
theorem WritesColumn.of_term {s' : Scope} {e : Expr} {alias? : Option String}
    (h : ⟨s', .term ⟨e, alias?⟩⟩ ∈ q.partsIn s c) (hcolumn : e.column? = some (x, tok)) :
    q.WritesColumn s c x tok ⟨s', .expr e⟩ :=
  ⟨⟨_, h, rfl, ReflTransGen.single ⟨rfl, rfl⟩⟩, _, rfl, hcolumn⟩

/-- What is written before a column is settled by its clause. -/
theorem WritesColumn.lower_eq (h : q.WritesColumn s c x tok occ) : occ.lower =
    .ok (((s.inside q).qualifying (q.clauseQualifies s c)).qualification (some x) ++ [tok]) := by
  obtain ⟨root, hroot, hterm, hown⟩ := h.own
  obtain ⟨e, hpiece, hcolumn⟩ := h.column
  obtain ⟨s', piece⟩ := occ
  -- From the item of the clause down to the column the scope stays that of the clause.
  have hscope : s'.quiet = ((s.inside q).qualifying (q.clauseQualifies s c)).quiet :=
    (hown.keeps hterm).1.trans (quiet_scope_of_mem hroot hterm)
  cases hpiece
  rw [Occurrence.lower_expr, Expr.lower_column hcolumn, ← s'.qualification_quiet, hscope,
    Scope.qualification_quiet]

/-- Before a column of a query stands the name of the query, whatever its clause says. -/
theorem WritesColumn.lower_subquery {id : SourceId} {alias? : Option String}
    (h : q.WritesColumn s c (.subquery id alias?) tok occ) : occ.lower =
      .ok ((match alias?.or ((s.inside q).alias? id) with
        | some name => [.ident name, .mark .dot]
        | none => []) ++ [tok]) := by
  rw [h.lower_eq, Scope.qualification_subquery]
  rfl

theorem HasColumn.writes (h : q.HasColumn s c t tok occ) :
    q.WritesColumn s c (.table t) tok occ := ⟨h.own, h.column⟩

theorem HasColumn.within (h : q.HasColumn s c t tok occ) : Occurrence.Within ⟨s, .query q⟩ occ :=
  h.writes.within

/-- A column that is an item of a clause. -/
theorem HasColumn.of_term {s' : Scope} {e : Expr} {alias? : Option String}
    (h : ⟨s', .term ⟨e, alias?⟩⟩ ∈ q.partsIn s c) (hcolumn : e.column? = some (.table t, tok)) :
    q.HasColumn s c t tok ⟨s', .expr e⟩ :=
  have hwrites := WritesColumn.of_term h hcolumn
  ⟨hwrites.own, hwrites.column⟩

/-- What is written before a column is settled by its query and the name of its table. -/
theorem HasColumn.lower_eq (h : q.HasColumn s c t tok occ) : occ.lower =
    .ok ((if (s.inside q).renames t || q.clauseQualifies s c then
      [.ident ((s.inside q).shownName t), .mark .dot] else []) ++ [tok]) := by
  rw [h.writes.lower_eq, Scope.qualification_table]
  rfl

/-- A column that the condition on rows writes is mentioned by it. -/
theorem HasColumn.mem_qualifiers (h : q.HasColumn s .filter t tok occ) :
    .table t ∈ q.filter.qualifiers := by
  obtain ⟨root, hroot, hterm, hown⟩ := h.own
  obtain ⟨e, hpiece, hcolumn⟩ := h.column
  have hroot' : root = ⟨(s.inside q).quiet, .condition q.filter⟩ :=
    List.mem_singleton.mp (mem_clauseParts hroot)
  have hmem := (hown.keeps hterm).2
  rw [hpiece, hroot'] at hmem
  exact hmem (Expr.mem_qualifiers_of_column hcolumn)

/-- A query with a condition on a join has a join. -/
theorem HasColumn.joins_ne_nil (h : q.HasColumn s .on t tok occ) : q.joins ≠ [] := by
  obtain ⟨root, hroot, _, _⟩ := h.own
  obtain ⟨j, hj, _⟩ := List.mem_flatMap.mp (mem_clauseParts hroot)
  exact List.ne_nil_of_mem hj

/-- A column of a table without another name is preceded by the name of its table if and only if
qualifiers were asked for or its query needs them, and is written alone otherwise. In the change of
a row in conflict it always is. -/
theorem column_uniform (h : q.HasColumn s c t tok occ) (halias : t.alias? = none)
    (hnamed : (s.inside q).alias? t.id = none) :
    (c.followsQuery = true →
      (occ.lower = .ok [.ident t.name, .mark .dot, tok] ↔
        s.alwaysQualifies = true ∨ q.NeedsQualifiers) ∧
      (occ.lower = .ok [tok] ↔ ¬ (s.alwaysQualifies = true ∨ q.NeedsQualifiers))) ∧
    (c = .conflictSet ∨ c = .conflictWhere →
      occ.lower = .ok [.ident t.name, .mark .dot, tok]) ∧
    Yields (Holds occ.lower) (q.lower s) := by
  have hlower := h.lower_eq
  have hrenames : (s.inside q).renames t = false := by simp [Scope.renames, halias, hnamed]
  have hshown : (s.inside q).shownName t = t.name := by simp [Scope.shownName, halias, hnamed]
  rw [hrenames, hshown, Bool.false_or] at hlower
  refine ⟨fun hc => ?_, fun hc => ?_, h.within.holds⟩
  · rw [← usesQualifiers_iff, ← Bool.or_eq_true, ← clauseQualifies_of_followsQuery hc, hlower]
    cases q.clauseQualifies s c <;> simp
  · rw [hlower]
    rcases hc with rfl | rfl <;> rfl

/-- The select list and the condition of a query that mentions a table outside of it. -/
theorem column_uniform_correlated :
    let a : Table := { id := ⟨0⟩, name := "a" }
    let b : Table := { id := ⟨1⟩, name := "b" }
    let q : Query :=
      { Query.start ⟨2⟩ .ansi with
        sources := [.table b], selects := [b.field "x"]
        filter := (b.field "y").equals (a.field "z") }
    let s := Scope.ofOptions .ansi {}
    let occ : Occurrence := ⟨(s.inside q).labelled, .expr (.field (some (.table b)) "x")⟩
    q.HasColumn s .selectList b (.ident "x") occ ∧
      ((s.alwaysQualifies = true ∨ q.NeedsQualifiers) ∧
        occ.lower = .ok [.ident "b", .mark .dot, .ident "x"]) := by
  intro a b q s occ
  have hcolumn : q.HasColumn s .selectList b (.ident "x") occ :=
    .of_term (List.Mem.head _) rfl
  have hneeds : s.alwaysQualifies = true ∨ q.NeedsQualifiers :=
    .inr (.inr (.inr (.inr (.inr ⟨a, .tail _ (.head _), rfl⟩))))
  exact ⟨hcolumn, hneeds, ((column_uniform hcolumn rfl rfl).1 rfl).1.mpr hneeds⟩

/-- The change of a row in conflict qualifies columns although its query does not. -/
theorem conflictSet_qualified :
    let hits : Table := { id := ⟨0⟩, name := "hits" }
    let q : Query :=
      { Query.start ⟨1⟩ .postgres with
        info.action := .insert hits false
        columns := [Term.field "id"], rows := [[Term.int 1]]
        conflict := some
          { targets := [Term.field "id"], targetFilter := .empty, handler := some .update
            assignments := [⟨Term.field "n", hits.field "n"⟩], updateFilter := .empty } }
    let s := Scope.ofOptions .postgres {}
    let occ : Occurrence :=
      ⟨((s.inside q).qualifying true).quiet, .expr (.field (some (.table hits)) "n")⟩
    q.HasColumn s .conflictSet hits (.ident "n") occ ∧
      hits.alias? = none ∧ (s.inside q).alias? hits.id = none ∧
      ¬ (s.alwaysQualifies = true ∨ q.NeedsQualifiers) ∧
      occ.lower = .ok [.ident "hits", .mark .dot, .ident "n"] := by
  intro hits q s occ
  refine ⟨.of_term (List.Mem.head _) rfl, rfl, rfl, ?_, rfl⟩
  rw [← usesQualifiers_iff]
  decide

theorem hasTable_of_same {u : Table} (hsame : (u == t) = true)
    (hu : .table u ∈ q.sources ∨ ∃ j ∈ q.joins, j.source = .table u) : q.hasTable t = true := by
  rw [hasTable, isBaseTable]
  rcases hu with hu | ⟨j, hj, hsource⟩
  · have hany : q.sources.any (fun s => s.table?.any (· == t)) = true :=
      List.any_eq_true.mpr ⟨_, hu, by simpa [Source.table?] using hsame⟩
    rw [hany, Bool.true_or, Bool.true_or, Bool.true_or]
  · have hany : q.joins.any (fun j => j.source.table?.any (· == t)) = true :=
      List.any_eq_true.mpr ⟨j, hj, by simpa [hsource, Source.table?] using hsame⟩
    rw [hany, Bool.or_true]

/-- A column of a table that takes no part in its query is qualified in the condition on rows and in
those of joins, in every clause of a query that needs qualifiers, and when qualifiers were asked for
or the table goes by another name; it is written alone otherwise. Its own name is not that of a
table of the query under the same schemas. -/
theorem foreign_column {s₀ : Scope} {e : Query}
    (hin : Occurrence.Within ⟨s₀, .query e⟩ ⟨s, .query q⟩) (h : q.HasColumn s c t tok occ)
    (hc : c.followsQuery = true) (hforeign : q.hasTable t = false) :
    (c = .on ∨ c = .filter ∨ (s.inside q).renames t = true ∨ s.alwaysQualifies = true ∨
        q.NeedsQualifiers →
      occ.lower = .ok [.ident ((s.inside q).shownName t), .mark .dot, tok]) ∧
    (¬ (c = .on ∨ c = .filter ∨ (s.inside q).renames t = true ∨ s.alwaysQualifies = true ∨
        q.NeedsQualifiers) → occ.lower = .ok [tok]) ∧
    (∀ u, (.table u ∈ q.sources ∨ ∃ j ∈ q.joins, j.source = .table u) →
      u.schema = t.schema → u.name ≠ t.name) ∧
    Yields (Holds occ.lower) (e.lower s₀) := by
  -- A column in a condition on rows or of a join is itself what makes the query need qualifiers.
  have hneeds : c = .on ∨ c = .filter → q.NeedsQualifiers := by
    rintro (rfl | rfl)
    · exact .inl h.joins_ne_nil
    · exact .inr (.inr (.inr (.inr ⟨t, h.mem_qualifiers, hforeign⟩)))
  have hflag : q.clauseQualifies s c = true ↔ s.alwaysQualifies = true ∨ q.NeedsQualifiers := by
    rw [clauseQualifies_of_followsQuery hc, Bool.or_eq_true, usesQualifiers_iff]
  refine ⟨fun hany => ?_, fun hnone => ?_, fun u hu hschema hname => ?_,
    Occurrence.Within.holds (ReflTransGen.trans hin h.within)⟩
  · have hwritten : ((s.inside q).renames t || q.clauseQualifies s c) = true := by
      rw [Bool.or_eq_true, hflag]
      rcases hany with hon | hfilter | hany
      · exact .inr (.inr (hneeds (.inl hon)))
      · exact .inr (.inr (hneeds (.inr hfilter)))
      · exact hany
    rw [h.lower_eq, if_pos hwritten]
    rfl
  · have hbare : ((s.inside q).renames t || q.clauseQualifies s c) ≠ true := by
      rw [ne_eq, Bool.or_eq_true, hflag]
      exact fun hwritten => hnone (.inr (.inr hwritten))
    rw [h.lower_eq, if_neg hbare]
    rfl
  · have hhas : q.hasTable t = true :=
      hasTable_of_same ((Table.beq_iff u t).mpr ⟨hschema, hname⟩) hu
    exact Bool.false_ne_true (hforeign.symm.trans hhas)

/-- A table of the query around is mentioned in the select list and in the condition on rows. -/
theorem foreign_column_where :
    let a : Table := { id := ⟨0⟩, name := "a" }
    let b : Table := { id := ⟨1⟩, name := "b" }
    let q : Query :=
      { Query.start ⟨2⟩ .ansi with
        sources := [.table b], selects := [a.field "x"]
        filter := (b.field "y").equals (a.field "z") }
    let e : Query :=
      { Query.start ⟨3⟩ .ansi with
        sources := [.table a], selects := [a.field "x"], filter := .hasRows false (.query q) }
    let s := Scope.ofOptions .ansi {}
    let s' := (s.inside e).quiet.embedded
    let occ : Occurrence := ⟨(s'.inside q).labelled, .expr (.field (some (.table a)) "x")⟩
    q.HasColumn s' .selectList a (.ident "x") occ ∧ q.hasTable a = false ∧
      occ.lower = .ok [.ident "a", .mark .dot, .ident "x"] := by
  intro a b q e s s' occ
  have hin : Occurrence.Within ⟨s, .query e⟩ ⟨s', .query q⟩ :=
    have hfilter : Occurrence.Part ⟨s, .query e⟩ ⟨(s.inside e).quiet, .condition e.filter⟩ :=
      ⟨.filter, List.mem_singleton.mpr rfl⟩
    ReflTransGen.tail (ReflTransGen.single hfilter) (List.mem_singleton.mpr rfl)
  have hcolumn : q.HasColumn s' .selectList a (.ident "x") occ :=
    .of_term (List.Mem.head _) rfl
  have hneeds : q.NeedsQualifiers :=
    .inr (.inr (.inr (.inr ⟨a, .tail _ (.head _), rfl⟩)))
  exact ⟨hcolumn, rfl, (foreign_column hin hcolumn rfl rfl).1 (.inr (.inr (.inr (.inr hneeds))))⟩

/-- A column of a table of the query around that only the select list mentions is written alone. -/
theorem foreign_column_bare :
    let a : Table := { id := ⟨0⟩, name := "a" }
    let b : Table := { id := ⟨1⟩, name := "b" }
    let q : Query :=
      { Query.start ⟨2⟩ .ansi with sources := [.table b], selects := [a.field "x"] }
    let e : Query :=
      { Query.start ⟨3⟩ .ansi with
        sources := [.table a], selects := [a.field "id"]
        filter := .isInRows false (a.field "id") (.query q) }
    let s := Scope.ofOptions .ansi {}
    let s' := (s.inside e).quiet.embedded
    let occ : Occurrence := ⟨(s'.inside q).labelled, .expr (.field (some (.table a)) "x")⟩
    Occurrence.Within ⟨s, .query e⟩ ⟨s', .query q⟩ ∧ .table a ∈ e.sources ∧
      q.hasTable a = false ∧ q.HasColumn s' .selectList a (.ident "x") occ ∧
      occ.lower = .ok [.ident "x"] ∧
      q.lower s' = .ok [.mark .openParen, .word .SELECT, .space, .ident "x", .space, .word .FROM,
        .space, .ident "b", .mark .closeParen] := by
  intro a b q e s s' occ
  have hfilter : Occurrence.Part ⟨s, .query e⟩ ⟨(s.inside e).quiet, .condition e.filter⟩ :=
    ⟨.filter, List.mem_singleton.mpr rfl⟩
  have hrows : Occurrence.Part ⟨(s.inside e).quiet, .condition e.filter⟩ ⟨s', .query q⟩ :=
    List.mem_cons_of_mem _ (List.mem_singleton.mpr rfl)
  exact ⟨ReflTransGen.tail (ReflTransGen.single hfilter) hrows, List.mem_singleton.mpr rfl, rfl,
    .of_term (List.Mem.head _) rfl, rfl, rfl⟩

end Query

end SqlScribe
