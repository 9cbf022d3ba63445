import SqlScribe.Proofs.Masking.Rendering
import SqlScribe.Proofs.Occurrence.Place
import SqlScribe.Proofs.Query.Run
import SqlScribe.Proofs.Reading.Atom
/-! # Tokens in places of queries

In each place of a query stands its statement, unless the query is blank: then the place is left
empty.

* `QueryPlace.lower_subquery`: a query is written in a place as it is alone.
* `QueryPlace.Written`: a query is written in a place, with what the place needs around it.
* `Occurrence.Asks.writes`, `Item.Asks.writes`: so is each query in a place of a piece of syntax,
  and of an item at any depth.
* `Item.asks_of_within`: no query stands elsewhere.
* `Item.queries_stated`: what stands in each place.
* `Item.query_left_out`: a place of a blank query. -/

namespace SqlScribe

open Relation Tokens

/-- A query that is not blank is written in a place as it is alone, with what the place puts around
it. -/
theorem QueryPlace.lower_subquery (p : QueryPlace) (s : Scope) {y : Subquery}
    (hblank : y.isBlank = false) :
    y.lower (p.scope s) = (y.lower s.standalone).map (p.fill s y) := by
  cases y with
  | query q =>
    rw [Subquery.lower, Subquery.lower]
    exact p.lower_query s hblank
  | compound c =>
    rw [Subquery.lower, Subquery.lower]
    exact p.lower_compound s c

/-! ## What is around a place -/

/-- The statement of a query that is not blank is in its tokens, with the parts of its clauses. -/
theorem Query.lower_writes (s : Scope) {q : Query} (hblank : q.isBlank = false) :
    Yields (fun ts => ∃ us, (q.parts (s.inside q)).Written q us ∧ us <:+: ts) (q.lower s) := by
  rw [lower_eq, if_neg (by rw [hblank]; exact Bool.false_ne_true)]
  exact (Statement.whole_writes (s.inside q) q (q.parts (s.inside q))).bind fun us hus =>
    .pure ⟨us, hus, Statement.infix_placed s q.info.id q.info.alias? us⟩

/-- A query has tokens, and they stand within others in one piece, with those around its place. -/
def QueryPlace.Written (p : QueryPlace) (s : Scope) (y : Subquery) (ts : Tokens) : Prop :=
  ∃ us, y.lower (p.scope s) = .ok us ∧ p.dress us <:+: ts

namespace QueryPlace

variable {p : QueryPlace} {s : Scope} {y : Subquery} {ts us : Tokens}

theorem Written.mono (h : p.Written s y ts) (hts : ts <:+: us) : p.Written s y us := by
  obtain ⟨vs, hlower, hvs⟩ := h
  exact ⟨vs, hlower, hvs.trans hts⟩

/-- A place with nothing around it holds the tokens of its query. -/
theorem Written.of_holds (hdress : ∀ us, p.dress us = us)
    (h : Holds (y.lower (p.scope s)) ts) : p.Written s y ts := by
  obtain ⟨us, hlower, hus⟩ := h
  exact ⟨us, hlower, by rwa [hdress]⟩

end QueryPlace

theorem Join.writes_lower {s : Scope} {j : Join} {y : Subquery} (h : j.source = .subquery y) :
    Yields (QueryPlace.joined.Written s y) (j.lower s) := by
  obtain ⟨kind, source, condition⟩ := j
  cases h
  rw [lower, Source.lower]
  refine (Yields.self _).bind fun us hus => (Yields.self _).bind fun c _ => .pure ⟨us, hus, ?_⟩
  exact List.infix_append_of_infix_left List.infix_append_right

theorem CommonTable.writes_lower (s : Scope) (t : CommonTable) :
    Yields (QueryPlace.commonTable.Written s t.body) (t.lower s) := by
  obtain ⟨name, columns, recursive, body⟩ := t
  rw [lower]
  refine (Yields.self _).bind fun us hus => .pure ⟨us, hus, ?_⟩
  rw [List.append_assoc]
  exact List.infix_cons (List.infix_append_of_infix_right (List.infix_cons List.infix_rfl))

theorem Statement.operand_writes {s : Scope} {op : SetOperator} {first other : Nat} {q : Query} :
    Yields (QueryPlace.Written (.operand (some op)) s (.query q))
      (operand op first other (q.lower s.operands)) := by
  refine iteInduction (fun _ => .error _) fun _ => ?_
  exact (Yields.self _).bind fun us hus => .pure ⟨us, hus, List.infix_cons List.infix_rfl⟩

namespace Occurrence

variable {a : Occurrence} {p : QueryPlace} {s : Scope} {y : Subquery}

/-- A query in a place of an occurrence stands there with what is around the place. -/
theorem Asks.writes (h : a.Asks p s y) : Yields (p.Written s y) a.lower := by
  have hpart : Yields (Holds (y.lower (p.scope s))) a.lower := by
    rw [← lower_piece]
    exact h.part.holds
  cases h with
  | scalar | source | base => exact hpart.mono fun ts hts => .of_holds (fun _ => rfl) hts
  | membership negated t =>
    rw [lower_condition, Condition.lower]
    refine (Yields.self _).bind fun l _ => (Yields.self _).bind fun us hus => .pure ⟨us, hus, ?_⟩
    rw [Clause.infixed, List.append_assoc]
    exact List.infix_append_of_infix_right (List.infix_cons List.infix_append_right)
  | existence negated =>
    rw [lower_condition, Condition.lower]
    exact (Yields.self _).bind fun us hus => .pure ⟨us, hus, List.infix_append_right⟩
  | joined hblank hreads hj hsource =>
    refine (Query.lower_writes _ hblank).mono fun ts hts => ?_
    obtain ⟨us, hus, hsub⟩ := hts
    obtain ⟨vs, hvs, hin⟩ := (Join.holds_lowerAll (hus.reading hreads).joins _ hj).yields
      (Join.writes_lower hsource)
    exact hvs.mono (hin.trans hsub)
  | @commonTable s q t hblank ht =>
    refine (Query.lower_writes _ hblank).mono fun ts hts => ?_
    obtain ⟨us, hus, hsub⟩ := hts
    obtain ⟨vs, hvs, hin⟩ := (CommonTable.holds_lowerAll hus.commonTables t ht).yields
      (CommonTable.writes_lower _ t)
    exact hvs.mono (hin.trans hsub)
  | @operand s c o ho =>
    obtain ⟨id, base, operands, orderBy, limit, offset, alias?⟩ := c
    rw [lower_compound, Compound.lower]
    refine (Statement.compound_holds s.dialect _ _ _ _ limit offset).bind fun ts hts => .pure ?_
    obtain ⟨us, hus, hsub⟩ := (Operand.holds_lowerAll hts.2.1 o ho).yields
      Statement.operand_writes
    exact hus.mono (hsub.trans (Statement.infix_placed s id alias? ts))

end Occurrence

/-! ## Items -/

namespace Item

/-- What stands in an item. -/
def occurrences (s : Scope) : Item → List Occurrence
  | .table _ => []
  | .term t => [⟨s, .term t⟩]
  | .condition c => [⟨s, .condition c⟩]
  | .call c => [⟨s, .call c⟩]
  | .case c => [⟨s, .expr c.toExpr⟩]
  | .interval _ => []
  | .query q => [⟨s, .query q⟩]
  | .compound c => [⟨s, .compound c⟩]
  | .subquery y => [⟨s, y.piece⟩]
  | .create c =>
    match c.query with
    | some y => [⟨s.embedded, y.piece⟩]
    | none => c.columns.flatMap fun column => column.default.toList.map (⟨s.quiet, .term ·⟩)
  | .drop _ => []

/-- There is a place for a query in an item at some depth, in a scope, and the query in it. -/
inductive Asks (s : Scope) : Item → QueryPlace → Scope → Subquery → Prop where
  | newTable {c : CreateTable} {y : Subquery} (h : c.query = some y) :
    Asks s (.create c) .newTable s y
  | within {x : Item} {a b : Occurrence} {p : QueryPlace} {s' : Scope} {y : Subquery}
    (ha : a ∈ x.occurrences s) (hab : a.Within b) (h : b.Asks p s' y) : Asks s x p s' y

/-- A query at any depth is what stands in the item or in a place of it. -/
theorem asks_of_within {s : Scope} {x : Item} {a b : Occurrence} (ha : a ∈ x.occurrences s)
    (hab : a.Within b) (hb : b.piece.isQuery = true) :
    b = a ∨ ∃ p s' y, x.Asks s p s' y ∧ b = ⟨p.scope s', y.piece⟩ := by
  rcases hab.isPlaced hb with rfl | ⟨c, hac, p, s', y, hasks, hy⟩
  · exact .inl rfl
  · exact .inr ⟨p, s', y, .within ha hac hasks, hy⟩

end Item

namespace CreateTable

variable (s : Scope)

theorem columnTokens_holds (c : Column) : Yields
    (Contains (c.default.toList.map (⟨s.quiet, .term ·⟩))) (columnTokens s c) := by
  refine (Clause.optional_holds (fun ts => List.infix_append_right)
    (c.default.map (·.lower s.quiet))).bind fun default hdefault => .pure ?_
  refine contains_map.mpr fun t ht => ?_
  have hmem : t.lower s.quiet ∈ c.default.map (·.lower s.quiet) :=
    Option.map_eq_some_iff.mpr ⟨t, Option.mem_toList.mp ht, rfl⟩
  exact (hdefault _ hmem).mono List.infix_append_right

/-- The defaults of columns stand between the parentheses of a new table. -/
theorem bodyTokens_contains (c : CreateTable) : Yields
    (Contains (c.columns.flatMap fun column => column.default.toList.map (⟨s.quiet, .term ·⟩)))
    (bodyTokens s c) := by
  have hcolumns : ∀ columns : List Column, Yields
      (fun l => ∀ column ∈ columns, ∃ us ∈ l,
        Contains (column.default.toList.map (⟨s.quiet, .term ·⟩)) us)
      (columns.mapM (columnTokens s)) := by
    intro columns
    induction columns with
    | nil => exact .pure nofun
    | cons column columns ih =>
      rw [List.mapM_cons]
      refine (columnTokens_holds s column).bind fun us hus => ih.bind fun l hl => .pure ?_
      refine List.forall_mem_cons.mpr ⟨⟨us, List.mem_cons_self, hus⟩, fun other hother => ?_⟩
      obtain ⟨vs, hvs, hcontains⟩ := hl other hother
      exact ⟨vs, List.mem_cons_of_mem us hvs, hcontains⟩
  refine (hcolumns c.columns).bind fun l hl => .pure ?_
  refine contains_flatMap.mpr fun column hcolumn => ?_
  obtain ⟨us, hus, hcontains⟩ := hl column hcolumn
  refine hcontains.mono ((infix_listed ?_).trans (infix_parens _))
  exact List.mem_append_left _ (List.mem_append_left _ (List.mem_append_left _ hus))

end CreateTable

namespace Item

theorem lower_contains (s : Scope) (x : Item) :
    Yields (Contains (x.occurrences s)) (x.lower s) := by
  have hone {a : Occurrence} : Yields (Contains [a]) a.lower :=
    (Yields.self _).mono fun ts hts =>
      contains_cons.mpr ⟨⟨ts, hts, List.infix_rfl⟩, contains_nil⟩
  cases x with
  | table t => exact fun _ _ => contains_nil
  | term t => exact hone
  | condition c => exact hone
  | call c => exact hone
  | case c => exact hone
  | interval i => exact fun _ _ => contains_nil
  | query q => exact hone
  | compound c => exact hone
  | subquery y =>
    have hpiece := hone (a := ⟨s, y.piece⟩)
    rwa [Occurrence.lower_piece] at hpiece
  | create c =>
    have hlower : (Item.create c).lower s = c.lower s := rfl
    rw [hlower, CreateTable.lower, occurrences]
    cases c.query with
    | some y =>
      have hpiece := hone (a := ⟨s.embedded, y.piece⟩)
      rw [Occurrence.lower_piece] at hpiece
      exact hpiece.bind fun us hus => .pure (hus.mono List.infix_append_right)
    | none =>
      dsimp only
      cases hcolumns : c.columns.isEmpty with
      | true =>
        rw [List.isEmpty_iff.mp hcolumns]
        exact fun _ _ => contains_nil
      | false =>
        exact (c.bodyTokens_contains s).bind fun us hus =>
          .pure (hus.mono (List.infix_append_of_infix_right (List.infix_cons List.infix_rfl)))
  | drop d => exact fun _ _ => contains_nil

/-- A query in a place of an item stands there with what is around the place. -/
theorem Asks.writes {s s' : Scope} {x : Item} {p : QueryPlace} {y : Subquery}
    (h : x.Asks s p s' y) : Yields (p.Written s' y) (x.lower s) := by
  cases h with
  | @newTable c y h =>
    have hlower : (Item.create c).lower s = c.lower s := rfl
    rw [hlower, CreateTable.lower, h]
    refine (Yields.self _).bind fun us hus => .pure ⟨us, hus, ?_⟩
    rw [List.append_assoc]
    exact List.infix_append_of_infix_right (List.infix_cons List.infix_rfl)
  | @within x a b p s' y ha hab h =>
    refine (x.lower_contains s).mono fun ts hts => ?_
    obtain ⟨us, hus, hsub⟩ := (hts a ha).yields (Occurrence.Within.holds hab)
    obtain ⟨vs, hvs, hin⟩ := hus.yields h.writes
    exact hvs.mono (hin.trans hsub)

/-- **Each place of a query has its statement.** However an item is written, at each place for a
query in it, at any depth, stands what the place needs around a query, and there the query: its
statement, in parentheses where the place has none of its own and with its name where the place
shows names. Only a blank query leaves the place empty, without parentheses or name. -/
theorem queries_stated {x : Item} {o : RenderOptions} {ts : Tokens}
    (h : renderTokens x o = .ok ts) {p : QueryPlace} {s : Scope} {y : Subquery}
    (hplace : x.Asks (Scope.ofOptions (renderDialect x o) o) p s y)
    (hformed : y.isFormed = true) :
    ∃ before us behind, y.lower (p.scope s) = .ok us ∧ ts = before ++ p.dress us ++ behind ∧
      (y.isBlank = true ∧ us = [] ∨
        y.isBlank = false ∧ ∃ body, States body ∧ us = p.fill s y body) := by
  obtain ⟨us, hus, before, behind, hts⟩ := hplace.writes ts h
  have hplaced := Subquery.lower_placed (p.scope s) hformed us hus
  simp only [Statement.Placed, p.placed_scope] at hplaced
  exact ⟨before, us, behind, hus, hts.symm, hplaced⟩

/-- The rows of a new table are selected where a column is among those of another query. -/
theorem queries_stated_membership :
    let abc : Table := { id := ⟨1⟩, name := "abc" }
    let efg : Table := { id := ⟨2⟩, name := "efg" }
    let rows : Query :=
      { Query.start ⟨3⟩ .ansi with sources := [.table efg], selects := [efg.field "z"] }
    let test : Condition := .isInRows false (abc.field "y") (.query rows)
    let q : Query :=
      { Query.start ⟨4⟩ .ansi with
        sources := [.table abc], selects := [abc.field "x"], filter := test }
    let x : Item := .create { table := { id := ⟨5⟩, name := "hij" }, query := some (.query q) }
    let s := Scope.ofOptions .ansi {}
    let inner := (s.embedded.inside q).quiet
    let sql := "CREATE TABLE \"hij\" AS (SELECT \"x\" FROM \"abc\" " ++
      "WHERE \"y\" IN (SELECT \"z\" FROM \"efg\"))"
    (render x {}).toOption = some sql ∧ ∃ ts, (renderTokens x {} = .ok ts ∧
      x.Asks s .membership inner (.query rows) ∧ (Subquery.query rows).isFormed = true) ∧
    ∃ before us behind, (Subquery.query rows).lower (QueryPlace.membership.scope inner) = .ok us ∧
      ts = before ++ QueryPlace.membership.dress us ++ behind ∧
      ((Subquery.query rows).isBlank = true ∧ us = [] ∨ (Subquery.query rows).isBlank = false ∧
        ∃ body, States body ∧ us = QueryPlace.membership.fill inner (.query rows) body) := by
  intro abc efg rows test q x s inner sql
  have htext : (render x {}).toOption = some sql := by decide +kernel +revert
  obtain ⟨ts, hrender⟩ : ∃ ts, renderTokens x {} = .ok ts := ⟨_, rfl⟩
  -- The test stands in the condition on the rows of the query for the new table.
  have hpart : Occurrence.Part ⟨s.embedded, .query q⟩ ⟨inner, .condition test⟩ :=
    Occurrence.part_of_clause (c := .filter) rfl rfl (List.mem_singleton_self _)
  have hplace : x.Asks s .membership inner (.query rows) :=
    .within (List.mem_singleton_self _) (ReflTransGen.single hpart) (.membership inner false _ _)
  exact ⟨htext, ts, ⟨hrender, hplace, rfl⟩, queries_stated hrender hplace rfl⟩

/-- A query that was only begun tests for rows: nothing stands behind `EXISTS`. -/
theorem query_left_out :
    let abc : Table := { id := ⟨1⟩, name := "abc" }
    let efg : Table := { id := ⟨2⟩, name := "efg" }
    let rows : Query := { Query.start ⟨3⟩ .ansi with sources := [.table efg] }
    let q : Query :=
      { Query.start ⟨5⟩ .ansi with
        sources := [.table abc], selects := [abc.field "x"]
        filter := .hasRows false (.query rows) }
    let s := Scope.ofOptions .ansi {}
    let inner := (s.inside q).quiet
    ((Query.start ⟨0⟩ .ansi).run [(⟨3⟩, .source (.table efg))] = .ok rows ∧
      (Query.start ⟨0⟩ .ansi).run [(⟨4⟩, .source (.table abc)), (⟨5⟩, .select [.column "x"]),
        (⟨5⟩, .filter (.hasRows false (.query rows)))] = .ok q) ∧
    q.isBlank = false ∧
    renderTokens (Item.query q) {} = .ok [.word .SELECT, .space, .ident "x", .space, .word .FROM,
      .space, .ident "abc", .space, .word .WHERE, .space, .word .EXISTS, .space] ∧
    (Item.query q).Asks s .existence inner (.query rows) ∧
    (Subquery.query rows).lower (QueryPlace.existence.scope inner) = .ok [] := by
  intro abc efg rows q s inner
  have hpart : Occurrence.Part ⟨s, .query q⟩ ⟨inner, .condition (.hasRows false (.query rows))⟩ :=
    Occurrence.part_of_clause (c := .filter) rfl rfl (List.mem_singleton_self _)
  exact ⟨⟨rfl, rfl⟩, rfl, rfl,
    .within (List.mem_singleton_self _) (ReflTransGen.single hpart) (.existence inner false _), rfl⟩

end Item

end SqlScribe
