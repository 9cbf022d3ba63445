import SqlScribe.Proofs.Query.JoinCondition
import SqlScribe.Render
/-! # Tables of returned terms

A statement that changes rows returns terms over its own tables only.

* `Query.TakesPart`: the tables of a statement.
* `Query.ReturnsFrom`: the tables that returned terms mention.
* `Statement.foreignReturned?_eq_none_iff`: what is asked of them.
* `Statement.whole_eq_returning`: a statement with returned terms is the one without them, followed
  by its last clause.
* `Query.returning_known`: when that clause cannot be written.
* `Query.returning_forgets_further`: the further tables of a deletion are not looked at. -/

namespace SqlScribe

/-- The table that an insertion or an update is about. -/
def Action.target? : Action → Option Table
  | .insert t _ => some t
  | .update t => some t
  | .select => none
  | .delete => none

/-- By its schema and name the table is among some tables. -/
def Table.ListedIn (t : Table) (tables : List Table) : Prop :=
  ∃ u ∈ tables, t.schema = u.schema ∧ t.name = u.name

namespace Table

variable {t : Table} {l l' : List Table}

theorem listedIn_append : t.ListedIn (l ++ l') ↔ t.ListedIn l ∨ t.ListedIn l' := by
  simp only [ListedIn, List.mem_append, or_and_right, exists_or]

/-- A list is looked through by the equality of tables. -/
theorem listedIn_iff_any : t.ListedIn l ↔ l.any (· == t) = true := by
  rw [ListedIn, List.any_eq_true]
  refine exists_congr fun u => and_congr_right fun _ => ?_
  rw [beq_iff]
  exact and_congr eq_comm eq_comm

theorem any_filterMap_table {α : Type} (f : α → Option Table) (xs : List α) :
    (xs.filterMap f).any (· == t) = xs.any fun x => (f x).any (· == t) := by
  induction xs with
  | nil => rfl
  | cons x xs ih => cases hx : f x <;> simp [hx, ih]

end Table

namespace Query

variable {q : Query} {t : Table}

/-! ## Tables of a statement -/

/-- The target of a statement, the tables that rows come from, and those that are joined. -/
def namedTables (q : Query) : List Table :=
  q.info.action.target?.toList ++ q.sources.filterMap (·.table?) ++
    q.joins.filterMap (·.source.table?)

/-- The further tables of a deletion. -/
def furtherTables (q : Query) : List Table :=
  if q.info.action.isDelete then q.info.usingTables else []

/-- The table goes by the name of a common table. -/
def NamesCommonTable (q : Query) (t : Table) : Prop :=
  t.schema = [] ∧ ∃ c ∈ q.commonTables, t.name = c.name

/-- The table is one of the statement: its target, a source, a joined table, a further table of a
deletion, or a common table. -/
def TakesPart (q : Query) (t : Table) : Prop :=
  t.ListedIn (q.namedTables ++ q.furtherTables) ∨ q.NamesCommonTable t

/-- The table is one of the statement only as a further table of a deletion. -/
def IsOnlyFurther (q : Query) (t : Table) : Prop :=
  t.ListedIn q.furtherTables ∧ ¬ t.ListedIn q.namedTables ∧ ¬ q.NamesCommonTable t

/-- A returned item mentions the table outside of nested queries. -/
def ReturnsFrom (q : Query) (t : Table) : Prop :=
  ∃ item ∈ q.returning, (Piece.term item).RefersTo (.table t)

/-- The query without its returned terms. -/
def unreturned (q : Query) : Query := { q with returning := [] }

/-! ## What is asked of returned tables -/

/-- The table is the target of an insertion, or the query has it. -/
def recognises (q : Query) (t : Table) : Bool :=
  q.info.action.insertTarget?.any (· == t) || q.hasTable t

theorem namesCommonTable_iff : q.NamesCommonTable t ↔
    q.commonTables.any (fun c => t.schema.isEmpty && t.name == c.name) = true := by
  simp [NamesCommonTable, and_left_comm]

theorem recognises_iff :
    q.recognises t = true ↔ t.ListedIn q.namedTables ∨ q.NamesCommonTable t := by
  have htarget : t.ListedIn q.info.action.target?.toList ↔
      q.info.action.insertTarget?.any (· == t) = true ∨
        q.info.action.updateTarget?.any (· == t) = true := by
    rw [Table.listedIn_iff_any]
    cases q.info.action <;> simp [Action.target?, Action.insertTarget?, Action.updateTarget?]
  rw [namedTables, Table.listedIn_append, Table.listedIn_append, htarget,
    Table.listedIn_iff_any (l := q.sources.filterMap _),
    Table.listedIn_iff_any (l := q.joins.filterMap _), Table.any_filterMap_table,
    Table.any_filterMap_table, namesCommonTable_iff, recognises, hasTable, isBaseTable]
  simp only [Bool.or_eq_true]
  -- The target of an insertion is asked for first and common tables before joins.
  constructor
  · rintro (h | ((h | h) | h) | h) <;> simp [h]
  · rintro ((((h | h) | h) | h) | h) <;> simp [h]

/-- What is refused is what takes no part in the statement, and besides that the further tables of
a deletion. -/
theorem recognises_eq_false_iff :
    q.recognises t = false ↔ ¬ q.TakesPart t ∨ q.IsOnlyFurther t := by
  rw [← Bool.not_eq_true, recognises_iff, TakesPart, IsOnlyFurther, Table.listedIn_append]
  by_cases hfurther : t.ListedIn q.furtherTables <;> simp [hfurther]

end Query

theorem Term.mem_qualifiersAll {qualifier : Qualifier} {ts : List Term} :
    qualifier ∈ Term.qualifiersAll ts ↔ ∃ t ∈ ts, (Piece.term t).RefersTo qualifier := by
  induction ts with
  | nil => simp [Term.qualifiersAll]
  | cons t ts ih =>
    have hterm : qualifier ∈ t.qualifiers ↔ (Piece.term t).RefersTo qualifier :=
      Piece.mem_qualifiers_iff (p := .term t)
    simp [Term.qualifiersAll, hterm, ih]

namespace Statement

variable {q : Query} {s : Scope} {p : QueryParts}

theorem foreignReturned?_eq_none_iff :
    foreignReturned? q = none ↔ ∀ t, q.ReturnsFrom t → q.recognises t = true := by
  rw [foreignReturned?, List.findSome?_eq_none_iff]
  constructor
  · intro h t ht
    have hnone := h (.table t) (Term.mem_qualifiersAll.mpr ht)
    cases hknown : q.recognises t with
    | true => rfl
    | false =>
      have hforeign : (if q.recognises t then none else some t) = some t := by rw [hknown]; rfl
      cases hforeign.symm.trans hnone
  · intro h qualifier hqualifier
    cases qualifier with
    | table t => exact if_pos (h t (Term.mem_qualifiersAll.mp hqualifier))
    | subquery _ _ => rfl
    | raw _ => rfl

theorem foreignReturned?_eq_some {t : Table} (h : foreignReturned? q = some t) :
    q.ReturnsFrom t ∧ q.recognises t = false := by
  obtain ⟨qualifier, hqualifier, hsome⟩ := List.exists_of_findSome?_eq_some h
  cases qualifier with
  | table u =>
    have hu : q.recognises u = false ∧ u = t := by
      simpa [Query.recognises] using hsome
    obtain ⟨hforeign, rfl⟩ := hu
    exact ⟨Term.mem_qualifiersAll.mp hqualifier, hforeign⟩
  | subquery _ _ => cases hsome
  | raw _ => cases hsome

/-! ## The last clause -/

/-- Without returned terms there is no clause of them. -/
theorem returningClause_unreturned (d : Dialect) (items : LoweredList) :
    returningClause d q.unreturned items = .ok [] := rfl

theorem insertion_eq_returning (t : Table) :
    insertion s q p t = insertion s q.unreturned p t >>= fun rest => do
      let returned ← returningClause s.dialect q p.returning
      return rest ++ returned := by
  simp only [insertion, bind_assoc, pure_bind, returningClause_unreturned, List.append_assoc]
  rfl

theorem update_eq_returning (t : Table) :
    update s q p t = update s q.unreturned p t >>= fun rest => do
      let returned ← returningClause s.dialect q p.returning
      return rest ++ returned := by
  simp only [update, changeTail, bind_assoc, pure_bind, returningClause_unreturned,
    List.append_assoc]
  rfl

theorem deletion_eq_returning :
    deletion s q p = deletion s q.unreturned p >>= fun rest => do
      let returned ← returningClause s.dialect q p.returning
      return rest ++ returned := by
  simp only [deletion, changeTail, bind_assoc, pure_bind, returningClause_unreturned,
    List.append_assoc]
  rfl

/-- A statement with returned terms is the one without them, followed by the clause of these. -/
theorem whole_eq_returning (s : Scope) (p : QueryParts) (hwrites : q.writes .returning = true) :
    whole s q p = whole s q.unreturned p >>= fun rest => do
      let returned ← returningClause s.dialect q p.returning
      return rest ++ returned := by
  have hbody : body s q p = body s q.unreturned p >>= fun rest => do
      let returned ← returningClause s.dialect q p.returning
      return rest ++ returned := by
    rw [Query.writes, Query.insertsRows] at hwrites
    have hunreturned : q.unreturned.info.action = q.info.action := rfl
    rw [body, body, hunreturned]
    cases haction : q.info.action with
    | select => simp [haction, Action.isChange, Action.updateTarget?, Action.isDelete] at hwrites
    | insert t fromList =>
      cases fromList with
      | true => simp [haction, Action.isChange, Action.updateTarget?, Action.isDelete] at hwrites
      | false => exact insertion_eq_returning t
    | update t => exact update_eq_returning t
    | delete => exact deletion_eq_returning
  rw [whole, whole, hbody]
  simp only [bind_assoc, pure_bind, List.append_assoc]
  rfl

/-- Without returned terms it does not matter what these would be. -/
theorem whole_unreturned (s : Scope) (q : Query) :
    whole s q.unreturned (q.unreturned.parts s) = whole s q.unreturned (q.parts s) := rfl

end Statement

/-- What is made of a result fails with it. -/
theorem exists_error_bind_pure {α β : Type} {x : Except QueryError α} {f : α → β} :
    (∃ e, (x >>= fun a => pure (f a)) = .error e) ↔ ∃ e, x = .error e := by
  cases x with
  | error e => exact ⟨fun _ => ⟨e, rfl⟩, fun _ => ⟨e, rfl⟩⟩
  | ok a =>
    constructor <;>
    · rintro ⟨e, h⟩
      cases h

/-- The terms of a list cannot be written if one of them cannot. -/
theorem Term.lowerAll_error_iff {s : Scope} {ts : List Term} :
    (∃ e, Term.lowerAll s ts = .error e) ↔ ∃ t ∈ ts, ∃ e, t.lower s = .error e := by
  induction ts with
  | nil => simp [Term.lowerAll]
  | cons t ts ih =>
    rw [Term.lowerAll]
    cases ht : t.lower s with
    | error e => exact ⟨fun _ => ⟨t, List.mem_cons_self, e, ht⟩, fun _ => ⟨e, rfl⟩⟩
    | ok us =>
      have hrest : (∃ u ∈ t :: ts, ∃ e, u.lower s = .error e) ↔
          ∃ u ∈ ts, ∃ e, u.lower s = .error e := by simp [ht]
      rw [hrest, ← ih]
      exact exists_error_bind_pure

namespace Query

variable {q : Query} {s : Scope}

/-- A statement whose other clauses can be written is written up to its returned terms. -/
theorem lower_eq_returning (hwrites : q.writes .returning = true) (hblank : q.isBlank = false)
    {rest : Tokens} (hrest : q.unreturned.lower s = .ok rest) :
    ∃ before, q.lower s = do
      let returned ← Statement.returningClause s.dialect q (q.parts (s.inside q)).returning
      return Statement.placed s q.info.id q.info.alias? (before ++ returned) := by
  have hwritten : ¬ q.isBlank = true := by rw [hblank]; exact Bool.false_ne_true
  have hunreturned : ¬ q.unreturned.isBlank = true := hwritten
  rw [lower_eq, if_neg hunreturned, Statement.whole_unreturned] at hrest
  rw [lower_eq, if_neg hwritten, Statement.whole_eq_returning _ _ hwrites]
  have hinside : s.inside q.unreturned = s.inside q := rfl
  rw [hinside] at hrest
  cases hbefore : Statement.whole (s.inside q) q.unreturned (q.parts (s.inside q)) with
  | error e =>
    rw [hbefore] at hrest
    cases hrest
  | ok before => exact ⟨before, by simp only [bind_assoc, pure_bind]; rfl⟩

/-- The clause of returned terms fails for a table that is not recognised, and then for a term that
cannot be written. -/
theorem returningClause_fails {d : Dialect} (hd : d.profile.returning = true) :
    (∀ t, Statement.foreignReturned? q = some t → ∀ items,
      Statement.returningClause d q items = .error (.configuration (.foreignReturned t.shownName))) ∧
    (Statement.foreignReturned? q = none →
      ((∃ e, Statement.returningClause d q (Term.lowerAll s q.returning) = .error e) ↔
        ∃ e, Term.lowerAll s q.returning = .error e)) := by
  cases hreturning : q.returning with
  | nil =>
    have hnone : Statement.foreignReturned? q = none := by
      rw [Statement.foreignReturned?, hreturning]
      rfl
    rw [hnone]
    refine ⟨nofun, fun _ => ?_⟩
    simp [Statement.returningClause, hreturning, Term.lowerAll]
  | cons item items =>
    have hsome : q.returning.isEmpty = false := by rw [hreturning]; rfl
    refine ⟨fun t ht items => ?_, fun hnone => ?_⟩
    · simp [Statement.returningClause, hsome, hd, ht]
    · simp only [Statement.returningClause, hsome, hd, hnone, if_true, Bool.false_eq_true, if_false]
      exact exists_error_bind_pure

/-- A statement with nothing to write is written as nothing. -/
theorem lower_of_isBlank (hblank : q.isBlank = true) : q.lower s = .ok [] := by
  rw [lower_eq, if_pos hblank]

/-- **Returned terms are over the tables of the statement.** Let a statement that changes rows have
all its other clauses written. If it has something to write, it fails if and only if a returned item
cannot be written by itself or mentions, outside of nested queries, a table that is by schema and
name no table of the statement or one only as a further table of a deletion. If there is such a
table the error names one. -/
theorem returning_known (hd : s.dialect = .postgres) (hwrites : q.writes .returning = true)
    {rest : Tokens} (hrest : q.unreturned.lower s = .ok rest) :
    ((∃ e, q.lower s = .error e) ↔ q.isBlank = false ∧
      ((∃ t, q.ReturnsFrom t ∧ (¬ q.TakesPart t ∨ q.IsOnlyFurther t)) ∨
        ∃ item ∈ q.returning, ∃ e, item.lower (s.inside q).labelled = .error e)) ∧
    (q.isBlank = false → (∃ t, q.ReturnsFrom t ∧ (¬ q.TakesPart t ∨ q.IsOnlyFurther t)) →
      ∃ t, q.ReturnsFrom t ∧ (¬ q.TakesPart t ∨ q.IsOnlyFurther t) ∧
        q.lower s = .error (.configuration (.foreignReturned t.shownName))) := by
  cases hblank : q.isBlank with
  | true => simp [lower_of_isBlank hblank]
  | false =>
    obtain ⟨before, hlower⟩ := lower_eq_returning hwrites hblank hrest
    have hreturning : s.dialect.profile.returning = true := by rw [hd]; rfl
    obtain ⟨hrefused, hgranted⟩ := returningClause_fails (q := q) (s := (s.inside q).labelled)
      hreturning
    simp only [← recognises_eq_false_iff, ← Term.lowerAll_error_iff, true_and, true_implies]
    cases hforeign : Statement.foreignReturned? q with
    | some t =>
      obtain ⟨hreturns, hunknown⟩ := Statement.foreignReturned?_eq_some hforeign
      have herror : q.lower s = .error (.configuration (.foreignReturned t.shownName)) := by
        rw [hlower, hrefused t hforeign]
        rfl
      exact ⟨⟨fun _ => .inl ⟨t, hreturns, hunknown⟩, fun _ => ⟨_, herror⟩⟩,
        fun _ => ⟨t, hreturns, hunknown, herror⟩⟩
    | none =>
      have hknown : ¬ ∃ t, q.ReturnsFrom t ∧ q.recognises t = false := by
        rintro ⟨t, hreturns, hunknown⟩
        rw [Statement.foreignReturned?_eq_none_iff.mp hforeign t hreturns] at hunknown
        cases hunknown
      refine ⟨?_, fun h => absurd h hknown⟩
      rw [or_iff_right hknown, ← hgranted hforeign, hlower]
      -- What stands around the clause does not fail.
      exact exists_error_bind_pure

/-- An update from a further table returns columns of that table and of one that is no table of the
statement. -/
theorem returning_known_update :
    let abc : Table := { id := ⟨1⟩, name := "abc" }
    let efg : Table := { id := ⟨2⟩, name := "efg" }
    let xyz : Table := { id := ⟨3⟩, name := "xyz" }
    let q : Query :=
      { start ⟨0⟩ .postgres with
        info.action := .update abc, sources := [.table efg]
        assignments := [⟨Term.field "a", Term.int 1⟩]
        returning := [efg.field "id", xyz.field "id"] }
    let s := Scope.ofOptions .postgres {}
    q.writes .returning = true ∧ q.isBlank = false ∧ (∃ rest, q.unreturned.lower s = .ok rest) ∧
      (q.ReturnsFrom xyz ∧ ¬ q.TakesPart xyz) ∧
      ∃ t, q.ReturnsFrom t ∧ (¬ q.TakesPart t ∨ q.IsOnlyFurther t) ∧
        q.lower s = .error (.configuration (.foreignReturned t.shownName)) := by
  intro abc efg xyz q s
  have hreturns : q.ReturnsFrom xyz :=
    Term.mem_qualifiersAll.mp (List.mem_cons_of_mem _ List.mem_cons_self)
  have hforeign : ¬ q.TakesPart xyz ∨ q.IsOnlyFurther xyz := recognises_eq_false_iff.mp rfl
  have htakes : ¬ q.TakesPart xyz := hforeign.elim id fun h => by
    obtain ⟨u, hu, -⟩ := h.1
    cases hu
  exact ⟨rfl, rfl, ⟨_, rfl⟩, ⟨hreturns, htakes⟩,
    (returning_known (s := s) rfl rfl rfl).2 rfl ⟨xyz, hreturns, hforeign⟩⟩

/-- **The further tables of a deletion are not looked at.** A deletion that can be built returns a
column of its further table only, which is a table of the statement, and all its other clauses are
written. It fails, while an update from that table returns the column. -/
theorem returning_forgets_further :
    let abc : Table := { id := ⟨1⟩, name := "abc" }
    let efg : Table := { id := ⟨2⟩, name := "efg" }
    let matched := (abc.field "id").equals (efg.field "abc_id")
    let s := Scope.ofOptions .postgres {}
    (∃ q, (start ⟨0⟩ .postgres).run [(⟨3⟩, .source (.table abc)), (⟨4⟩, .delete),
          (⟨5⟩, .usingTables [efg]), (⟨6⟩, .filter matched),
          (⟨7⟩, .returning [.term (efg.field "id")])] = .ok q ∧
        q.writes .returning = true ∧ q.isBlank = false ∧ (∀ t, q.ReturnsFrom t → q.TakesPart t) ∧
        (render q.unreturned {}).toOption =
          some "DELETE FROM \"abc\" USING \"efg\" WHERE \"abc\".\"id\"=\"efg\".\"abc_id\"" ∧
        q.lower s = .error (.configuration (.foreignReturned "efg"))) ∧
      ∃ q, (start ⟨0⟩ .postgres).run [(⟨3⟩, .update abc), (⟨4⟩, .source (.table efg)),
          (⟨5⟩, .assign (.column "a") (Term.int 1)),
          (⟨6⟩, .returning [.term (efg.field "id")])] = .ok q ∧
        (render q {}).toOption =
          some "UPDATE \"abc\" SET \"a\"=1 FROM \"efg\" RETURNING \"efg\".\"id\"" := by
  intro abc efg matched s
  refine ⟨⟨_, rfl, rfl, rfl, fun t ht => ?_, by decide +kernel, rfl⟩, _, rfl, by decide +kernel⟩
  have ht : Qualifier.table t ∈ [Qualifier.table efg] := Term.mem_qualifiersAll.mpr ht
  cases List.mem_singleton.mp ht
  exact .inl ⟨efg, List.mem_append_right _ List.mem_cons_self, rfl, rfl⟩

end Query

end SqlScribe
