import SqlScribe.Proofs.SetOperation.Operands
import SqlScribe.Render
/-! # The clauses of a selection

A selection writes its clauses one behind the other, in one order whatever it holds.

* `SelectionTokens`: the tokens of a selection, clause by clause.
* `Query.LaysSelection`: the tokens of each clause are those of what the query has for it.
* `Query.lower_selection`, `Query.renderTokens_selection`: every selection is laid out so. -/

namespace SqlScribe

open Tokens

/-! ## Layouts -/

/-- What a selection begins with, in tokens. -/
structure SelectTokens where
  /-- What drops repeated rows. -/
  distinct : Tokens
  /-- The number or share of rows in front of the select list. -/
  top : Tokens
  /-- The items of the select list. -/
  selects : List Tokens

/-- The clauses behind the select list, in tokens. -/
structure TailTokens where
  /-- The sources. -/
  sources : List Tokens
  /-- The joins. -/
  joins : List Tokens
  /-- The condition on rows, with its keyword. -/
  filter : Tokens
  /-- The grouping terms. -/
  groupBy : List Tokens
  /-- What is behind the grouping terms. -/
  rollup : Tokens
  /-- The condition on groups, with its keyword. -/
  having : Tokens
  /-- The ordering terms. -/
  orderBy : List Tokens
  /-- The row window. -/
  window : Tokens
  /-- The lock. -/
  lock : Tokens

/-- A selection in tokens, clause by clause. -/
structure SelectionTokens extends SelectTokens, TailTokens where
  /-- The common tables before it. -/
  commonTables : Tokens
  /-- The table that the rows go into. -/
  into : Tokens

/-- The tokens up to the end of the select list. -/
def SelectTokens.tokens (l : SelectTokens) : Tokens :=
  .word .SELECT :: .space :: l.distinct ++ l.top ++ listed l.selects

/-- The tokens of the clauses behind the select list. -/
def TailTokens.tokens (l : TailTokens) : Tokens :=
  headed .FROM l.sources ++ l.joins.flatMap (.space :: ·) ++ l.filter
    ++ (headed .GROUP_BY l.groupBy ++ l.rollup) ++ l.having ++ headed .ORDER_BY l.orderBy
    ++ l.window ++ l.lock

/-- All tokens of a selection. -/
def SelectionTokens.tokens (l : SelectionTokens) : Tokens :=
  l.commonTables ++ (l.toSelectTokens.tokens ++ l.into ++ l.toTailTokens.tokens)

namespace Statement

/-- What is behind the grouping terms of a query: the keywords of a rollup, if there are terms. -/
def rollupTokens (withRollup : Bool) (terms : List Tokens) : Tokens :=
  if withRollup && !terms.isEmpty then [.space, .word .WITH, .space, .raw "ROLLUP"] else []

/-- The table that the rows of a selection go into, if there is one. -/
def intoTokens (s : Scope) : Option Table → Tokens
  | none => []
  | some t => .space :: .word .INTO :: .space :: t.tokens s

variable {s : Scope} {q : Query} {p : QueryParts}

/-- The tokens up to the end of the select list are those of what a query has for it. -/
structure LaysSelect (s : Scope) (q : Query) (p : QueryParts) (l : SelectTokens) : Prop where
  distinct :
    distinctClause s.dialect q.info.distinct q.distinctOn.isEmpty p.distinctOn = .ok l.distinct
  top : topClause s.dialect q.info.top = .ok l.top
  selects : p.selects = .ok l.selects

/-- The tokens of the clauses behind the select list are those of what a query has for them. -/
structure LaysTail (s : Scope) (q : Query) (p : QueryParts) (l : TailTokens) : Prop where
  sources : p.sources = .ok l.sources
  joins : p.joins = .ok l.joins
  filter : conditionClause .WHERE q.filter.isEmpty p.filter = .ok l.filter
  groupBy : p.groupBy = .ok l.groupBy
  rollup : l.rollup = rollupTokens q.info.withRollup l.groupBy
  having : conditionClause .HAVING q.having.isEmpty p.having = .ok l.having
  orderBy : p.orderBy = .ok l.orderBy
  window : l.window = windowClause s.dialect q.orderBy.isEmpty q.info.limit q.info.offset
  lock : lockClause s q.info.lock = .ok l.lock

theorem joinClauses_lays (items : LoweredList) :
    Yields (fun ts => ∃ l, items = .ok l ∧ ts = l.flatMap (.space :: ·)) (joinClauses items) :=
  (Yields.self items).bind fun l hl => .pure ⟨l, hl, rfl⟩

theorem groupClause_lays (withRollup : Bool) (items : LoweredList) :
    Yields (fun ts => ∃ l, items = .ok l ∧
        ts = headed .GROUP_BY l ++ rollupTokens withRollup l)
      (groupClause withRollup items) := by
  refine (Yields.self items).bind fun l hl => ?_
  cases l with
  | nil => exact .ok ⟨[], hl, by simp [headed, rollupTokens]⟩
  | cons t l => exact .ok ⟨t :: l, hl, by cases withRollup <;> simp [headed, rollupTokens]⟩

theorem selectClause_lays :
    Yields (fun ts => ∃ l, LaysSelect s q p l ∧ ts = l.tokens) (selectClause s.dialect q p) :=
  (Yields.self _).bind fun distinct hdistinct => (Yields.self _).bind fun top htop =>
    (Yields.self _).bind fun selects hselects =>
      .pure ⟨⟨distinct, top, selects⟩, ⟨hdistinct, htop, hselects⟩, rfl⟩

theorem selectTail_lays :
    Yields (fun ts => ∃ l, LaysTail s q p l ∧ ts = l.tokens) (selectTail s q p) := by
  refine (listClause_laid .FROM _).bind fun ts h => ?_
  obtain ⟨sources, hsources, rfl⟩ := h
  refine (joinClauses_lays _).bind fun ts h => ?_
  obtain ⟨joins, hjoins, rfl⟩ := h
  refine (Yields.self _).bind fun filter hfilter => (groupClause_lays _ _).bind fun ts h => ?_
  obtain ⟨groupBy, hgroups, rfl⟩ := h
  refine (Yields.self _).bind fun having hhaving => (listClause_laid .ORDER_BY _).bind
    fun ts h => ?_
  obtain ⟨orderBy, horder, rfl⟩ := h
  exact (Yields.self _).bind fun lock hlock => .pure
    ⟨⟨sources, joins, filter, groupBy, _, having, orderBy, _, lock⟩,
      ⟨hsources, hjoins, hfilter, hgroups, rfl, hhaving, horder, rfl, hlock⟩, rfl⟩

theorem selection_lays (target : Option Table) :
    Yields (fun ts => ∃ l l', LaysSelect s q p l ∧ LaysTail s q p l' ∧
        ts = l.tokens ++ intoTokens s target ++ l'.tokens)
      (selection s q p target) := by
  refine selectClause_lays.bind fun ts h => selectTail_lays.bind fun ts' h' => .pure ?_
  obtain ⟨l, hl, rfl⟩ := h
  obtain ⟨l', hl', rfl⟩ := h'
  refine ⟨l, l', hl, hl', ?_⟩
  cases target <;> rfl

end Statement

/-- The table that a query which selects puts its rows into, if there is one. -/
def Action.selectionTarget? : Action → Option Table
  | .insert t true => some t
  | _ => none

namespace Query

/-- The tokens of each clause are those of what a query has for it, in its inner scope. -/
structure LaysSelection (s : Scope) (q : Query) (l : SelectionTokens) : Prop extends
    Statement.LaysSelect s q (q.parts s) l.toSelectTokens,
    Statement.LaysTail s q (q.parts s) l.toTailTokens where
  commonTables : Statement.withClause s.dialect (q.commonTables.any (·.recursive))
    (q.parts s).commonTables = .ok l.commonTables
  into : l.into = Statement.intoTokens s q.info.action.selectionTarget?

theorem body_selection {q : Query} (h : q.kind = "select") (s : Scope) (p : QueryParts) :
    Statement.body s q p = Statement.selection s q p q.info.action.selectionTarget? := by
  rw [kind] at h
  rw [Statement.body]
  cases haction : q.info.action with
  | select => rfl
  | insert t fromList =>
    cases fromList with
    | true => rfl
    | false => simp [haction] at h
  | update t => simp [haction] at h
  | delete => simp [haction] at h

/-- A selection that is not blank is written clause by clause. -/
theorem lower_selection {q : Query} (h : q.kind = "select") (hblank : q.isBlank = false)
    (s : Scope) :
    Yields (fun ts => ∃ l, q.LaysSelection (s.inside q) l ∧
        ts = Statement.placed s q.info.id q.info.alias? l.tokens) (q.lower s) := by
  rw [lower_eq, if_neg (by rw [hblank]; exact Bool.false_ne_true), Statement.whole,
    body_selection h]
  refine Yields.bind (p := fun ts => ∃ l, q.LaysSelection (s.inside q) l ∧ ts = l.tokens) ?_
    fun ts h => ?_
  · refine (Yields.self _).bind fun commonTables htables =>
      (Statement.selection_lays _).bind fun ts h => .pure ?_
    obtain ⟨l, l', hl, hl', rfl⟩ := h
    exact ⟨⟨l, l', commonTables, _⟩, ⟨hl, hl', htables, rfl⟩, rfl⟩
  · obtain ⟨l, hl, rfl⟩ := h
    exact .pure ⟨l, hl, rfl⟩

/-- Rendered by itself, a selection that is not blank is nothing but its clauses. -/
theorem renderTokens_selection {q : Query} (h : q.kind = "select") (hblank : q.isBlank = false)
    (o : RenderOptions) :
    Yields (fun ts => ∃ l,
        q.LaysSelection ((Scope.ofOptions (renderDialect q o) o).inside q) l ∧ ts = l.tokens)
      (renderTokens q o) := by
  refine (lower_selection h hblank (Scope.ofOptions (renderDialect q o) o)).mono fun ts hts => ?_
  obtain ⟨l, hl, rfl⟩ := hts
  exact ⟨l, hl, List.append_nil _⟩

end Query

end SqlScribe
