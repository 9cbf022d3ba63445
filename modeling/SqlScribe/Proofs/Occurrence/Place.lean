import SqlScribe.Proofs.Occurrence.Lowering
/-! # Places of queries

A query stands in another statement as a source, as a common table, as a term, behind a test of
membership or existence, as an operand of a set operation, or as the rows of a new table.

* `QueryPlace`: the kinds of places, with the scope a query has there and what is around it.
* `QueryPlace.lower_query`, `QueryPlace.lower_compound`: what is in a place is written as it is
  alone.
* `Occurrence.Asks`: the places in a piece of syntax.
* `Occurrence.Within.isPlaced`: a query at any depth stands in a place. -/

namespace SqlScribe

open Relation

/-- A kind of place for a query. -/
inductive QueryPlace where
  /-- Among the sources. -/
  | source
  /-- Behind `JOIN`. -/
  | joined
  /-- The body of a common table. -/
  | commonTable
  /-- In the place of a term. -/
  | scalar
  /-- Behind `IN`. -/
  | membership
  /-- Behind `EXISTS`. -/
  | existence
  /-- The first operand of a set operation, or one behind an operator. -/
  | operand (op : Option SetOperator)
  /-- The rows of a new table. -/
  | newTable
deriving Repr, DecidableEq

namespace QueryPlace

/-- The scope that a query is written in, from the scope around its place. -/
def scope (s : Scope) : QueryPlace → Scope
  | .source | .joined => s.asSource
  | .commonTable => s.standalone
  | .operand _ => s.operands
  | .scalar | .membership | .existence | .newTable => s.embedded

/-- A query in the place has parentheses of its own. A common table has those of its clause. -/
def wraps (d : Dialect) : QueryPlace → Bool
  | .commonTable => false
  | .operand _ => d.profile.wrapsOperands
  | .source | .joined | .scalar | .membership | .existence | .newTable => true

/-- A query in the place shows its name. -/
def names : QueryPlace → Bool
  | .source | .joined => true
  | .commonTable | .operand _ | .scalar | .membership | .existence | .newTable => false

/-- The tokens of a query with those around its place. -/
def dress (us : Tokens) : QueryPlace → Tokens
  | .joined => .word .JOIN :: .space :: us
  | .commonTable => .word .AS :: .space :: Tokens.parens us
  | .membership => .word .IN :: .space :: us
  | .existence => .word .EXISTS :: .space :: us
  | .operand (some op) => op.tokens ++ .space :: us
  | .newTable => .word .AS :: .space :: us
  | .source | .scalar | .operand none => us

/-- A statement as it stands in the place: in parentheses of its own where there are some, and
followed by its name where names are shown. -/
def fill (s : Scope) (y : Subquery) (body : Tokens) (p : QueryPlace) : Tokens :=
  Tokens.parensIf (p.wraps s.dialect) body ++
    if p.names then
      match y.alias?.or (s.alias? y.id) with
      | some a => s.aliasSuffix a
      | none => []
    else []

theorem placed_scope (s : Scope) (y : Subquery) (body : Tokens) (p : QueryPlace) :
    Statement.placed (p.scope s) y.id y.alias? body = p.fill s y body := by
  cases p <;> rfl

end QueryPlace

/-- A statement that stands alone has nothing around it. -/
theorem Statement.placed_standalone (s : Scope) (id : SourceId) (alias? : Option String)
    (body : Tokens) : Statement.placed s.standalone id alias? body = body :=
  List.append_nil body

namespace QueryPlace

variable (p : QueryPlace) (s : Scope)

/-- A query in a place is what it is alone, with what the place puts around it. -/
theorem map_placed (x : Lowered) (y : Subquery) :
    (x >>= fun body => Pure.pure (Statement.placed (p.scope s) y.id y.alias? body)) =
      (x >>= fun body => Pure.pure (Statement.placed s.standalone y.id y.alias? body)).map
        (p.fill s y) := by
  cases x with
  | error e => rfl
  | ok body =>
    show Except.ok _ = Except.ok _
    rw [p.placed_scope, Statement.placed_standalone]

theorem lower_query {q : Query} (hblank : q.isBlank = false) :
    q.lower (p.scope s) = (q.lower s.standalone).map (p.fill s (.query q)) := by
  have hwrites : ¬ q.isBlank = true := by rw [hblank]; exact Bool.false_ne_true
  have hinside : (p.scope s).inside q = s.standalone.inside q := by cases p <;> rfl
  rw [Query.lower_eq, Query.lower_eq, if_neg hwrites, if_neg hwrites, hinside]
  exact p.map_placed s _ (.query q)

theorem lower_compound (c : Compound) :
    c.lower (p.scope s) = (c.lower s.standalone).map (p.fill s (.compound c)) := by
  obtain ⟨id, base, operands, orderBy, limit, offset, alias?⟩ := c
  have hoperands : (p.scope s).operands = s.standalone.operands := by cases p <;> rfl
  have hstandalone : (p.scope s).standalone = s.standalone.standalone := by cases p <;> rfl
  have hdialect : (p.scope s).dialect = s.standalone.dialect := by cases p <;> rfl
  have hnames : (p.scope s).orderNames base = s.standalone.orderNames base := by cases p <;> rfl
  rw [Compound.lower, Compound.lower, hoperands, hstandalone, hdialect, hnames]
  exact p.map_placed s _ (.compound ⟨id, base, operands, orderBy, limit, offset, alias?⟩)

end QueryPlace

namespace Occurrence

/-- There is a place for a query in an occurrence directly, in a scope, and the query in it. -/
inductive Asks : Occurrence → QueryPlace → Scope → Subquery → Prop where
  | scalar (s : Scope) (y : Subquery) : Asks ⟨s, .expr (.subquery y)⟩ .scalar s y
  | membership (s : Scope) (negated : Bool) (t : Term) (y : Subquery) :
    Asks ⟨s, .condition (.isInRows negated t y)⟩ .membership s y
  | existence (s : Scope) (negated : Bool) (y : Subquery) :
    Asks ⟨s, .condition (.hasRows negated y)⟩ .existence s y
  | source {s : Scope} {q : Query} {y : Subquery} (hblank : q.isBlank = false)
    (hreads : q.readsRows = true) (h : .subquery y ∈ q.sources) :
    Asks ⟨s, .query q⟩ .source (s.inside q) y
  | joined {s : Scope} {q : Query} {j : Join} {y : Subquery} (hblank : q.isBlank = false)
    (hreads : q.readsRows = true) (hj : j ∈ q.joins) (h : j.source = .subquery y) :
    Asks ⟨s, .query q⟩ .joined (s.inside q) y
  | commonTable {s : Scope} {q : Query} {t : CommonTable} (hblank : q.isBlank = false)
    (h : t ∈ q.commonTables) : Asks ⟨s, .query q⟩ .commonTable (s.inside q) t.body
  | base (s : Scope) (c : Compound) : Asks ⟨s, .compound c⟩ (.operand none) s (.query c.base)
  | operand {s : Scope} {c : Compound} {o : Operand} (h : o ∈ c.operands) :
    Asks ⟨s, .compound c⟩ (.operand (some o.operator)) s (.query o.query)

variable {a b : Occurrence} {p : QueryPlace} {s : Scope} {y : Subquery}

theorem part_of_clause {q : Query} {c : QueryClause} (hblank : q.isBlank = false)
    (hwrites : q.writes c = true) (h : b ∈ q.clauseParts (s.inside q) c) :
    Part ⟨s, .query q⟩ b := by
  refine ⟨c, ?_⟩
  rw [Query.partsIn, hblank, if_neg Bool.false_ne_true, if_pos hwrites]
  exact h

/-- A query in a place of an occurrence is a part of it. -/
theorem Asks.part (h : a.Asks p s y) : Part a ⟨p.scope s, y.piece⟩ := by
  cases h with
  | scalar y => exact List.mem_singleton_self _
  | membership negated t y => exact List.mem_cons_of_mem _ (List.mem_singleton_self _)
  | existence negated y => exact List.mem_singleton_self _
  | source hblank hreads h =>
    exact part_of_clause (c := .sources) hblank hreads
      (List.mem_flatMap.mpr ⟨_, h, List.mem_singleton_self _⟩)
  | @joined s q j y hblank hreads hj h =>
    refine part_of_clause (c := .joined) hblank hreads (List.mem_flatMap.mpr ⟨j, hj, ?_⟩)
    rw [h]
    exact List.mem_singleton_self _
  | commonTable hblank h =>
    exact part_of_clause (c := .commonTables) hblank rfl (List.mem_map.mpr ⟨_, h, rfl⟩)
  | base c => exact List.mem_append_left _ List.mem_cons_self
  | operand h =>
    exact List.mem_append_left _ (List.mem_cons_of_mem _ (List.mem_map.mpr ⟨_, h, rfl⟩))

/-! ## No other places -/

/-- None of the occurrences is a query. -/
abbrev NoQuery (l : List Occurrence) : Prop := ∀ b ∈ l, b.piece.isQuery = false

namespace NoQuery

variable {α : Type} {l m : List Occurrence}

theorem nil : NoQuery [] := List.forall_mem_nil _

theorem singleton (h : b.piece.isQuery = false) : NoQuery [b] :=
  fun _ hb => List.mem_singleton.mp hb ▸ h

theorem append (h : NoQuery l) (h' : NoQuery m) : NoQuery (l ++ m) :=
  fun b hb => (List.mem_append.mp hb).elim (h b) (h' b)

theorem flatMap {f : α → List Occurrence} (h : ∀ x, NoQuery (f x)) (l : List α) :
    NoQuery (l.flatMap f) := by
  intro b hb
  obtain ⟨x, -, hx⟩ := List.mem_flatMap.mp hb
  exact h x b hx

theorem map {f : α → Occurrence} (h : ∀ x, (f x).piece.isQuery = false) (l : List α) :
    NoQuery (l.map f) := by
  intro b hb
  obtain ⟨x, -, rfl⟩ := List.mem_map.mp hb
  exact h x

theorem terms (s : Scope) (ts : List Term) : NoQuery (Term.occurrences s ts) :=
  .map (fun _ => rfl) ts

theorem columnParts (s : Scope) (t : Term) : NoQuery (t.columnParts s) := by
  obtain ⟨expr, alias?⟩ := t
  cases expr with
  | field q name => exact .nil
  | _ => exact .singleton rfl

theorem joinCondition (s : Scope) (c : JoinCondition) : NoQuery (c.parts s) := by
  cases c with
  | on c => exact .singleton rfl
  | all | sharing columns => exact .nil

theorem not_isQuery (h : NoQuery l) (hb : b ∈ l) : ¬ b.piece.isQuery = true := by
  rw [h b hb]
  exact Bool.false_ne_true

end NoQuery

/-- A query is in one of the places of an occurrence. -/
def IsPlaced (a b : Occurrence) : Prop := ∃ p s y, a.Asks p s y ∧ b = ⟨p.scope s, y.piece⟩

theorem isPlaced_of_expr {e : Expr} (h : b ∈ e.parts s) (hb : b.piece.isQuery = true) :
    IsPlaced ⟨s, .expr e⟩ b := by
  cases e with
  | subquery y =>
    cases List.mem_singleton.mp h
    exact ⟨_, _, _, .scalar s y, rfl⟩
  | tuple _ | array _ | arithmetic _ _ _ | negative _ =>
    exact absurd hb (NoQuery.not_isQuery (.terms _ _) h)
  | call _ | condition _ => exact absurd hb (NoQuery.not_isQuery (.singleton rfl) h)
  | case branches otherwise =>
    refine absurd hb (NoQuery.not_isQuery (.append (.flatMap (fun branch => ?_) _) (.terms _ _)) h)
    exact .append (.singleton rfl) (.singleton rfl)
  | field _ _ | star _ | value _ | named _ _ | null | parameter _ | raw _ | interval _ => cases h

theorem isPlaced_of_condition {c : Condition} (h : b ∈ c.parts s)
    (hb : b.piece.isQuery = true) : IsPlaced ⟨s, .condition c⟩ b := by
  cases c with
  | isInRows negated t y =>
    rcases List.mem_cons.mp h with rfl | h
    · cases hb
    · cases List.mem_singleton.mp h
      exact ⟨_, _, _, .membership s negated t y, rfl⟩
  | hasRows negated y =>
    cases List.mem_singleton.mp h
    exact ⟨_, _, _, .existence s negated y, rfl⟩
  | isIn negated t items =>
    cases items with
    | nil => cases h
    | cons item items => exact absurd hb (NoQuery.not_isQuery (.terms _ _) h)
  | combined _ l r =>
    have hboth : NoQuery ([⟨s.quiet, .condition l⟩] ++ [⟨s.quiet, .condition r⟩]) :=
      .append (.singleton rfl) (.singleton rfl)
    exact absurd hb (hboth.not_isQuery h)
  | compare _ _ _ | «matches» _ _ _ _ _ | json _ _ _ | search _ _ _ | isNull _ _
  | between _ _ _ _ => exact absurd hb (NoQuery.not_isQuery (.terms _ _) h)
  | not _ | term _ => exact absurd hb (NoQuery.not_isQuery (.singleton rfl) h)
  | empty => cases h

/-- Queries stand in three clauses of a query only. -/
theorem isPlaced_of_clause {q : Query} {c : QueryClause} (hblank : q.isBlank = false)
    (hwrites : q.writes c = true) (h : b ∈ q.clauseParts (s.inside q) c)
    (hb : b.piece.isQuery = true) : IsPlaced ⟨s, .query q⟩ b := by
  have hno (hl : NoQuery (q.clauseParts (s.inside q) c)) : IsPlaced ⟨s, .query q⟩ b :=
    absurd hb (hl.not_isQuery h)
  cases c with
  | commonTables =>
    obtain ⟨t, ht, rfl⟩ := List.mem_map.mp h
    exact ⟨_, _, _, .commonTable hblank ht, rfl⟩
  | sources =>
    obtain ⟨x, hx, hmem⟩ := List.mem_flatMap.mp h
    cases x with
    | table t => cases hmem
    | subquery y =>
      cases List.mem_singleton.mp hmem
      exact ⟨_, _, _, .source hblank hwrites hx, rfl⟩
  | joined =>
    obtain ⟨⟨kind, x, condition⟩, hj, hmem⟩ := List.mem_flatMap.mp h
    cases x with
    | table t => cases hmem
    | subquery y =>
      cases List.mem_singleton.mp hmem
      exact ⟨_, _, _, .joined hblank hwrites hj rfl, rfl⟩
  | on => exact hno (.flatMap (fun j => .joinCondition (s.inside q) (Join.condition j)) q.joins)
  | selectList | distinctOn | returning => exact hno (.terms _ _)
  | filter | having => exact hno (.singleton rfl)
  | groupBy | orderBy | conflictFilter | conflictWhere | duplicateSet | set =>
    exact hno (.map (fun _ => rfl) _)
  | rows => exact hno (.flatMap (.terms _) _)
  | columns => exact hno (.flatMap (.columnParts _) _)
  | conflictTargets => exact hno (.flatMap (fun c => .flatMap (.columnParts _) _) _)
  | conflictColumns => exact hno (.flatMap (fun c => .flatMap (fun a => .columnParts _ _) _) _)
  | conflictSet => exact hno (.flatMap (fun c => .map (fun _ => rfl) _) _)
  | duplicateColumns | setColumns => exact hno (.flatMap (fun a => .columnParts _ _) _)

theorem isPlaced_of_compound {c : Compound} (h : b ∈ c.parts s) (hb : b.piece.isQuery = true) :
    IsPlaced ⟨s, .compound c⟩ b := by
  rcases List.mem_append.mp h with h | h
  · rcases List.mem_cons.mp h with rfl | h
    · exact ⟨_, _, _, .base s c, rfl⟩
    · obtain ⟨o, ho, rfl⟩ := List.mem_map.mp h
      exact ⟨_, _, _, .operand ho, rfl⟩
  · exact absurd hb (NoQuery.not_isQuery (.map (fun _ => rfl) _) h)

/-- A query that stands in an occurrence directly is in one of its places. -/
theorem isPlaced_of_part (h : Part a b) (hb : b.piece.isQuery = true) : IsPlaced a b := by
  obtain ⟨s, piece⟩ := a
  cases piece with
  | term t =>
    cases h
    cases hb
  | expr e => exact isPlaced_of_expr h hb
  | call c =>
    have hcall : NoQuery (c.parts s) :=
      .append (.append (.terms _ _) (.map (fun _ => rfl) _)) (.map (fun _ => rfl) _)
    exact absurd hb (hcall.not_isQuery h)
  | window w =>
    have hwindow : NoQuery (w.parts s) := .append (.terms _ _) (.map (fun _ => rfl) _)
    exact absurd hb (hwindow.not_isQuery h)
  | condition c => exact isPlaced_of_condition h hb
  | query q =>
    obtain ⟨c, hpart⟩ := h
    rw [Query.partsIn] at hpart
    cases hblank : q.isBlank with
    | true =>
      rw [hblank] at hpart
      cases hpart
    | false =>
      rw [hblank, if_neg Bool.false_ne_true] at hpart
      by_cases hwrites : q.writes c = true
      · rw [if_pos hwrites] at hpart
        exact isPlaced_of_clause hblank hwrites hpart hb
      · rw [if_neg hwrites] at hpart
        cases hpart
  | compound c => exact isPlaced_of_compound h hb

/-- A query at any depth is the whole or stands in a place. -/
theorem Within.isPlaced (h : Within a b) (hb : b.piece.isQuery = true) :
    b = a ∨ ∃ c, Within a c ∧ IsPlaced c b := by
  rcases ReflTransGen.cases_tail h with rfl | ⟨c, hac, hpart⟩
  · exact .inl rfl
  · exact .inr ⟨c, hac, isPlaced_of_part hpart hb⟩

end Occurrence

end SqlScribe
