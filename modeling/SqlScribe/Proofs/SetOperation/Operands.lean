import Mathlib.Data.List.Forall2
import SqlScribe.Compound
import SqlScribe.Proofs.Nesting.Syntax
import SqlScribe.Proofs.Occurrence.Place
/-! # Operands of set operations

A set operation is written as its operands with the operators between them, and behind them the
order and the row window of the result. In most dialects each operand stands in parentheses, with
all of its own clauses.

* `Compound.Step`, `Compound.run`: the calls that build a set operation.
* `Query.Wrapped`: what is written for an operand in parentheses.
* `Compound.Laid`: the operands, the operators and the clauses of the result, in tokens.
* `Compound.lower_laid`: a set operation is written so, where operands stand in parentheses. -/

namespace SqlScribe

open Tokens

/-! ## Calls -/

namespace Compound

/-- A call that builds a set operation. -/
inductive Step where
  /-- Adds an operand. -/
  | combine (op : SetOperator) (other : Query)
  /-- Orders the result. -/
  | order (items : List SelectItem) (direction : Option SortOrder)
  /-- Keeps so many rows of the result. -/
  | keep (n : UInt64)
  /-- Passes over so many rows of the result. -/
  | skip (n : UInt64)
  /-- Names the set operation. -/
  | aliased (name : String)

/-- The set operation after a call. -/
def step (c : Compound) : Step → Compound
  | .combine op other => c.combine op other
  | .order items direction => c.order items direction
  | .keep n => c.keep n
  | .skip n => c.skip n
  | .aliased name => c.aliased name

/-- The set operation after some calls. -/
def run (c : Compound) (steps : List Step) : Compound := steps.foldl step c

/-- The operand that a call adds, with its operator. -/
def Step.operand? : Step → Option Operand
  | .combine op other => some ⟨op, other⟩
  | .order _ _ | .keep _ | .skip _ | .aliased _ => none

theorem step_base (c : Compound) (s : Step) : (c.step s).base = c.base := by cases s <;> rfl

theorem step_operands (c : Compound) (s : Step) :
    (c.step s).operands = c.operands ++ s.operand?.toList := by
  cases s with
  | combine op other => rfl
  | _ => exact (List.append_nil _).symm

theorem run_base (c : Compound) (steps : List Step) : (c.run steps).base = c.base := by
  induction steps generalizing c with
  | nil => rfl
  | cons s steps ih => exact (ih (c.step s)).trans (c.step_base s)

/-- Operands stand in the order of the calls that added them. -/
theorem run_operands (c : Compound) (steps : List Step) :
    (c.run steps).operands = c.operands ++ steps.filterMap Step.operand? := by
  induction steps generalizing c with
  | nil => exact (List.append_nil _).symm
  | cons s steps ih =>
    have hrest := ih (c.step s)
    rw [c.step_operands, List.append_assoc] at hrest
    refine hrest.trans (congrArg (c.operands ++ ·) ?_)
    cases hs : s.operand? with
    | none => rw [List.filterMap_cons_none hs, Option.toList_none, List.nil_append]
    | some o => rw [List.filterMap_cons_some hs, Option.toList_some, List.singleton_append]

end Compound

/-! ## Operands -/

theorem Scope.operands_of_wraps {s : Scope} (h : s.dialect.profile.wrapsOperands = true) :
    s.operands = s.embedded := by
  rw [operands, h, embedded]

/-- Where it is nested, a query is written as it is written alone, in parentheses. -/
theorem Query.lower_embedded (s : Scope) {q : Query} (h : q.isBlank = false) :
    q.lower s.embedded = (q.lower s.standalone).map parens := by
  have hfill : QueryPlace.scalar.fill s (.query q) = parens :=
    funext fun body => List.append_nil (parens body)
  rw [← hfill]
  exact QueryPlace.scalar.lower_query s h

/-- A blank query writes nothing. -/
theorem Query.lower_blank (s : Scope) {q : Query} (h : q.isBlank = true) : q.lower s = .ok [] := by
  obtain ⟨info, commonTables, sources, selects, distinctOn, joins, filter, groupBy, having, orderBy,
    columns, rows, conflict, duplicateUpdates, assignments, returning⟩ := q
  rw [Query.lower]
  exact if_pos h

/-- The tokens of an operand in parentheses: those of the query as it stands alone, with brackets
that fit, between parentheses; or none if it is blank. -/
def Query.Wrapped (s : Scope) (q : Query) (ts : Tokens) : Prop :=
  q.isBlank = true ∧ ts = [] ∨
    q.isBlank = false ∧ ∃ body, q.lower s.standalone = .ok body ∧ Nests body ∧ ts = parens body

/-- An operator and the tokens of the operand behind it. -/
def Operand.Wrapped (s : Scope) (o : Operand) (r : SetOperator × Tokens) : Prop :=
  r.1 = o.operator ∧ o.query.Wrapped s r.2

theorem Query.lower_wrapped {s : Scope} (h : s.dialect.profile.wrapsOperands = true) (q : Query) :
    Yields (q.Wrapped s) (q.lower s.operands) := by
  rw [Scope.operands_of_wraps h]
  cases hblank : q.isBlank with
  | true =>
    rw [q.lower_blank s.embedded hblank]
    exact .ok (.inl ⟨hblank, rfl⟩)
  | false =>
    have hnests : Yields Nests (q.lower s.standalone) :=
      (q.lower_placed s.standalone).mono fun _ h => h.nests fun _ h => h.nests
    rw [q.lower_embedded s hblank]
    exact ((Yields.self _).and hnests).map fun body hbody =>
      .inr ⟨hblank, body, hbody.1, hbody.2, rfl⟩

/-! ## Layouts -/

/-- A clause of a keyword and listed items, unless there are none. -/
def Tokens.headed (k : Keyword) : List Tokens → Tokens
  | [] => []
  | items => .space :: .word k :: .space :: listed items

theorem Statement.listClause_eq (k : Keyword) (items : LoweredList) :
    Statement.listClause k items = items.map (Tokens.headed k) := by
  cases items with
  | error e => rfl
  | ok l => cases l <;> rfl

theorem Statement.listClause_laid (k : Keyword) (items : LoweredList) :
    Yields (fun ts => ∃ l, items = .ok l ∧ ts = Tokens.headed k l)
      (Statement.listClause k items) := by
  rw [Statement.listClause_eq]
  exact (Yields.self items).map fun l hl => ⟨l, hl, rfl⟩

namespace Compound

variable {s : Scope}

/-- An operator between blanks, and an operand. -/
def operandTokens (r : SetOperator × Tokens) : Tokens := .space :: r.1.tokens ++ .space :: r.2

/-- The clauses of the result of a set operation: its order and its row window. -/
def ResultClauses (s : Scope) (c : Compound) (ts : Tokens) : Prop :=
  ∃ l, OrderItem.lowerAll s.standalone (s.orderNames c.base) c.orderBy = .ok l ∧
    ts = headed .ORDER_BY l ++
      Statement.windowClause s.dialect c.orderBy.isEmpty c.limit c.offset

/-- The parts of a set operation in tokens: the first operand, the others with their operators, and
the clauses of the result. -/
structure Laid (s : Scope) (c : Compound) (first : Tokens) (rest : List (SetOperator × Tokens))
    (clauses : Tokens) : Prop where
  first : c.base.Wrapped s first
  rest : List.Forall₂ (Operand.Wrapped s) c.operands rest
  clauses : c.ResultClauses s clauses

theorem lowerAll_wrapped (h : s.dialect.profile.wrapsOperands = true) (width : Nat)
    (operands : List Operand) :
    Yields (fun l => ∃ rest, l = rest.map operandTokens ∧
        List.Forall₂ (Operand.Wrapped s) operands rest)
      (Operand.lowerAll s.operands width operands) := by
  induction operands with
  | nil =>
    rw [Operand.lowerAll]
    exact .ok ⟨[], rfl, .nil⟩
  | cons o operands ih =>
    obtain ⟨op, q⟩ := o
    have hoperand : Yields (fun ts => ∃ us, ts = operandTokens (op, us) ∧ q.Wrapped s us)
        (Statement.operand op width q.selectCount (q.lower s.operands)) :=
      iteInduction (fun _ => .error _) fun _ =>
        (q.lower_wrapped h).bind fun us hus => .pure ⟨us, rfl, hus⟩
    rw [Operand.lowerAll]
    refine hoperand.bind fun ts hts => ih.bind fun l hl => ?_
    obtain ⟨us, rfl, hus⟩ := hts
    obtain ⟨rest, rfl, hrest⟩ := hl
    exact .pure ⟨(op, us) :: rest, rfl, .cons ⟨rfl, hus⟩ hrest⟩

/-- Where operands stand in parentheses, a set operation is written as its operands, each with all
of its own clauses in its parentheses, the operators between them, and the clauses of the result. -/
theorem lower_laid (h : s.dialect.profile.wrapsOperands = true) (c : Compound) :
    Yields (fun ts => ∃ first rest clauses, c.Laid s first rest clauses ∧
        ts = Statement.placed s c.id c.alias? (first ++ rest.flatMap operandTokens ++ clauses))
      (c.lower s) := by
  obtain ⟨id, base, operands, orderBy, limit, offset, alias?⟩ := c
  rw [Compound.lower]
  refine Yields.bind (p := fun ts => ∃ first rest clauses,
    Laid s ⟨id, base, operands, orderBy, limit, offset, alias?⟩ first rest clauses ∧
      ts = first ++ rest.flatMap operandTokens ++ clauses) ?_ fun body hbody => ?_
  · refine (base.lower_wrapped h).bind fun first hfirst =>
      (lowerAll_wrapped h base.selectCount operands).bind fun l hl =>
        (Statement.listClause_laid _ _).bind fun ts hts => ?_
    obtain ⟨rest, rfl, hrest⟩ := hl
    obtain ⟨order, horder, rfl⟩ := hts
    refine .pure ⟨first, rest, _, ⟨hfirst, hrest, order, horder, rfl⟩, ?_⟩
    rw [List.append_assoc, List.flatMap_def]
  · obtain ⟨first, rest, clauses, hlaid, rfl⟩ := hbody
    exact .pure ⟨first, rest, clauses, hlaid, rfl⟩

end Compound

end SqlScribe
