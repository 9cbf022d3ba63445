import SqlScribe.Proofs.Occurrence.Syntax
/-! # Induction over occurrences

What stands in an occurrence directly is smaller than it and is written in the same dialect, so a
property of all occurrences follows if each of them has it by those that stand in it.

* `Occurrence.Below`: an occurrence in a dialect and below a size.
* `Occurrence.Part.below`: a part is in the dialect of the whole and smaller.
* `Occurrence.Within.dialect`: all that stands in an occurrence is in its dialect.
* `Occurrence.induction`: induction over the parts. -/

namespace SqlScribe

open Relation Occurrence

/-- The occurrence is in the dialect, and its piece is smaller than the bound. -/
structure Occurrence.Below (d : Dialect) (n : Nat) (b : Occurrence) : Prop where
  dialect : b.scope.dialect = d
  size : sizeOf b.piece < n

section Parts

variable {s : Scope} {b : Occurrence} {d : Dialect} {m n : Nat}

theorem Occurrence.Below.mono (h : b.Below d m) (hmn : m ≤ n) : b.Below d n :=
  ⟨h.dialect, Nat.lt_of_lt_of_le h.size hmn⟩

theorem Subquery.sizeOf_piece (y : Subquery) : sizeOf y.piece = sizeOf y := by
  cases y <;> simp [piece]

theorem Term.sizeOf_expr (t : Term) : 1 + sizeOf t.expr ≤ sizeOf t := by
  cases t
  simp only [Term.mk.sizeOf_spec]
  omega

theorem Term.occurrences_below {ts : List Term} (h : b ∈ Term.occurrences s ts) :
    b.Below s.dialect (1 + sizeOf ts) := by
  obtain ⟨t, ht, rfl⟩ := List.mem_map.mp h
  have hlt := List.sizeOf_lt_of_mem ht
  refine ⟨rfl, ?_⟩
  simp only [Piece.term.sizeOf_spec]
  omega

theorem OrderItem.occurrences_below {names : List String} {items : List OrderItem}
    (h : b ∈ OrderItem.occurrences s names items) : b.Below s.dialect (1 + sizeOf items) := by
  obtain ⟨⟨t, order⟩, hi, rfl⟩ := List.mem_map.mp h
  have hlt := List.sizeOf_lt_of_mem (List.mem_filter.mp hi).1
  have hexpr := t.sizeOf_expr
  refine ⟨rfl, ?_⟩
  simp only [OrderItem.mk.sizeOf_spec, Piece.expr.sizeOf_spec] at hlt ⊢
  omega

theorem Term.columnParts_below {t : Term} (h : b ∈ t.columnParts s) :
    b.Below s.dialect (1 + sizeOf t) := by
  have hexpr := t.sizeOf_expr
  have hsize (hb : b = ⟨s.quiet.qualifying false, .expr t.expr⟩) :
      b.Below s.dialect (1 + sizeOf t) := by
    subst hb
    refine ⟨rfl, ?_⟩
    simp only [Piece.expr.sizeOf_spec]
    omega
  obtain ⟨expr, alias?⟩ := t
  cases expr with
  | field q name => cases h
  | _ => exact hsize (List.mem_singleton.mp h)

theorem Source.parts_below {x : Source} (h : b ∈ x.parts s) : b.Below s.dialect (sizeOf x) := by
  cases x with
  | table t => cases h
  | subquery y =>
    cases List.mem_singleton.mp h
    refine ⟨rfl, ?_⟩
    simp only [y.sizeOf_piece, Source.subquery.sizeOf_spec]
    omega

theorem Expr.parts_below {e : Expr} (h : b ∈ e.parts s) : b.Below s.dialect (1 + sizeOf e) := by
  cases e with
  | tuple items | array items => exact (Term.occurrences_below h).mono (by simp)
  | arithmetic op left right =>
    simp only [parts, Term.occurrences, List.map_cons, List.map_nil, List.mem_cons,
      List.not_mem_nil, or_false] at h
    rcases h with rfl | rfl
    · exact ⟨rfl, by simp only [Piece.term.sizeOf_spec, Expr.arithmetic.sizeOf_spec]; omega⟩
    · exact ⟨rfl, by simp only [Piece.term.sizeOf_spec, Expr.arithmetic.sizeOf_spec]; omega⟩
  | negative t =>
    cases List.mem_singleton.mp h
    exact ⟨rfl, by simp⟩
  | call c =>
    cases List.mem_singleton.mp h
    exact ⟨rfl, by simp⟩
  | case branches otherwise =>
    rcases List.mem_append.mp h with h | h
    · obtain ⟨⟨condition, result⟩, hbranch, hb⟩ := List.mem_flatMap.mp h
      have hlt := List.sizeOf_lt_of_mem hbranch
      simp only [Branch.mk.sizeOf_spec] at hlt
      simp only [List.mem_cons, List.not_mem_nil, or_false] at hb
      rcases hb with rfl | rfl
      · exact ⟨rfl, by simp; omega⟩
      · exact ⟨rfl, by simp; omega⟩
    · cases otherwise with
      | none => cases h
      | some t =>
        cases List.mem_singleton.mp h
        exact ⟨rfl, by simp; omega⟩
  | subquery y =>
    cases List.mem_singleton.mp h
    exact ⟨rfl, by simp [y.sizeOf_piece]; omega⟩
  | condition c =>
    cases List.mem_singleton.mp h
    exact ⟨rfl, by simp⟩
  | field _ _ | star _ | value _ | named _ _ | null | parameter _ | raw _ | interval _ => cases h

theorem CallForm.sizeOf_taken (form : CallForm) (args : List Term) :
    sizeOf (form.taken args) ≤ sizeOf args := by
  have hpos (l : List Term) : 1 ≤ sizeOf l := by
    cases l with
    | nil => exact Nat.le_refl 1
    | cons t l =>
      rw [List.cons.sizeOf_spec]
      omega
  have hfirst : sizeOf (args.take 1) ≤ sizeOf args := by
    cases args with
    | nil => exact Nat.le_refl _
    | cons t args =>
      have hrest := hpos args
      simp only [List.take_succ_cons, List.take_zero, List.cons.sizeOf_spec, List.nil.sizeOf_spec]
      omega
  cases form with
  | plain => exact Nat.le_refl _
  | bare => exact hpos args
  | cast _ | convert _ | extract _ => exact hfirst

theorem Call.parts_below {c : Call} (h : b ∈ c.parts s) : b.Below s.dialect (1 + sizeOf c) := by
  obtain ⟨name, form, aggregate, distinct, ignoreNulls, args, filter, window⟩ := c
  rcases List.mem_append.mp h with h | h
  · rcases List.mem_append.mp h with h | h
    · have htaken := form.sizeOf_taken args
      exact (Term.occurrences_below h).mono (by simp; omega)
    · obtain ⟨c, hc, rfl⟩ := List.mem_map.mp h
      cases Option.mem_toList.mp hc
      exact ⟨rfl, by simp; omega⟩
  · obtain ⟨w, hw, rfl⟩ := List.mem_map.mp h
    cases Option.mem_toList.mp hw
    exact ⟨rfl, by simp; omega⟩

theorem Window.parts_below {w : Window} (h : b ∈ w.parts s) :
    b.Below s.dialect (1 + sizeOf w) := by
  obtain ⟨partitionBy, orderBy, frame⟩ := w
  rcases List.mem_append.mp h with h | h
  · exact (Term.occurrences_below h).mono (by simp; omega)
  · exact (OrderItem.occurrences_below h).mono (by simp; omega)

theorem Condition.parts_below {c : Condition} (h : b ∈ c.parts s) :
    b.Below s.dialect (1 + sizeOf c) := by
  cases c with
  | empty => cases h
  | isIn negated t items =>
    cases items with
    | nil => cases h
    | cons item items =>
      rcases List.mem_cons.mp h with rfl | h
      · exact ⟨rfl, by simp; omega⟩
      · exact (Term.occurrences_below h).mono (by simp)
  | compare _ _ _ | «matches» _ _ _ _ _ | json _ _ _ | search _ _ _ | isNull _ _
  | isInRows _ _ _ | between _ _ _ _ | hasRows _ _ | combined _ _ _ | not _ | term _ =>
    simp only [parts, Term.occurrences, List.map_cons, List.map_nil, List.mem_cons,
      List.not_mem_nil, or_false] at h
    rcases h with rfl | rfl | rfl
    all_goals exact ⟨rfl, by simp [Subquery.sizeOf_piece] <;> omega⟩

theorem JoinCondition.parts_below {c : JoinCondition} (h : b ∈ c.parts s) :
    b.Below s.dialect (1 + sizeOf c) := by
  cases c with
  | all | sharing _ => cases h
  | on c =>
    cases List.mem_singleton.mp h
    exact ⟨rfl, by simp⟩

theorem Compound.parts_below {c : Compound} (h : b ∈ c.parts s) :
    b.Below s.dialect (1 + sizeOf c) := by
  obtain ⟨id, base, operands, orderBy, limit, offset, alias?⟩ := c
  rcases List.mem_append.mp h with h | h
  · rcases List.mem_cons.mp h with rfl | h
    · exact ⟨rfl, by simp; omega⟩
    · obtain ⟨⟨op, q⟩, hq, rfl⟩ := List.mem_map.mp h
      have hlt := List.sizeOf_lt_of_mem hq
      simp only [Operand.mk.sizeOf_spec] at hlt
      exact ⟨rfl, by simp; omega⟩
  · exact (OrderItem.occurrences_below h).mono (by simp; omega)

/-- A list of lists is at least as large as what stands in them. -/
theorem Occurrence.Below.flatMap {α : Type} [SizeOf α] {l : List α} {f : α → List Occurrence}
    (h : ∀ x ∈ l, ∀ b ∈ f x, b.Below d (1 + sizeOf x)) (hb : b ∈ l.flatMap f) :
    b.Below d (1 + sizeOf l) := by
  obtain ⟨x, hx, hmem⟩ := List.mem_flatMap.mp hb
  have hlt := List.sizeOf_lt_of_mem hx
  exact (h x hx b hmem).mono (by omega)

theorem Term.columns_below {ts : List Term} (h : b ∈ ts.flatMap (Term.columnParts s)) :
    b.Below s.dialect (1 + sizeOf ts) :=
  Below.flatMap (fun _ _ _ hb => Term.columnParts_below hb) h

theorem Assignment.columns_below {assignments : List Assignment}
    (h : b ∈ assignments.flatMap (Term.columnParts s ·.column)) :
    b.Below s.dialect (1 + sizeOf assignments) := by
  refine Below.flatMap (fun a _ b hb => (Term.columnParts_below hb).mono ?_) h
  cases a
  simp only [Assignment.mk.sizeOf_spec]
  omega

theorem Assignment.values_below {assignments : List Assignment}
    (h : b ∈ assignments.map (⟨s, .term ·.value⟩)) :
    b.Below s.dialect (1 + sizeOf assignments) := by
  obtain ⟨⟨column, value⟩, ha, rfl⟩ := List.mem_map.mp h
  have hlt := List.sizeOf_lt_of_mem ha
  refine ⟨rfl, ?_⟩
  simp only [Assignment.mk.sizeOf_spec, Piece.term.sizeOf_spec] at hlt ⊢
  omega

/-- A conflict clause is larger than what stands in it. -/
theorem Conflict.sizeOf_fields {conflict : Option Conflict} {c : Conflict}
    (h : conflict = some c) :
    1 + sizeOf c.targets + sizeOf c.targetFilter + sizeOf c.assignments +
      sizeOf c.updateFilter < sizeOf conflict := by
  subst h
  cases c
  simp only [Option.some.sizeOf_spec, Conflict.mk.sizeOf_spec]
  omega

theorem Join.sizeOf_fields (j : Join) : sizeOf j.source + sizeOf j.condition < sizeOf j := by
  cases j
  simp only [Join.mk.sizeOf_spec]
  omega

/-- A query is larger than what stands in it. -/
theorem Query.sizeOf_fields (q : Query) :
    sizeOf q.commonTables + sizeOf q.sources + sizeOf q.selects + sizeOf q.distinctOn +
      sizeOf q.joins + sizeOf q.filter + sizeOf q.groupBy + sizeOf q.having + sizeOf q.orderBy +
      sizeOf q.columns + sizeOf q.rows + sizeOf q.conflict + sizeOf q.duplicateUpdates +
      sizeOf q.assignments + sizeOf q.returning < sizeOf q := by
  cases q
  simp only [Query.mk.sizeOf_spec]
  omega

/-- What stands in a clause of a query. -/
theorem Query.clauseParts_below {q : Query} {c : QueryClause} (h : b ∈ q.clauseParts s c) :
    b.Below s.dialect (1 + sizeOf q) := by
  have hfields := q.sizeOf_fields
  cases c with
  | commonTables =>
    obtain ⟨⟨name, columns, recursive, body⟩, ht, rfl⟩ := List.mem_map.mp h
    have hlt := List.sizeOf_lt_of_mem ht
    refine ⟨rfl, ?_⟩
    simp only [CommonTable.mk.sizeOf_spec, Subquery.sizeOf_piece] at hlt ⊢
    omega
  | sources =>
    exact (Below.flatMap (fun x _ b hb => (Source.parts_below hb).mono (by omega)) h).mono
      (by omega)
  | joined =>
    refine (Below.flatMap (fun j _ b hb => (Source.parts_below hb).mono ?_) h).mono (by omega)
    have hj := j.sizeOf_fields
    omega
  | on =>
    refine (Below.flatMap (fun j _ b hb => (JoinCondition.parts_below hb).mono ?_) h).mono
      (by omega)
    have hj := j.sizeOf_fields
    omega
  | selectList | distinctOn | returning =>
    exact (Term.occurrences_below h).mono (by omega)
  | filter | having =>
    cases List.mem_singleton.mp h
    refine ⟨rfl, ?_⟩
    simp only [Piece.condition.sizeOf_spec]
    omega
  | groupBy =>
    obtain ⟨t, ht, rfl⟩ := List.mem_map.mp h
    have hlt := List.sizeOf_lt_of_mem (List.mem_filter.mp ht).1
    have hexpr := t.sizeOf_expr
    refine ⟨rfl, ?_⟩
    simp only [Piece.expr.sizeOf_spec] at hlt ⊢
    omega
  | orderBy => exact (OrderItem.occurrences_below h).mono (by omega)
  | columns => exact (Term.columns_below h).mono (by omega)
  | rows =>
    exact (Below.flatMap (fun row _ b hb => Term.occurrences_below hb) h).mono (by omega)
  | conflictTargets =>
    obtain ⟨c, hmem, hb⟩ := List.mem_flatMap.mp h
    have hlt := Conflict.sizeOf_fields (Conflict.mem_handled hmem).1
    exact (Term.columns_below hb).mono (by omega)
  | conflictFilter =>
    obtain ⟨c, hmem, rfl⟩ := List.mem_map.mp h
    have hlt := Conflict.sizeOf_fields (Conflict.mem_handled hmem).1
    refine ⟨rfl, ?_⟩
    simp only [Piece.condition.sizeOf_spec]
    omega
  | conflictColumns =>
    obtain ⟨c, hmem, hb⟩ := List.mem_flatMap.mp h
    have hlt := Conflict.sizeOf_fields (Conflict.mem_updating hmem).1
    exact (Assignment.columns_below hb).mono (by omega)
  | conflictSet =>
    obtain ⟨c, hmem, hb⟩ := List.mem_flatMap.mp h
    have hlt := Conflict.sizeOf_fields (Conflict.mem_updating hmem).1
    exact (Assignment.values_below hb).mono (by omega)
  | conflictWhere =>
    obtain ⟨c, hmem, rfl⟩ := List.mem_map.mp h
    have hlt := Conflict.sizeOf_fields (Conflict.mem_updating hmem).1
    refine ⟨rfl, ?_⟩
    simp only [Piece.condition.sizeOf_spec]
    omega
  | duplicateColumns | setColumns => exact (Assignment.columns_below h).mono (by omega)
  | duplicateSet | set => exact (Assignment.values_below h).mono (by omega)

theorem Query.partsIn_below {q : Query} {c : QueryClause} (h : b ∈ q.partsIn s c) :
    b.Below s.dialect (1 + sizeOf q) := by
  unfold partsIn at h
  split at h
  · cases h
  · split at h
    · exact clauseParts_below (s := s.inside q) h
    · cases h

end Parts

namespace Occurrence

variable {a b : Occurrence}

/-- A part is in the dialect of the whole and smaller. -/
theorem Part.below (h : Part a b) : b.Below a.scope.dialect (sizeOf a.piece) := by
  obtain ⟨s, piece⟩ := a
  cases piece with
  | term t =>
    have hexpr := t.sizeOf_expr
    cases h
    exact ⟨rfl, by simp; omega⟩
  | expr e => exact (Expr.parts_below h).mono (by simp)
  | call c => exact (Call.parts_below h).mono (by simp)
  | window w => exact (Window.parts_below h).mono (by simp)
  | condition c => exact (Condition.parts_below h).mono (by simp)
  | query q =>
    obtain ⟨c, hb⟩ := h
    exact (Query.partsIn_below hb).mono (by simp)
  | compound c => exact (Compound.parts_below h).mono (by simp)

/-- All that stands in an occurrence is in its dialect. -/
theorem Within.dialect (h : Within a b) : b.scope.dialect = a.scope.dialect := by
  induction h with
  | refl => rfl
  | tail _ hpart ih => exact hpart.below.dialect.trans ih

/-- What an occurrence has if all that stands in it directly has it, every occurrence has. -/
theorem induction {P : Occurrence → Prop} (h : ∀ a, (∀ b, Part a b → P b) → P a)
    (a : Occurrence) : P a := by
  induction hn : sizeOf a.piece using Nat.strongRecOn generalizing a with
  | _ n ih =>
    subst hn
    exact h a fun b hpart => ih _ hpart.below.size b rfl

end Occurrence

end SqlScribe
