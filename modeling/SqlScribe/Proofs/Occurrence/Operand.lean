import SqlScribe.Proofs.Occurrence.Induction
import SqlScribe.Proofs.Qualification.Column
/-! # Operands

What an expression is made of, whether it is written or not: the arguments that a call leaves out
and the items of a test that is written without them are operands too. A nested query is none, for
it answers for its own.

* `Piece.operands`, `Piece.Inside`: the operands of a piece, and what is inside it at any depth.
* `Piece.RefersTo`: a field or star inside a piece belongs to something.
* `Piece.mem_qualifiers_iff`: the qualifiers of a piece are what it refers to, with no operand left
  out.
* `Piece.induction`: induction over the operands. -/

namespace SqlScribe

open Relation

/-- The operands of an expression. -/
def Expr.operands : Expr → List Piece
  | .tuple items => items.map .term
  | .array items => items.map .term
  | .arithmetic _ left right => [.term left, .term right]
  | .negative t => [.term t]
  | .call c => [.call c]
  | .case branches otherwise =>
    branches.flatMap (fun b => [.condition b.condition, .term b.result]) ++
      otherwise.toList.map .term
  | .condition c => [.condition c]
  | .field _ _ | .star _ | .value _ | .named _ _ | .null | .parameter _ | .raw _ | .interval _
  | .subquery _ => []

/-- The operands of a function call. -/
def Call.operands (c : Call) : List Piece :=
  c.args.map .term ++ c.filter.toList.map .condition ++ c.window.toList.map .window

/-- The operands of a window. -/
def Window.operands (w : Window) : List Piece :=
  w.partitionBy.map .term ++ w.orderBy.map (.term ·.term)

/-- The operands of a condition. -/
def Condition.operands : Condition → List Piece
  | .empty => []
  | .compare _ left right => [.term left, .term right]
  | .matches _ _ t pattern _ => [.term t, .term pattern]
  | .json _ left right => [.term left, .term right]
  | .search _ t value => [.term t, .term value]
  | .isNull _ t => [.term t]
  | .isIn _ t items => .term t :: items.map .term
  | .isInRows _ t _ => [.term t]
  | .between _ t low high => [.term t, .term low, .term high]
  | .hasRows _ _ => []
  | .combined _ left right => [.condition left, .condition right]
  | .not c => [.condition c]
  | .term t => [.term t]

namespace Piece

/-- The operands of a piece; a query has none. -/
def operands : Piece → List Piece
  | .term t => [.expr t.expr]
  | .expr e => e.operands
  | .call c => c.operands
  | .window w => w.operands
  | .condition c => c.operands
  | .query _ => []
  | .compound _ => []

/-- The second piece is the first one, or stands in it at some depth without a query between. -/
def Inside : Piece → Piece → Prop := ReflTransGen fun a b => b ∈ a.operands

/-- A field or star inside the piece belongs to the qualifier. -/
def RefersTo (p : Piece) (q : Qualifier) : Prop :=
  ∃ e tok, p.Inside (.expr e) ∧ e.column? = some (q, tok)

variable {p p' : Piece} {q : Qualifier}

theorem RefersTo.of_operand (hp : p' ∈ p.operands) (h : p'.RefersTo q) : p.RefersTo q := by
  obtain ⟨e, tok, hinside, hcolumn⟩ := h
  exact ⟨e, tok, .head hp hinside, hcolumn⟩

theorem RefersTo.of_column {e : Expr} {tok : Token} (h : e.column? = some (q, tok)) :
    (Piece.expr e).RefersTo q :=
  ⟨e, tok, .refl, h⟩

end Piece

/-! ## No operand is left out -/

section Operands

variable {p : Piece}

theorem Piece.qualifiers_of_terms {ts : List Term} {qs : List Qualifier}
    (h : Term.qualifiersAll ts ⊆ qs) : ∀ p ∈ ts.map Piece.term, p.qualifiers ⊆ qs := by
  intro p hp
  obtain ⟨t, ht, rfl⟩ := List.mem_map.mp hp
  exact List.Subset.trans (Term.qualifiers_subset ht) h

theorem Expr.qualifiers_operand {e : Expr} (h : p ∈ e.operands) : p.qualifiers ⊆ e.qualifiers := by
  cases e with
  | tuple items =>
    exact Piece.qualifiers_of_terms (by rw [qualifiers]; exact List.Subset.refl _) p h
  | array items =>
    exact Piece.qualifiers_of_terms (by rw [qualifiers]; exact List.Subset.refl _) p h
  | arithmetic op left right =>
    simp only [operands, List.mem_cons, List.not_mem_nil, or_false] at h
    rcases h with rfl | rfl <;> simp [qualifiers, Piece.qualifiers]
  | negative t =>
    cases List.mem_singleton.mp h
    simp [qualifiers, Piece.qualifiers]
  | call c =>
    cases List.mem_singleton.mp h
    simp [qualifiers, Piece.qualifiers]
  | case branches otherwise =>
    rcases List.mem_append.mp h with h | h
    · obtain ⟨b, hb, hp⟩ := List.mem_flatMap.mp h
      obtain ⟨hcondition, hresult⟩ := Branch.qualifiers_subset hb
      have hbranches : Branch.qualifiersAll branches ⊆ (Expr.case branches otherwise).qualifiers := by
        rw [qualifiers.eq_def]
        exact List.subset_append_left _ _
      simp only [List.mem_cons, List.not_mem_nil, or_false] at hp
      rcases hp with rfl | rfl
      · exact List.Subset.trans hcondition hbranches
      · exact List.Subset.trans hresult hbranches
    · obtain ⟨t, ht, rfl⟩ := List.mem_map.mp h
      cases Option.mem_toList.mp ht
      rw [qualifiers.eq_def]
      exact List.subset_append_right _ _
  | condition c =>
    cases List.mem_singleton.mp h
    simp [qualifiers, Piece.qualifiers]
  | field _ _ | star _ | value _ | named _ _ | null | parameter _ | raw _ | interval _
  | subquery _ => cases h

theorem Call.qualifiers_operand {c : Call} (h : p ∈ c.operands) : p.qualifiers ⊆ c.qualifiers := by
  obtain ⟨name, form, aggregate, distinct, ignoreNulls, args, filter, window⟩ := c
  rw [operands, List.mem_append, List.mem_append] at h
  rw [qualifiers.eq_def]
  rcases h with (h | h) | h
  · exact Piece.qualifiers_of_terms
      (List.Subset.trans (List.subset_append_left _ _) (List.subset_append_left _ _)) p h
  · obtain ⟨c, hc, rfl⟩ := List.mem_map.mp h
    cases Option.mem_toList.mp hc
    exact List.Subset.trans (List.subset_append_right _ _) (List.subset_append_left _ _)
  · obtain ⟨w, hw, rfl⟩ := List.mem_map.mp h
    cases Option.mem_toList.mp hw
    exact List.subset_append_right _ _

theorem Window.qualifiers_operand {w : Window} (h : p ∈ w.operands) :
    p.qualifiers ⊆ w.qualifiers := by
  obtain ⟨partitionBy, orderBy, frame⟩ := w
  rw [qualifiers]
  rcases List.mem_append.mp h with h | h
  · exact Piece.qualifiers_of_terms (List.subset_append_left _ _) p h
  · obtain ⟨⟨t, order⟩, hi, rfl⟩ := List.mem_map.mp h
    have ht : t.qualifiers ⊆ OrderItem.qualifiersAll orderBy := by
      obtain ⟨expr, alias?⟩ := t
      rw [Term.qualifiers]
      exact OrderItem.qualifiers_subset hi
    exact List.Subset.trans ht (List.subset_append_right _ _)

theorem Condition.qualifiers_operand {c : Condition} (h : p ∈ c.operands) :
    p.qualifiers ⊆ c.qualifiers := by
  cases c with
  | empty => cases h
  | hasRows _ _ => cases h
  | isIn negated t items =>
    rw [qualifiers]
    rcases List.mem_cons.mp h with rfl | h
    · exact List.subset_append_left _ _
    · exact Piece.qualifiers_of_terms (List.subset_append_right _ _) p h
  | compare _ _ _ | «matches» _ _ _ _ _ | json _ _ _ | search _ _ _ | isNull _ _
  | isInRows _ _ _ | between _ _ _ _ | combined _ _ _ | not _ | term _ =>
    simp only [operands, List.mem_cons, List.not_mem_nil, or_false] at h
    rcases h with rfl | rfl | rfl <;> simp [qualifiers, Piece.qualifiers]

/-- An operand has no qualifiers beyond those of the whole. -/
theorem Piece.qualifiers_operand {a b : Piece} (h : b ∈ a.operands) :
    b.qualifiers ⊆ a.qualifiers := by
  cases a with
  | term t =>
    obtain ⟨expr, alias?⟩ := t
    cases List.mem_singleton.mp h
    simp [Piece.qualifiers, Term.qualifiers]
  | expr e => exact Expr.qualifiers_operand h
  | call c => exact Call.qualifiers_operand h
  | window w => exact Window.qualifiers_operand h
  | condition c => exact Condition.qualifiers_operand h
  | query q => cases h
  | compound c => cases h

theorem Piece.Inside.qualifiers_subset {a b : Piece} (h : a.Inside b) :
    b.qualifiers ⊆ a.qualifiers := by
  induction h with
  | refl => exact List.Subset.refl _
  | tail _ hoperand ih => exact List.Subset.trans (Piece.qualifiers_operand hoperand) ih

theorem Piece.RefersTo.mem_qualifiers {q : Qualifier} (h : p.RefersTo q) : q ∈ p.qualifiers := by
  obtain ⟨e, tok, hinside, hcolumn⟩ := h
  exact hinside.qualifiers_subset (Expr.mem_qualifiers_of_column hcolumn)

end Operands

/-! ## Every qualifier is that of a column -/

namespace Piece

variable {q : Qualifier} {p : Piece}

/-- The piece refers to all of some qualifiers. -/
abbrev Covers (p : Piece) (qs : List Qualifier) : Prop := ∀ q ∈ qs, p.RefersTo q

theorem Covers.append {qs qs' : List Qualifier} (h : p.Covers qs) (h' : p.Covers qs') :
    p.Covers (qs ++ qs') :=
  fun q hq => (List.mem_append.mp hq).elim (h q) (h' q)

theorem Covers.nil : p.Covers [] := nofun

/-- The whole refers to what an operand refers to. -/
theorem Covers.of_operand {p' : Piece} {qs : List Qualifier} (hp : p' ∈ p.operands)
    (h : p'.Covers qs) : p.Covers qs :=
  fun q hq => (h q hq).of_operand hp

theorem Covers.of_option {o : Option Qualifier}
    (h : ∀ q, o = some q → p.RefersTo q) : p.Covers o.toList :=
  fun q hq => h q (Option.mem_toList.mp hq)

end Piece

mutual

theorem Term.covers : ∀ t : Term, (Piece.term t).Covers t.qualifiers
  | ⟨expr, alias?⟩ => by
    rw [Term.qualifiers]
    exact (Expr.covers expr).of_operand (List.mem_singleton_self _)

theorem Expr.covers : ∀ e : Expr, (Piece.expr e).Covers e.qualifiers
  | .field q name => by
    rw [Expr.qualifiers]
    exact .of_option fun q hq => by
      subst hq
      exact .of_column rfl
  | .star q => by
    rw [Expr.qualifiers]
    exact .of_option fun q hq => by
      subst hq
      exact .of_column rfl
  | .value _ | .named _ _ | .null | .parameter _ | .raw _ | .interval _ | .subquery _ => by
    rw [Expr.qualifiers]
    exact .nil
  | .tuple items => by
    rw [Expr.qualifiers]
    exact Term.coversAll items fun t ht => List.mem_map_of_mem ht
  | .array items => by
    rw [Expr.qualifiers]
    exact Term.coversAll items fun t ht => List.mem_map_of_mem ht
  | .arithmetic op left right => by
    rw [Expr.qualifiers]
    exact ((Term.covers left).of_operand (by simp [Piece.operands, Expr.operands])).append
      ((Term.covers right).of_operand (by simp [Piece.operands, Expr.operands]))
  | .negative t => by
    rw [Expr.qualifiers]
    exact (Term.covers t).of_operand (List.mem_singleton_self _)
  | .call c => by
    rw [Expr.qualifiers]
    exact (Call.covers c).of_operand (List.mem_singleton_self _)
  | .case branches otherwise => by
    rw [Expr.qualifiers.eq_def]
    refine .append (Branch.coversAll branches fun b hb => ?_) ?_
    · have hmem : ∀ p ∈ [Piece.condition b.condition, .term b.result],
          p ∈ (Piece.expr (.case branches otherwise)).operands :=
        fun p hp => List.mem_append_left _ (List.mem_flatMap.mpr ⟨b, hb, hp⟩)
      exact ⟨hmem _ (List.mem_cons_self ..), hmem _ (List.mem_cons_of_mem _ (List.mem_cons_self ..))⟩
    · cases otherwise with
      | none => exact .nil
      | some t =>
        exact (Term.covers t).of_operand (List.mem_append_right _ (List.mem_singleton_self _))
  | .condition c => by
    rw [Expr.qualifiers]
    exact (Condition.covers c).of_operand (List.mem_singleton_self _)

theorem Call.covers : ∀ c : Call, (Piece.call c).Covers c.qualifiers
  | ⟨name, form, aggregate, distinct, ignoreNulls, args, filter, window⟩ => by
    rw [Call.qualifiers.eq_def]
    refine .append (.append (Term.coversAll args fun t ht => ?_) ?_) ?_
    · exact List.mem_append_left _ (List.mem_append_left _ (List.mem_map_of_mem ht))
    · cases filter with
      | none => exact .nil
      | some c =>
        exact (Condition.covers c).of_operand
          (List.mem_append_left _ (List.mem_append_right _ (List.mem_singleton_self _)))
    · cases window with
      | none => exact .nil
      | some w =>
        exact (Window.covers w).of_operand (List.mem_append_right _ (List.mem_singleton_self _))

theorem Window.covers : ∀ w : Window, (Piece.window w).Covers w.qualifiers
  | ⟨partitionBy, orderBy, frame⟩ => by
    rw [Window.qualifiers]
    refine .append (Term.coversAll partitionBy fun t ht => ?_)
      (OrderItem.coversAll orderBy fun i hi => ?_)
    · exact List.mem_append_left _ (List.mem_map_of_mem ht)
    · exact List.mem_append_right _ (List.mem_map.mpr ⟨i, hi, rfl⟩)

theorem Condition.covers : ∀ c : Condition, (Piece.condition c).Covers c.qualifiers
  | .empty | .hasRows _ _ => by
    rw [Condition.qualifiers]
    exact .nil
  | .compare op left right => by
    rw [Condition.qualifiers]
    exact ((Term.covers left).of_operand (by simp [Piece.operands, Condition.operands])).append
      ((Term.covers right).of_operand (by simp [Piece.operands, Condition.operands]))
  | .matches op negated term pattern escape => by
    rw [Condition.qualifiers]
    exact ((Term.covers term).of_operand (by simp [Piece.operands, Condition.operands])).append
      ((Term.covers pattern).of_operand (by simp [Piece.operands, Condition.operands]))
  | .json op left right => by
    rw [Condition.qualifiers]
    exact ((Term.covers left).of_operand (by simp [Piece.operands, Condition.operands])).append
      ((Term.covers right).of_operand (by simp [Piece.operands, Condition.operands]))
  | .search op term value => by
    rw [Condition.qualifiers]
    exact ((Term.covers term).of_operand (by simp [Piece.operands, Condition.operands])).append
      ((Term.covers value).of_operand (by simp [Piece.operands, Condition.operands]))
  | .isNull negated term => by
    rw [Condition.qualifiers]
    exact (Term.covers term).of_operand (List.mem_singleton_self _)
  | .isIn negated term items => by
    rw [Condition.qualifiers]
    exact ((Term.covers term).of_operand (List.mem_cons_self ..)).append
      (Term.coversAll items fun t ht => List.mem_cons_of_mem _ (List.mem_map_of_mem ht))
  | .isInRows negated term rows => by
    rw [Condition.qualifiers]
    exact (Term.covers term).of_operand (List.mem_singleton_self _)
  | .between negated term low high => by
    rw [Condition.qualifiers]
    exact (((Term.covers term).of_operand (by simp [Piece.operands, Condition.operands])).append
      ((Term.covers low).of_operand (by simp [Piece.operands, Condition.operands]))).append
        ((Term.covers high).of_operand (by simp [Piece.operands, Condition.operands]))
  | .combined op left right => by
    rw [Condition.qualifiers]
    exact ((Condition.covers left).of_operand (by simp [Piece.operands, Condition.operands])).append
      ((Condition.covers right).of_operand (by simp [Piece.operands, Condition.operands]))
  | .not c => by
    rw [Condition.qualifiers]
    exact (Condition.covers c).of_operand (List.mem_singleton_self _)
  | .term t => by
    rw [Condition.qualifiers]
    exact (Term.covers t).of_operand (List.mem_singleton_self _)

theorem Term.coversAll {p : Piece} : ∀ ts : List Term, (∀ t ∈ ts, Piece.term t ∈ p.operands) →
    p.Covers (Term.qualifiersAll ts)
  | [], _ => by
    rw [Term.qualifiersAll]
    exact .nil
  | t :: ts, h => by
    rw [Term.qualifiersAll]
    obtain ⟨ht, hts⟩ := List.forall_mem_cons.mp h
    exact ((Term.covers t).of_operand ht).append (Term.coversAll ts hts)

theorem OrderItem.coversAll {p : Piece} : ∀ items : List OrderItem,
    (∀ i ∈ items, Piece.term i.term ∈ p.operands) → p.Covers (OrderItem.qualifiersAll items)
  | [], _ => by
    rw [OrderItem.qualifiersAll]
    exact .nil
  | ⟨t, _⟩ :: items, h => by
    rw [OrderItem.qualifiersAll]
    obtain ⟨hi, hitems⟩ := List.forall_mem_cons.mp h
    exact ((Term.covers t).of_operand hi).append (OrderItem.coversAll items hitems)

theorem Branch.coversAll {p : Piece} : ∀ branches : List Branch,
    (∀ b ∈ branches, Piece.condition b.condition ∈ p.operands ∧
      Piece.term b.result ∈ p.operands) → p.Covers (Branch.qualifiersAll branches)
  | [], _ => by
    rw [Branch.qualifiersAll]
    exact .nil
  | ⟨c, t⟩ :: branches, h => by
    rw [Branch.qualifiersAll]
    obtain ⟨⟨hc, ht⟩, hbranches⟩ := List.forall_mem_cons.mp h
    exact (((Condition.covers c).of_operand hc).append ((Term.covers t).of_operand ht)).append
      (Branch.coversAll branches hbranches)

end

/-- The qualifiers of an expression are what its fields and stars belong to, and none of them is
left out. -/
theorem Piece.mem_qualifiers_iff {p : Piece} {q : Qualifier} : q ∈ p.qualifiers ↔ p.RefersTo q := by
  refine ⟨fun h => ?_, RefersTo.mem_qualifiers⟩
  cases p with
  | term t => exact t.covers q h
  | expr e => exact e.covers q h
  | call c => exact c.covers q h
  | window w => exact w.covers q h
  | condition c => exact c.covers q h
  | query q => cases h
  | compound c => cases h

/-! ## Induction over operands -/

section Size

variable {x : Piece}

theorem Piece.sizeOf_term {ts : List Term} (hx : x ∈ ts.map Piece.term) :
    sizeOf x < 1 + sizeOf ts := by
  obtain ⟨t, ht, rfl⟩ := List.mem_map.mp hx
  have hlt := List.sizeOf_lt_of_mem ht
  simp only [Piece.term.sizeOf_spec]
  omega

theorem Expr.sizeOf_operand {e : Expr} (hx : x ∈ e.operands) : sizeOf x < 1 + sizeOf e := by
  cases e with
  | tuple items | array items =>
    have hlt := Piece.sizeOf_term hx
    simp
    omega
  | arithmetic op left right =>
    simp only [operands, List.mem_cons, List.not_mem_nil, or_false] at hx
    rcases hx with rfl | rfl
    all_goals
      simp only [Piece.term.sizeOf_spec, arithmetic.sizeOf_spec]
      omega
  | negative t | call c | condition c =>
    cases List.mem_singleton.mp hx
    simp
  | case branches otherwise =>
    rcases List.mem_append.mp hx with hx | hx
    · obtain ⟨⟨condition, result⟩, hbranch, hx⟩ := List.mem_flatMap.mp hx
      have hlt := List.sizeOf_lt_of_mem hbranch
      simp only [Branch.mk.sizeOf_spec] at hlt
      simp only [List.mem_cons, List.not_mem_nil, or_false] at hx
      rcases hx with rfl | rfl <;> simp <;> omega
    · cases otherwise with
      | none => cases hx
      | some t =>
        cases List.mem_singleton.mp hx
        simp
        omega
  | field _ _ | star _ | value _ | named _ _ | null | parameter _ | raw _ | interval _
  | subquery _ => cases hx

theorem Call.sizeOf_operand {c : Call} (hx : x ∈ c.operands) : sizeOf x < 1 + sizeOf c := by
  obtain ⟨name, form, aggregate, distinct, ignoreNulls, args, filter, window⟩ := c
  rw [operands, List.mem_append, List.mem_append] at hx
  rcases hx with (hx | hx) | hx
  · have hlt : sizeOf x < 1 + sizeOf args := Piece.sizeOf_term hx
    simp
    omega
  · obtain ⟨c, hc, rfl⟩ := List.mem_map.mp hx
    cases Option.mem_toList.mp hc
    simp
    omega
  · obtain ⟨w, hw, rfl⟩ := List.mem_map.mp hx
    cases Option.mem_toList.mp hw
    simp
    omega

theorem Window.sizeOf_operand {w : Window} (hx : x ∈ w.operands) : sizeOf x < 1 + sizeOf w := by
  obtain ⟨partitionBy, orderBy, frame⟩ := w
  rcases List.mem_append.mp hx with hx | hx
  · have hlt : sizeOf x < 1 + sizeOf partitionBy := Piece.sizeOf_term hx
    simp
    omega
  · obtain ⟨⟨t, order⟩, hi, rfl⟩ := List.mem_map.mp hx
    have hlt := List.sizeOf_lt_of_mem hi
    simp at hlt ⊢
    omega

theorem Condition.sizeOf_operand {c : Condition} (hx : x ∈ c.operands) :
    sizeOf x < 1 + sizeOf c := by
  cases c with
  | empty | hasRows _ _ => cases hx
  | isIn negated t items =>
    rcases List.mem_cons.mp hx with rfl | hx
    · simp
      omega
    · have hlt := Piece.sizeOf_term hx
      simp
      omega
  | compare _ _ _ | «matches» _ _ _ _ _ | json _ _ _ | search _ _ _ | isNull _ _
  | isInRows _ _ _ | between _ _ _ _ | combined _ _ _ | not _ | term _ =>
    simp only [operands, List.mem_cons, List.not_mem_nil, or_false] at hx
    rcases hx with rfl | rfl | rfl
    all_goals simp <;> omega

/-- An operand is smaller than the whole. -/
theorem Piece.sizeOf_operand {p : Piece} (hx : x ∈ p.operands) : sizeOf x < sizeOf p := by
  cases p with
  | term t =>
    cases List.mem_singleton.mp hx
    have hlt := t.sizeOf_expr
    simp only [term.sizeOf_spec, expr.sizeOf_spec]
    omega
  | expr e =>
    have hlt := e.sizeOf_operand hx
    simp only [expr.sizeOf_spec]
    omega
  | call c =>
    have hlt := c.sizeOf_operand hx
    simp only [call.sizeOf_spec]
    omega
  | window w =>
    have hlt := w.sizeOf_operand hx
    simp only [window.sizeOf_spec]
    omega
  | condition c =>
    have hlt := c.sizeOf_operand hx
    simp only [condition.sizeOf_spec]
    omega
  | query q => cases hx
  | compound c => cases hx

/-- What a piece has if its operands have it, every piece has. -/
theorem Piece.induction {P : Piece → Prop} (h : ∀ p, (∀ x ∈ p.operands, P x) → P p)
    (p : Piece) : P p := by
  induction hn : sizeOf p using Nat.strongRecOn generalizing p with
  | _ n ih =>
    subst hn
    exact h p fun x hx => ih _ (sizeOf_operand hx) x rfl

end Size

end SqlScribe
