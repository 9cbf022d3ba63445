import SqlScribe.Function.Catalogue
import SqlScribe.Proofs.Aggregation.Contents
import SqlScribe.Proofs.Occurrence.Operand
/-! # Aggregate status

Whether a term is an aggregate is told by what stands in it outside of aggregate calls and nested
queries: a column makes it a term that is not one, and without a column an aggregate call makes it
one.

* `Piece.counted`, `Piece.passedOver`: the operands that the status of a piece follows, and those
  that it does not follow.
* `Piece.Finds`: something stands in a piece, outside of aggregate calls.
* `Piece.aggregation_eq`: the status of a piece from the statuses of its operands.
* `Piece.aggregation_iff`: the status of a piece from what is found in it.
* `Term.status_found`: that of a term, and when it is told by all operands.
* `Term.status_passes_over`: the bounds of a range and the items of a list are passed over. -/

namespace SqlScribe

open Relation

namespace Aggregation

variable {as : List Aggregation}

theorem resolve_singleton (a : Aggregation) : resolve [a] = a := by cases a <;> rfl

theorem all_neutral_iff : as.all (· == .neutral) = true ↔ ∀ a ∈ as, a = .neutral := by simp

/-- One part with a value for each row makes the whole such a term. -/
theorem resolve_eq_perRow_iff : resolve as = .perRow ↔ .perRow ∈ as := by
  rw [resolve]
  split
  · next hall =>
    constructor
    · intro h
      cases h
    · intro hperRow
      cases all_neutral_iff.mp hall _ hperRow
  · split
    · next hperRow => exact iff_of_true rfl (by simpa using hperRow)
    · next hperRow =>
      refine iff_of_false (fun h => ?_) (by simpa using hperRow)
      cases h

/-- Without such a part, an aggregate part makes the whole an aggregate. -/
theorem resolve_eq_aggregate_iff :
    resolve as = .aggregate ↔ .perRow ∉ as ∧ .aggregate ∈ as := by
  rw [← resolve_eq_perRow_iff]
  refine ⟨fun h => ⟨fun hperRow => ?_, Contents.mem_of_resolve h⟩, ?_⟩
  · cases h.symm.trans hperRow
  rintro ⟨hperRow, haggregate⟩
  have hall : ¬ as.all (· == .neutral) = true := fun hall => by
    cases all_neutral_iff.mp hall _ haggregate
  cases h : resolve as with
  | perRow => exact absurd h hperRow
  | aggregate => rfl
  | neutral =>
    rw [resolve, if_neg hall] at h
    split at h <;> cases h

theorem toOption_eq_false_iff {a : Aggregation} : a.toOption = some false ↔ a = .perRow := by
  cases a <;> simp [toOption]

theorem toOption_eq_true_iff {a : Aggregation} : a.toOption = some true ↔ a = .aggregate := by
  cases a <;> simp [toOption]

theorem toOption_eq_none_iff {a : Aggregation} : a.toOption = none ↔ a = .neutral := by
  cases a <;> simp [toOption]

end Aggregation

/-! ## Operands that count -/

/-- The operands that the status of a condition follows: of tests for membership and for lying
between two terms only the tested term. -/
def Condition.counted : Condition → List Piece
  | .isIn _ t _ => [.term t]
  | .between _ t _ _ => [.term t]
  | c => c.operands

/-- The operands of a condition that its status does not follow. -/
def Condition.passedOver : Condition → List Piece
  | .isIn _ _ items => items.map .term
  | .between _ _ low high => [.term low, .term high]
  | _ => []

/-- The expression is a field or a star. -/
def Expr.isColumn : Expr → Bool
  | .field _ _ => true
  | .star _ => true
  | _ => false

namespace Piece

/-- The piece is a field or a star. -/
def isColumn : Piece → Bool
  | .expr e => e.isColumn
  | _ => false

/-- The piece is a call of an aggregate function. -/
def isAggregateCall : Piece → Bool
  | .call c => c.aggregate
  | _ => false

/-- The operands that the status of a piece follows. Of a call these are the arguments. -/
def counted : Piece → List Piece
  | .term t => [.expr t.expr]
  | .expr e => e.operands
  | .call c => c.args.map .term
  | .condition c => c.counted
  | .window _ => []
  | .query _ => []
  | .compound _ => []

/-- The operands that the status of a piece does not follow. -/
def passedOver : Piece → List Piece
  | .call c => c.filter.toList.map .condition ++ c.window.toList.map .window
  | .condition c => c.passedOver
  | .window w => w.operands
  | .term _ => []
  | .expr _ => []
  | .query _ => []
  | .compound _ => []

/-- The aggregation of a piece; a window and a query say nothing about rows. -/
def aggregation : Piece → Aggregation
  | .term t => t.aggregation
  | .expr e => e.aggregation
  | .call c => c.aggregation
  | .condition c => c.aggregation
  | .window _ => .neutral
  | .query _ => .neutral
  | .compound _ => .neutral

/-- By the given operands the second piece is reached from the first one, and no aggregate call is
left on the way. -/
def Reaches (operands : Piece → List Piece) : Piece → Piece → Prop :=
  ReflTransGen fun a b => a.isAggregateCall = false ∧ b ∈ operands a

/-- By the given operands something is reached that passes a test. -/
def Finds (operands : Piece → List Piece) (test : Piece → Bool) (p : Piece) : Prop :=
  ∃ x, p.Reaches operands x ∧ test x = true

/-- No choice between terms stands in the piece. -/
def CaseFree (p : Piece) : Prop :=
  ∀ branches otherwise, ¬ p.Inside (.expr (.case branches otherwise))

variable {p x : Piece} {ops : Piece → List Piece} {test : Piece → Bool}

theorem mem_operands_iff : x ∈ p.operands ↔ x ∈ p.counted ∨ x ∈ p.passedOver := by
  cases p with
  | term t => simp [operands, counted, passedOver]
  | expr e => simp [operands, counted, passedOver]
  | call c => simp [operands, counted, passedOver, Call.operands]
  | window w => simp [operands, counted, passedOver]
  | condition c =>
    cases c <;>
      simp [operands, counted, passedOver, Condition.operands, Condition.counted,
        Condition.passedOver]
  | query q => simp [operands, counted, passedOver]
  | compound c => simp [operands, counted, passedOver]

theorem CaseFree.counted (h : p.CaseFree) (hx : x ∈ p.counted) : x.CaseFree :=
  fun branches otherwise hinside =>
    h branches otherwise (.head (mem_operands_iff.mpr (.inl hx)) hinside)

/-- Without a choice in its operands, a piece that is none has no choice in it. -/
theorem CaseFree.of_operands (hp : ∀ branches otherwise, p ≠ .expr (.case branches otherwise))
    (h : ∀ x ∈ p.operands, x.CaseFree) : p.CaseFree := by
  intro branches otherwise hinside
  rcases ReflTransGen.cases_head hinside with heq | ⟨x, hx, hrest⟩
  · exact hp branches otherwise heq
  · exact h x hx branches otherwise hrest

theorem CaseFree.of_operand (hp : ∀ branches otherwise, p ≠ .expr (.case branches otherwise))
    (hx : p.operands = [x]) (h : x.CaseFree) : p.CaseFree :=
  .of_operands hp fun y hy => by
    rw [hx] at hy
    cases List.mem_singleton.mp hy
    exact h

/-- Something is found in a piece if it is the piece, or it is found in an operand. -/
theorem finds_iff : p.Finds ops test ↔
    test p = true ∨ p.isAggregateCall = false ∧ ∃ x ∈ ops p, x.Finds ops test := by
  constructor
  · rintro ⟨y, hreaches, hy⟩
    rcases ReflTransGen.cases_head hreaches with rfl | ⟨x, ⟨hcall, hx⟩, hrest⟩
    · exact .inl hy
    · exact .inr ⟨hcall, x, hx, y, hrest, hy⟩
  · rintro (hp | ⟨hcall, x, hx, y, hrest, hy⟩)
    · exact ⟨p, .refl, hp⟩
    · exact ⟨y, .head ⟨hcall, hx⟩ hrest, hy⟩

theorem not_finds_of_operands (hp : test p = false) (h : ∀ x ∈ ops p, ¬ x.Finds ops test) :
    ¬ p.Finds ops test := by
  rw [finds_iff, hp]
  rintro (htest | ⟨-, x, hx, hfinds⟩)
  · cases htest
  · exact h x hx hfinds

/-! ## Status -/

theorem aggregation_of_column (h : p.isColumn = true) : p.aggregation = .perRow := by
  cases p with
  | expr e =>
    cases e with
    | field _ _ | star _ => rfl
    | _ => cases h
  | _ => cases h

theorem aggregation_of_aggregateCall (h : p.isAggregateCall = true) :
    p.aggregation = .aggregate := by
  cases p with
  | call c =>
    cases c
    exact if_pos h
  | _ => cases h

theorem aggregations_eq_map (ts : List Term) :
    Term.aggregations ts = (ts.map Piece.term).map aggregation := by
  induction ts with
  | nil => rfl
  | cons t ts ih => rw [Term.aggregations, ih]; rfl

/-- The status of a piece that is no column, no aggregate call and no choice follows from the
statuses of the operands that count. -/
theorem aggregation_eq (hcase : p.CaseFree) (hcolumn : p.isColumn = false)
    (hcall : p.isAggregateCall = false) :
    p.aggregation = Aggregation.resolve (p.counted.map aggregation) := by
  cases p with
  | term t =>
    obtain ⟨expr, alias?⟩ := t
    exact (Aggregation.resolve_singleton _).symm
  | expr e =>
    cases e with
    | field _ _ | star _ => cases hcolumn
    | case branches otherwise => exact absurd .refl (hcase branches otherwise)
    | tuple items | array items =>
      show Expr.aggregation _ = Aggregation.resolve ((items.map Piece.term).map aggregation)
      rw [Expr.aggregation, aggregations_eq_map]
    | negative t => exact (Aggregation.resolve_singleton _).symm
    | call c => exact (Aggregation.resolve_singleton _).symm
    | condition c => exact (Aggregation.resolve_singleton _).symm
    | arithmetic _ left right => rfl
    | value _ | named _ _ | null | parameter _ | raw _ | interval _ | subquery _ => rfl
  | call c =>
    obtain ⟨name, form, aggregate, distinct, ignoreNulls, args, filter, window⟩ := c
    cases hcall
    show Call.aggregation _ = Aggregation.resolve ((args.map Piece.term).map aggregation)
    rw [Call.aggregation, aggregations_eq_map]
    rfl
  | condition c =>
    cases c with
    | isNull _ t | isIn _ t _ | isInRows _ t _ | between _ t _ _ | not c | term t =>
      exact (Aggregation.resolve_singleton _).symm
    | empty | hasRows _ _ | compare _ _ _ | «matches» _ _ _ _ _ | json _ _ _ | search _ _ _
    | combined _ _ _ => rfl
  | window w => rfl
  | query q => rfl
  | compound c => rfl

/-- **Status is found by reading.** A column outside of aggregate calls makes a piece one that has a
value for each row, and an aggregate call without such a column makes it an aggregate. Looked at are
the operands that count. -/
theorem aggregation_iff (hcase : p.CaseFree) :
    (p.aggregation = .perRow ↔ p.Finds counted isColumn) ∧
      (p.aggregation = .aggregate ↔
        ¬ p.Finds counted isColumn ∧ p.Finds counted isAggregateCall) := by
  induction p using Piece.induction with
  | h p ih =>
    have ih : ∀ x ∈ p.counted, (x.aggregation = .perRow ↔ x.Finds counted isColumn) ∧
        (x.aggregation = .aggregate ↔
          ¬ x.Finds counted isColumn ∧ x.Finds counted isAggregateCall) :=
      fun x hx => ih x (mem_operands_iff.mpr (.inl hx)) (hcase.counted hx)
    rw [finds_iff (p := p), finds_iff (p := p)]
    cases hcolumn : p.isColumn with
    | true => simp [aggregation_of_column hcolumn]
    | false =>
      cases hcall : p.isAggregateCall with
      | true => simp [aggregation_of_aggregateCall hcall]
      | false =>
        have hperRow : .perRow ∈ p.counted.map aggregation ↔
            ∃ x ∈ p.counted, x.Finds counted isColumn := by
          rw [List.mem_map]
          exact exists_congr fun x => and_congr_right fun hx => (ih x hx).1
        have haggregate (hnone : ¬ ∃ x ∈ p.counted, x.Finds counted isColumn) :
            .aggregate ∈ p.counted.map aggregation ↔
              ∃ x ∈ p.counted, x.Finds counted isAggregateCall := by
          rw [List.mem_map]
          refine exists_congr fun x => and_congr_right fun hx => (ih x hx).2.trans ?_
          exact and_iff_right fun hfound => hnone ⟨x, hx, hfound⟩
        rw [aggregation_eq hcase hcolumn hcall, Aggregation.resolve_eq_aggregate_iff,
          Aggregation.resolve_eq_perRow_iff, hperRow]
        simp only [Bool.false_eq_true, false_or, true_and]
        exact and_congr_right haggregate

/-! ## Operands that are passed over -/

/-- What is passed over in the places that count shows no column and calls no aggregate function. -/
def CountsAll (p : Piece) : Prop :=
  ∀ a, p.Reaches counted a → a.isAggregateCall = false → ∀ x ∈ a.passedOver,
    ¬ x.Finds operands isColumn ∧ ¬ x.Finds operands isAggregateCall

theorem CountsAll.operand (h : p.CountsAll) (hcall : p.isAggregateCall = false)
    (hx : x ∈ p.counted) : x.CountsAll :=
  fun a hreaches => h a (.head ⟨hcall, hx⟩ hreaches)

theorem CountsAll.of_counted
    (hpassed : ∀ x ∈ p.passedOver, ¬ x.Finds operands isColumn ∧
      ¬ x.Finds operands isAggregateCall)
    (h : p.isAggregateCall = false → ∀ x ∈ p.counted, x.CountsAll) : p.CountsAll := by
  intro a hreaches hcall
  rcases ReflTransGen.cases_head hreaches with rfl | ⟨x, ⟨hp, hx⟩, hrest⟩
  · exact hpassed
  · exact h hp x hx a hrest hcall

theorem CountsAll.of_operand
    (hpassed : ∀ x ∈ p.passedOver, ¬ x.Finds operands isColumn ∧
      ¬ x.Finds operands isAggregateCall)
    (hx : p.counted = [x]) (h : x.CountsAll) : p.CountsAll :=
  .of_counted hpassed fun _ y hy => by
    rw [hx] at hy
    cases List.mem_singleton.mp hy
    exact h

/-- Nothing is missed by looking at the operands that count only. -/
theorem CountsAll.finds_iff (h : p.CountsAll)
    (htest : test = isColumn ∨ test = isAggregateCall) :
    p.Finds operands test ↔ p.Finds counted test := by
  constructor
  · rintro ⟨y, hreaches, hy⟩
    induction hreaches using ReflTransGen.head_induction_on with
    | refl => exact ⟨y, .refl, hy⟩
    | @head p x hstep hrest ih =>
      obtain ⟨hcall, hx⟩ := hstep
      rcases mem_operands_iff.mp hx with hcounted | hpassed
      · exact Piece.finds_iff.mpr (.inr ⟨hcall, x, hcounted, ih (h.operand hcall hcounted)⟩)
      · obtain ⟨hcolumn, haggregate⟩ := h p .refl hcall x hpassed
        rcases htest with rfl | rfl
        · exact absurd ⟨y, hrest, hy⟩ hcolumn
        · exact absurd ⟨y, hrest, hy⟩ haggregate
  · rintro ⟨y, hreaches, hy⟩
    refine ⟨y, ReflTransGen.mono (fun a b hstep => ?_) _ _ hreaches, hy⟩
    exact ⟨hstep.1, mem_operands_iff.mpr (.inl hstep.2)⟩

end Piece

namespace Term

/-- The status of a term is told by what is found in it by the given operands: a column makes it a
term that is no aggregate, and without a column an aggregate call makes it an aggregate. -/
structure StatusBy (t : Term) (operands : Piece → List Piece) : Prop where
  perRow : t.aggregation.toOption = some false ↔ (Piece.term t).Finds operands Piece.isColumn
  aggregate : t.aggregation.toOption = some true ↔
    ¬ (Piece.term t).Finds operands Piece.isColumn ∧ (Piece.term t).Finds operands Piece.isAggregateCall
  neutral : t.aggregation.toOption = none ↔
    ¬ (Piece.term t).Finds operands Piece.isColumn ∧ ¬ (Piece.term t).Finds operands Piece.isAggregateCall

/-- **The status of a term is told by what stands in it.** A term without a choice is no aggregate
if a field or star stands in it outside of aggregate calls and nested queries, it is an aggregate if
none does and an aggregate function is called in it, and otherwise its status is open. Looked at are
the operands that count; where those that are passed over show no column and call no aggregate
function, all operands tell the status. -/
theorem status_found (t : Term) (hcase : (Piece.term t).CaseFree) :
    t.StatusBy Piece.counted ∧ ((Piece.term t).CountsAll → t.StatusBy Piece.operands) := by
  obtain ⟨hperRow, haggregate⟩ := Piece.aggregation_iff hcase
  have hcounted : t.StatusBy Piece.counted := by
    refine ⟨Aggregation.toOption_eq_false_iff.trans hperRow,
      Aggregation.toOption_eq_true_iff.trans haggregate, ?_⟩
    rw [Aggregation.toOption_eq_none_iff]
    change (Piece.term t).aggregation = .neutral ↔ _
    rw [← hperRow] at haggregate ⊢
    cases h : (Piece.term t).aggregation <;> simp_all
  refine ⟨hcounted, fun hall => ?_⟩
  obtain ⟨hperRow, haggregate, hneutral⟩ := hcounted
  rw [← hall.finds_iff (.inl rfl)] at hperRow haggregate hneutral
  rw [← hall.finds_iff (.inr rfl)] at haggregate hneutral
  exact ⟨hperRow, haggregate, hneutral⟩

/-- Nothing is found in a value. -/
theorem not_finds_int (n : Int) :
    ¬ (Piece.term (int n)).Finds Piece.operands Piece.isColumn ∧
      ¬ (Piece.term (int n)).Finds Piece.operands Piece.isAggregateCall := by
  constructor <;>
  · refine Piece.not_finds_of_operands rfl fun x hx => ?_
    cases List.mem_singleton.mp hx
    exact Piece.not_finds_of_operands rfl nofun

theorem caseFree_field (name : String) : (Piece.term (field name)).CaseFree :=
  .of_operand nofun rfl (.of_operands nofun nofun)

theorem caseFree_int (n : Int) : (Piece.term (int n)).CaseFree :=
  .of_operand nofun rfl (.of_operands nofun nofun)

/-- A sum has no choice in it if its argument has none. -/
theorem caseFree_sum {t : Term} (h : (Piece.term t).CaseFree) :
    (Piece.term (Function.sum t)).CaseFree :=
  .of_operand nofun rfl (.of_operand nofun rfl (.of_operand nofun rfl h))

/-- The truth value of a condition has no choice in it if the operands of the condition have
none. -/
theorem caseFree_condition {c : Condition} (h : ∀ x ∈ c.operands, x.CaseFree) :
    (Piece.term ⟨.condition c, none⟩).CaseFree :=
  .of_operand nofun rfl (.of_operand nofun rfl (.of_operands nofun h))

/-- A sum that is looked for in a list of numbers. -/
theorem status_found_sum :
    let sum := Function.sum (field "a")
    let t : Term := ⟨.condition (.isIn false sum [int 1, int 2]), none⟩
    (Piece.term t).CaseFree ∧ (Piece.term t).CountsAll ∧ t.StatusBy Piece.operands := by
  intro sum t
  have hcase : (Piece.term t).CaseFree := caseFree_condition fun x hx => by
    simp only [Condition.operands, List.map_cons, List.map_nil, List.mem_cons, List.not_mem_nil,
      or_false] at hx
    rcases hx with rfl | rfl | rfl
    · exact caseFree_sum (caseFree_field "a")
    · exact caseFree_int 1
    · exact caseFree_int 2
  have hfield : (Piece.term (field "a")).CountsAll :=
    .of_operand nofun rfl (.of_counted nofun nofun)
  have hsum : (Piece.term sum).CountsAll :=
    .of_operand nofun rfl (.of_operand nofun rfl (.of_operand nofun rfl hfield))
  have hall : (Piece.term t).CountsAll := by
    refine .of_operand nofun rfl (.of_operand nofun rfl (.of_operand (fun x hx => ?_) rfl hsum))
    obtain ⟨u, hu, rfl⟩ := List.mem_map.mp hx
    simp only [List.mem_cons, List.not_mem_nil, or_false] at hu
    rcases hu with rfl | rfl <;> exact not_finds_int _
  exact ⟨hcase, hall, (status_found t hcase).2 hall⟩

/-- **The bounds of a range and the items of a list are passed over.** A sum between two columns is
an aggregate, though columns stand beside the sum, and a number that is looked for among sums has an
open status. So the status of neither term is told by all operands. -/
theorem status_passes_over :
    let sum := Function.sum (field "a")
    let range : Term := ⟨.condition (.between false sum (field "b") (field "c")), none⟩
    let listed : Term := ⟨.condition (.isIn false (int 1) [sum]), none⟩
    ((Piece.term range).CaseFree ∧ range.aggregation.toOption = some true ∧
        ¬ range.StatusBy Piece.operands) ∧
      (Piece.term listed).CaseFree ∧ listed.aggregation.toOption = none ∧
        ¬ listed.StatusBy Piece.operands := by
  intro sum range listed
  have hrange : (Piece.term range).CaseFree := caseFree_condition fun x hx => by
    simp only [Condition.operands, List.mem_cons, List.not_mem_nil, or_false] at hx
    rcases hx with rfl | rfl | rfl
    · exact caseFree_sum (caseFree_field "a")
    · exact caseFree_field "b"
    · exact caseFree_field "c"
  have hlisted : (Piece.term listed).CaseFree := caseFree_condition fun x hx => by
    simp only [Condition.operands, List.map_cons, List.map_nil, List.mem_cons, List.not_mem_nil,
      or_false] at hx
    rcases hx with rfl | rfl
    · exact caseFree_int 1
    · exact caseFree_sum (caseFree_field "a")
  have hcolumn : (Piece.term range).Finds Piece.operands Piece.isColumn := by
    refine ⟨.expr (field "b").expr, ?_, rfl⟩
    refine .head ⟨rfl, List.mem_singleton_self _⟩ (.head ⟨rfl, List.mem_singleton_self _⟩ ?_)
    exact .head (b := .term (field "b")) ⟨rfl, by simp [Piece.operands, Condition.operands]⟩
      (.single ⟨rfl, List.mem_singleton_self _⟩)
  have haggregate : (Piece.term listed).Finds Piece.operands Piece.isAggregateCall := by
    refine ⟨.call { name := "SUM", args := [field "a"], aggregate := true }, ?_, rfl⟩
    refine .head ⟨rfl, List.mem_singleton_self _⟩ (.head ⟨rfl, List.mem_singleton_self _⟩ ?_)
    exact .head (b := .term sum) ⟨rfl, by simp [Piece.operands, Condition.operands]⟩
      (.head ⟨rfl, List.mem_singleton_self _⟩ (.single ⟨rfl, List.mem_singleton_self _⟩))
  refine ⟨⟨hrange, rfl, fun h => ?_⟩, hlisted, rfl, fun h => ?_⟩
  · cases h.perRow.mpr hcolumn
  · exact (h.neutral.mp rfl).2 haggregate

end Term

end SqlScribe
