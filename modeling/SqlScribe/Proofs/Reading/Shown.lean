import SqlScribe.Proofs.Reading.Atom
/-! # What terms and conditions show

Outside the brackets of a term or condition stand only tokens of atoms, of predicates and of
operations, and the words between conditions: no clause of a statement begins there.

* `Token.Covers`: properties that all these tokens have.
* `Expr.lower_shows_all`, `Condition.lower_shows_all`: so the tokens outside brackets have them. -/

namespace SqlScribe

open Tokens

/-- The property holds of all tokens that an expression may show outside its brackets. -/
structure Token.Covers (p : Token → Prop) : Prop where
  /-- Tokens of atoms. -/
  atom : ∀ t : Token, t.inAtom = true → p t
  /-- Tokens of predicates. -/
  predicate : ∀ t : Token, t.inPredicate = true → p t
  /-- Marks of operations. -/
  operation : ∀ op : ArithmeticOp, p (.mark op.mark)
  /-- The word of a range. -/
  range : p (.word .BETWEEN)
  /-- Words between conditions. -/
  connective : ∀ op : Connective, p (.word op.keyword)

mutual

theorem Term.lower_shows_all {p : Token → Prop} (hp : Token.Covers p) (s : Scope) :
    ∀ t : Term, Yields (Shows p) (t.lower s.quiet)
  | ⟨expr, alias?⟩ => by
    rw [Term.lower_quiet]
    exact Expr.lower_shows_all hp s expr

theorem Expr.lower_shows_all {p : Token → Prop} (hp : Token.Covers p) (s : Scope) (e : Expr) :
    Yields (Shows p) (e.lower s) := by
  cases e with
  | arithmetic op left right =>
    rw [Expr.lower]
    exact Clause.arithmetic_shows op _ _ (hp.operation op) (Term.lower_shows_all hp s left)
      (Term.lower_shows_all hp s right)
  | negative t =>
    rw [Expr.lower]
    exact Clause.negative_shows _ (hp.operation .sub) (Term.lower_shows_all hp s t)
  | condition c =>
    rw [Expr.lower]
    exact Condition.lower_shows_all hp s.quiet c
  | _ => exact Expr.lower_shows hp.atom s _ rfl

theorem Condition.lower_shows_all {p : Token → Prop} (hp : Token.Covers p) (s : Scope)
    (c : Condition) : Yields (Shows p) (c.lower s) := by
  rw [Condition.lower.eq_def]
  cases c with
  | empty => exact .ok .nil
  | compare op left right =>
    exact (Clause.comparison_asserts hp.predicate op _ (Term.lower_shows_all hp s left)
      (Term.lower_shows_all hp s right)).mono fun _ h => h.shows
  | «matches» op negated term pattern escape =>
    exact (Clause.matching_asserts hp.predicate s.dialect op negated escape
      (Term.lower_shows_all hp s term) (Term.lower_shows_all hp s pattern)).mono fun _ h => h.shows
  | json op left right =>
    exact (Clause.json_asserts hp.predicate s.dialect op (Term.lower_shows_all hp s left)
      (Term.lower_shows_all hp s right)).mono fun _ h => h.shows
  | search op term value =>
    exact (Clause.search_asserts hp.predicate s.dialect op (Term.lower_shows_all hp s term)
      (Term.lower_shows_all hp s value)).mono fun _ h => h.shows
  | isNull negated term =>
    exact (Clause.isNull_asserts hp.predicate negated (Term.lower_shows_all hp s term)).mono
      fun _ h => h.shows
  | isIn negated term items =>
    exact (Clause.isIn_asserts hp.predicate negated _ (Term.lower_shows_all hp s term)
      (Term.lowerAll_nest s.quiet items)).mono fun _ h => h.shows
  | isInRows negated term rows =>
    exact (Clause.isInRows_asserts hp.predicate negated (Term.lower_shows_all hp s term)
      (rows.lower_embedded_shows s)).mono fun _ h => h.shows
  | between negated term low high =>
    exact Clause.between_shows hp.predicate negated (hp.connective .and) hp.range
      (Term.lower_shows_all hp s term) (Term.lower_shows_all hp s low)
      (Term.lower_shows_all hp s high)
  | hasRows negated rows =>
    exact (Clause.hasRows_asserts hp.predicate negated (rows.lower_embedded_shows s)).mono
      fun _ h => h.shows
  | combined op left right =>
    exact Clause.combined_shows op _ _ (hp.connective op)
      (Condition.lower_shows_all hp s.quiet left) (Condition.lower_shows_all hp s.quiet right)
  | not c =>
    exact Clause.negated_shows _ (hp.predicate _ rfl) (Condition.lower_shows_all hp s.quiet c)
  | term t => exact Term.lower_shows_all hp s t

end

end SqlScribe
