import Mathlib.Tactic.Ring
import SqlScribe.Proofs.Reading.Regrouping
/-! # Arithmetic with integers

Where a quotient of integers is truncated, it matters how products and quotients are grouped. A
product that has a quotient for its right operand is written without parentheses, although it is
then read as a quotient of products. All other expressions are read back with their value.

* `integers`: arithmetic with integers, with division truncated toward zero.
* `Formula.multipliesByQuotient`: somewhere a quotient is the right operand of a product.
* `Formula.eval_graft`, `Formula.eval_regroup`: otherwise regrouping keeps the value.
* `Expr.readArithmetic_lower_integers`: so does reading the tokens of an expression. -/

namespace SqlScribe

open Tokens

/-- The value of an operation on integers: a quotient is truncated, and nothing is divided by
zero. -/
def ArithmeticOp.onInt : ArithmeticOp → ℤ → ℤ → Option ℤ
  | .add, a, b => some (a + b)
  | .sub, a, b => some (a - b)
  | .mul, a, b => some (a * b)
  | .div, a, b => if b = 0 then none else some (a.tdiv b)

/-- Arithmetic with integers, some of which may be undefined. -/
def integers : Interpretation ArithmeticOp (Option ℤ) where
  negate x := x.map (-·)
  apply op x y := x.bind fun a => y.bind fun b => op.onInt a b

/-- A sum takes in the sum or difference behind it, and a product the product, but not the
quotient. -/
theorem integers_regroups {outer inner : ArithmeticOp} (h : outer.takesIn inner = true)
    (hdiv : inner ≠ .div) : integers.Regroups outer inner := by
  intro x y z
  have happly : ∀ (op : ArithmeticOp) (u v : Option ℤ),
      integers.apply op u v = u.bind fun a => v.bind fun b => op.onInt a b := fun _ _ _ => rfl
  simp only [happly]
  cases x with
  | none => rfl
  | some a =>
    cases y with
    | none => rfl
    | some b =>
      cases z with
      | none => cases outer <;> cases inner <;> first | rfl | cases h
      | some c =>
        cases outer <;> cases inner <;> simp only [ArithmeticOp.takesIn, ArithmeticOp.isAdditive,
          Bool.not_true, reduceCtorEq] at h
        · exact congrArg some (add_assoc a b c)
        · exact congrArg some (add_sub_assoc a b c)
        · exact congrArg some (mul_assoc a b c)
        · exact absurd rfl hdiv

namespace Formula

variable {α : Type} {op : ArithmeticOp} {x y : Formula ArithmeticOp α}

/-- The formula is a quotient, or a product with one among its factors. -/
def divides : Formula ArithmeticOp α → Bool
  | .atom _ => false
  | .negated _ => false
  | .binary .add _ _ => false
  | .binary .sub _ _ => false
  | .binary .mul x y => x.divides || y.divides
  | .binary .div _ _ => true

/-- Somewhere in the formula the right operand of a product is a quotient, or a product with one
among its factors. -/
def multipliesByQuotient : Formula ArithmeticOp α → Bool
  | .atom _ => false
  | .negated x => x.multipliesByQuotient
  | .binary op x y => x.multipliesByQuotient || y.multipliesByQuotient || op == .mul && y.divides

theorem atoms_graft (op : ArithmeticOp) (x y : Formula ArithmeticOp α) :
    (graft op x y).atoms = x.atoms ++ y.atoms := by
  induction y with
  | atom a => rfl
  | negated y _ => rfl
  | binary o y z ih =>
    rw [graft]
    split
    · rw [atoms, ih, atoms, List.append_assoc]
    · rfl

/-- Regrouping keeps the atoms and their order. -/
theorem atoms_regroup (x : Formula ArithmeticOp α) : x.regroup.atoms = x.atoms := by
  induction x with
  | atom a => rfl
  | negated x ih => exact ih
  | binary op x y ihx ihy => rw [regroup, atoms_graft, ihx, ihy, atoms]

theorem divides_graft (op : ArithmeticOp) (x y : Formula ArithmeticOp α) :
    (graft op x y).divides = (binary op x y).divides := by
  induction y with
  | atom a => rfl
  | negated y _ => rfl
  | binary o y z ih =>
    rw [graft]
    split
    · next h =>
      cases op <;> cases o <;> simp_all [ArithmeticOp.takesIn, ArithmeticOp.isAdditive, divides,
        Bool.or_assoc]
    · rfl

/-- Regrouping makes no quotients and drops none. -/
theorem divides_regroup (x : Formula ArithmeticOp α) : x.regroup.divides = x.divides := by
  induction x with
  | atom a => rfl
  | negated x _ => rfl
  | binary op x y ihx ihy =>
    rw [regroup, divides_graft]
    cases op <;> simp only [divides, ihx, ihy]

/-- Taking in operations keeps the value, unless a product takes in a quotient. -/
theorem eval_graft (ρ : α → Option ℤ) (x : Formula ArithmeticOp α)
    (h : op = .mul → y.divides = false) :
    (graft op x y).eval integers ρ = integers.apply op (x.eval integers ρ) (y.eval integers ρ) := by
  -- The induction goes down the left operands of what is taken in.
  induction y with
  | atom a => rfl
  | negated y _ => rfl
  | binary o y z ih =>
    rw [graft]
    cases ho : op.takesIn o with
    | false => rfl
    | true =>
      have hdiv : o ≠ .div := by
        rintro rfl
        cases op <;> simp_all [ArithmeticOp.takesIn, ArithmeticOp.isAdditive, divides]
      have hleft : op = .mul → y.divides = false := by
        intro hop
        have hfactors := h hop
        cases o <;> simp_all [ArithmeticOp.takesIn, ArithmeticOp.isAdditive, divides]
      calc (binary o (graft op x y) z).eval integers ρ
          = integers.apply o ((graft op x y).eval integers ρ) (z.eval integers ρ) := rfl
        _ = integers.apply o (integers.apply op (x.eval integers ρ) (y.eval integers ρ))
            (z.eval integers ρ) := by rw [ih hleft]
        _ = integers.apply op (x.eval integers ρ)
            (integers.apply o (y.eval integers ρ) (z.eval integers ρ)) :=
          integers_regroups ho hdiv _ _ _
        _ = integers.apply op (x.eval integers ρ) ((binary o y z).eval integers ρ) := rfl

/-- Regrouping keeps the value where no product has a quotient for its right operand. -/
theorem eval_regroup (ρ : α → Option ℤ) (x : Formula ArithmeticOp α)
    (h : x.multipliesByQuotient = false) :
    x.regroup.eval integers ρ = x.eval integers ρ := by
  induction x with
  | atom a => rfl
  | negated x ih => exact congrArg integers.negate (ih h)
  | binary op x y ihx ihy =>
    obtain ⟨⟨hx, hy⟩, hop⟩ : (x.multipliesByQuotient = false ∧ y.multipliesByQuotient = false) ∧
        (op = .mul → y.divides = false) := by
      simpa [multipliesByQuotient] using h
    have hdivides : op = .mul → y.regroup.divides = false := by
      rw [divides_regroup]
      exact hop
    rw [regroup, eval_graft ρ _ hdivides, ihx hx, ihy hy, eval]

end Formula

namespace Expr

/-- **Arithmetic with integers reads back.** Let the atoms of an expression be fields, values,
placeholders, calls, choices and queries with something to write, and let no product have a quotient
for its right operand, or a product with one among its factors. The expression fails only with an
error of an atom. Otherwise its tokens are read as a formula of the same atoms in the same order,
each of them standing for itself, and for all integer values of the atoms this formula has the value
of the expression, division being truncated toward zero and undefined by zero. -/
theorem readArithmetic_lower_integers (s : Scope) (e : Expr)
    (he : ∀ a ∈ e.formula.atoms, a.isAtom = true)
    (hquotient : e.formula.multipliesByQuotient = false) :
    (∀ err, e.lower s = .error err → ∃ a ∈ e.formula.atoms, a.lower s = .error err) ∧
    ∀ ts, e.lower s = .ok ts →
      (∀ a ∈ e.formula.atoms,
        ∃ us, a.lower s = .ok us ∧ readArithmetic us = some (.atom (a.trees s))) ∧
      ∃ tree : Formula ArithmeticOp Expr,
        readArithmetic ts = some (tree.bind fun a => .atom (a.trees s)) ∧
        tree.atoms = e.formula.atoms ∧
        ∀ ρ : Expr → Option ℤ, tree.eval integers ρ = e.formula.eval integers ρ := by
  obtain ⟨herr, hok⟩ := lower_from s e
  refine ⟨herr, fun ts hts => ⟨fun a ha => ?_, e.formula.regroup, ?_, ?_, fun ρ => ?_⟩⟩
  · obtain ⟨us, hus⟩ := hok ts hts a ha
    exact ⟨us, hus, readArithmetic_atom s (he a ha) hus⟩
  · exact readArithmetic_eq_regroup s he hts
  · exact Formula.atoms_regroup e.formula
  · exact Formula.eval_regroup ρ e.formula hquotient

/-- A quotient times a number, less a difference, which stands in parentheses. -/
theorem readArithmetic_lower_integers_quotient :
    let e := Expr.arithmetic .sub (Term.field "a" / Term.field "b" * -Term.field "c")
      (Term.field "d" - Term.field "e")
    let ts : Tokens := .ident "a" :: .mark .divide :: .ident "b" :: .mark .times :: .mark .minus ::
      .ident "c" :: .mark .minus :: Tokens.parens [.ident "d", .mark .minus, .ident "e"]
    ∃ tree : Formula ArithmeticOp Expr,
      readArithmetic ts = some (tree.bind fun a => .atom (a.trees (.ofOptions .ansi {}))) ∧
      tree.atoms = e.formula.atoms ∧
      ∀ ρ : Expr → Option ℤ, tree.eval integers ρ = e.formula.eval integers ρ :=
  ((readArithmetic_lower_integers _ _ (by decide) (by decide)).2 _ rfl).2

/-- A product with a quotient at its right is written without parentheses and read as the quotient
of a product. Twice the half of one is nothing then, but the half of two is one. -/
theorem product_of_quotient_regroups :
    let a := Expr.field none "a"
    let b := Expr.field none "b"
    let c := Expr.field none "c"
    let e := Expr.arithmetic .mul (Term.ofExpr a) (Term.ofExpr b / Term.ofExpr c)
    let ts : Tokens := [.ident "a", .mark .times, .ident "b", .mark .divide, .ident "c"]
    let s := Scope.ofOptions .postgres {}
    let tree : Formula ArithmeticOp Expr :=
      .binary .div (.binary .mul (.atom a) (.atom b)) (.atom c)
    let ρ : Expr → Option ℤ := fun x =>
      if (Term.ofExpr x).fieldName? = some "b" then some 1 else some 2
    (∀ x ∈ e.formula.atoms, x.isAtom = true) ∧ e.lower s = .ok ts ∧
      readArithmetic ts = some (tree.bind fun x => .atom (x.trees s)) ∧
      e.formula.eval integers ρ = some 0 ∧ tree.eval integers ρ = some 1 :=
  ⟨by decide, rfl, rfl, rfl, rfl⟩

end Expr

end SqlScribe
