/-! # Formulas

Atoms under negations and binary operators: what an expression is once its parentheses are gone.
Two formulas are the same when they have the same atoms in the same order and the same value
whatever the atoms are.

* `Formula.eval`: the value of a formula under an interpretation of its operators.
* `Formula.bind`: formulas in the places of atoms.
* `Formula.Same`: formulas that cannot be told apart, with its congruence laws. -/

namespace SqlScribe

/-- Atoms under negations and binary operators. -/
inductive Formula (Op α : Type) where
  /-- An atom. -/
  | atom (a : α)
  /-- A negated formula. -/
  | negated (x : Formula Op α)
  /-- Two formulas under an operator. -/
  | binary (op : Op) (left right : Formula Op α)
deriving Repr, DecidableEq

/-- What operators mean on values. -/
structure Interpretation (Op β : Type) where
  /-- The negation. -/
  negate : β → β
  /-- The binary operators. -/
  apply : Op → β → β → β

/-- The operator `inner` can be moved out of the right operand of `outer`. -/
def Interpretation.Regroups {Op β : Type} (I : Interpretation Op β) (outer inner : Op) : Prop :=
  ∀ a b c, I.apply inner (I.apply outer a b) c = I.apply outer a (I.apply inner b c)

namespace Formula

variable {Op α β γ : Type}

/-- The atoms from left to right. -/
def atoms : Formula Op α → List α
  | .atom a => [a]
  | .negated x => x.atoms
  | .binary _ x y => x.atoms ++ y.atoms

/-- The value of a formula where `ρ` gives the values of its atoms. -/
def eval (I : Interpretation Op β) (ρ : α → β) : Formula Op α → β
  | .atom a => ρ a
  | .negated x => I.negate (x.eval I ρ)
  | .binary op x y => I.apply op (x.eval I ρ) (y.eval I ρ)

/-- The formula with a formula in the place of each atom. -/
def bind (r : α → Formula Op γ) : Formula Op α → Formula Op γ
  | .atom a => r a
  | .negated x => .negated (x.bind r)
  | .binary op x y => .binary op (x.bind r) (y.bind r)

/-- The formula under some negations. -/
def negatedTimes : Nat → Formula Op α → Formula Op α
  | 0, x => x
  | n + 1, x => negatedTimes n (.negated x)

/-- A left operand with its operator, if there is one, before a right operand. -/
def under (left : Option (Formula Op α × Op)) (x : Formula Op α) : Formula Op α :=
  match left with
  | none => x
  | some (y, op) => .binary op y x

@[simp] theorem bind_atom (r : α → Formula Op γ) (a : α) : (atom a).bind r = r a := rfl

@[simp] theorem bind_negatedTimes (r : α → Formula Op γ) (n : Nat) (x : Formula Op α) :
    (negatedTimes n x).bind r = negatedTimes n (x.bind r) := by
  induction n generalizing x with
  | zero => rfl
  | succ n ih => exact ih (.negated x)

theorem under_bind (r : α → Formula Op γ) (left : Option (Formula Op α × Op))
    (x : Formula Op α) :
    under (left.map fun left => (left.1.bind r, left.2)) (x.bind r) = (under left x).bind r := by
  cases left <;> rfl

theorem atoms_ne_nil (x : Formula Op α) : x.atoms ≠ [] := by
  induction x with
  | atom a => exact List.cons_ne_nil _ _
  | negated x ih => exact ih
  | binary op x y ihx ihy => exact List.append_ne_nil_of_left_ne_nil ihx _

/-- The value of a formula depends on the values of its atoms only. -/
theorem eval_congr (I : Interpretation Op β) {ρ ρ' : α → β} {x : Formula Op α}
    (h : ∀ a ∈ x.atoms, ρ a = ρ' a) : x.eval I ρ = x.eval I ρ' := by
  induction x with
  | atom a => exact h a (List.mem_singleton_self a)
  | negated x ih => exact congrArg I.negate (ih h)
  | binary op x y ihx ihy =>
    rw [eval, eval, ihx fun a ha => h a (List.mem_append_left _ ha),
      ihy fun a ha => h a (List.mem_append_right _ ha)]

/-- Formulas in the places of atoms give them their values. -/
theorem eval_bind (I : Interpretation Op β) (ρ : γ → β) (r : α → Formula Op γ)
    (x : Formula Op α) : (x.bind r).eval I ρ = x.eval I fun a => (r a).eval I ρ := by
  induction x with
  | atom a => rfl
  | negated x ih => exact congrArg I.negate ih
  | binary op x y ihx ihy => rw [bind, eval, eval, ihx, ihy]

/-- The negations of a formula add up. -/
theorem negatedTimes_add (m n : Nat) (x : Formula Op α) :
    negatedTimes m (negatedTimes n x) = negatedTimes (n + m) x := by
  induction n generalizing x with
  | zero => rw [Nat.zero_add]; rfl
  | succ n ih =>
    rw [Nat.succ_add]
    exact ih (.negated x)

/-! ## Formulas that cannot be told apart -/

/-- The formulas have the same atoms in the same order, and the same value for all values of
them. -/
structure Same (I : Interpretation Op β) (x y : Formula Op α) : Prop where
  /-- The atoms are the same. -/
  atoms : x.atoms = y.atoms
  /-- The values are the same. -/
  value : ∀ ρ : α → β, x.eval I ρ = y.eval I ρ

namespace Same

variable {I : Interpretation Op β} {x y z x' y' : Formula Op α}

protected theorem refl (x : Formula Op α) : Same I x x := ⟨rfl, fun _ => rfl⟩

protected theorem trans (h : Same I x y) (h' : Same I y z) : Same I x z :=
  ⟨h.atoms.trans h'.atoms, fun ρ => (h.value ρ).trans (h'.value ρ)⟩

theorem negated (h : Same I x y) : Same I (.negated x) (.negated y) :=
  ⟨h.atoms, fun ρ => congrArg I.negate (h.value ρ)⟩

theorem binary (op : Op) (hx : Same I x x') (hy : Same I y y') :
    Same I (.binary op x y) (.binary op x' y') := by
  refine ⟨?_, fun ρ => ?_⟩
  · rw [Formula.atoms, hx.atoms, hy.atoms, Formula.atoms]
  · rw [eval, hx.value ρ, hy.value ρ, eval]

theorem negatedTimes (n : Nat) (h : Same I x y) :
    Same I (Formula.negatedTimes n x) (Formula.negatedTimes n y) := by
  induction n generalizing x y with
  | zero => exact h
  | succ n ih => exact ih h.negated

theorem under (left : Option (Formula Op α × Op)) (h : Same I x y) :
    Same I (Formula.under left x) (Formula.under left y) := by
  cases left with
  | none => exact h
  | some left => exact (Same.refl left.1).binary left.2 h

end Same

/-- Moving an operator out of a right operand makes no difference where the values allow it. -/
theorem Same.regroup {I : Interpretation Op β} {outer inner : Op}
    (h : I.Regroups outer inner) (x y z : Formula Op α) :
    Same I (.binary inner (.binary outer x y) z) (.binary outer x (.binary inner y z)) := by
  refine ⟨?_, fun ρ => ?_⟩
  · simp only [Formula.atoms, List.append_assoc]
  · exact h _ _ _

/-- A left operand whose operator allows it takes in the left operand of what is behind it. -/
theorem Same.under_regroup {I : Interpretation Op β} {op : Op}
    {left : Option (Formula Op α × Op)} (h : ∀ l ∈ left, I.Regroups l.2 op) (x y : Formula Op α) :
    Same I (.binary op (Formula.under left x) y) (Formula.under left (.binary op x y)) := by
  cases left with
  | none => exact .refl _
  | some l => exact .regroup (h l rfl) _ _ _

end Formula

end SqlScribe
