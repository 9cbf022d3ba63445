import Mathlib.Algebra.Field.Rat
import SqlScribe.Proofs.Reading.Atom
/-! # Arithmetic read back

An arithmetic expression is written with few parentheses. Its tokens are read back by the usual
grammar: a sign binds tightest, then products and quotients, then sums and differences, all of them
from the left. What is read may be grouped in another way than the expression, but it has the same
value for all rational values of the atoms, division by zero being undefined.

* `Arithmetic.grammar`, `readArithmetic`: the grammar and its reader.
* `rationals`: arithmetic with exact rational numbers.
* `Arithmetic.Reads`: what is pending before an operand carries over to its reading; one law for
  each way in which expressions are put together. -/

namespace SqlScribe

open Tokens

namespace ArithmeticOp

/-- The operator of a mark. -/
def ofMark? : Mark → Option ArithmeticOp
  | .plus => some .add
  | .minus => some .sub
  | .times => some .mul
  | .divide => some .div
  | _ => none

/-- The value of an operation on rational numbers; nothing is divided by zero. -/
def onRat : ArithmeticOp → ℚ → ℚ → Option ℚ
  | .add, a, b => some (a + b)
  | .sub, a, b => some (a - b)
  | .mul, a, b => some (a * b)
  | .div, a, b => if b = 0 then none else some (a / b)

end ArithmeticOp

/-- Arithmetic with exact rational numbers, some of which may be undefined. -/
def rationals : Interpretation ArithmeticOp (Option ℚ) where
  negate x := x.map (-·)
  apply op x y := x.bind fun a => y.bind fun b => op.onRat a b

/-- A sum takes in the sum or difference behind it, and a product the product or quotient. -/
theorem rationals_regroups {outer inner : ArithmeticOp}
    (h : outer = .add ∧ inner.isAdditive = true ∨ outer = .mul ∧ inner.isAdditive = false) :
    rationals.Regroups outer inner := by
  intro x y z
  have happly : ∀ (op : ArithmeticOp) (u v : Option ℚ),
      rationals.apply op u v = u.bind fun a => v.bind fun b => op.onRat a b := fun _ _ _ => rfl
  simp only [happly]
  cases x with
  | none => rfl
  | some a =>
    cases y with
    | none => rfl
    | some b =>
      cases z with
      | none => rcases h with ⟨rfl, -⟩ | ⟨rfl, -⟩ <;> rfl
      | some c =>
        rcases h with ⟨rfl, hinner⟩ | ⟨rfl, hinner⟩ <;> cases inner <;>
          simp only [ArithmeticOp.isAdditive, reduceCtorEq] at hinner
        · exact congrArg some (add_assoc a b c)
        · exact congrArg some (add_sub_assoc a b c)
        · exact congrArg some (mul_assoc a b c)
        · -- A quotient by zero is undefined on both sides.
          by_cases hc : c = 0
          · simp [ArithmeticOp.onRat, hc]
          · simp [ArithmeticOp.onRat, hc, mul_div_assoc]

namespace Arithmetic

variable {α β : Type}

/-- What is pending before an operand: a sum or difference, then a product or quotient, then
signs. -/
structure Pending (α : Type) where
  /-- The left operand of a sum or difference. -/
  sum : Option (Formula ArithmeticOp α × ArithmeticOp) := none
  /-- The left operand of a product or quotient. -/
  product : Option (Formula ArithmeticOp α × ArithmeticOp) := none
  /-- The number of signs. -/
  signs : Nat := 0

namespace Pending

/-- The product or quotient that ends with an operand. -/
def term (P : Pending α) (x : Formula ArithmeticOp α) : Formula ArithmeticOp α :=
  .under P.product (x.negatedTimes P.signs)

/-- The sum or difference that ends with an operand. -/
def whole (P : Pending α) (x : Formula ArithmeticOp α) : Formula ArithmeticOp α :=
  .under P.sum (P.term x)

/-- What is pending behind an operand and an operator. -/
def close (P : Pending α) (op : ArithmeticOp) (x : Formula ArithmeticOp α) : Pending α :=
  if op.isAdditive then { sum := some (P.whole x, op) }
  else { sum := P.sum, product := some (P.term x, op) }

/-- What is pending with formulas in the places of atoms. -/
def bind (P : Pending α) (r : α → Formula ArithmeticOp β) : Pending β where
  sum := P.sum.map fun left => (left.1.bind r, left.2)
  product := P.product.map fun left => (left.1.bind r, left.2)
  signs := P.signs

end Pending

/-- What a tree is: a minus before an operand is a sign, and every other mark of an operation is an
operator. -/
def kind (P : Pending Forest) (begun : Bool) :
    TokenTree → TreeKind ArithmeticOp (Pending Forest)
  | .token (.mark m) =>
    match ArithmeticOp.ofMark? m with
    | none => .part P
    | some op =>
      if begun = false ∧ op = .sub then .sign { P with signs := P.signs + 1 } else .operator op
  | _ => .part P

/-- The grammar of arithmetic expressions. -/
def grammar : Grammar ArithmeticOp (Pending Forest) where
  start := {}
  kind := kind
  close P op x := some (P.close op x)
  whole := Pending.whole

end Arithmetic

/-- The formula that tokens stand for by the usual rules of arithmetic. -/
def readArithmetic (ts : Tokens) : Option (Formula ArithmeticOp Forest) :=
  Arithmetic.grammar.readTokens ts

/-- A sign binds tighter than a quotient, which binds tighter than a difference. -/
example : (readArithmetic [.ident "a", .mark .minus, .mark .minus, .ident "b", .mark .divide,
      .ident "c", .mark .minus, .ident "d"]) =
    some (.binary .sub (.binary .sub (.atom [.token (.ident "a")])
      (.binary .div (.negated (.atom [.token (.ident "b")])) (.atom [.token (.ident "c")])))
      (.atom [.token (.ident "d")])) := rfl

namespace Arithmetic

variable {α β : Type}

namespace Pending

variable {P Q : Pending α} {x y : Formula ArithmeticOp α} {op o : ArithmeticOp}

theorem term_bind (P : Pending α) (x : Formula ArithmeticOp α) (r : α → Formula ArithmeticOp β) :
    (P.bind r).term (x.bind r) = (P.term x).bind r := by
  rw [term, term, ← Formula.under_bind, Formula.bind_negatedTimes]
  rfl

theorem whole_bind (P : Pending α) (x : Formula ArithmeticOp α) (r : α → Formula ArithmeticOp β) :
    (P.bind r).whole (x.bind r) = (P.whole x).bind r := by
  rw [whole, whole, ← Formula.under_bind, term_bind]
  rfl

theorem close_bind (P : Pending α) (op : ArithmeticOp) (x : Formula ArithmeticOp α)
    (r : α → Formula ArithmeticOp β) :
    (P.bind r).close op (x.bind r) = (P.close op x).bind r := by
  unfold close
  split
  · rw [whole_bind]
    rfl
  · rw [term_bind]
    rfl

theorem term_same (P : Pending α) (h : x.Same rationals y) :
    (P.term x).Same rationals (P.term y) :=
  (h.negatedTimes P.signs).under _

theorem whole_same (hsum : Q.sum = P.sum) (h : (Q.term y).Same rationals (P.term x)) :
    (Q.whole y).Same rationals (P.whole x) := by
  rw [whole, whole, hsum]
  exact h.under _

/-- An operation can be read without parentheses behind what is pending: there are no signs, and a
pending operator takes in the operation. -/
structure Admits (P : Pending α) (op : ArithmeticOp) : Prop where
  signs : P.signs = 0
  sum : op.isAdditive = true → P.product = none ∧ ∀ left ∈ P.sum, left.2 = .add
  product : op.isAdditive = false → ∀ left ∈ P.product, left.2 = .mul

theorem start_admits (op : ArithmeticOp) : Admits ({} : Pending α) op :=
  ⟨rfl, fun _ => ⟨rfl, nofun⟩, fun _ => nofun⟩

/-- What admits an operation admits its left operand, unless that stands in parentheses. -/
theorem Admits.left (h : P.Admits op) (ho : op.parenthesizesLeft o = false) : P.Admits o := by
  cases hop : op.isAdditive with
  | true =>
    obtain ⟨hproduct, hsum⟩ := h.sum hop
    exact ⟨h.signs, fun _ => ⟨hproduct, hsum⟩, fun _ => by rw [hproduct]; nofun⟩
  | false =>
    have hoadd : o.isAdditive = false := by
      simpa [ArithmeticOp.parenthesizesLeft, hop] using ho
    exact ⟨h.signs, fun h' => absurd (hoadd.symm.trans h') Bool.false_ne_true,
      fun _ => h.product hop⟩

/-- Behind an operator the right operand is admitted, unless it stands in parentheses. -/
theorem Admits.right (ho : op.parenthesizesRight o = false) : (P.close op x).Admits o := by
  cases op with
  | add => exact ⟨rfl, fun _ => ⟨rfl, fun left h => by cases h; rfl⟩, fun _ => nofun⟩
  | sub => exact ⟨rfl, fun h => absurd (ho.symm.trans h) Bool.false_ne_true, fun _ => nofun⟩
  | mul =>
    exact ⟨rfl, fun h => absurd (ho.symm.trans h) Bool.false_ne_true,
      fun _ left h => by cases h; rfl⟩
  | div => cases ho

/-- A sum or difference behind what admits it. -/
theorem Admits.whole (h : P.Admits op) (hop : op.isAdditive = true) :
    (Formula.binary op (P.whole x) y).Same rationals (P.whole (.binary op x y)) := by
  obtain ⟨hproduct, hsum⟩ := h.sum hop
  have hterm : ∀ z, P.term z = z := fun z => by rw [term, hproduct, h.signs]; rfl
  rw [Pending.whole, Pending.whole, hterm, hterm]
  exact .under_regroup (fun l hl => rationals_regroups (.inl ⟨hsum l hl, hop⟩)) x y

/-- A product or quotient behind what admits it. -/
theorem Admits.term (h : P.Admits op) (hop : op.isAdditive = false) :
    (Formula.binary op (P.term x) y).Same rationals (P.term (.binary op x y)) := by
  rw [Pending.term, Pending.term, h.signs]
  exact .under_regroup (fun l hl => rationals_regroups (.inr ⟨h.product hop l hl, hop⟩)) x y

end Pending

/-! ## Reading -/

/-- The trees stand for `x` wherever they are read and their operator, if they have one outside
their brackets, is admitted: with what is pending they come to the same value as `x`. -/
def Reads (r : α → Formula ArithmeticOp Forest) (f : Forest) (x : Formula ArithmeticOp α)
    (op? : Option ArithmeticOp) : Prop :=
  ∀ P : Pending α, (∀ op ∈ op?, P.Admits op) → ∃ (Q : Pending α) (y : Formula ArithmeticOp α)
    (trees : Forest),
    grammar.run ⟨P.bind r, .missing⟩ f = some ⟨Q.bind r, .present trees (some (y.bind r))⟩ ∧
    (Q.whole y).Same rationals (P.whole x) ∧
    ((∀ op ∈ op?, op.isAdditive = false) → Q.sum = P.sum ∧ (Q.term y).Same rationals (P.term x))

section Reads

variable {r : α → Formula ArithmeticOp Forest} {f g : Forest} {x y : Formula ArithmeticOp α}
  {op : ArithmeticOp} {op? left? right? : Option ArithmeticOp}

/-- An operand that stands for a formula in whatever is pending. -/
theorem Reads.of_run (trees : Forest) (hsame : x.Same rationals y)
    (h : ∀ P : Pending α, grammar.run ⟨P.bind r, .missing⟩ f =
      some ⟨P.bind r, .present trees (some (x.bind r))⟩) : Reads r f y op? := by
  intro P _
  have hterm := P.term_same hsame
  exact ⟨P, x, trees, h P, P.whole_same rfl hterm, fun _ => ⟨rfl, hterm⟩⟩

/-- A forest of one operand with tokens that only atoms show is an atom. -/
theorem run_atom (hf : f.Solid) (hin : ∀ t, TokenTree.token t ∈ f → t.inAtom = true)
    (P : Pending Forest) :
    grammar.run ⟨P, .missing⟩ f = some ⟨P, .present f (some (.atom f))⟩ := by
  have hparts : ∀ tree ∈ f, ∀ begun, grammar.kind P begun tree = .part P := by
    intro tree htree begun
    cases tree with
    | group b inner => rfl
    | token t =>
      have ht := hin t htree
      cases t with
      | mark m => cases m <;> first | rfl | cases ht
      | _ => rfl
  exact Grammar.run_solid hf (fun tree h => hparts tree (List.mem_of_mem_head? h) false)
    fun tree h => hparts tree h true

theorem Reads.atom {a : α} (hf : f.Solid) (hin : ∀ t, TokenTree.token t ∈ f → t.inAtom = true)
    (ha : r a = .atom f) : Reads r f (.atom a) none := by
  refine .of_run f (x := .atom a) (.refl _) fun P => ?_
  rw [Formula.bind_atom, ha]
  exact run_atom hf hin _

/-- What stands in parentheses is read by itself. -/
theorem Reads.parens (hf : Forest.isQueryOrRow f = false) (h : Reads r f x op?) :
    Reads r [.group .round f] x none := by
  obtain ⟨Q, y, trees, hrun, hwhole, -⟩ := h {} fun op _ => Pending.start_admits op
  have hread : grammar.read f = some ((Q.whole y).bind r) := by
    rw [← Pending.whole_bind]
    exact grammar.read_eq_of_run hrun
  exact .of_run _ hwhole fun P => Grammar.run_parens hf hread rfl

theorem Reads.negative (h : Reads r f x none) :
    Reads r (.token (.mark .minus) :: f) (.negated x) none := by
  intro P _
  obtain ⟨Q, y, trees, hrun, hwhole, hterm⟩ := h { P with signs := P.signs + 1 } nofun
  have hsign : grammar.kind (P.bind r) false (.token (.mark .minus)) =
      .sign ({ P with signs := P.signs + 1 }.bind r) := rfl
  refine ⟨Q, y, trees, ?_, hwhole, hterm⟩
  rw [Grammar.run_sign hsign]
  exact hrun

/-- An operation is read from the left. Its left operand may come out as part of what was pending,
and its right operand may be pulled apart, but neither changes the value. -/
theorem Reads.arithmetic (hx : Reads r f x left?) (hy : Reads r g y right?)
    (hleft : ∀ o ∈ left?, op.parenthesizesLeft o = false)
    (hright : ∀ o ∈ right?, op.parenthesizesRight o = false) :
    Reads r (f ++ .token (.mark op.mark) :: g) (.binary op x y) (some op) := by
  intro P hP
  have hadmits := hP op rfl
  obtain ⟨Q, x', trees, hrunx, hwholex, htermx⟩ :=
    hx P fun o ho => hadmits.left (hleft o ho)
  obtain ⟨R, y', trees', hruny, hwholey, htermy⟩ :=
    hy (Q.close op x') fun o ho => Pending.Admits.right (hright o ho)
  -- The left operand is read with what is pending, the right one with the left pending too.
  have hkind : grammar.kind (Q.bind r) true (.token (.mark op.mark)) = .operator op := by
    cases op <;> rfl
  have hclose : grammar.close (Q.bind r) op (x'.bind r) = some ((Q.close op x').bind r) :=
    congrArg some (Q.close_bind op x' r)
  have hrun : grammar.run ⟨P.bind r, .missing⟩ (f ++ .token (.mark op.mark) :: g) =
      some ⟨R.bind r, .present trees' (some (y'.bind r))⟩ := by
    rw [Grammar.run_append, hrunx, Option.bind_some, Grammar.run_operator hkind hclose, hruny]
  cases hop : op.isAdditive with
  | true =>
    -- The whole of what was read becomes the left operand.
    have hpending : (Q.close op x').whole y = .binary op (Q.whole x') y := by
      rw [Pending.close, if_pos hop]
      rfl
    refine ⟨R, y', trees', hrun, ?_, fun h => ?_⟩
    · rw [hpending] at hwholey
      exact (hwholey.trans (.binary op hwholex (.refl y))).trans (hadmits.whole hop)
    · exact absurd ((h op rfl).symm.trans hop) Bool.false_ne_true
  | false =>
    -- Only the pending product does; a pending sum stays behind it.
    obtain ⟨hsumx, htermx⟩ := htermx fun o ho => by
      simpa [ArithmeticOp.parenthesizesLeft, hop] using hleft o ho
    obtain ⟨hsumy, htermy⟩ := htermy fun o ho => by
      have ho := hright o ho
      cases op with
      | mul => exact ho
      | div => cases ho
      | _ => cases hop
    have hpending : (Q.close op x').term y = .binary op (Q.term x') y ∧
        (Q.close op x').sum = Q.sum := by
      rw [Pending.close, if_neg (by rw [hop]; exact Bool.false_ne_true)]
      exact ⟨rfl, rfl⟩
    have hterm : (R.term y').Same rationals (P.term (.binary op x y)) := by
      rw [hpending.1] at htermy
      exact (htermy.trans (.binary op htermx (.refl y))).trans (hadmits.term hop)
    have hsum : R.sum = P.sum := hsumy.trans (hpending.2.trans hsumx)
    exact ⟨R, y', trees', hrun, P.whole_same hsum hterm, fun _ => ⟨hsum, hterm⟩⟩

end Reads

/-- The tokens have trees that stand for `x`. -/
abbrev ReadsAs (r : α → Formula ArithmeticOp Forest) (x : Formula ArithmeticOp α)
    (op? : Option ArithmeticOp) (ts : Tokens) : Prop :=
  ReadBy (fun f => Reads r f x op?) ts

namespace ReadsAs

variable {r : α → Formula ArithmeticOp Forest} {x y : Formula ArithmeticOp α}
  {op? left? right? : Option ArithmeticOp} {ts us : Tokens}

/-- What is read of tokens by themselves has the same value. -/
theorem read (h : ReadsAs r x op? ts) :
    ∃ tree : Formula ArithmeticOp α, readArithmetic ts = some (tree.bind r) ∧
      tree.Same rationals x := by
  obtain ⟨f, hf, -, h⟩ := h
  obtain ⟨Q, y, trees, hrun, hwhole, -⟩ := h {} fun op _ => Pending.start_admits op
  refine ⟨Q.whole y, ?_, hwhole⟩
  rw [readArithmetic, Grammar.readTokens_of_forms _ hf, ← Pending.whole_bind]
  exact grammar.read_eq_of_run hrun

theorem parensIf (wrap : Bool) (h : ReadsAs r x op? ts) :
    ReadsAs r x (if wrap then none else op?) (Tokens.parensIf wrap ts) :=
  ReadBy.parensIf (R := fun op? f => Reads r f x op?) (fun _ => Reads.parens) wrap h

theorem negative (h : ReadsAs r x none ts) :
    ReadsAs r (.negated x) none (.mark .minus :: ts) :=
  h.signed (Forms.nil.plain rfl) ⟨rfl, nofun⟩ fun _ hf => hf.negative

theorem arithmetic {op : ArithmeticOp} (hx : ReadsAs r x left? ts) (hy : ReadsAs r y right? us)
    (hleft : ∀ o ∈ left?, op.parenthesizesLeft o = false)
    (hright : ∀ o ∈ right?, op.parenthesizesRight o = false) :
    ReadsAs r (.binary op x y) (some op) (ts ++ .mark op.mark :: us) := by
  have hop : (Token.mark op.mark).InExpression := by cases op <;> exact ⟨rfl, nofun⟩
  exact hx.joined (Forms.nil.plain op.role_mark) hop
    (fun _ _ hf hg => hf.arithmetic hg hleft hright) hy

end ReadsAs

end Arithmetic

end SqlScribe
