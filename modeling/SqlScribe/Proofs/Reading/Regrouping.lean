import SqlScribe.Proofs.Reading.Expression
/-! # How arithmetic is regrouped

The parentheses that an expression is written without are those that the usual grammar does not put
back: a sum or product takes in the operation at its right, from the left of it. What the tokens of
an expression are read as can be said outright.

* `ArithmeticOp.takesIn`, `Formula.graft`: an operator behind which operations are pulled apart, and
  a formula with an operand put before it.
* `Formula.regroup`: the formula with all its operations grouped from the left.
* `Arithmetic.Becomes`: what is pending before an operand comes to a regrouped formula; one law for
  each way in which expressions are put together.
* `Expr.readArithmetic_eq_regroup`: the tokens of an expression are read as its regrouped
  formula. -/

namespace SqlScribe

open Tokens

/-- At the right of the operator the other one stands without parentheses and binds no tighter, so
that the operator takes its left operand from it. -/
def ArithmeticOp.takesIn : ArithmeticOp → ArithmeticOp → Bool
  | .add, o => o.isAdditive
  | .mul, o => !o.isAdditive
  | .sub, _ => false
  | .div, _ => false

namespace ArithmeticOp

variable {op o o' : ArithmeticOp}

theorem takesIn_trans (h : op.takesIn o = true) (h' : o.takesIn o' = true) :
    op.takesIn o' = true := by
  cases op <;> cases o <;> simp_all [takesIn, isAdditive]

theorem isAdditive_of_takesIn (h : op.takesIn o = true) : o.isAdditive = op.isAdditive := by
  cases op <;> simp_all [takesIn, isAdditive]

/-- An operation that is taken in stands without parentheses. -/
theorem parenthesizesRight_of_takesIn (h : op.takesIn o = true) :
    op.parenthesizesRight o = false := by
  cases op <;> simp_all [takesIn, parenthesizesRight]

/-- Whether an operation is taken in depends on how tightly it binds. -/
theorem takesIn_congr (h : o'.isAdditive = o.isAdditive) : op.takesIn o' = op.takesIn o := by
  cases op <;> simp [takesIn, h]

end ArithmeticOp

namespace Formula

variable {α : Type} {op o : ArithmeticOp} {x y z : Formula ArithmeticOp α}

/-- The operator of an operation. -/
def operator? : Formula ArithmeticOp α → Option ArithmeticOp
  | .atom _ => none
  | .negated _ => none
  | .binary op _ _ => some op

/-- Two formulas under an operator that takes in the operations at its right. -/
def graft (op : ArithmeticOp) (x : Formula ArithmeticOp α) :
    Formula ArithmeticOp α → Formula ArithmeticOp α
  | .atom a => .binary op x (.atom a)
  | .negated y => .binary op x (.negated y)
  | .binary o y z =>
    if op.takesIn o then .binary o (graft op x y) z else .binary op x (.binary o y z)

/-- The formula as it is grouped from the left. -/
def regroup : Formula ArithmeticOp α → Formula ArithmeticOp α
  | .atom a => .atom a
  | .negated x => .negated x.regroup
  | .binary op x y => graft op x.regroup y.regroup

/-- A left operand with its operator, if there is one, before operations that it takes in. -/
def graftUnder (left : Option (Formula ArithmeticOp α × ArithmeticOp))
    (x : Formula ArithmeticOp α) : Formula ArithmeticOp α :=
  match left with
  | none => x
  | some (y, op) => graft op y x

/-- What is not taken in becomes the right operand. -/
theorem graft_of_not_takesIn (h : ∀ o ∈ y.operator?, op.takesIn o = false) :
    graft op x y = .binary op x y := by
  cases y with
  | atom a => rfl
  | negated y => rfl
  | binary o y z =>
    rw [graft, if_neg]
    simpa using h o rfl

/-- Where an operator takes in another one, it does not matter which of them is met first. -/
theorem graft_assoc (h : op.takesIn o = true) (x y z : Formula ArithmeticOp α) :
    graft op x (graft o y z) = graft o (graft op x y) z := by
  induction z with
  | atom a => rw [graft, graft, graft, if_pos h]
  | negated z _ => rw [graft, graft, graft, if_pos h]
  | binary o' z z' ih =>
    rw [graft, graft]
    cases ho : o.takesIn o' with
    | true =>
      -- The operator behind is taken in by both of them.
      rw [if_pos rfl, if_pos rfl, graft, if_pos (ArithmeticOp.takesIn_trans h ho), ih]
    | false =>
      rw [if_neg Bool.false_ne_true, if_neg Bool.false_ne_true, graft, if_pos h]

theorem graftUnder_graft {left : Option (Formula ArithmeticOp α × ArithmeticOp)}
    (h : ∀ l ∈ left, l.2.takesIn op = true) (x y : Formula ArithmeticOp α) :
    graftUnder left (graft op x y) = graft op (graftUnder left x) y := by
  cases left with
  | none => rfl
  | some l => exact graft_assoc (h l rfl) _ _ _

theorem graftUnder_of_not_takesIn {left : Option (Formula ArithmeticOp α × ArithmeticOp)}
    (h : ∀ l ∈ left, ∀ o ∈ x.operator?, l.2.takesIn o = false) :
    graftUnder left x = under left x := by
  cases left with
  | none => rfl
  | some l => exact graft_of_not_takesIn (h l rfl)

/-- What is grouped from the left is an operation of the same kind. -/
theorem isAdditive_graft (op : ArithmeticOp) (x y : Formula ArithmeticOp α) :
    ∃ o, (graft op x y).operator? = some o ∧ o.isAdditive = op.isAdditive := by
  cases y with
  | atom a => exact ⟨op, rfl, rfl⟩
  | negated y => exact ⟨op, rfl, rfl⟩
  | binary o y z =>
    rw [graft]
    cases ho : op.takesIn o with
    | true => exact ⟨o, rfl, ArithmeticOp.isAdditive_of_takesIn ho⟩
    | false => exact ⟨op, rfl, rfl⟩

theorem isAdditive_regroup (h : x.regroup.operator? = some o) :
    ∃ o', x.operator? = some o' ∧ o'.isAdditive = o.isAdditive := by
  cases x with
  | atom a => cases h
  | negated x => cases h
  | binary op x y =>
    obtain ⟨o', ho', hlevel⟩ := isAdditive_graft op x.regroup y.regroup
    rw [regroup, ho'] at h
    cases h
    exact ⟨op, rfl, hlevel.symm⟩

end Formula

namespace Arithmetic

variable {α : Type}

/-- What is pending and the operand at hand come to a formula that was read behind `P`. An operation
without parentheses is taken in by what was pending at its level; anything else is an operand of
it. -/
structure Outcome (P Q : Pending α) (y x : Formula ArithmeticOp α)
    (op? : Option ArithmeticOp) : Prop where
  operand : op? = none → Q.sum = P.sum ∧ Q.term y = P.term x
  product : ∀ op ∈ op?, op.isAdditive = false →
    Q.sum = P.sum ∧ Q.term y = Formula.graftUnder P.product x
  sum : ∀ op ∈ op?, op.isAdditive = true → Q.whole y = Formula.graftUnder P.sum x

/-- The trees become `x` wherever they are read and their operator, if they have one outside their
brackets, is admitted. -/
def Becomes (r : α → Formula ArithmeticOp Forest) (f : Forest) (x : Formula ArithmeticOp α)
    (op? : Option ArithmeticOp) : Prop :=
  ∀ P : Pending α, (∀ op ∈ op?, P.Admits op) → ∃ (Q : Pending α) (y : Formula ArithmeticOp α)
    (trees : Forest),
    grammar.run ⟨P.bind r, .missing⟩ f = some ⟨Q.bind r, .present trees (some (y.bind r))⟩ ∧
    Outcome P Q y x op?

section Becomes

variable {r : α → Formula ArithmeticOp Forest} {f g : Forest} {x y x' y' : Formula ArithmeticOp α}
  {P Q R : Pending α} {op : ArithmeticOp} {op? left? right? : Option ArithmeticOp}

/-- Behind nothing, the formula is what was read. -/
theorem Outcome.whole (h : Outcome {} Q y x op?) : Q.whole y = x := by
  cases hop : op? with
  | none =>
    obtain ⟨hsum, hterm⟩ := h.operand hop
    rw [Pending.whole, hsum, hterm]
    rfl
  | some op =>
    cases hlevel : op.isAdditive with
    | true => exact h.sum op hop hlevel
    | false =>
      obtain ⟨hsum, hterm⟩ := h.product op hop hlevel
      rw [Pending.whole, hsum, hterm]
      rfl

/-- An operand that stands for a formula in whatever is pending. -/
theorem Becomes.of_run (trees : Forest)
    (h : ∀ P : Pending α, grammar.run ⟨P.bind r, .missing⟩ f =
      some ⟨P.bind r, .present trees (some (x.bind r))⟩) : Becomes r f x none :=
  fun P _ => ⟨P, x, trees, h P, fun _ => ⟨rfl, rfl⟩, nofun, nofun⟩

theorem Becomes.atom {a : α} (hf : f.Solid) (hin : ∀ t, TokenTree.token t ∈ f → t.inAtom = true)
    (ha : r a = .atom f) : Becomes r f (.atom a) none := by
  refine .of_run f fun P => ?_
  rw [Formula.bind_atom, ha]
  exact run_atom hf hin _

/-- Trees by themselves are read as what they become. -/
theorem Becomes.read (h : Becomes r f x op?) : grammar.read f = some (x.bind r) := by
  obtain ⟨Q, y, trees, hrun, hout⟩ := h {} fun op _ => Pending.start_admits op
  rw [← hout.whole, ← Pending.whole_bind]
  exact grammar.read_eq_of_run hrun

/-- What stands in parentheses is read by itself. -/
theorem Becomes.parens (hf : Forest.isQueryOrRow f = false) (h : Becomes r f x op?) :
    Becomes r [.group .round f] x none :=
  .of_run _ fun _ => Grammar.run_parens hf h.read rfl

theorem Becomes.negative (h : Becomes r f x none) :
    Becomes r (.token (.mark .minus) :: f) (.negated x) none := by
  intro P _
  obtain ⟨Q, y, trees, hrun, hout⟩ := h { P with signs := P.signs + 1 } nofun
  have hsign : grammar.kind (P.bind r) false (.token (.mark .minus)) =
      .sign ({ P with signs := P.signs + 1 }.bind r) := rfl
  refine ⟨Q, y, trees, ?_, hout.operand, nofun, nofun⟩
  rw [Grammar.run_sign hsign]
  exact hrun

/-- Behind no pending product and no signs, what is no sum or difference is read by itself. -/
theorem Outcome.term_of_not_sum (h : Outcome P Q y x op?) (hproduct : P.product = none)
    (hsigns : P.signs = 0) (hop : ∀ o ∈ op?, o.isAdditive = false) :
    Q.sum = P.sum ∧ Q.term y = x := by
  cases hcase : op? with
  | none =>
    obtain ⟨hsum, hterm⟩ := h.operand hcase
    have hplain : P.term x = x := by
      rw [Pending.term, hproduct, hsigns]
      rfl
    exact ⟨hsum, hterm.trans hplain⟩
  | some o =>
    obtain ⟨hsum, hterm⟩ := h.product o hcase (hop o hcase)
    rw [hproduct] at hterm
    exact ⟨hsum, hterm⟩

/-- Either an operator of sums and differences is there or not. -/
theorem exists_isAdditive_or (op? : Option ArithmeticOp) :
    (∃ o ∈ op?, o.isAdditive = true) ∨ ∀ o ∈ op?, o.isAdditive = false := by
  cases op? with
  | none => exact .inr nofun
  | some o =>
    cases ho : o.isAdditive with
    | true => exact .inl ⟨o, rfl, ho⟩
    | false =>
      refine .inr fun o' ho' => ?_
      cases ho'
      exact ho

/-- The left operand of a sum or difference takes its place behind the pending sum. -/
theorem Outcome.left_sum (h : Outcome P Q x' x left?) (hP : P.Admits op)
    (hop : op.isAdditive = true)
    (hx : ∀ o ∈ x.operator?, o.isAdditive = true → ∃ o' ∈ left?, o'.isAdditive = true) :
    Q.whole x' = Formula.graftUnder P.sum x := by
  obtain ⟨hproduct, hsum⟩ := hP.sum hop
  rcases exists_isAdditive_or left? with ⟨o, ho, hlevel⟩ | hnone
  · exact h.sum o ho hlevel
  · obtain ⟨hQsum, hQterm⟩ := h.term_of_not_sum hproduct hP.signs hnone
    rw [Pending.whole, hQsum, hQterm, Formula.graftUnder_of_not_takesIn]
    -- What is no sum or difference is not taken in.
    intro l hl o ho
    rw [hsum l hl]
    cases hlevel : o.isAdditive with
    | false => exact hlevel
    | true =>
      obtain ⟨o', ho', hlevel'⟩ := hx o ho hlevel
      exact absurd ((hnone o' ho').symm.trans hlevel') Bool.false_ne_true

/-- The left operand of a product or quotient takes its place behind the pending product. -/
theorem Outcome.left_product (h : Outcome P Q x' x left?) (hP : P.Admits op)
    (hop : op.isAdditive = false) (hleft : ∀ o ∈ left?, o.isAdditive = false)
    (hx : ∀ o ∈ x.operator?, o.isAdditive = false → ∃ o' ∈ left?, o'.isAdditive = false) :
    Q.sum = P.sum ∧ Q.term x' = Formula.graftUnder P.product x := by
  cases hcase : left? with
  | some o => exact h.product o hcase (hleft o hcase)
  | none =>
    obtain ⟨hsum, hterm⟩ := h.operand hcase
    refine ⟨hsum, ?_⟩
    rw [hterm, Pending.term, hP.signs, Formula.graftUnder_of_not_takesIn]
    · rfl
    · intro l hl o ho
      rw [hP.product hop l hl]
      cases hlevel : o.isAdditive with
      | true => simp [ArithmeticOp.takesIn, hlevel]
      | false =>
        obtain ⟨o', ho', -⟩ := hx o ho hlevel
        rw [hcase] at ho'
        cases ho'

/-- The right operand of a sum or difference is taken in by it, or becomes its right operand. -/
theorem Outcome.right_sum (h : Outcome (P.close op x) R y' y right?) (hop : op.isAdditive = true)
    (hy : ∀ o ∈ y.operator?, op.takesIn o = true → ∃ o' ∈ right?, o'.isAdditive = true) :
    R.whole y' = Formula.graft op (P.whole x) y := by
  have hclose : P.close op x = { sum := some (P.whole x, op) } := if_pos hop
  rw [hclose] at h
  rcases exists_isAdditive_or right? with ⟨o, ho, hlevel⟩ | hnone
  · exact h.sum o ho hlevel
  · obtain ⟨hsum, hterm⟩ := h.term_of_not_sum rfl rfl hnone
    rw [Pending.whole, hsum, hterm, Formula.graft_of_not_takesIn]
    · rfl
    · intro o ho
      cases htakes : op.takesIn o with
      | false => rfl
      | true =>
        obtain ⟨o', ho', hlevel'⟩ := hy o ho htakes
        exact absurd ((hnone o' ho').symm.trans hlevel') Bool.false_ne_true

/-- The right operand of a product or quotient is taken in by it, or becomes its right operand. -/
theorem Outcome.right_product (h : Outcome (P.close op x) R y' y right?)
    (hop : op.isAdditive = false) (hright : ∀ o ∈ right?, o.isAdditive = false)
    (hy : ∀ o ∈ y.operator?, op.takesIn o = true → ∃ o' ∈ right?, o'.isAdditive = false) :
    R.sum = P.sum ∧ R.term y' = Formula.graft op (P.term x) y := by
  have hclose : P.close op x = { sum := P.sum, product := some (P.term x, op) } :=
    if_neg (by simp [hop])
  rw [hclose] at h
  cases hcase : right? with
  | some o => exact h.product o hcase (hright o hcase)
  | none =>
    obtain ⟨hsum, hterm⟩ := h.operand hcase
    refine ⟨hsum, ?_⟩
    rw [hterm, Formula.graft_of_not_takesIn]
    · rfl
    · intro o ho
      cases htakes : op.takesIn o with
      | false => rfl
      | true =>
        obtain ⟨o', ho', -⟩ := hy o ho htakes
        rw [hcase] at ho'
        cases ho'

/-- An operation is read from the left: its left operand comes behind what was pending, and its
right operand is pulled apart. -/
theorem Becomes.arithmetic (hx : Becomes r f x left?) (hy : Becomes r g y right?)
    (hleft : ∀ o ∈ left?, op.parenthesizesLeft o = false)
    (hright : ∀ o ∈ right?, op.parenthesizesRight o = false)
    (hxbare : ∀ o ∈ x.operator?, o.isAdditive = op.isAdditive →
      ∃ o' ∈ left?, o'.isAdditive = op.isAdditive)
    (hybare : ∀ o ∈ y.operator?, op.takesIn o = true →
      ∃ o' ∈ right?, o'.isAdditive = op.isAdditive) :
    Becomes r (f ++ .token (.mark op.mark) :: g) (Formula.graft op x y) (some op) := by
  intro P hP
  have hadmits := hP op rfl
  obtain ⟨Q, x', trees, hrunx, houtx⟩ := hx P fun o ho => hadmits.left (hleft o ho)
  obtain ⟨R, y', trees', hruny, houty⟩ :=
    hy (Q.close op x') fun o ho => Pending.Admits.right (hright o ho)
  have hkind : grammar.kind (Q.bind r) true (.token (.mark op.mark)) = .operator op := by
    cases op <;> rfl
  have hclose : grammar.close (Q.bind r) op (x'.bind r) = some ((Q.close op x').bind r) :=
    congrArg some (Q.close_bind op x' r)
  have hrun : grammar.run ⟨P.bind r, .missing⟩ (f ++ .token (.mark op.mark) :: g) =
      some ⟨R.bind r, .present trees' (some (y'.bind r))⟩ := by
    rw [Grammar.run_append, hrunx, Option.bind_some, Grammar.run_operator hkind hclose, hruny]
  refine ⟨R, y', trees', hrun, nofun, fun o ho hop => ?_, fun o ho hop => ?_⟩
  · cases ho
    rw [hop] at hxbare hybare
    have hleft' : ∀ o ∈ left?, o.isAdditive = false := fun o ho => by
      simpa [ArithmeticOp.parenthesizesLeft, hop] using hleft o ho
    have hright' : ∀ o ∈ right?, o.isAdditive = false := fun o ho => by
      have ho := hright o ho
      cases op with
      | mul => exact ho
      | div => cases ho
      | _ => cases hop
    obtain ⟨hQsum, hQterm⟩ := houtx.left_product hadmits hop hleft' hxbare
    obtain ⟨hRsum, hRterm⟩ := houty.right_product hop hright' hybare
    refine ⟨hRsum.trans hQsum, ?_⟩
    rw [hRterm, hQterm, Formula.graftUnder_graft]
    intro l hl
    rw [hadmits.product hop l hl]
    simp [ArithmeticOp.takesIn, hop]
  · cases ho
    rw [hop] at hxbare hybare
    rw [houty.right_sum hop hybare, houtx.left_sum hadmits hop hxbare, Formula.graftUnder_graft]
    intro l hl
    rw [(hadmits.sum hop).2 l hl]
    exact hop

end Becomes

/-- The tokens have trees that become `x`. -/
abbrev BecomesAs (r : α → Formula ArithmeticOp Forest) (x : Formula ArithmeticOp α)
    (op? : Option ArithmeticOp) (ts : Tokens) : Prop :=
  ReadBy (fun f => Becomes r f x op?) ts

namespace BecomesAs

variable {r : α → Formula ArithmeticOp Forest} {x y : Formula ArithmeticOp α}
  {op? left? right? : Option ArithmeticOp} {ts us : Tokens}

/-- Tokens by themselves are read as what they become. -/
theorem read (h : BecomesAs r x op? ts) : readArithmetic ts = some (x.bind r) := by
  obtain ⟨f, hf, -, h⟩ := h
  rw [readArithmetic, Grammar.readTokens_of_forms _ hf]
  exact h.read

theorem parensIf (wrap : Bool) (h : BecomesAs r x op? ts) :
    BecomesAs r x (if wrap then none else op?) (Tokens.parensIf wrap ts) :=
  ReadBy.parensIf (R := fun op? f => Becomes r f x op?) (fun _ => Becomes.parens) wrap h

theorem negative (h : BecomesAs r x none ts) :
    BecomesAs r (.negated x) none (.mark .minus :: ts) :=
  h.signed (Forms.nil.plain rfl) ⟨rfl, nofun⟩ fun _ hf => hf.negative

theorem arithmetic {op : ArithmeticOp} (hx : BecomesAs r x.regroup x.operator? ts)
    (hy : BecomesAs r y.regroup y.operator? us) :
    BecomesAs r (Formula.binary op x y).regroup (some op)
      (Tokens.parensIf (x.operator?.any op.parenthesizesLeft) ts ++ .mark op.mark ::
        Tokens.parensIf (y.operator?.any op.parenthesizesRight) us) := by
  have hop : (Token.mark op.mark).InExpression := by cases op <;> exact ⟨rfl, nofun⟩
  refine (hx.parensIf _).joined (Forms.nil.plain op.role_mark) hop
    (fun _ _ hf hg => hf.arithmetic hg ReadBy.not_hidden ReadBy.not_hidden ?_ ?_) (hy.parensIf _)
  · intro o ho hlevel
    obtain ⟨o', ho', hlevel'⟩ := Formula.isAdditive_regroup ho
    -- An operand of the level of the operator stands without parentheses at its left.
    have hbare : op.parenthesizesLeft o' = false := by
      rw [ArithmeticOp.parenthesizesLeft, hlevel', hlevel, Bool.not_and_self]
    refine ⟨o', ?_, hlevel'.trans hlevel⟩
    simp [ho', hbare]
  · intro o ho htakes
    obtain ⟨o', ho', hlevel'⟩ := Formula.isAdditive_regroup ho
    have htakes' : op.takesIn o' = true := (ArithmeticOp.takesIn_congr hlevel').trans htakes
    have hbare := ArithmeticOp.parenthesizesRight_of_takesIn htakes'
    refine ⟨o', ?_, ArithmeticOp.isAdditive_of_takesIn htakes'⟩
    simp [ho', hbare]

end BecomesAs

end Arithmetic

/-! ## Expressions -/

theorem Term.operator?_formula (t : Term) : t.formula.operator? = t.operator? := by
  obtain ⟨expr, alias?⟩ := t
  cases expr <;> rfl

theorem Expr.lower_becomesAs_atom (s : Scope) (e : Expr) (h : e.isAtom = true) :
    Yields (Arithmetic.BecomesAs (fun a => .atom (a.trees s)) (.atom e) none) (e.lower s) := by
  intro ts hts
  obtain ⟨f, hf, hexpr, -⟩ := Expr.lower_readsAs_atom s e h ts hts
  obtain ⟨hf', hsolid, hin⟩ := Expr.forms_trees s h hts
  obtain rfl := Tokens.Forms.unique hf hf'
  exact ⟨_, hf', hexpr, .atom hsolid hin rfl⟩

mutual

theorem Term.lower_becomesAs (s : Scope) : ∀ t : Term, (∀ a ∈ t.formula.atoms, a.isAtom = true) →
    Yields (Arithmetic.BecomesAs (fun a => .atom (a.trees s)) t.formula.regroup
      t.formula.operator?) (t.expr.lower s)
  | ⟨expr, _⟩, h => Expr.lower_becomesAs s expr h

/-- The tokens of an expression become its regrouped formula. -/
theorem Expr.lower_becomesAs (s : Scope) (e : Expr) (h : ∀ a ∈ e.formula.atoms, a.isAtom = true) :
    Yields (Arithmetic.BecomesAs (fun a => .atom (a.trees s)) e.formula.regroup
      e.formula.operator?) (e.lower s) := by
  cases e with
  | arithmetic op left right =>
    have hleft := Term.lower_becomesAs s left fun a ha => h a (List.mem_append_left _ ha)
    have hright := Term.lower_becomesAs s right fun a ha => h a (List.mem_append_right _ ha)
    rw [Expr.lower, Term.lower_quiet, Term.lower_quiet, ← left.operator?_formula,
      ← right.operator?_formula]
    exact hleft.bind fun _ hl => hright.bind fun _ hr => .pure (hl.arithmetic hr)
  | negative t =>
    have hterm := Term.lower_becomesAs s t h
    have hhidden : (if t.isOperation then none else t.formula.operator?) = none := by
      obtain ⟨expr, alias?⟩ := t
      cases expr <;> rfl
    rw [Expr.lower, Term.lower_quiet]
    refine hterm.bind fun _ ht => .pure ?_
    have hwrapped := ht.parensIf t.isOperation
    rw [hhidden] at hwrapped
    exact hwrapped.negative
  | _ => exact Expr.lower_becomesAs_atom s _ (h _ (List.mem_singleton_self _))

end

/-- The tokens of an expression are read as its operations, grouped from the left. -/
theorem Expr.readArithmetic_eq_regroup (s : Scope) {e : Expr}
    (he : ∀ a ∈ e.formula.atoms, a.isAtom = true) {ts : Tokens} (hts : e.lower s = .ok ts) :
    readArithmetic ts = some (e.formula.regroup.bind fun a => .atom (a.trees s)) :=
  (lower_becomesAs s e he ts hts).read

end SqlScribe
