import Mathlib.Tactic.NormNum
import SqlScribe.Proofs.Reading.Arithmetic
import SqlScribe.Query.Basic
/-! # Expressions are read back as they are

The operations and atoms of an expression, and what its tokens are read as. An atom that is a query
has something to write, and no atom is a row or a condition, which arithmetic does not put in
parentheses.

* `Expr.isAtom`, `Expr.trees`: the atoms of arithmetic and the operands they are read as.
* `Expr.lower_readsAs`: the tokens of an expression stand for its operations and atoms.
* `Expr.readArithmetic_lower`: what is read back has the same value. -/

namespace SqlScribe

open Tokens

namespace Expr

/-- The expression is an atom of arithmetic: a field, value, placeholder, call, choice or query,
with something to write. -/
def isAtom (e : Expr) : Bool := e.isSimple && e.isSolid

/-- The trees of an expression in a scope. -/
def trees (s : Scope) (e : Expr) : Forest :=
  match e.lower s with
  | .ok ts => ts.forest?.getD []
  | .error _ => []

/-- The trees of an atom: one operand of tokens that only atoms show. -/
theorem forms_trees (s : Scope) {a : Expr} {ts : Tokens} (h : a.isAtom = true)
    (hts : a.lower s = .ok ts) :
    Forms ts (a.trees s) ∧ Forest.Solid (a.trees s) ∧
      ∀ t, TokenTree.token t ∈ a.trees s → t.inAtom = true := by
  obtain ⟨hsimple, hsolid⟩ := Bool.and_eq_true_iff.mp h
  obtain ⟨f, hf, hin, hf'⟩ := lower_stands (fun _ ht => ht) s a hsimple hsolid ts hts
  have htrees : a.trees s = f := by
    rw [trees, hts]
    exact congrArg (·.getD []) hf.forest?_eq
  rw [htrees]
  exact ⟨hf, hf', hin⟩

/-- The tokens of an atom are read as that atom. -/
theorem readArithmetic_atom (s : Scope) {a : Expr} {ts : Tokens} (h : a.isAtom = true)
    (hts : a.lower s = .ok ts) : readArithmetic ts = some (.atom (a.trees s)) := by
  obtain ⟨hf, hsolid, hin⟩ := forms_trees s h hts
  rw [readArithmetic, Grammar.readTokens_of_forms _ hf]
  exact Arithmetic.grammar.read_eq_of_run (Arithmetic.run_atom hsolid hin _)

/-- An atom stands for itself. -/
theorem lower_readsAs_atom (s : Scope) (e : Expr) (h : e.isAtom = true) :
    Yields (Arithmetic.ReadsAs (fun a => .atom (a.trees s)) (.atom e) none) (e.lower s) := by
  intro ts hts
  obtain ⟨hf, hsolid, hin⟩ := forms_trees s h hts
  refine ⟨_, hf, ⟨hsolid.1, fun t ht => ?_⟩, .atom hsolid hin rfl⟩
  have hatom := hin t ht
  cases t with
  | word k => cases k <;> first | exact absurd hatom Bool.false_ne_true | exact ⟨rfl, nofun⟩
  | mark m => cases m <;> first | exact absurd hatom Bool.false_ne_true | exact ⟨rfl, nofun⟩
  | _ => exact ⟨rfl, nofun⟩

end Expr

mutual

theorem Term.lower_readsAs (s : Scope) : ∀ t : Term, (∀ a ∈ t.formula.atoms, a.isAtom = true) →
    Yields (Arithmetic.ReadsAs (fun a => .atom (a.trees s)) t.formula t.operator?) (t.expr.lower s)
  | ⟨expr, _⟩, h => Expr.lower_readsAs s expr h

/-- The tokens of an expression stand for its operations and atoms. -/
theorem Expr.lower_readsAs (s : Scope) (e : Expr) (h : ∀ a ∈ e.formula.atoms, a.isAtom = true) :
    Yields (Arithmetic.ReadsAs (fun a => .atom (a.trees s)) e.formula (Term.ofExpr e).operator?)
      (e.lower s) := by
  cases e with
  | arithmetic op left right =>
    have hleft := Term.lower_readsAs s left fun a ha => h a (List.mem_append_left _ ha)
    have hright := Term.lower_readsAs s right fun a ha => h a (List.mem_append_right _ ha)
    rw [Expr.lower, Term.lower_quiet, Term.lower_quiet]
    exact hleft.bind fun _ hl => hright.bind fun _ hr => .pure
      ((hl.parensIf _).arithmetic (hr.parensIf _) ReadBy.not_hidden ReadBy.not_hidden)
  | negative t =>
    have hterm := Term.lower_readsAs s t h
    have hhidden : (if t.isOperation then none else t.operator?) = none := by
      obtain ⟨expr, alias?⟩ := t
      cases expr <;> rfl
    rw [Expr.lower, Term.lower_quiet]
    refine hterm.bind fun _ ht => .pure ?_
    have hwrapped := ht.parensIf t.isOperation
    rw [hhidden] at hwrapped
    exact hwrapped.negative
  | _ => exact Expr.lower_readsAs_atom s _ (h _ (List.mem_singleton_self _))

end

mutual

theorem Term.lower_from (s : Scope) : ∀ t : Term,
    LoweredFrom (Expr.lower s) t.formula.atoms (t.expr.lower s)
  | ⟨expr, _⟩ => Expr.lower_from s expr

/-- The tokens of an expression are made from those of its atoms. -/
theorem Expr.lower_from (s : Scope) (e : Expr) :
    LoweredFrom (Expr.lower s) e.formula.atoms (e.lower s) := by
  cases e with
  | arithmetic op left right =>
    rw [Expr.lower, Term.lower_quiet, Term.lower_quiet]
    exact (Term.lower_from s left).map₂ _ (Term.lower_from s right)
  | negative t =>
    rw [Expr.lower, Term.lower_quiet]
    exact (Term.lower_from s t).map _
  | _ => exact .part _

end

namespace Expr

/-- **Arithmetic reads back.** Let the atoms of an expression be fields, values, placeholders,
calls, choices and queries with something to write. The expression fails only with an error of an
atom. Otherwise its tokens are read as a formula of the same atoms in the same order, each of them
standing for itself, and for all values of the atoms this formula has the value of the
expression. -/
theorem readArithmetic_lower (s : Scope) (e : Expr)
    (he : ∀ a ∈ e.formula.atoms, a.isAtom = true) :
    (∀ err, e.lower s = .error err → ∃ a ∈ e.formula.atoms, a.lower s = .error err) ∧
    ∀ ts, e.lower s = .ok ts →
      (∀ a ∈ e.formula.atoms,
        ∃ us, a.lower s = .ok us ∧ readArithmetic us = some (.atom (a.trees s))) ∧
      ∃ tree : Formula ArithmeticOp Expr,
        readArithmetic ts = some (tree.bind fun a => .atom (a.trees s)) ∧
        tree.atoms = e.formula.atoms ∧
        ∀ ρ : Expr → Option ℚ, tree.eval rationals ρ = e.formula.eval rationals ρ := by
  obtain ⟨herr, hok⟩ := lower_from s e
  refine ⟨herr, fun ts hts => ⟨fun a ha => ?_, ?_⟩⟩
  · obtain ⟨us, hus⟩ := hok ts hts a ha
    exact ⟨us, hus, readArithmetic_atom s (he a ha) hus⟩
  · obtain ⟨tree, hread, hsame⟩ := (lower_readsAs s e he ts hts).read
    exact ⟨tree, hread, hsame.atoms, hsame.value⟩

/-- The quotient of `a - (b + c)` by the opposite of a count of rows. -/
theorem readArithmetic_lower_quotient :
    let count := Expr.call { name := "COUNT", args := [Term.star], aggregate := true }
    let e := Expr.arithmetic .div
      (Term.field "a" - (Term.field "b" + Term.field "c")) (-Term.ofExpr count)
    let ts : Tokens := Tokens.parens
        (.ident "a" :: .mark .minus ::
          Tokens.parens [.ident "b", .mark .plus, .ident "c"]) ++
      .mark .divide :: .mark .minus :: .functionName "COUNT" :: Tokens.parens [.mark .star]
    ∃ tree : Formula ArithmeticOp Expr,
      readArithmetic ts = some (tree.bind fun a => .atom (a.trees (.ofOptions .ansi {}))) ∧
      tree.atoms = e.formula.atoms ∧
      ∀ ρ : Expr → Option ℚ, tree.eval rationals ρ = e.formula.eval rationals ρ :=
  ((readArithmetic_lower _ _ (by decide)).2 _ rfl).2

/-- A query without a select list has no tokens, so that a difference from it is read as the
opposite of what is subtracted. -/
theorem readArithmetic_blank :
    let blank := Query.addSource (.start ⟨0⟩ .ansi) (.table { id := ⟨1⟩, name := "abc" })
    let b := Expr.field none "b"
    let e := Expr.arithmetic .sub (Term.ofSubquery (.query blank)) (Term.ofExpr b)
    let s := Scope.ofOptions .ansi {}
    e.lower s = .ok [.mark .minus, .ident "b"] ∧
      readArithmetic [.mark .minus, .ident "b"] =
        some ((Formula.negated (.atom b)).bind fun a => .atom (a.trees s)) ∧
      ∃ ρ : Expr → Option ℚ,
        (Formula.negated (.atom b)).eval rationals ρ ≠ e.formula.eval rationals ρ := by
  refine ⟨rfl, rfl, fun a => if a.isSolid then some 0 else some 1, fun h => ?_⟩
  have hzero : -(0 : ℚ) = 1 - 0 := Option.some.inj h
  norm_num at hzero

end Expr

end SqlScribe
