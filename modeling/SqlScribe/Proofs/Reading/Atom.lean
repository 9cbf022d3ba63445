import SqlScribe.Proofs.Nesting.Syntax
import SqlScribe.Proofs.Reading.Grammar
/-! # Atoms

What the tokens of an expression show outside their brackets when it is not an arithmetic operation
and not a condition: names, values and calls. So such an expression is an atom wherever operators
are looked for.

* `Token.inAtom`: the tokens of atoms.
* `Subquery.isFormed`, `Subquery.isBlank`: queries that have tokens of their own.
* `Expr.isSimple`: expressions that are neither operations nor conditions.
* `Expr.formula`: the operations and atoms of an expression.
* `LoweredFrom`: tokens that are there if those of all parts are.
* `Expr.lower_shows`, `Expr.lower_stands`: what they show, and that they are read as one operand. -/

namespace SqlScribe

open Tokens

/-- The token stands in an atom, outside its brackets. -/
def Token.inAtom : Token → Bool
  | .ident _ => true
  | .literal _ => true
  | .named _ _ => true
  | .placeholder _ => true
  | .functionName _ => true
  | .raw _ => true
  | .mark .dot => true
  | .mark .star => true
  | .word .NULL => true
  | .word .FILTER => true
  | .word .OVER => true
  | _ => false

namespace Tokens

/-- The tokens are one operand, and outside their brackets stand only tokens with a property. -/
def Stands (p : Token → Prop) (ts : Tokens) : Prop :=
  ∃ f, Forms ts f ∧ (∀ t, TokenTree.token t ∈ f → p t) ∧ Forest.Solid f

variable {p q : Token → Prop} {ts : Tokens}

theorem Stands.shows (h : Stands p ts) : Shows p ts := h.imp fun _ ⟨hf, hp, _⟩ => ⟨hf, hp⟩

theorem Bears.stands (h : Bears p q ts) : Stands p ts := by
  obtain ⟨f, hf, hp, t, ht, -⟩ := h
  exact ⟨f, hf, hp, Forest.solid_of_token ht⟩

theorem Encloses.stands {b : Bracket} (h : Encloses b ts) (hb : b ≠ .round) : Stands p ts := by
  obtain ⟨f, hf⟩ := h
  refine ⟨[.group b f], hf, by simp, by simp, ?_⟩
  rintro inner heq
  cases heq
  exact absurd rfl hb

end Tokens

namespace Subquery

/-- A set operation has an operand beside its first query, which it gets when it is made. -/
def isFormed : Subquery → Bool
  | .query _ => true
  | .compound c => !c.operands.isEmpty

/-- There is not yet enough of a query to write, so that it has no tokens. -/
def isBlank : Subquery → Bool
  | .query q => q.isBlank
  | .compound _ => false

/-- The brackets of a query in its place fit; one with nothing to write has no tokens. -/
theorem lower_placed_nests (s : Scope) (q : Subquery) :
    Yields (Statement.Placed s q.id q.alias? q.isBlank Nests) (q.lower s) := by
  cases q with
  | query q =>
    rw [Subquery.lower]
    exact (Query.lower_placed s q).mono fun _ hts => hts.mono fun _ h => h.nests
  | compound c =>
    rw [Subquery.lower]
    exact (Compound.lower_placed s c).mono fun _ hts => hts.mono fun _ h => h.1

/-- A query has its statement in its place. -/
theorem lower_placed (s : Scope) {q : Subquery} (hformed : q.isFormed = true) :
    Yields (Statement.Placed s q.id q.alias? q.isBlank States) (q.lower s) := by
  cases q with
  | query q =>
    rw [Subquery.lower]
    exact Query.lower_placed s q
  | compound c =>
    have hne : c.operands ≠ [] := by simpa [isFormed] using hformed
    rw [Subquery.lower]
    exact (Compound.lower_placed s c).mono fun _ hts => hts.mono fun _ h => h.2 hne

/-- A query with nothing to write has no tokens. -/
theorem lower_blank (s : Scope) {q : Subquery} (h : q.isBlank = true) :
    Yields (· = []) (q.lower s) := by
  refine (lower_placed_nests s q).mono fun ts hts => ?_
  rcases hts with ⟨-, hts⟩ | ⟨hq, -⟩
  · exact hts
  · exact absurd (hq.symm.trans h) Bool.false_ne_true

/-- Between parentheses a query shows that it is one. -/
theorem lower_embedded (s : Scope) {q : Subquery} (hformed : q.isFormed = true)
    (hblank : q.isBlank = false) :
    Yields (fun ts => ∃ f, Forms ts [.group .round f] ∧ Forest.isQuery f = true)
      (q.lower s.embedded) := by
  refine (lower_placed s.embedded hformed).mono fun ts hts => ?_
  rcases hts with ⟨h, -⟩ | ⟨-, inner, ⟨f, hf, -, t, ht, hword⟩, rfl⟩
  · exact absurd (hblank.symm.trans h) Bool.false_ne_true
  · exact ⟨f, hf.parens.append .nil, List.any_eq_true.mpr ⟨.token t, ht, hword⟩⟩

/-- A query that stands where a term does shows nothing outside its parentheses. -/
theorem lower_embedded_shows {p : Token → Prop} (s : Scope) (q : Subquery) :
    Yields (Shows p) (q.lower s.embedded) := by
  refine (lower_placed_nests s.embedded q).mono fun ts hts => ?_
  rcases hts with ⟨-, rfl⟩ | ⟨-, inner, hinner, rfl⟩
  · exact .nil
  · exact .append hinner.parens .nil

end Subquery

namespace Expr

/-- The expression is neither an arithmetic operation nor a condition. -/
def isSimple : Expr → Bool
  | .arithmetic _ _ _ => false
  | .negative _ => false
  | .condition _ => false
  | _ => true

/-- The expression is read as one operand: it is no row, and a query has something to write. -/
def isSolid : Expr → Bool
  | .tuple _ => false
  | .subquery q => q.isFormed && !q.isBlank
  | _ => true

/-- The tokens of an expression do not depend on whether aliases are shown. -/
@[simp] theorem lower_quiet (s : Scope) (e : Expr) : e.lower s.quiet = e.lower s := by
  cases e <;> rw [Expr.lower.eq_def, Expr.lower.eq_def] <;> rfl

end Expr

/-- An operand has the tokens of its expression. -/
theorem Term.lower_quiet (s : Scope) (t : Term) : t.lower s.quiet = t.expr.lower s := by
  obtain ⟨expr, alias?⟩ := t
  rw [Term.lower, Expr.lower_quiet]
  cases expr.lower s with
  | error e => rfl
  | ok ts => exact congrArg Except.ok (List.append_nil ts)

mutual

/-- The operations and atoms of a term. -/
def Term.formula : Term → Formula ArithmeticOp Expr
  | ⟨expr, _⟩ => expr.formula

/-- The operations and atoms of an expression: its atoms are the expressions that are no
operations. -/
def Expr.formula : Expr → Formula ArithmeticOp Expr
  | .arithmetic op left right => .binary op left.formula right.formula
  | .negative t => .negated t.formula
  | e => .atom e

end

/-- The tokens are made from those of some parts: they are missing for the reason that those of a
part are missing, and only then. -/
def LoweredFrom {α : Type} (lower : α → Lowered) (parts : List α) (x : Lowered) : Prop :=
  (∀ err, x = .error err → ∃ a ∈ parts, lower a = .error err) ∧
    ∀ ts, x = .ok ts → ∀ a ∈ parts, ∃ us, lower a = .ok us

namespace LoweredFrom

variable {α : Type} {lower : α → Lowered} {parts parts' : List α} {x y : Lowered}

theorem part (a : α) : LoweredFrom lower [a] (lower a) := by
  refine ⟨fun err h => ⟨a, List.mem_singleton_self a, h⟩, fun ts h b hb => ?_⟩
  cases List.mem_singleton.mp hb
  exact ⟨ts, h⟩

theorem map (f : Tokens → Tokens) (h : LoweredFrom lower parts x) :
    LoweredFrom lower parts (x >>= fun ts => pure (f ts)) := by
  cases x with
  | error e =>
    refine ⟨fun err herr => ?_, nofun⟩
    cases herr
    exact h.1 e rfl
  | ok ts => exact ⟨nofun, fun _ _ => h.2 ts rfl⟩

theorem map₂ (f : Tokens → Tokens → Tokens) (hx : LoweredFrom lower parts x)
    (hy : LoweredFrom lower parts' y) :
    LoweredFrom lower (parts ++ parts') (x >>= fun ts => y >>= fun us => pure (f ts us)) := by
  cases x with
  | error e =>
    refine ⟨fun err herr => ?_, nofun⟩
    cases herr
    obtain ⟨a, ha, herr⟩ := hx.1 e rfl
    exact ⟨a, List.mem_append_left _ ha, herr⟩
  | ok ts =>
    cases y with
    | error e =>
      refine ⟨fun err herr => ?_, nofun⟩
      cases herr
      obtain ⟨a, ha, herr⟩ := hy.1 e rfl
      exact ⟨a, List.mem_append_right _ ha, herr⟩
    | ok us =>
      refine ⟨nofun, fun _ _ a ha => ?_⟩
      exact (List.mem_append.mp ha).elim (hx.2 ts rfl a) (hy.2 us rfl a)

end LoweredFrom

section Atom

variable {p : Token → Prop} (hp : ∀ t : Token, t.inAtom = true → p t)

include hp

namespace Expr

/-- An expression that is neither an operation nor a condition is one operand, if it is not a row
and not a query with nothing to write. -/
theorem lower_stands (s : Scope) (e : Expr) (hsimple : e.isSimple = true)
    (hsolid : e.isSolid = true) : Yields (Stands p) (e.lower s) := by
  have hone : ∀ {t : Token}, t.role = .plain → t.inAtom = true → Stands p [t] :=
    fun ht hin => (Bears.head (q := fun _ => True) ht (hp _ hin) trivial .nil).stands
  have hqualified : ∀ (q : Option Qualifier) {t : Token}, t.role = .plain → t.inAtom = true →
      Stands p (s.qualification q ++ [t]) := fun q t ht hin =>
    (Bears.append_left (q := fun _ => True) (s.qualification_shows q (fun _ => hp _ rfl)
      (fun _ => hp _ rfl) (hp _ rfl)) (.head ht (hp _ hin) trivial .nil)).stands
  cases e with
  | field q name =>
    rw [Expr.lower]
    exact .ok (hqualified q rfl rfl)
  | star q =>
    rw [Expr.lower]
    exact .ok (hqualified q rfl rfl)
  | value v =>
    rw [Expr.lower]
    exact (Clause.value_bears (q := fun _ => True) v rfl (hp _ rfl) trivial).mono
      fun _ h => h.stands
  | named name v =>
    rw [Expr.lower]
    exact (Clause.value_bears (q := fun _ => True) v rfl (hp _ rfl) trivial).mono
      fun _ h => h.stands
  | null =>
    rw [Expr.lower]
    exact .ok (hone rfl rfl)
  | parameter text =>
    rw [Expr.lower]
    exact .ok (hone rfl rfl)
  | raw sql =>
    rw [Expr.lower]
    exact .ok (hone rfl rfl)
  | tuple items => cases hsolid
  | array items =>
    rw [Expr.lower]
    refine (Clause.array_bears (q := fun _ => True) _ _ (fun _ => hp _ rfl) (fun _ => trivial)
      (Term.lowerAll_nest s.quiet items)).mono fun ts hts => ?_
    rcases hts with hts | hts
    · exact hts.stands
    · exact hts.stands nofun
  | interval i =>
    rw [Expr.lower]
    exact .ok (hone rfl rfl)
  | arithmetic op left right => cases hsimple
  | negative t => cases hsimple
  | call c =>
    rw [Expr.lower]
    exact (Call.lower_asserts s.quiet (fun _ => hp _ rfl) (hp _ rfl) (hp _ rfl) c).mono
      fun _ h => h.stands
  | case branches otherwise =>
    rw [Expr.lower.eq_def]
    refine iteInduction (fun _ => .error _) fun _ => ?_
    refine Yields.mono (Clause.choice_encloses (Branch.lowerAll_nest s.quiet branches)
      fun x hx => ?_) fun _ h => h.stands nofun
    cases otherwise with
    | none => cases hx
    | some t =>
      cases hx
      exact Term.lower_nests s.quiet t
  | subquery q =>
    obtain ⟨hformed, hblank⟩ := Bool.and_eq_true_iff.mp hsolid
    rw [Expr.lower]
    refine (q.lower_embedded s hformed (by simpa using hblank)).mono fun ts hts => ?_
    obtain ⟨f, hf, hquery⟩ := hts
    refine ⟨_, hf, by simp, List.cons_ne_nil _ _, fun inner heq => ?_⟩
    cases heq
    exact Bool.or_eq_true_iff.mpr (.inl hquery)
  | condition c => cases hsimple

/-- An expression that is neither an operation nor a condition shows only tokens of atoms. -/
theorem lower_shows (s : Scope) (e : Expr) (hsimple : e.isSimple = true) :
    Yields (Shows p) (e.lower s) := by
  by_cases hsolid : e.isSolid = true
  · exact (lower_stands hp s e hsimple hsolid).mono fun _ h => h.shows
  · -- Rows and queries are left, which show nothing outside their parentheses.
    cases e with
    | tuple items =>
      rw [Expr.lower]
      exact (Term.lowerAll_nest s.quiet items).bind fun _ hl =>
        .pure (Shows.listed hl trivial).parens
    | subquery q =>
      rw [Expr.lower]
      exact q.lower_embedded_shows s
    | _ => exact absurd rfl hsolid

end Expr

end Atom

end SqlScribe
