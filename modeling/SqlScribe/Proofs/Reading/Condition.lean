import SqlScribe.Proofs.Reading.Logic
import SqlScribe.Query.Basic
/-! # Conditions are read back as they are

The connectives, negations and predicates of a condition, and what its tokens are read as. The
operands of a predicate may be any terms in which no condition takes part, so that outside their
brackets stands no connective.

* `Condition.formula`, `Condition.isPredicate`: the connectives and predicates of a condition.
* `Expr.lower_operand`, `Expr.lower_truth`: operands, and terms that are conditions themselves.
* `Condition.lower_leaf`: a predicate is read as one, perhaps under a negation of its own.
* `Condition.readCondition_lower`: what is read back has the same truth. -/

namespace SqlScribe

open Tokens

/-! ## Operands -/

namespace Expr

/-- The expression is an operand of predicates: no condition takes part in its arithmetic. -/
def isOperand (e : Expr) : Bool := e.formula.atoms.all (·.isSimple)

/-- The expression is a truth value: an operand, and if it is a row of one, a row of a truth
value. -/
def isTruth : Expr → Bool
  | .tuple [⟨e, _⟩] => e.isTruth
  | .subquery q => q.isFormed
  | e => e.isOperand

/-- The expression is a query with nothing to write. -/
def isBlank : Expr → Bool
  | .subquery q => q.isBlank
  | _ => false

end Expr

theorem Expr.isOperand_arithmetic {op : ArithmeticOp} {left right : Term} :
    (Expr.arithmetic op left right).isOperand = true ↔
      left.formula.atoms.all (·.isSimple) = true ∧ right.formula.atoms.all (·.isSimple) = true := by
  rw [← Bool.and_eq_true_iff, ← List.all_append]
  rfl

/-- The token neither connects nor negates conditions, and is no word of a range, query or row. -/
def Token.Quiet (t : Token) : Prop := t.isMute = true ∧ t.negates = false

theorem Token.Quiet.of_inAtom {t : Token} (h : t.inAtom = true) : t.Quiet := by
  cases t with
  | word k => cases k <;> first | exact absurd h Bool.false_ne_true | exact ⟨rfl, rfl⟩
  | mark m => cases m <;> first | exact absurd h Bool.false_ne_true | exact ⟨rfl, rfl⟩
  | _ => exact ⟨rfl, rfl⟩

theorem ArithmeticOp.quiet_mark (op : ArithmeticOp) : (Token.mark op.mark).Quiet := by
  cases op <;> exact ⟨rfl, rfl⟩

theorem Token.isMute_of_inPredicate {t : Token} (h : t.inPredicate = true) : t.isMute = true := by
  cases t with
  | word k => cases k <;> first | exact absurd h Bool.false_ne_true | rfl
  | mark m => cases m <;> first | exact absurd h Bool.false_ne_true | rfl
  | _ => rfl

theorem Token.InExpression.of_isMute {t : Token} (h : t.isMute = true) : t.InExpression := by
  cases t with
  | word k => cases k <;> first | exact absurd h Bool.false_ne_true | exact ⟨rfl, nofun⟩
  | mark m => cases m <;> first | exact absurd h Bool.false_ne_true | exact ⟨rfl, nofun⟩
  | _ => exact ⟨rfl, nofun⟩

mutual

theorem Term.lower_shows_arithmetic {p : Token → Prop} (hp : ∀ t : Token, t.inAtom = true → p t)
    (hop : ∀ op : ArithmeticOp, p (.mark op.mark)) (s : Scope) : ∀ t : Term,
    t.formula.atoms.all (·.isSimple) = true → Yields (Shows p) (t.expr.lower s)
  | ⟨expr, _⟩, h => Expr.lower_shows_arithmetic hp hop s expr h

/-- Outside the brackets of an operand stand tokens of atoms and marks of operations. -/
theorem Expr.lower_shows_arithmetic {p : Token → Prop} (hp : ∀ t : Token, t.inAtom = true → p t)
    (hop : ∀ op : ArithmeticOp, p (.mark op.mark)) (s : Scope) (e : Expr)
    (h : e.isOperand = true) : Yields (Shows p) (e.lower s) := by
  cases e with
  | arithmetic op left right =>
    obtain ⟨hleft, hright⟩ := Expr.isOperand_arithmetic.mp h
    rw [Expr.lower, Term.lower_quiet, Term.lower_quiet]
    exact Clause.arithmetic_shows op _ _ (hop op)
      (Term.lower_shows_arithmetic hp hop s left hleft)
      (Term.lower_shows_arithmetic hp hop s right hright)
  | negative t =>
    rw [Expr.lower, Term.lower_quiet]
    exact Clause.negative_shows _ (hop .sub) (Term.lower_shows_arithmetic hp hop s t h)
  | _ =>
    have hall := List.all_eq_true.mp h _ (List.mem_singleton_self _)
    exact Expr.lower_shows hp s _ hall

end

theorem Term.lower_operand (s : Scope) (t : Term) (h : t.formula.atoms.all (·.isSimple) = true) :
    Yields (Shows Token.Quiet) (t.expr.lower s) :=
  Term.lower_shows_arithmetic (fun _ => .of_inAtom) ArithmeticOp.quiet_mark s t h

/-- Outside the brackets of an operand no token connects or negates conditions. -/
theorem Expr.lower_operand (s : Scope) (e : Expr) (h : e.isOperand = true) :
    Yields (Shows Token.Quiet) (e.lower s) :=
  Expr.lower_shows_arithmetic (fun _ => .of_inAtom) ArithmeticOp.quiet_mark s e h

/-- There are as many lists of tokens as terms. -/
theorem Term.length_lowerAll (s : Scope) (ts : List Term) :
    Yields (fun l => l.length = ts.length) (Term.lowerAll s ts) := by
  induction ts with
  | nil =>
    rw [Term.lowerAll]
    exact .ok rfl
  | cons t ts ih =>
    rw [Term.lowerAll]
    exact (Term.lower_nests s t).bind fun _ _ => ih.bind fun _ h => .pure (congrArg (· + 1) h)

/-- Between the items of a list of two or more stand commas. -/
theorem Tokens.listed_bears {a b : Tokens} {l : List Tokens} (h : AllNest (a :: b :: l)) :
    Bears (fun _ => True) (· = .mark .comma) (listed (a :: b :: l)) := by
  rw [listed_cons_cons]
  refine .append_left (h a (List.mem_cons_self ..)) (.head rfl trivial rfl ?_)
  exact .listed (fun ts hts => h ts (List.mem_cons_of_mem _ hts)) trivial

namespace Logic

theorem Plain.quiet {f : Forest} (h : Plain f) : ∀ t, TokenTree.token t ∈ f → t.Quiet := by
  cases h with
  | solid hf hmute => exact hmute
  | parens h => simp

end Logic

namespace Expr

/-- What the tokens of a truth value are: one operand, perhaps in parentheses. -/
def LowersPlain (e : Expr) (ts : Tokens) : Prop :=
  e.isBlank = true ∧ ts = [] ∨ e.isBlank = false ∧ ∃ f, Forms ts f ∧ Logic.Plain f

theorem LowersPlain.of_stands {e : Expr} {ts : Tokens} (h : Stands Token.Quiet ts)
    (hblank : e.isBlank = false) : e.LowersPlain ts := by
  obtain ⟨f, hf, hquiet, hsolid⟩ := h
  exact .inr ⟨hblank, f, hf, .solid hsolid hquiet⟩

/-- What stands in parentheses is one operand if it is a query or row. -/
theorem LowersPlain.of_group {e : Expr} {ts : Tokens} {f : Forest} (hf : Forms ts [.group .round f])
    (hclosed : Forest.isQueryOrRow f = true) (hblank : e.isBlank = false) : e.LowersPlain ts := by
  refine .inr ⟨hblank, _, hf, .solid ⟨List.cons_ne_nil _ _, fun inner heq => ?_⟩ (by simp)⟩
  cases heq
  exact hclosed

theorem lower_truth_of_solid (s : Scope) (e : Expr) (hsimple : e.isSimple = true)
    (hsolid : e.isSolid = true) (hblank : e.isBlank = false) : Yields e.LowersPlain (e.lower s) :=
  (lower_stands (fun _ ht => Token.Quiet.of_inAtom ht) s e hsimple hsolid).mono
    fun _ h => .of_stands h hblank

/-- The tokens of a truth value are read as one operand. -/
theorem lower_truth (s : Scope) (e : Expr) (h : e.isTruth = true) :
    Yields e.LowersPlain (e.lower s) := by
  cases e with
  | tuple items =>
    rw [Expr.lower]
    match items, h with
    | [], _ =>
      rw [Term.lowerAll]
      exact .ok (.of_group Forms.nil.parens rfl rfl)
    | [⟨e, alias?⟩], h =>
      -- A row of one item is read as the item.
      have hitems : Yields (fun l => ∃ ts, l = [ts] ∧ e.LowersPlain ts)
          (Term.lowerAll s.quiet [⟨e, alias?⟩]) := by
        rw [Term.lowerAll, Term.lower_quiet, Term.lowerAll]
        exact (lower_truth s e h).bind fun ts hts => .pure ⟨ts, rfl, hts⟩
      refine hitems.bind fun l hl => .pure ?_
      obtain ⟨ts, rfl, hts⟩ := hl
      rcases hts with ⟨-, rfl⟩ | ⟨-, f, hf, hplain⟩
      · exact .of_group Forms.nil.parens rfl rfl
      · exact .inr ⟨rfl, _, hf.parens, hplain.parens⟩
    | t :: u :: rest, _ =>
      -- A longer row shows a comma, so that it is not read by itself.
      refine ((Term.lowerAll_nest s.quiet (t :: u :: rest)).and
        (Term.length_lowerAll s.quiet (t :: u :: rest))).bind fun l hl => .pure ?_
      obtain ⟨hnest, hlength⟩ := hl
      match l, hlength with
      | a :: b :: l, _ =>
        obtain ⟨f, hf, -, t, ht, rfl⟩ := listed_bears hnest
        have hrow : Forest.isRow f = true :=
          Bool.or_eq_true_iff.mpr (.inr (List.any_eq_true.mpr ⟨_, ht, rfl⟩))
        exact .of_group hf.parens (Bool.or_eq_true_iff.mpr (.inr hrow)) rfl
  | subquery q =>
    rw [Expr.lower]
    cases hblank : q.isBlank with
    | true => exact (q.lower_blank s.embedded hblank).mono fun ts hts => .inl ⟨hblank, hts⟩
    | false =>
      refine (q.lower_embedded s h hblank).mono fun ts hts => ?_
      obtain ⟨f, hf, hquery⟩ := hts
      exact .of_group hf (Bool.or_eq_true_iff.mpr (.inl hquery)) hblank
  | arithmetic op left right =>
    obtain ⟨hleft, hright⟩ := isOperand_arithmetic.mp h
    rw [Expr.lower, Term.lower_quiet, Term.lower_quiet]
    refine (Term.lower_operand s left hleft).bind fun l hl =>
      (Term.lower_operand s right hright).bind fun r hr => .pure (.of_stands ?_ rfl)
    exact (Bears.append_left (q := fun _ => True) (hl.parensIf _)
      (.head op.role_mark op.quiet_mark trivial (hr.parensIf _))).stands
  | negative t =>
    rw [Expr.lower, Term.lower_quiet]
    refine (Term.lower_operand s t h).bind fun ts hts => .pure (.of_stands ?_ rfl)
    exact (Bears.head (q := fun _ => True) rfl (ArithmeticOp.quiet_mark .sub) trivial
      (hts.parensIf _)).stands
  | condition c => cases h
  | _ => exact lower_truth_of_solid s _ rfl rfl rfl

end Expr

/-! ## Predicates -/

/-- The tokens are read as one predicate, perhaps under negations. -/
def Tokens.Predicates (ts : Tokens) : Prop :=
  ∃ f n g, Forms ts f ∧ f.Expresses ∧ Logic.ReadsLeaf f n g

theorem Forest.Expresses.of_mute {f : Forest} (hne : f ≠ [])
    (hmute : ∀ t, TokenTree.token t ∈ f → t.isMute = true) : f.Expresses :=
  ⟨hne, fun t ht => .of_isMute (hmute t ht)⟩

theorem Tokens.Predicates.of_asserts {ts : Tokens} (h : Asserts (·.isMute = true) ts) :
    Predicates ts := by
  obtain ⟨f, hf, hmute, hmore⟩ := h
  obtain ⟨n, g, hread⟩ := Logic.ReadsLeaf.of_mute hmute hmore
  obtain ⟨t, ht, -⟩ := hmore
  exact ⟨f, n, g, hf, .of_mute (List.ne_nil_of_mem ht) hmute, hread⟩

theorem Tokens.Predicates.of_plain {ts : Tokens} {f : Forest} (hf : Forms ts f)
    (h : Logic.Plain f) : Predicates ts := by
  obtain ⟨g, hread⟩ := Logic.ReadsLeaf.of_plain h
  refine ⟨f, 0, g, hf, .of_mute ?_ fun t ht => (h.quiet t ht).1, hread⟩
  cases h with
  | solid hf _ => exact hf.1
  | parens _ => exact List.cons_ne_nil _ _

theorem Tokens.Predicates.of_between {left low high : Tokens} (negated : Bool)
    (hl : Shows Token.Quiet left) (hlow : Shows Token.Quiet low) (hhigh : Shows Token.Quiet high) :
    Predicates (Clause.infixed left negated (.word .BETWEEN)
      (low ++ spaced (.word .AND) ++ high)) := by
  have hleft : Shows (·.isMute = true) (left ++ .space :: Clause.negation negated) :=
    (hl.mono fun _ h => h.1).append (Shows.negation (p := (·.isMute = true)) negated rfl).blank
  obtain ⟨f, hf, hmute⟩ := hleft
  obtain ⟨f', hf', hmute'⟩ := hlow
  obtain ⟨g', hg', hquiet⟩ := hhigh
  obtain ⟨n, g, hread⟩ := Logic.ReadsLeaf.of_between hmute (fun t ht => (hmute' t ht).1)
    fun t ht => (hquiet t ht).1
  have hinner : Forest.Expresses (f' ++ .token (.word .AND) :: g') :=
    .infixed (fun t ht => .of_isMute (hmute' t ht).1) ⟨rfl, nofun⟩
      fun t ht => .of_isMute (hquiet t ht).1
  have houter : Forest.Expresses
      (f ++ .token (.word .BETWEEN) :: (f' ++ .token (.word .AND) :: g')) :=
    .infixed (fun t ht => .of_isMute (hmute t ht)) ⟨rfl, nofun⟩ hinner.tokens
  refine ⟨_, n, g, ?_, houter, hread⟩
  have hrange : Forms (low ++ spaced (.word .AND) ++ high)
      (f' ++ .token (.word .AND) :: g') := hf'.spaced rfl hg'
  simpa only [Clause.infixed, List.append_assoc, List.cons_append] using
    hf.append (Forms.plain (t := .word .BETWEEN) rfl hrange.blank)

namespace Condition

/-- The connectives, negations and predicates of a condition. -/
def formula : Condition → Formula Connective Condition
  | .combined op left right => .binary op left.formula right.formula
  | .not c => .negated c.formula
  | c => .atom c

/-- The condition is a predicate, and no condition takes part in the arithmetic of its operands. As
a predicate, a query has something to write. -/
def isPredicate : Condition → Bool
  | .empty => false
  | .compare _ left right => left.expr.isOperand && right.expr.isOperand
  | .matches _ _ t pattern _ => t.expr.isOperand && pattern.expr.isOperand
  | .json _ left right => left.expr.isOperand && right.expr.isOperand
  | .search _ t value => t.expr.isOperand && value.expr.isOperand
  | .isNull _ t => t.expr.isOperand
  | .isIn _ t _ => t.expr.isOperand
  | .isInRows _ t _ => t.expr.isOperand
  | .between _ t low high => t.expr.isOperand && low.expr.isOperand && high.expr.isOperand
  | .hasRows _ _ => true
  | .combined _ _ _ => false
  | .not _ => false
  | .term t => t.expr.isTruth && !t.expr.isBlank

/-- The tokens of a condition do not depend on whether aliases are shown. -/
theorem lower_quiet (s : Scope) (c : Condition) : c.lower s.quiet = c.lower s := by
  cases c <;> rw [Condition.lower.eq_def, Condition.lower.eq_def] <;> rfl

/-- A predicate is read as one, perhaps under a negation of its own. -/
theorem lower_leaf (s : Scope) (c : Condition) (h : c.isPredicate = true) :
    Yields Predicates (c.lower s) := by
  have hp : ∀ t : Token, t.inPredicate = true → t.isMute = true :=
    fun _ => Token.isMute_of_inPredicate
  have hmute : ∀ {t : Term}, t.expr.isOperand = true →
      Yields (Shows (·.isMute = true)) (t.lower s.quiet) := by
    intro t ht
    rw [Term.lower_quiet]
    exact (Expr.lower_operand s t.expr ht).mono fun _ h => h.mono fun _ h => h.1
  have hrows : ∀ {q : Subquery}, Yields (Shows (·.isMute = true)) (q.lower s.embedded) :=
    fun {q} => q.lower_embedded_shows s
  cases c with
  | empty => cases h
  | compare op left right =>
    obtain ⟨hl, hr⟩ := Bool.and_eq_true_iff.mp h
    rw [Condition.lower]
    exact (Clause.comparison_asserts hp op _ (hmute hl) (hmute hr)).mono fun _ h => .of_asserts h
  | «matches» op negated term pattern escape =>
    obtain ⟨ht, hr⟩ := Bool.and_eq_true_iff.mp h
    rw [Condition.lower]
    exact (Clause.matching_asserts hp s.dialect op negated escape (hmute ht) (hmute hr)).mono
      fun _ h => .of_asserts h
  | json op left right =>
    obtain ⟨hl, hr⟩ := Bool.and_eq_true_iff.mp h
    rw [Condition.lower]
    exact (Clause.json_asserts hp s.dialect op (hmute hl) (hmute hr)).mono fun _ h => .of_asserts h
  | search op term value =>
    obtain ⟨ht, hv⟩ := Bool.and_eq_true_iff.mp h
    rw [Condition.lower]
    exact (Clause.search_asserts hp s.dialect op (hmute ht) (hmute hv)).mono
      fun _ h => .of_asserts h
  | isNull negated term =>
    rw [Condition.lower]
    exact (Clause.isNull_asserts hp negated (hmute h)).mono fun _ h => .of_asserts h
  | isIn negated term items =>
    rw [Condition.lower]
    exact (Clause.isIn_asserts hp negated _ (hmute h) (Term.lowerAll_nest s.quiet items)).mono
      fun _ h => .of_asserts h
  | isInRows negated term rows =>
    rw [Condition.lower]
    exact (Clause.isInRows_asserts hp negated (hmute h) hrows).mono fun _ h => .of_asserts h
  | between negated term low high =>
    obtain ⟨h, hhigh⟩ := Bool.and_eq_true_iff.mp h
    obtain ⟨ht, hlow⟩ := Bool.and_eq_true_iff.mp h
    rw [Condition.lower, Term.lower_quiet, Term.lower_quiet, Term.lower_quiet]
    exact (Expr.lower_operand s _ ht).bind fun _ ht => (Expr.lower_operand s _ hlow).bind
      fun _ hlow => (Expr.lower_operand s _ hhigh).bind fun _ hhigh =>
        .pure (.of_between negated ht hlow hhigh)
  | hasRows negated rows =>
    rw [Condition.lower]
    exact (Clause.hasRows_asserts hp negated hrows).mono fun _ h => .of_asserts h
  | combined op left right => cases h
  | not c => cases h
  | term t =>
    obtain ⟨htruth, hblank⟩ := Bool.and_eq_true_iff.mp h
    rw [Condition.lower, Term.lower_quiet]
    refine (Expr.lower_truth s t.expr htruth).mono fun ts hts => ?_
    rcases hts with ⟨hempty, -⟩ | ⟨-, f, hf, hplain⟩
    · rw [hempty] at hblank
      cases hblank
    · exact .of_plain hf hplain

/-- The formula that the tokens of a condition stand for. -/
def reading (s : Scope) (c : Condition) : Formula Connective Forest :=
  match c.lower s with
  | .ok ts => (readCondition ts).getD (.atom [])
  | .error _ => .atom []

theorem reading_eq (s : Scope) {c : Condition} {ts : Tokens} {x : Formula Connective Forest}
    (hts : c.lower s = .ok ts) (hx : readCondition ts = some x) : c.reading s = x := by
  rw [reading, hts]
  exact congrArg (·.getD (.atom [])) hx

theorem readCondition_leaf {ts : Tokens} {f g : Forest} {n : Nat} (hf : Forms ts f)
    (h : Logic.ReadsLeaf f n g) : readCondition ts = some ((Formula.atom g).negatedTimes n) := by
  obtain ⟨trees, hrun⟩ := h Logic.grammar.start
  rw [readCondition, Grammar.readTokens_of_forms _ hf, Grammar.read_eq_of_run _ hrun]
  exact congrArg some (Logic.Pending.whole_negate {} n (.atom g))

/-- The tokens of a condition stand for its connectives, negations and leaves, if each leaf is read
as one predicate. -/
theorem lower_readsAs_of_leaves (s : Scope) (c : Condition)
    (h : ∀ leaf ∈ c.formula.atoms, Yields Predicates (leaf.lower s)) :
    Yields (Logic.ReadsAs (·.reading s) c.formula c.connective?) (c.lower s) := by
  have hleaf : ∀ {leaf : Condition}, Yields Predicates (leaf.lower s) →
      Yields (Logic.ReadsAs (·.reading s) (.atom leaf) none) (leaf.lower s) := by
    intro leaf hleaf ts hts
    obtain ⟨f, n, g, hf, hexpr, hread⟩ := hleaf ts hts
    exact ⟨f, hf, hexpr, .leaf hread (reading_eq s hts (readCondition_leaf hf hread))⟩
  have hsame : ∀ {op : Connective} {op? : Option Connective},
      ∀ o ∈ (if op?.any (· != op) then none else op?), o = op :=
    fun o ho => by simpa using ReadBy.not_hidden o ho
  cases c with
  | combined op left right =>
    have hleft := lower_readsAs_of_leaves s left fun leaf hl => h leaf (List.mem_append_left _ hl)
    have hright := lower_readsAs_of_leaves s right fun leaf hl => h leaf (List.mem_append_right _ hl)
    rw [Condition.lower, lower_quiet, lower_quiet]
    exact hleft.bind fun _ hl => hright.bind fun _ hr =>
      .pure ((hl.parensIf _).combined (hr.parensIf _) hsame hsame)
  | not c =>
    have hc := lower_readsAs_of_leaves s c h
    rw [Condition.lower, lower_quiet]
    refine hc.bind fun ts hts => .pure ?_
    have hwrapped := hts.parensIf c.connective?.isSome
    have hnone : (if c.connective?.isSome then none else c.connective?) = none := by
      cases c.connective? <;> rfl
    rw [hnone] at hwrapped
    exact hwrapped.negated
  | _ => exact hleaf (h _ (List.mem_singleton_self _))

/-- The tokens of a condition stand for its connectives, negations and predicates. -/
theorem lower_readsAs (s : Scope) (c : Condition)
    (h : ∀ leaf ∈ c.formula.atoms, leaf.isPredicate = true) :
    Yields (Logic.ReadsAs (·.reading s) c.formula c.connective?) (c.lower s) :=
  lower_readsAs_of_leaves s c fun leaf hleaf => lower_leaf s leaf (h leaf hleaf)

/-- The tokens of a condition are made from those of its leaves. -/
theorem lower_from (s : Scope) (c : Condition) :
    LoweredFrom (Condition.lower s) c.formula.atoms (c.lower s) := by
  cases c with
  | combined op left right =>
    rw [Condition.lower, lower_quiet, lower_quiet]
    exact (lower_from s left).map₂ _ (lower_from s right)
  | not c =>
    rw [Condition.lower, lower_quiet]
    exact (lower_from s c).map _
  | _ => exact .part _

/-- **Conditions read back.** Let the leaves of a condition be predicates. The condition fails only
with an error of a leaf. Otherwise each leaf is read as one predicate, perhaps under negations of
its own; the tokens of the condition are read as a formula of the same leaves in the same order; and
whatever the truth of the leaves is, this formula has the truth of the condition. -/
theorem readCondition_lower (s : Scope) (c : Condition)
    (hc : ∀ leaf ∈ c.formula.atoms, leaf.isPredicate = true) :
    (∀ err, c.lower s = .error err → ∃ leaf ∈ c.formula.atoms, leaf.lower s = .error err) ∧
    ∀ ts, c.lower s = .ok ts →
      (∀ leaf ∈ c.formula.atoms, ∃ (us : Tokens) (n : Nat) (f : Forest),
        leaf.lower s = .ok us ∧ readCondition us = some (leaf.reading s) ∧
        leaf.reading s = (Formula.atom f).negatedTimes n) ∧
      ∃ tree : Formula Connective Condition,
        readCondition ts = some (tree.bind (·.reading s)) ∧
        tree.atoms = c.formula.atoms ∧
        ∀ ρ : Condition → Truth, tree.eval kleene ρ = c.formula.eval kleene ρ := by
  obtain ⟨herr, hok⟩ := lower_from s c
  refine ⟨herr, fun ts hts => ⟨fun leaf hleaf => ?_, ?_⟩⟩
  · obtain ⟨us, hus⟩ := hok ts hts leaf hleaf
    obtain ⟨f, n, g, hf, -, hread⟩ := lower_leaf s leaf (hc leaf hleaf) us hus
    have hread := readCondition_leaf hf hread
    have heq := reading_eq s hus hread
    exact ⟨us, n, g, hus, heq ▸ hread, heq⟩
  · obtain ⟨tree, hread, hsame⟩ := (lower_readsAs s c hc ts hts).read
    exact ⟨tree, hread, hsame.atoms, hsame.value⟩

/-- A disjunction beside a negated range, a chain that is grouped to the right. -/
theorem readCondition_lower_mixed :
    let a := (Term.field "a").equals (Term.int 1)
    let b := Condition.between true (Term.field "b") (Term.int 2) (Term.int 3)
    let d := Condition.isNull false (Term.field "d")
    let c := Condition.combined .and (.combined .or a d) (.combined .and (.not b) (.not (.not d)))
    let ts : Tokens :=
      Tokens.parens ([.ident "a", .mark .eq, .literal (.int 1)] ++ spaced (.word .OR) ++
        [.ident "d", .space, .word .IS, .space, .word .NULL]) ++ spaced (.word .AND) ++
      ([.word .NOT, .space, .ident "b", .space, .word .NOT, .space, .word .BETWEEN, .space,
        .literal (.int 2), .space, .word .AND, .space, .literal (.int 3)] ++ spaced (.word .AND) ++
        [.word .NOT, .space, .word .NOT, .space, .ident "d", .space, .word .IS, .space, .word .NULL])
    ∃ tree : Formula Connective Condition,
      readCondition ts = some (tree.bind (·.reading (.ofOptions .ansi {}))) ∧
      tree.atoms = c.formula.atoms ∧
      ∀ ρ : Condition → Truth, tree.eval kleene ρ = c.formula.eval kleene ρ :=
  ((readCondition_lower _ _ (by decide)).2 _ rfl).2

/-- What is not a predicate has no reading: a query without a select list has no tokens, and in
arithmetic a condition does not stand in parentheses. -/
theorem readCondition_ambiguous :
    let blank := Query.addSource (.start ⟨0⟩ .ansi) (.table { id := ⟨1⟩, name := "abc" })
    let a := (Term.field "a").equals (Term.int 1)
    let b := (Term.field "b").equals (Term.int 2)
    let sum := (Term.ofCondition (a.or b) + Term.int 3).equals (Term.int 4)
    let s := Scope.ofOptions .ansi {}
    (∃ ts, (Condition.combined .and a (.ofTerm (.ofSubquery (.query blank)))).lower s = .ok ts ∧
      readCondition ts = none) ∧
    ∃ ts, (Condition.combined .and sum a).lower s = .ok ts ∧ readCondition ts = none :=
  ⟨⟨_, rfl, rfl⟩, _, rfl, rfl⟩

end Condition

end SqlScribe
