import SqlScribe.Condition
import SqlScribe.Proofs.Reading.Chain
import SqlScribe.Proofs.Reading.Expression
/-! # The meaning of conditions

What terms and conditions mean, given what their operands and predicates mean: conditions may be
operands of predicates and of arithmetic, and then stand for the values of their truth.

* `Meaning`: what operands and predicates mean.
* `Expr.denote`, `Condition.denote`: the values of expressions and conditions.
* `Standing`, `Expr.standing`: where an expression can stand without parentheses.
* `Meaning.operand`, `Meaning.chain`: the values of trees, read as an operand or as a chain.
* `Expr.lower_operates`: what can stand anywhere is an operand of its value.
* `Forest.Chains`: trees that are a chain of a value, and how it goes on. -/

namespace SqlScribe

open Tokens

/-- What operands and predicates mean. Values are exact numbers; null and what is not defined have
none. A predicate is any function of its operands, told apart by its symbols. -/
structure Meaning where
  /-- The value of an atom of arithmetic, which its trees tell. -/
  atom : Forest → Option ℚ
  /-- The value of a predicate: of its left operand, and of its symbols with the values of the
  operands behind each of them. -/
  predicate : Option ℚ → List (Token × List (Option ℚ)) → Option ℚ
  /-- The truth of a value. -/
  truth : Option ℚ → Truth
  /-- The value of a truth. -/
  ofTruth : Truth → Option ℚ
  /-- The value of a truth has that truth. -/
  truth_ofTruth : ∀ x, truth (ofTruth x) = x
  /-- What is written for membership in an empty list is the value of its truth. -/
  atom_isIn : ∀ negated : Bool, atom [.token (.raw (if negated then "1=1" else "1=0"))] =
    ofTruth (if negated then .true else .false)

/-- Fields with values: `=` compares two of them, and `IS NULL` tests one for null. -/
def Meaning.ofFields (fields : String → Option ℚ) : Meaning where
  atom
    | [.token (.ident name)] => fields name
    | [.token (.literal (.int n))] => some n
    | [.token (.raw "1=1")] => some 1
    | [.token (.raw "1=0")] => some 0
    | _ => none
  predicate v
    | [(.mark .eq, [w])] => v.bind fun x => w.bind fun y => some (if x = y then 1 else 0)
    | [(.word .IS, [none])] => some (if v = none then 1 else 0)
    | _ => none
  truth
    | none => .unknown
    | some x => if x = 0 then .false else .true
  ofTruth
    | .false => some 0
    | .unknown => none
    | .true => some 1
  truth_ofTruth x := by cases x <;> rfl
  atom_isIn negated := by cases negated <;> rfl

/-- Symbols of a predicate, each with the values behind it. -/
abbrev Symbols := List (Token × List (Option ℚ))

/-- The symbol `NOT` of a negated predicate. -/
def Symbols.negation (negated : Bool) : Symbols := if negated then [(.word .NOT, [])] else []

/-- The symbol before the escape character of a pattern. -/
def Meaning.escape (M : Meaning) (d : Dialect) : Option Char → Symbols
  | none => []
  | some c => [(.word .ESCAPE, [M.atom [.token (.raw (d.stringLiteral (String.singleton c)))]])]

mutual

/-- The value of a term. -/
def Term.denote (M : Meaning) (s : Scope) : Term → Option ℚ
  | ⟨expr, _⟩ => expr.denote M s

/-- The value of an expression. -/
def Expr.denote (M : Meaning) (s : Scope) : Expr → Option ℚ
  | .arithmetic op left right => rationals.apply op (left.denote M s) (right.denote M s)
  | .negative t => rationals.negate (t.denote M s)
  | .condition c => c.denote M s
  | e => M.atom (e.trees s)

/-- The value of a condition. -/
def Condition.denote (M : Meaning) (s : Scope) : Condition → Option ℚ
  | .empty => M.ofTruth .true
  | .compare op left right =>
    M.predicate (left.denote M s) [(.mark op.mark, [right.denote M s])]
  | .json op left right =>
    M.predicate (left.denote M s) [(.operator op.symbol, [right.denote M s])]
  | .matches .like negated t pattern escape =>
    M.predicate (t.denote M s) (Symbols.negation negated ++ (.word .LIKE, [pattern.denote M s]) ::
      M.escape s.dialect escape)
  | .isNull negated t =>
    let null := M.atom [.token (.word .NULL)]
    M.predicate (t.denote M s)
      (if negated then [(.word .IS, []), (.word .NOT, [null])] else [(.word .IS, [null])])
  | .isIn negated _ [] => M.ofTruth (if negated then .true else .false)
  | .isIn negated t (item :: items) =>
    M.predicate (t.denote M s)
      (Symbols.negation negated ++ [(.word .IN, Term.denotations M s (item :: items))])
  | .between negated t low high =>
    M.predicate (t.denote M s) (Symbols.negation negated ++
      [(.word .BETWEEN, [low.denote M s]), (.word .AND, [high.denote M s])])
  | .combined op left right =>
    M.ofTruth (kleene.apply op (M.truth (left.denote M s)) (M.truth (right.denote M s)))
  | .not c => M.ofTruth (kleene.negate (M.truth (c.denote M s)))
  | .term t => t.denote M s
  | c => M.atom ((Expr.condition c).trees s)

/-- The values of terms. -/
def Term.denotations (M : Meaning) (s : Scope) : List Term → List (Option ℚ)
  | [] => []
  | t :: ts => t.denote M s :: Term.denotations M s ts

end

/-! ## Standing -/

/-- Where an expression can stand without parentheses. -/
inductive Standing where
  /-- Wherever an operand can. -/
  | anywhere
  /-- At the left of a predicate. -/
  | left
  /-- Not as an operand. -/
  | alone
  /-- Nowhere, for parentheses are missing in it. -/
  | nowhere
deriving Repr, DecidableEq

namespace Standing

/-- The expression can stand wherever an operand can. -/
def isOperand : Standing → Bool
  | .anywhere => true
  | _ => false

/-- The expression can stand at the left of a predicate. -/
def isLeft : Standing → Bool
  | .anywhere => true
  | .left => true
  | _ => false

/-- No parentheses are missing in the expression. -/
def isClear : Standing → Bool
  | .nowhere => false
  | _ => true

/-- The standing of what is built from parts that can stand there. -/
def onlyIf (parts : Bool) (x : Standing) : Standing := if parts then x else .nowhere

/-- The standing of a condition as an expression: it is no operand of arithmetic. -/
def ofCondition : Standing → Standing
  | .anywhere => .left
  | x => x

variable {x : Standing} {parts : Bool}

theorem isLeft_of_isOperand (h : x.isOperand = true) : x.isLeft = true := by
  cases x <;> first | rfl | cases h

theorem isClear_of_isLeft (h : x.isLeft = true) : x.isClear = true := by
  cases x <;> first | rfl | cases h

theorem parts_of_isClear (h : (onlyIf parts x).isClear = true) : parts = true := by
  cases parts with
  | true => rfl
  | false => cases h

theorem isClear_onlyIf (hparts : parts = true) : (onlyIf parts x).isClear = x.isClear := by
  rw [hparts]
  rfl

theorem isLeft_of_isClear (h : (onlyIf parts .left).isClear = true) :
    (onlyIf parts .left).isLeft = true := by
  rw [parts_of_isClear h]
  rfl

theorem isOperand_of_isClear (h : (onlyIf parts .anywhere).isClear = true) :
    (onlyIf parts .anywhere).isOperand = true := by
  rw [parts_of_isClear h]
  rfl

theorem isLeft_alone : (onlyIf parts .alone).isLeft = false := by
  cases parts <;> rfl

theorem parts_of_isLeft (h : (onlyIf parts x).isLeft = true) : parts = true :=
  parts_of_isClear (isClear_of_isLeft h)

theorem parts_of_isOperand (h : (onlyIf parts x).isOperand = true) : parts = true :=
  parts_of_isLeft (isLeft_of_isOperand h)

@[simp] theorem isOperand_ofCondition (x : Standing) : x.ofCondition.isOperand = false := by
  cases x <;> rfl

@[simp] theorem isLeft_ofCondition (x : Standing) : x.ofCondition.isLeft = x.isLeft := by
  cases x <;> rfl

@[simp] theorem isClear_ofCondition (x : Standing) : x.ofCondition.isClear = x.isClear := by
  cases x <;> rfl

end Standing

mutual

/-- Where a term can stand. -/
def Term.standing : Term → Standing
  | ⟨expr, _⟩ => expr.standing

/-- Where an expression can stand. An atom is told by its trees, so no parentheses may be missing
between its brackets either. A row is not one value, the value of a query is not that of its fields
alone, and a piece of SQL may be anything. -/
def Expr.standing : Expr → Standing
  | .field _ _ => .anywhere
  | .star _ => .anywhere
  | .value _ => .anywhere
  | .named _ _ => .anywhere
  | .null => .anywhere
  | .parameter _ => .nowhere
  | .raw _ => .nowhere
  | .tuple _ => .nowhere
  | .array items => .onlyIf (Term.areClear items) .anywhere
  | .interval _ => .anywhere
  | .arithmetic _ left right =>
    .onlyIf (left.standing.isOperand && right.standing.isOperand) .anywhere
  | .negative t => .onlyIf t.standing.isOperand .anywhere
  | .call c => .onlyIf c.isClear .anywhere
  | .case branches otherwise =>
    .onlyIf (Branch.areClear branches && Term.isClearIfSome otherwise) .anywhere
  | .subquery _ => .nowhere
  | .condition c => c.standing.ofCondition

/-- No parentheses are missing in the call. -/
def Call.isClear : Call → Bool
  | ⟨_, _, _, _, _, args, filter, window⟩ =>
    Term.areClear args &&
      (match filter with
        | none => true
        | some c => c.standing.isClear) &&
      match window with
        | none => true
        | some w => w.isClear

/-- No parentheses are missing in the window. -/
def Window.isClear : Window → Bool
  | ⟨partitionBy, orderBy, _⟩ => Term.areClear partitionBy && OrderItem.areClear orderBy

/-- Where a condition can stand. A predicate stands at the left of another one. -/
def Condition.standing : Condition → Standing
  | .compare _ left right => .onlyIf (left.standing.isLeft && right.standing.isOperand) .left
  | .matches .like _ t pattern _ =>
    .onlyIf (t.standing.isLeft && pattern.standing.isOperand) .left
  | .json _ left right => .onlyIf (left.standing.isLeft && right.standing.isOperand) .left
  | .isNull _ t => .onlyIf t.standing.isLeft .left
  | .isIn _ t items =>
    .onlyIf (items.isEmpty || t.standing.isLeft && Term.areOperands items) .left
  | .between _ t low high =>
    .onlyIf (t.standing.isLeft && low.standing.isOperand && high.standing.isOperand) .left
  | .combined _ left right => .onlyIf (left.standing.isClear && right.standing.isClear) .alone
  | .not c => .onlyIf c.standing.isClear .alone
  | .term t => .onlyIf t.standing.isLeft .left
  | _ => .nowhere

/-- No parentheses are missing in the term, if there is one. -/
def Term.isClearIfSome : Option Term → Bool
  | none => true
  | some t => t.standing.isClear

/-- No parentheses are missing in the terms. -/
def Term.areClear : List Term → Bool
  | [] => true
  | t :: ts => t.standing.isClear && Term.areClear ts

/-- The terms can stand wherever operands can. -/
def Term.areOperands : List Term → Bool
  | [] => true
  | t :: ts => t.standing.isOperand && Term.areOperands ts

/-- No parentheses are missing in the ordering terms. -/
def OrderItem.areClear : List OrderItem → Bool
  | [] => true
  | ⟨t, _⟩ :: items => t.standing.isClear && OrderItem.areClear items

/-- No parentheses are missing in the branches. -/
def Branch.areClear : List Branch → Bool
  | [] => true
  | ⟨condition, result⟩ :: branches =>
    condition.standing.isClear && result.standing.isClear && Branch.areClear branches

end

/-- What is no condition can stand anywhere if no parentheses are missing in it. -/
theorem Expr.isOperand_of_isClear {e : Expr} (h : e.standing.isClear = true)
    (he : ∀ c, e ≠ .condition c) : e.standing.isOperand = true := by
  cases e with
  | array | arithmetic | negative | call | case => exact Standing.isOperand_of_isClear h
  | parameter | raw | tuple | subquery => cases h
  | condition c => exact absurd rfl (he c)
  | _ => rfl

mutual

theorem Term.isAtom_of_isOperand : ∀ {t : Term}, t.standing.isOperand = true →
    ∀ a ∈ t.formula.atoms, a.isAtom = true
  | ⟨_, _⟩, h => Expr.isAtom_of_isOperand h

theorem Expr.isAtom_of_isOperand {e : Expr} (h : e.standing.isOperand = true) :
    ∀ a ∈ e.formula.atoms, a.isAtom = true := by
  cases e with
  | arithmetic op left right =>
    obtain ⟨hleft, hright⟩ := Bool.and_eq_true_iff.mp (Standing.parts_of_isOperand h)
    intro a ha
    rcases List.mem_append.mp ha with ha | ha
    · exact Term.isAtom_of_isOperand hleft a ha
    · exact Term.isAtom_of_isOperand hright a ha
  | negative t => exact Term.isAtom_of_isOperand (t := t) (Standing.parts_of_isOperand h)
  | condition c =>
    rw [Expr.standing, Standing.isOperand_ofCondition] at h
    cases h
  | _ =>
    intro a ha
    cases List.mem_singleton.mp ha
    first | rfl | cases h

end

/-! ## Reading back -/

/-- The tree is a comma. -/
def TokenTree.isComma : TokenTree → Bool
  | .token (.mark .comma) => true
  | _ => false

theorem Forest.IsOperand.no_comma {f : Forest} (h : f.IsOperand) :
    ∀ tree ∈ f, tree.isComma = false := by
  intro tree htree
  rw [TokenTree.isComma.eq_def]
  split
  · exact absurd rfl (Token.InExpression.of_isMute (h.mute _ htree)).2
  · rfl

/-- The trees between commas. -/
def Forest.items (f : Forest) : List Forest := f.splitOnP TokenTree.isComma

namespace Meaning

variable (M : Meaning)

/-- The value of an operand by the rules of arithmetic. -/
def operand (f : Forest) : Option ℚ :=
  (Arithmetic.grammar.read f).bind fun x => x.eval rationals M.atom

/-- The values of the operands behind a symbol; behind `IN` stands a list of them. -/
def behind : Forest.Piece → List (Option ℚ)
  | (_, []) => []
  | (.word .IN, [.group .round inner]) => (Forest.items inner).map M.operand
  | (_, f) => [M.operand f]

theorem behind_of_ne {t : Token} {f : Forest} (ht : t ≠ .word .IN) (hf : f ≠ []) :
    M.behind (t, f) = [M.operand f] := by
  rw [behind.eq_def]
  split
  · next heq =>
    cases heq
    exact absurd rfl hf
  · next heq =>
    cases heq
    exact absurd rfl ht
  · next heq =>
    cases heq
    rfl

theorem behind_group (inner : Forest) :
    M.behind (.word .IN, [.group .round inner]) = (Forest.items inner).map M.operand := rfl

/-- The value of a predicate behind a left operand. -/
def step (v : Option ℚ) (ps : List Forest.Piece) : Option ℚ :=
  M.predicate v (ps.map fun p => (p.1, M.behind p))

/-- The value of a chain of predicates, which are taken in from the left. -/
def chain (f : Forest) : Option ℚ := f.steps.foldl M.step (M.operand f.pieces.1)

end Meaning

/-! ## Operands -/

mutual

theorem Term.denote_eq_eval (M : Meaning) (s : Scope) : ∀ t : Term,
    (∀ a ∈ t.formula.atoms, a.isAtom = true) →
      t.denote M s = t.formula.eval rationals fun a => M.atom (a.trees s)
  | ⟨expr, _⟩, h => Expr.denote_eq_eval M s expr h

/-- The value of an arithmetic expression is that of its operations and atoms. -/
theorem Expr.denote_eq_eval (M : Meaning) (s : Scope) (e : Expr)
    (h : ∀ a ∈ e.formula.atoms, a.isAtom = true) :
    e.denote M s = e.formula.eval rationals fun a => M.atom (a.trees s) := by
  cases e with
  | arithmetic op left right =>
    rw [Expr.denote, Expr.formula, Formula.eval,
      Term.denote_eq_eval M s left fun a ha => h a (List.mem_append_left _ ha),
      Term.denote_eq_eval M s right fun a ha => h a (List.mem_append_right _ ha)]
  | negative t => rw [Expr.denote, Expr.formula, Formula.eval, Term.denote_eq_eval M s t h]
  | condition c => exact absurd (h _ (List.mem_singleton_self _)) Bool.false_ne_true
  | _ => rfl

end

/-- The tokens are one operand, and its value by the rules of arithmetic is this one. -/
def Tokens.Operates (M : Meaning) (v : Option ℚ) (ts : Tokens) : Prop :=
  ∃ f, Forms ts f ∧ f.IsOperand ∧ M.operand f = v

namespace Expr

/-- What can stand anywhere is one operand. -/
theorem lower_stands_operand (s : Scope) (e : Expr) (h : e.standing.isOperand = true) :
    Yields (Stands Token.InOperand) (e.lower s) := by
  have hshows : ∀ t : Term, (∀ a ∈ t.formula.atoms, a.isAtom = true) →
      Yields (Shows Token.InOperand) (t.expr.lower s) := by
    intro t ht
    refine Term.lower_shows_arithmetic (fun _ ht => .inl ht) (fun op => .inr ⟨op, rfl⟩) s t ?_
    exact List.all_eq_true.mpr fun a ha => (Bool.and_eq_true_iff.mp (ht a ha)).1
  have hatoms : ∀ a ∈ e.formula.atoms, a.isAtom = true := Expr.isAtom_of_isOperand h
  cases e with
  | arithmetic op left right =>
    have hleft := hshows left fun a ha => hatoms a (List.mem_append_left _ ha)
    have hright := hshows right fun a ha => hatoms a (List.mem_append_right _ ha)
    rw [Expr.lower, Term.lower_quiet, Term.lower_quiet]
    refine hleft.bind fun l hl => hright.bind fun r hr => .pure ?_
    exact (Bears.append_left (q := fun _ => True) (hl.parensIf _)
      (.head op.role_mark (.inr ⟨op, rfl⟩) trivial (hr.parensIf _))).stands
  | negative t =>
    rw [Expr.lower, Term.lower_quiet]
    refine (hshows t hatoms).bind fun ts hts => .pure ?_
    exact (Bears.head (q := fun _ => True) rfl (.inr ⟨.sub, rfl⟩) trivial (hts.parensIf _)).stands
  | _ =>
    obtain ⟨hsimple, hsolid⟩ := Bool.and_eq_true_iff.mp (hatoms _ (List.mem_singleton_self _))
    exact lower_stands (fun _ ht => .inl ht) s _ hsimple hsolid

/-- The tokens of what can stand anywhere are an operand of its value. -/
theorem lower_operates (M : Meaning) (s : Scope) (e : Expr) (h : e.standing.isOperand = true) :
    Yields (Operates M (e.denote M s)) (e.lower s) := by
  intro ts hts
  have hatoms : ∀ a ∈ e.formula.atoms, a.isAtom = true := Expr.isAtom_of_isOperand h
  obtain ⟨f, hf, hin, hsolid⟩ := lower_stands_operand s e h ts hts
  obtain ⟨tree, hread, hsame⟩ := (lower_readsAs s e hatoms ts hts).read
  rw [readArithmetic, Grammar.readTokens_of_forms _ hf] at hread
  refine ⟨f, hf, ⟨hsolid, hin⟩, ?_⟩
  rw [Meaning.operand, hread, Option.bind_some, Formula.eval_bind, denote_eq_eval M s e hatoms]
  exact hsame.value _

end Expr

namespace Tokens

variable {M : Meaning} {v : Option ℚ} {ts : Tokens} {t : Token}

namespace Operates

theorem blank (h : Operates M v ts) : Operates M v (.space :: ts) :=
  h.imp fun _ ⟨hf, h⟩ => ⟨hf.blank, h⟩

/-- A token of an atom is an operand. -/
theorem token (hrole : t.role = .plain) (ht : t.inAtom = true) :
    Operates M (M.atom [.token t]) [t] := by
  have hin : ∀ u, TokenTree.token u ∈ [TokenTree.token t] → u.inAtom = true := by
    intro u hu
    cases List.mem_singleton.mp hu
    exact ht
  have hsolid : Forest.Solid [.token t] := Forest.solid_of_token List.mem_cons_self
  refine ⟨_, Forms.nil.plain hrole, ⟨hsolid, fun u hu => .inl (hin u hu)⟩, ?_⟩
  rw [Meaning.operand, Arithmetic.grammar.read_eq_of_run (Arithmetic.run_atom hsolid hin _)]
  rfl

end Operates

end Tokens

/-- The operands of a list, which the commas between them tell apart. -/
theorem Tokens.listed_items {α : Type} (value : Forest → α) {vs : List α} {l : List Tokens}
    (hne : vs ≠ [])
    (h : List.Forall₂ (fun v ts => ∃ f, Forms ts f ∧ f.IsOperand ∧ value f = v) vs l) :
    ∃ f, Forms (listed l) f ∧ (Forest.items f).map value = vs := by
  -- No operand shows a comma, so that the first comma ends the first operand.
  induction h with
  | nil => exact absurd rfl hne
  | @cons v ts vs l hts hl ih =>
    obtain ⟨f, hf, hoperand, rfl⟩ := hts
    have hcomma := hoperand.no_comma
    cases hl with
    | nil =>
      refine ⟨f, hf, ?_⟩
      rw [Forest.items, List.splitOnP_eq_singleton hcomma]
      rfl
    | @cons w us ws l hus hl =>
      obtain ⟨g, hg, hitems⟩ := ih (List.cons_ne_nil _ _)
      refine ⟨f ++ .token (.mark .comma) :: g, hf.append (.plain rfl hg), ?_⟩
      rw [Forest.items, List.splitOnP_append_cons_of_forall_mem hcomma _ rfl, List.map_cons,
        ← Forest.items, hitems]

theorem Term.lower_operates (M : Meaning) (s : Scope) (t : Term) (h : t.standing.isOperand = true) :
    Yields (Operates M (t.denote M s)) (t.expr.lower s) := by
  obtain ⟨e, _⟩ := t
  exact Expr.lower_operates M s e h

/-- The tokens of terms that can stand anywhere are operands of their values. -/
theorem Term.lowerAll_operates (M : Meaning) (s : Scope) (ts : List Term)
    (h : Term.areOperands ts = true) :
    Yields (List.Forall₂ (Operates M) (Term.denotations M s ts)) (Term.lowerAll s.quiet ts) := by
  induction ts with
  | nil =>
    rw [Term.lowerAll]
    exact .ok .nil
  | cons t ts ih =>
    obtain ⟨ht, hts⟩ := Bool.and_eq_true_iff.mp h
    obtain ⟨e, alias?⟩ := t
    rw [Term.lowerAll, Term.lower_quiet]
    exact (Expr.lower_operates M s e ht).bind fun us hus => (ih hts).bind fun l hl =>
      .pure (.cons hus hl)

/-! ## Chains of predicates -/

namespace Forest

/-- The trees are a chain of predicates of this value, complete and read as one predicate. -/
structure Chains (M : Meaning) (v : Option ℚ) (f : Forest) : Prop where
  begins : ∃ tree rest, f = tree :: rest ∧ (∀ t, tree = .token t → t.Quiet) ∧ Logic.Balanced rest
  solid : Solid f
  complete : ∀ p ∈ (pieces f).2.getLast?, p.2 ≠ []
  value : M.chain f = v

namespace Chains

variable {M : Meaning} {v : Option ℚ} {f : Forest}

theorem of_operand (h : f.IsOperand) (hv : M.operand f = v) : Chains M v f := by
  have hpieces : pieces f = (f, []) := pieces_of_unmarked h.unmarked
  refine ⟨?_, h.solid, ?_, ?_⟩
  · obtain ⟨tree, rest, rfl⟩ := List.exists_cons_of_ne_nil h.ne_nil
    refine ⟨tree, rest, rfl, fun t ht => (h.tokens t (ht ▸ List.mem_cons_self)).quiet, .of_mute ?_⟩
    exact fun t ht => h.mute t (List.mem_cons_of_mem _ ht)
  · rw [hpieces]
    nofun
  · rw [Meaning.chain, steps, hpieces]
    exact hv

/-- A chain goes on with a predicate of which it is the left operand. -/
theorem step {ps : List Piece} (h : Chains M v f) (hps : IsStep ps)
    (hbalanced : Logic.Balanced (ofPieces ps)) : Chains M (M.step v ps) (f ++ ofPieces ps) := by
  have hpieces := pieces_append_ofPieces f hps.cut
  refine ⟨?_, ?_, ?_, ?_⟩
  · obtain ⟨tree, rest, rfl, hhead, hrest⟩ := h.begins
    exact ⟨tree, rest ++ ofPieces ps, rfl, hhead, hrest.append hbalanced⟩
  · obtain ⟨p, rest, rfl⟩ := List.exists_cons_of_ne_nil hps.ne_nil
    exact solid_of_token (t := p.1) (List.mem_append_right _ List.mem_cons_self)
  · rw [hpieces, List.getLast?_append_of_ne_nil _ hps.ne_nil]
    exact hps.complete
  · rw [Meaning.chain, steps_append h.complete hps, hpieces, List.foldl_append, ← h.value]
    rfl

/-- A chain is read as one predicate. -/
theorem readsLeaf (h : Chains M v f) : Logic.ReadsLeaf f 0 f := by
  obtain ⟨tree, rest, rfl, hhead, hrest⟩ := h.begins
  exact .of_balanced hhead hrest h.solid

theorem expresses (h : Chains M v f) : f.Expresses := by
  obtain ⟨tree, rest, rfl, hhead, hrest⟩ := h.begins
  refine ⟨List.cons_ne_nil _ _, fun t ht => ?_⟩
  rcases List.mem_cons.mp ht with ht | ht
  · exact .of_isMute (hhead t ht.symm).1
  · exact hrest.expresses t ht

end Chains

end Forest

end SqlScribe
