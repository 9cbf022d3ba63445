import SqlScribe.Proofs.Reading.Meaning
/-! # Tokens tell the meaning of conditions

An operand of a predicate is not put in parentheses when it is a condition. At the left this does no
harm where it is a predicate again: predicates are taken in from the left. Conditions built in this
way that have the same tokens have the same meaning.

* `Tokens.Steps`, `Tokens.Chains`: tokens of a predicate behind its left operand, and of a chain of
  predicates; one law for each clause.
* `Condition.lower_chains`: the tokens of a chain are one, with its value.
* `Expr.denote_eq_of_lower_eq`: expressions with the same tokens have the same value. -/

namespace SqlScribe

open Tokens

namespace Tokens

/-- The tokens are the symbols and operands of one predicate behind its left operand. -/
def Steps (M : Meaning) (symbols : Symbols) (ts : Tokens) : Prop :=
  ∃ ps, Forms ts (Forest.ofPieces ps) ∧ Forest.IsStep ps ∧
    Logic.Balanced (Forest.ofPieces ps) ∧ (ps.map fun p => (p.1, M.behind p)) = symbols

/-- The tokens are a chain of predicates of this value. -/
def Chains (M : Meaning) (v : Option ℚ) (ts : Tokens) : Prop :=
  ∃ f, Forms ts f ∧ Forest.Chains M v f

variable {M : Meaning} {v w : Option ℚ} {ts us : Tokens} {symbols : Symbols} {t : Token}

/-- An operand is a chain of no predicates. -/
theorem Operates.chains (h : Operates M v ts) : Chains M v ts := by
  obtain ⟨f, hf, hoperand, hv⟩ := h
  exact ⟨f, hf, .of_operand hoperand hv⟩

namespace Steps

theorem blank (h : Steps M symbols ts) : Steps M symbols (.space :: ts) :=
  h.imp fun _ ⟨hf, h⟩ => ⟨hf.blank, h⟩

/-- A symbol before an operand. -/
theorem single (hrole : t.role = .plain) (ht : t.isSymbol = true) (hmute : t.isMute = true)
    (hfurther : t.isFurther = false) (hne : t ≠ .word .IN) (h : Operates M v ts) :
    Steps M [(t, [v])] (t :: ts) := by
  obtain ⟨f, hf, hoperand, rfl⟩ := h
  refine ⟨[(t, f)], ?_, .single ht hfurther hoperand.ne_nil hoperand.unmarked, ?_, ?_⟩
  · rw [Forest.ofPieces_singleton]
    exact hf.plain hrole
  · rw [Forest.ofPieces_singleton]
    refine .cons (fun u hu => ?_) (.of_mute hoperand.mute)
    cases hu
    exact hmute
  · rw [List.map_singleton, M.behind_of_ne hne hoperand.ne_nil]

/-- A symbol of its own before others. -/
theorem cons (hrole : t.role = .plain) (ht : t.isSymbol = true) (hmute : t.isMute = true)
    (hfurther : t.isFurther = false) (h : Steps M symbols ts) :
    Steps M ((t, []) :: symbols) (t :: ts) := by
  obtain ⟨ps, hps, hstep, hbalanced, rfl⟩ := h
  refine ⟨(t, []) :: ps, hps.plain hrole, hstep.cons ht hfurther, ?_, rfl⟩
  refine .cons (fun u hu => ?_) hbalanced
  cases hu
  exact hmute

theorem negation (negated : Bool) (h : Steps M symbols ts) :
    Steps M (Symbols.negation negated ++ symbols) (Clause.negation negated ++ ts) := by
  cases negated with
  | false => exact h
  | true => exact .cons rfl rfl rfl rfl h.blank

/-- A further symbol before an operand. -/
theorem concat (h : Steps M symbols ts) (hrole : t.role = .plain) (ht : t.isSymbol = true)
    (hmute : t.isMute = true) (hfurther : t.isFurther = true) (hne : t ≠ .word .IN)
    (hus : Operates M v us) : Steps M (symbols ++ [(t, [v])]) (ts ++ spaced t ++ us) := by
  obtain ⟨ps, hps, hstep, hbalanced, rfl⟩ := h
  obtain ⟨f, hf, hoperand, rfl⟩ := hus
  have hofPieces : Forest.ofPieces (ps ++ [(t, f)]) = Forest.ofPieces ps ++ .token t :: f := by
    rw [Forest.ofPieces_append, Forest.ofPieces_singleton]
  refine ⟨ps ++ [(t, f)], ?_, hstep.concat ht hfurther hoperand.ne_nil hoperand.unmarked, ?_, ?_⟩
  · rw [hofPieces]
    exact hps.spaced hrole hf
  · rw [hofPieces]
    refine hbalanced.append (.cons (fun u hu => ?_) (.of_mute hoperand.mute))
    cases hu
    exact hmute
  · rw [List.map_append, List.map_singleton, M.behind_of_ne hne hoperand.ne_nil]

/-- A range. -/
theorem range (hts : Operates M v ts) (hus : Operates M w us) :
    Steps M [(.word .BETWEEN, [v]), (.word .AND, [w])]
      (.word .BETWEEN :: .space :: (ts ++ spaced (.word .AND) ++ us)) := by
  obtain ⟨f, hf, hoperand, rfl⟩ := hts
  obtain ⟨g, hg, hoperand', rfl⟩ := hus
  have hofPieces : Forest.ofPieces [(.word .BETWEEN, f), (.word .AND, g)] =
      .token (.word .BETWEEN) :: (f ++ .token (.word .AND) :: g) := by
    rw [Forest.ofPieces, List.flatMap_cons, ← Forest.ofPieces, Forest.ofPieces_singleton]
    rfl
  have hstep : Forest.IsStep [(.word .BETWEEN, f)] :=
    .single rfl rfl hoperand.ne_nil hoperand.unmarked
  -- Up to its `AND` a range is not balanced, so `concat` does not apply to it.
  refine ⟨_, ?_, hstep.concat (t := .word .AND) rfl rfl hoperand'.ne_nil hoperand'.unmarked, ?_, ?_⟩
  · rw [List.singleton_append, hofPieces]
    exact Forms.plain rfl (hf.spaced rfl hg).blank
  · rw [List.singleton_append, hofPieces]
    exact .range hoperand.mute (.of_mute hoperand'.mute)
  · rw [List.map_append, List.map_singleton, List.map_singleton,
      M.behind_of_ne (by simp) hoperand.ne_nil, M.behind_of_ne (by simp) hoperand'.ne_nil]
    rfl

/-- The symbols of membership and what stands behind them. -/
theorem membership {inner : Forest} (hts : Forms ts [.group .round inner]) :
    Steps M [(.word .IN, M.behind (.word .IN, [.group .round inner]))]
      (.word .IN :: .space :: ts) := by
  refine ⟨[(.word .IN, [.group .round inner])], Forms.plain rfl hts.blank, ?_, ?_, rfl⟩
  · exact .single rfl rfl (List.cons_ne_nil _ _) (by simp [Forest.Unmarked])
  · exact .cons (fun u hu => by cases hu; rfl) (.cons nofun .nil)

end Steps

/-- A predicate behind its left operand. -/
theorem Chains.step (h : Chains M v ts) (hus : Steps M symbols us) :
    Chains M (M.predicate v symbols) (ts ++ us) := by
  obtain ⟨f, hf, hchains⟩ := h
  obtain ⟨ps, hps, hstep, hbalanced, rfl⟩ := hus
  exact ⟨_, hf.append hps, hchains.step hstep hbalanced⟩

/-- A chain is read as one predicate. -/
theorem Chains.predicates (h : Chains M v ts) : Predicates ts := by
  obtain ⟨f, hf, hchains⟩ := h
  exact ⟨f, 0, f, hf, hchains.expresses, hchains.readsLeaf⟩

end Tokens

/-! ## Predicates -/

namespace Clause

variable {M : Meaning} {v w x : Option ℚ} {term left right low high : Lowered}

theorem comparison_chains (op : Comparison) (withNull : Bool) (hl : Yields (Chains M v) left)
    (hr : Yields (Operates M w) right) :
    Yields (Chains M (M.predicate v [(.mark op.mark, [w])]))
      (comparison op withNull left right) := by
  cases withNull with
  | true => exact .error _
  | false =>
    refine hl.bind fun l hl => hr.bind fun r hr => .pure (hl.step ?_)
    cases op <;> exact .single rfl rfl rfl rfl nofun hr

theorem json_chains (d : Dialect) (op : JsonOp) (hl : Yields (Chains M v) left)
    (hr : Yields (Operates M w) right) :
    Yields (Chains M (M.predicate v [(.operator op.symbol, [w])])) (json d op left right) := by
  unfold json
  split
  · exact hl.bind fun l hl => hr.bind fun r hr =>
      .pure (hl.step (.single rfl rfl rfl rfl nofun hr))
  · exact .error _

theorem infixed_chains {l r : Tokens} {op : Token} {symbols : Symbols} (negated : Bool)
    (hl : Chains M v l) (hr : Steps M symbols (op :: .space :: r)) :
    Chains M (M.predicate v (Symbols.negation negated ++ symbols)) (infixed l negated op r) := by
  rw [infixed, List.append_assoc]
  exact hl.step (hr.negation negated).blank

theorem infixed_append (left : Tokens) (negated : Bool) (op : Token) (right tail : Tokens) :
    infixed left negated op right ++ tail = infixed left negated op (right ++ tail) :=
  List.append_assoc _ _ _

theorem matching_chains (d : Dialect) (negated : Bool) (escape : Option Char)
    (ht : Yields (Chains M v) term) (hr : Yields (Operates M w) right) :
    Yields (Chains M (M.predicate v (Symbols.negation negated ++ (.word .LIKE, [w]) ::
      M.escape d escape))) (matching d .like negated term right escape) := by
  have hlike : ∀ {r : Tokens}, Operates M w r →
      Steps M [(.word .LIKE, [w])] (.word .LIKE :: .space :: r) :=
    fun hr => .single rfl rfl rfl rfl nofun hr.blank
  cases escape with
  | none =>
    refine ht.bind fun t ht => hr.bind fun r hr => .ok ?_
    rw [List.append_nil]
    exact infixed_chains negated ht (hlike hr)
  | some c =>
    refine ht.bind fun t ht => hr.bind fun r hr => .ok ?_
    have hescape := (hlike hr).concat (t := .word .ESCAPE) rfl rfl rfl rfl nofun
      (.token (t := .raw (d.stringLiteral (String.singleton c))) rfl rfl)
    rw [List.append_assoc] at hescape
    rw [infixed_append]
    exact infixed_chains negated ht hescape

theorem isNull_chains (negated : Bool) (h : Yields (Chains M v) term) :
    Yields (Chains M (M.predicate v (if negated then
      [(.word .IS, []), (.word .NOT, [M.atom [.token (.word .NULL)]])]
      else [(.word .IS, [M.atom [.token (.word .NULL)]])]))) (isNull negated term) := by
  have hnull : Operates M (M.atom [.token (.word .NULL)]) [.word .NULL] := .token rfl rfl
  refine h.bind fun t ht => .pure ?_
  rw [List.append_assoc, List.append_assoc]
  refine ht.step (.blank ?_)
  cases negated with
  | false => exact .single rfl rfl rfl rfl nofun hnull.blank
  | true => exact .cons rfl rfl rfl rfl (.blank (.single rfl rfl rfl rfl nofun hnull.blank))

theorem isIn_chains {vs : List (Option ℚ)} (negated : Bool) {items : LoweredList}
    (ht : Yields (Chains M v) term)
    (hi : Yields (List.Forall₂ (Operates M) vs) items) (hne : vs ≠ []) :
    Yields (Chains M (M.predicate v (Symbols.negation negated ++ [(.word .IN, vs)])))
      (isIn negated false term items) := by
  refine ht.bind fun t ht => hi.bind fun l hl => .pure (infixed_chains negated ht ?_)
  obtain ⟨f, hf, hitems⟩ := listed_items M.operand hne hl
  have hmembers := Steps.membership (M := M) hf.parens
  rwa [M.behind_group, hitems] at hmembers

theorem between_chains (negated : Bool) (ht : Yields (Chains M v) term)
    (hlow : Yields (Operates M w) low) (hhigh : Yields (Operates M x) high) :
    Yields (Chains M (M.predicate v (Symbols.negation negated ++
      [(.word .BETWEEN, [w]), (.word .AND, [x])]))) (between negated term low high) :=
  ht.bind fun _ ht => hlow.bind fun _ hlow => hhigh.bind fun _ hhigh =>
    .pure (infixed_chains negated ht (.range hlow hhigh))

end Clause

/-! ## Chains -/

mutual

/-- The tokens of a chain are a chain of its value. -/
theorem Expr.lower_chains (M : Meaning) (s : Scope) (e : Expr) (h : e.standing.isLeft = true) :
    Yields (Chains M (e.denote M s)) (e.lower s) := by
  cases e with
  | condition c =>
    rw [Expr.standing, Standing.isLeft_ofCondition] at h
    rw [Expr.lower, Condition.lower_quiet, Expr.denote]
    exact Condition.lower_chains M s c h
  | _ =>
    have hoperand := Expr.isOperand_of_isClear (Standing.isClear_of_isLeft h) nofun
    exact (Expr.lower_operates M s _ hoperand).mono fun _ h => h.chains

theorem Condition.lower_chains (M : Meaning) (s : Scope) (c : Condition)
    (h : c.standing.isLeft = true) : Yields (Chains M (c.denote M s)) (c.lower s) := by
  -- The left operand is a chain again, and every other operand is read by itself.
  cases c with
  | compare op left right =>
    obtain ⟨left, _⟩ := left
    obtain ⟨hleft, hright⟩ := Bool.and_eq_true_iff.mp (Standing.parts_of_isLeft h)
    rw [Condition.lower, Term.lower_quiet, Term.lower_quiet]
    exact Clause.comparison_chains op _ (Expr.lower_chains M s left hleft)
      (Term.lower_operates M s right hright)
  | json op left right =>
    obtain ⟨left, _⟩ := left
    obtain ⟨hleft, hright⟩ := Bool.and_eq_true_iff.mp (Standing.parts_of_isLeft h)
    rw [Condition.lower, Term.lower_quiet, Term.lower_quiet]
    exact Clause.json_chains s.dialect op (Expr.lower_chains M s left hleft)
      (Term.lower_operates M s right hright)
  | «matches» op negated t pattern escape =>
    obtain ⟨left, _⟩ := t
    cases op with
    | like =>
      obtain ⟨hleft, hpattern⟩ := Bool.and_eq_true_iff.mp (Standing.parts_of_isLeft h)
      rw [Condition.lower, Term.lower_quiet, Term.lower_quiet]
      exact Clause.matching_chains s.dialect negated escape (Expr.lower_chains M s left hleft)
        (Term.lower_operates M s pattern hpattern)
    | _ => cases h
  | isNull negated t =>
    obtain ⟨left, _⟩ := t
    rw [Condition.lower, Term.lower_quiet]
    exact Clause.isNull_chains negated (Expr.lower_chains M s left (Standing.parts_of_isLeft h))
  | isIn negated t items =>
    obtain ⟨left, _⟩ := t
    cases items with
    | nil =>
      rw [Condition.lower, Condition.denote, ← M.atom_isIn]
      exact .ok (Operates.token rfl rfl).chains
    | cons item items =>
      obtain ⟨hleft, hitems⟩ := Bool.and_eq_true_iff.mp (Standing.parts_of_isLeft h)
      rw [Condition.lower, Term.lower_quiet]
      exact Clause.isIn_chains negated (Expr.lower_chains M s left hleft)
        (Term.lowerAll_operates M s _ hitems) (List.cons_ne_nil _ _)
  | between negated t low high =>
    obtain ⟨left, _⟩ := t
    obtain ⟨h, hhigh⟩ := Bool.and_eq_true_iff.mp (Standing.parts_of_isLeft h)
    obtain ⟨hleft, hlow⟩ := Bool.and_eq_true_iff.mp h
    rw [Condition.lower, Term.lower_quiet, Term.lower_quiet, Term.lower_quiet]
    exact Clause.between_chains negated (Expr.lower_chains M s left hleft)
      (Term.lower_operates M s low hlow) (Term.lower_operates M s high hhigh)
  | term t =>
    obtain ⟨e, _⟩ := t
    rw [Condition.lower, Term.lower_quiet]
    exact Expr.lower_chains M s e (Standing.parts_of_isLeft h)
  | combined op left right =>
    rw [Condition.standing, Standing.isLeft_alone] at h
    cases h
  | not c =>
    rw [Condition.standing, Standing.isLeft_alone] at h
    cases h
  | _ => cases h

end

namespace Tokens

theorem Chains.value_unique {M : Meaning} {v w : Option ℚ} {ts : Tokens} (hv : Chains M v ts)
    (hw : Chains M w ts) : v = w := by
  obtain ⟨f, hf, hv⟩ := hv
  obtain ⟨g, hg, hw⟩ := hw
  rw [← hv.value, ← hw.value, hf.unique hg]

end Tokens

namespace Condition

variable (M : Meaning) (s : Scope)

/-- The condition has connectives or negations outside its predicates. -/
def isJoined : Condition → Bool
  | .combined _ _ _ => true
  | .not _ => true
  | _ => false

/-- What is not joined is a chain if no parentheses are missing in it. -/
theorem isLeft_of_isClear {c : Condition} (h : c.standing.isClear = true)
    (hc : c.isJoined = false) : c.standing.isLeft = true := by
  cases c with
  | compare | json | isNull | isIn | between | term => exact Standing.isLeft_of_isClear h
  | «matches» op negated t pattern escape =>
    cases op with
    | like => exact Standing.isLeft_of_isClear h
    | _ => cases h
  | combined op left right => cases hc
  | not c => cases hc
  | _ => cases h

/-- The leaves of a condition in which no parentheses are missing are chains. -/
theorem isLeft_of_mem_formula (c : Condition) (h : c.standing.isClear = true) :
    ∀ leaf ∈ c.formula.atoms, leaf.standing.isLeft = true := by
  cases hjoined : c.isJoined with
  | false =>
    have hleaf : c.formula = .atom c := by cases c <;> first | rfl | cases hjoined
    rw [hleaf]
    intro leaf hmem
    cases List.mem_singleton.mp hmem
    exact isLeft_of_isClear h hjoined
  | true =>
    cases c with
    | combined op left right =>
      obtain ⟨hleft, hright⟩ := Bool.and_eq_true_iff.mp (Standing.parts_of_isClear h)
      intro leaf hmem
      rcases List.mem_append.mp hmem with hmem | hmem
      · exact isLeft_of_mem_formula left hleft leaf hmem
      · exact isLeft_of_mem_formula right hright leaf hmem
    | not c => exact isLeft_of_mem_formula c (Standing.parts_of_isClear h)
    | _ => cases hjoined

/-- The leaves of a condition in which no parentheses are missing are read as predicates. -/
theorem lower_predicates {c : Condition} (h : c.standing.isClear = true) :
    ∀ leaf ∈ c.formula.atoms, Yields Predicates (leaf.lower s) := fun leaf hleaf =>
  (lower_chains (.ofFields fun _ => none) s leaf (isLeft_of_mem_formula c h leaf hleaf)).mono
    fun _ h => h.predicates

/-- The truth of a condition is that of its formula. -/
theorem truth_denote (c : Condition) :
    M.truth (c.denote M s) = c.formula.eval kleene fun leaf => M.truth (leaf.denote M s) := by
  cases c with
  | combined op left right =>
    rw [denote, M.truth_ofTruth, formula, Formula.eval, truth_denote left, truth_denote right]
  | not c => rw [denote, M.truth_ofTruth, formula, Formula.eval, truth_denote c]
  | _ => rfl

/-- The value of a joined condition is that of its truth. -/
theorem denote_of_isJoined {c : Condition} (h : c.isJoined = true) :
    c.denote M s = M.ofTruth (M.truth (c.denote M s)) := by
  cases c with
  | combined op left right => rw [denote, M.truth_ofTruth]
  | not c => rw [denote, M.truth_ofTruth]
  | _ => cases h

variable {s} {c : Condition} {ts : Tokens} {v : Option ℚ}

/-- The truth of a condition is told by its tokens. -/
theorem eval_readCondition (h : c.standing.isClear = true)
    (hts : c.lower s = .ok ts) : ∃ x, readCondition ts = some x ∧
      x.eval kleene (fun f => M.truth (M.chain f)) = M.truth (c.denote M s) := by
  have hleaves := lower_predicates s h
  obtain ⟨tree, hread, hsame⟩ := (lower_readsAs_of_leaves s c hleaves ts hts).read
  refine ⟨_, hread, ?_⟩
  have hleaf : ∀ leaf ∈ tree.atoms, (leaf.reading s).eval kleene (fun f => M.truth (M.chain f)) =
      M.truth (leaf.denote M s) := by
    intro leaf hleaf
    rw [hsame.atoms] at hleaf
    obtain ⟨us, hus⟩ := (lower_from s c).2 ts hts leaf hleaf
    obtain ⟨f, hf, hchains⟩ :=
      lower_chains M s leaf (isLeft_of_mem_formula c h leaf hleaf) us hus
    have hreading : leaf.reading s = .atom f :=
      reading_eq s hus (readCondition_leaf hf hchains.readsLeaf)
    rw [hreading, Formula.eval, hchains.value]
  rw [Formula.eval_bind, Formula.eval_congr kleene hleaf, hsame.value, ← truth_denote]

/-- A condition whose tokens are a chain is one, of the same value. -/
theorem denote_of_chains (h : c.standing.isClear = true)
    (hts : c.lower s = .ok ts) (hchains : Chains M v ts) : c.denote M s = v := by
  have hleaves := lower_predicates s h
  cases c with
  | combined op left right =>
    -- What the chain is read as has one atom, but the condition has two or more.
    obtain ⟨f, hf, hf'⟩ := hchains
    obtain ⟨tree, hread, hsame⟩ := (lower_readsAs_of_leaves s _ hleaves ts hts).read
    rw [readCondition_leaf hf hf'.readsLeaf, Option.some.injEq] at hread
    cases tree with
    | atom leaf =>
      have hlength := congrArg List.length hsame.atoms
      have hleft := List.length_pos_of_ne_nil left.formula.atoms_ne_nil
      have hright := List.length_pos_of_ne_nil right.formula.atoms_ne_nil
      rw [formula, Formula.atoms, Formula.atoms, List.length_append, List.length_singleton]
        at hlength
      omega
    | _ => cases hread
  | not c =>
    -- No chain begins with a negation.
    obtain ⟨f, hf, hf'⟩ := hchains
    obtain ⟨tree, rest, rfl, hhead, -⟩ := hf'.begins
    have hnot : Yields (fun ts => ∃ g, Forms ts (.token (.word .NOT) :: g))
        ((Condition.not c).lower s) := by
      rw [Condition.lower, lower_quiet]
      refine (lower_readsAs_of_leaves s c hleaves).bind fun us hus => .pure ?_
      obtain ⟨g, hg, -⟩ := hus.parensIf c.connective?.isSome
      exact ⟨g, .plain rfl hg.blank⟩
    obtain ⟨g, hg⟩ := hnot ts hts
    cases hf.unique hg
    cases (hhead _ rfl).2
  | _ => exact (lower_chains M s _ (isLeft_of_isClear h rfl) ts hts).value_unique hchains

/-- Conditions with the same tokens have the same value. -/
theorem denote_congr {c' : Condition} (h : c.standing.isClear = true)
    (h' : c'.standing.isClear = true) (hts : c.lower s = .ok ts)
    (hts' : c'.lower s = .ok ts) : c.denote M s = c'.denote M s := by
  have hchain : ∀ {d : Condition}, d.standing.isClear = true → d.lower s = .ok ts →
      d.isJoined = false → Chains M (d.denote M s) ts := fun {d} hd hdts hjoined =>
    lower_chains M s d (isLeft_of_isClear hd hjoined) ts hdts
  by_cases hc : c.isJoined = true
  · by_cases hc' : c'.isJoined = true
    · -- Both values are those of the truth that is read.
      obtain ⟨x, hx, hvalue⟩ := eval_readCondition M h hts
      obtain ⟨y, hy, hvalue'⟩ := eval_readCondition M h' hts'
      cases hx.symm.trans hy
      rw [denote_of_isJoined M s hc, denote_of_isJoined M s hc', ← hvalue, ← hvalue']
    · rw [Bool.not_eq_true] at hc'
      exact denote_of_chains M h hts (hchain h' hts' hc')
  · rw [Bool.not_eq_true] at hc
    exact (denote_of_chains M h' hts' (hchain h hts hc)).symm

end Condition

namespace Expr

/-- A term holds a condition with its tokens and its value. -/
theorem isClear_ofTerm {e : Expr} (h : e.standing.isClear = true) (s : Scope) (M : Meaning) :
    let c := Condition.ofTerm (Term.ofExpr e)
    c.standing.isClear = true ∧ c.lower s = e.lower s ∧ c.denote M s = e.denote M s := by
  cases e with
  | condition c =>
    rw [Expr.standing, Standing.isClear_ofCondition] at h
    refine ⟨h, ?_, rfl⟩
    rw [Expr.lower, Condition.lower_quiet]
    rfl
  | _ =>
    have hleft := Standing.isLeft_of_isOperand (Expr.isOperand_of_isClear h nofun)
    refine ⟨Standing.isClear_onlyIf hleft, ?_, rfl⟩
    show (Condition.term _).lower s = _
    rw [Condition.lower, Term.lower_quiet]
    rfl

/-- **Clear expressions are unambiguous.** Let no parentheses be missing in two expressions: where a
condition is an operand, it stands at the left of a predicate and is a predicate too. If they have
the same tokens in a scope, then they have the same value, whatever their fields hold and their
predicates mean. -/
theorem denote_eq_of_lower_eq (s : Scope) {e e' : Expr} (he : e.standing.isClear = true)
    (he' : e'.standing.isClear = true) {ts : Tokens} (hts : e.lower s = .ok ts)
    (hts' : e'.lower s = .ok ts) (M : Meaning) : e.denote M s = e'.denote M s := by
  obtain ⟨hc, hlower, hdenote⟩ := isClear_ofTerm he s M
  obtain ⟨hc', hlower', hdenote'⟩ := isClear_ofTerm he' s M
  rw [← hdenote, ← hdenote']
  exact Condition.denote_congr M hc hc' (hlower.trans hts) (hlower'.trans hts')

/-- A disjunction that is grouped in two ways, with a sum that is too. The member of a document is
compared and then tested for null. -/
theorem denote_eq_of_lower_eq_regrouped :
    let a := Term.field "a"
    let b := Term.field "b"
    let member := Term.ofCondition (.json .member a (Term.int 0))
    let known := Condition.isNull true (.ofCondition (.compare .eq member b))
    let low := Condition.compare .lt (a + (b + Term.int 1)) b
    let low' := Condition.compare .lt (a + b + Term.int 1) b
    let e := Expr.condition (.combined .or known (.combined .or low (.not known)))
    let e' := Expr.condition (.combined .or (.combined .or known low') (.not known))
    let s := Scope.ofOptions .postgres {}
    e.lower s = e'.lower s ∧ (fun M => e.denote M s) = fun M => e'.denote M s :=
  ⟨rfl, funext fun M => denote_eq_of_lower_eq _ (by decide) (by decide) rfl rfl M⟩

/-- A connective does not stand in parentheses at the left of a predicate: a disjunction that is
tested for null has the tokens of one whose right side is. -/
theorem denote_ambiguous :
    let a := (Term.field "a").equals (Term.int 1)
    let b := (Term.field "b").equals (Term.int 2)
    let e := Expr.condition (.isNull false (.ofCondition (.combined .or a b)))
    let e' := Expr.condition (.combined .or a (.isNull false (.ofCondition b)))
    let M := Meaning.ofFields fun name => if name = "a" then some 1 else none
    let s := Scope.ofOptions .ansi {}
    e.lower s = .ok [.ident "a", .mark .eq, .literal (.int 1), .space, .word .OR, .space,
      .ident "b", .mark .eq, .literal (.int 2), .space, .word .IS, .space, .word .NULL] ∧
    e'.lower s = e.lower s ∧ e.denote M s = some 0 ∧ e'.denote M s = some 1 :=
  ⟨rfl, rfl, rfl, rfl⟩

end Expr

end SqlScribe
