import SqlScribe.Condition
import SqlScribe.Proofs.Comment.Clause
import SqlScribe.Proofs.Nesting.Syntax
import SqlScribe.Render
/-! # Terms and conditions without comments

A term opens a comment only where a sign stands before another: a minus before an operand that
begins with a minus and has no parentheses, or a slash before one that begins with a star. Where
that happens nowhere in a term, its text opens no comment outside quoted identifiers and string
literals.

* `Term.lead`, `Condition.lead`: what the text of a term or condition begins with.
* `Term.isGuarded`, `Condition.isGuarded`: no operand begins with a sign that would make a comment
  of the operator before it, and what is written as it stands is calm.
* `Expr.lower_clean`: the tokens of guarded expressions are clean.
* `opensNoComment_of_isGuarded`: guarded terms and conditions open no comment, in any dialect and
  with any quotes around identifiers. -/

namespace SqlScribe

open Tokens

/-- The text of a qualifier that is written as it stands is plain. -/
def Qualifier.isPlain : Qualifier → Bool
  | .table _ => true
  | .subquery _ _ => true
  | .raw text => Text.isPlain text

mutual

/-- What the text of a term begins with. -/
def Term.lead : Term → Lead
  | ⟨expr, _⟩ => expr.lead

/-- What the text of an expression begins with. -/
def Expr.lead : Expr → Lead
  | .star _ => .star
  | .value v => v.lead
  | .named _ v => v.lead
  | .parameter text => Lead.of text.toList
  | .raw sql => Lead.of sql.toList
  | .arithmetic op left _ =>
    (if left.operator?.any op.parenthesizesLeft then .other else left.lead).or op.lead
  | .negative _ => .minus
  | .condition c => c.lead
  | _ => .other

/-- What the text of a condition begins with. -/
def Condition.lead : Condition → Lead
  | .empty => .nothing
  | .compare _ left _ => left.lead.or .other
  | .matches _ _ term _ _ => term.lead.or .other
  | .json op left _ => left.lead.or (Lead.of op.symbol.toList)
  | .search _ term _ => term.lead.or .other
  | .isNull _ term => term.lead.or .other
  | .isIn _ term _ => term.lead.or .other
  | .isInRows _ term _ => term.lead.or .other
  | .between _ term _ _ => term.lead.or .other
  | .hasRows _ _ => .other
  | .combined op left _ =>
    (if left.connective?.any (· != op) then .other else left.lead).or .other
  | .not _ => .other
  | .term t => t.lead

end

mutual

/-- No comment opens in the term outside its quotes, as far as its parts are not queries. -/
def Term.isGuarded : Term → Bool
  | ⟨expr, _⟩ => expr.isGuarded

/-- No operand in the expression begins with a sign that would make a comment of the operator before
it. -/
def Expr.isGuarded : Expr → Bool
  | .field q _ => q.all (·.isPlain)
  | .star q => q.all (·.isPlain)
  | .value _ => true
  | .named _ _ => true
  | .null => true
  | .parameter text => decide (Text.Calm text.toList)
  | .raw sql => decide (Text.Calm sql.toList)
  | .tuple items => Term.allGuarded items
  | .array items => Term.allGuarded items
  | .interval _ => false
  | .arithmetic op left right =>
    left.isGuarded && right.isGuarded &&
      op.admits (if right.operator?.any op.parenthesizesRight then .other else right.lead)
  | .negative t =>
    t.isGuarded && ArithmeticOp.sub.admits (if t.isOperation then .other else t.lead)
  | .call c => c.isGuarded
  | .case branches otherwise =>
    Branch.allGuarded branches &&
      match otherwise with
      | none => true
      | some t => t.isGuarded
  | .subquery _ => false
  | .condition c => c.isGuarded

/-- The name of the function is plain, and no comment opens in the arguments. -/
def Call.isGuarded : Call → Bool
  | ⟨name, form, _, _, _, args, filter, window⟩ =>
    Text.isPlain name && form.isCalm && Term.allGuarded args &&
      (match filter with
        | none => true
        | some c => c.isGuarded) &&
      (match window with
        | none => true
        | some w => w.isGuarded)

/-- No comment opens in the terms of a window. -/
def Window.isGuarded : Window → Bool
  | ⟨partitionBy, orderBy, _⟩ => Term.allGuarded partitionBy && OrderItem.allGuarded orderBy

/-- No comment opens in the terms of a condition. -/
def Condition.isGuarded : Condition → Bool
  | .empty => true
  | .compare _ left right => left.isGuarded && right.isGuarded
  | .matches _ _ term pattern _ => term.isGuarded && pattern.isGuarded
  | .json _ left right => left.isGuarded && right.isGuarded
  | .search _ term value => term.isGuarded && value.isGuarded
  | .isNull _ term => term.isGuarded
  | .isIn _ term items => term.isGuarded && Term.allGuarded items
  | .isInRows _ _ _ => false
  | .between _ term low high => term.isGuarded && low.isGuarded && high.isGuarded
  | .hasRows _ _ => false
  | .combined _ left right => left.isGuarded && right.isGuarded
  | .not c => c.isGuarded
  | .term t => t.isGuarded

/-- No comment opens in any term of a list. -/
def Term.allGuarded : List Term → Bool
  | [] => true
  | t :: ts => t.isGuarded && Term.allGuarded ts

/-- No comment opens in any ordering term of a list. -/
def OrderItem.allGuarded : List OrderItem → Bool
  | [] => true
  | ⟨⟨expr, _⟩, _⟩ :: items => expr.isGuarded && OrderItem.allGuarded items

/-- No comment opens in any branch of a list. -/
def Branch.allGuarded : List Branch → Bool
  | [] => true
  | ⟨condition, result⟩ :: branches =>
    condition.isGuarded && result.isGuarded && Branch.allGuarded branches

end

/-- What stands before the name of a field, and the name. -/
theorem Scope.qualification_clean {p : Spelling} {l : Lead} {ts : Tokens} (s : Scope)
    {q : Option Qualifier} (hquote : p.quote.isSome = true) (hq : q.all (·.isPlain) = true)
    (h : Clean p l ts) : Clean p l (s.qualification q ++ ts) := by
  have hident : ∀ name : String, Clean p .other [.ident name] := fun name => .quoted hquote
  unfold qualification
  split
  next t ht =>
    obtain ⟨q, hsome, hq'⟩ := Option.bind_eq_some_iff.mp ht
    have hname : Clean p .other [t] := by
      subst hsome
      unfold Scope.qualifier? at hq'
      split at hq'
      · split at hq'
        · cases hq'
          exact hident _
        · split at hq'
          · cases hq'
            exact hident _
          · cases hq'
      · obtain ⟨name, -, rfl⟩ := Option.map_eq_some_iff.mp hq'
        exact hident name
      · cases hq'
        exact .raw hq
    have hdot : IsCalm p [.mark .dot] := (Clean.mark (by decide)).calm
    exact ((hname.cons_calm hdot).append_calm h.calm).of_other
  next => exact h

/-! ## Lowering

The quotes of identifiers are set, so that no name stands in the bare text. -/

section Lower

variable {p : Spelling}

mutual

theorem Term.lower_clean (hquote : p.quote.isSome = true) (s : Scope) :
    ∀ t : Term, t.isGuarded = true → Yields (Clean p t.lead) (t.lower s.quiet)
  | ⟨expr, alias?⟩, h => by
    rw [Term.isGuarded] at h
    rw [Term.lower, Term.lead]
    refine (Expr.lower_clean hquote s.quiet expr h).bind fun body hbody => .pure ?_
    have hquiet : s.quiet.showsAlias = false := rfl
    rwa [hquiet, if_neg Bool.false_ne_true, List.append_nil]

theorem Expr.lower_clean (hquote : p.quote.isSome = true) (s : Scope) :
    ∀ e : Expr, e.isGuarded = true → Yields (Clean p e.lead) (e.lower s)
  | .field q name, h => by
    rw [Expr.isGuarded] at h
    rw [Expr.lower]
    exact .ok (s.qualification_clean hquote h (Clean.quoted hquote))
  | .star q, h => by
    rw [Expr.isGuarded] at h
    have hstar : Clean p .star [.mark .star] :=
      .mark_cons (c := '*') (by decide) (by decide : Text.Calm ['*'])
    rw [Expr.lower]
    exact .ok (s.qualification_clean hquote h hstar)
  | .value v, _ => by
    rw [Expr.lower, Expr.lead]
    exact Clause.value_clean (.value rfl rfl)
  | .named name v, _ => by
    rw [Expr.lower, Expr.lead]
    exact Clause.value_clean (.value rfl rfl)
  | .null, _ => by
    rw [Expr.lower]
    exact .ok (.word .NULL)
  | .parameter text, h => by
    rw [Expr.isGuarded] at h
    rw [Expr.lower, Expr.lead]
    exact .ok (.written (t := .placeholder text) rfl (of_decide_eq_true h))
  | .raw sql, h => by
    rw [Expr.isGuarded] at h
    rw [Expr.lower, Expr.lead]
    exact .ok (.written (t := .raw sql) rfl (of_decide_eq_true h))
  | .tuple items, h => by
    rw [Expr.isGuarded] at h
    rw [Expr.lower]
    exact (Term.lowerAll_calm hquote s items h).bind fun _ hl => .pure (Clean.parens (.listed hl))
  | .array items, h => by
    rw [Expr.isGuarded] at h
    rw [Expr.lower]
    exact Clause.array_clean s.dialect.isPlain_arrayWord (Term.lowerAll_calm hquote s items h)
  | .interval _, h => by
    rw [Expr.isGuarded] at h
    cases h
  | .arithmetic op left right, h => by
    rw [Expr.isGuarded] at h
    obtain ⟨hparts, hadmits⟩ := Bool.and_eq_true_iff.mp h
    obtain ⟨hleft, hright⟩ := Bool.and_eq_true_iff.mp hparts
    rw [Expr.lower, Expr.lead]
    exact Clause.arithmetic_clean hadmits (Term.lower_clean hquote s left hleft)
      (Term.lower_clean hquote s right hright)
  | .negative t, h => by
    rw [Expr.isGuarded] at h
    obtain ⟨ht, hadmits⟩ := Bool.and_eq_true_iff.mp h
    rw [Expr.lower, Expr.lead]
    exact Clause.negative_clean hadmits (Term.lower_clean hquote s t ht)
  | .call c, h => by
    rw [Expr.isGuarded] at h
    rw [Expr.lower]
    exact Call.lower_clean hquote s.quiet c h
  | .case branches otherwise, h => by
    rw [Expr.isGuarded.eq_def] at h
    obtain ⟨hbranches, hotherwise⟩ := Bool.and_eq_true_iff.mp h
    rw [Expr.lower.eq_def]
    refine iteInduction (fun _ => .error _) fun _ => ?_
    refine Clause.choice_clean (Branch.lowerAll_calm hquote s branches hbranches) fun x hx => ?_
    cases otherwise with
    | none => cases hx
    | some t =>
      cases hx
      exact (Term.lower_clean hquote s t hotherwise).mono fun _ h => h.calm
  | .subquery _, h => by
    rw [Expr.isGuarded] at h
    cases h
  | .condition c, h => by
    rw [Expr.isGuarded] at h
    rw [Expr.lower, Expr.lead]
    exact Condition.lower_clean hquote s.quiet c h

theorem Call.lower_clean (hquote : p.quote.isSome = true) (s : Scope) :
    ∀ c : Call, c.isGuarded = true → Yields (Clean p .other) (c.lower s)
  | ⟨name, form, aggregate, distinct, ignoreNulls, args, filter, window⟩, h => by
    rw [Call.isGuarded.eq_def] at h
    obtain ⟨h, hwindow⟩ := Bool.and_eq_true_iff.mp h
    obtain ⟨h, hfilter⟩ := Bool.and_eq_true_iff.mp h
    obtain ⟨h, hargs⟩ := Bool.and_eq_true_iff.mp h
    obtain ⟨hname, hform⟩ := Bool.and_eq_true_iff.mp h
    have hinvoked : Yields (Clean p .other)
        (Clause.invoked name form distinct ignoreNulls (Term.lowerAll s.quiet args)) :=
      Clause.invoked_clean distinct ignoreNulls hname hform (Term.lowerAll_calm hquote s args hargs)
    rw [Call.lower.eq_def]
    refine Clause.call_clean hinvoked (fun x hx => ?_) fun x hx => ?_
    · cases filter with
      | none => cases hx
      | some c =>
        cases hx
        exact (Condition.lower_clean hquote s.quiet c hfilter).mono fun _ h => h.calm
    · cases window with
      | none => cases hx
      | some w =>
        cases hx
        exact Window.lower_calm hquote s w hwindow

theorem Window.lower_calm (hquote : p.quote.isSome = true) (s : Scope) :
    ∀ w : Window, w.isGuarded = true → Yields (IsCalm p) (w.lower s)
  | ⟨partitionBy, orderBy, frame⟩, h => by
    rw [Window.isGuarded] at h
    obtain ⟨hpartition, horder⟩ := Bool.and_eq_true_iff.mp h
    rw [Window.lower]
    exact Clause.window_calm frame (Term.lowerAll_calm hquote s partitionBy hpartition)
      (OrderItem.lowerAll_calm hquote s orderBy horder)

theorem Condition.lower_clean (hquote : p.quote.isSome = true) (s : Scope) :
    ∀ c : Condition, c.isGuarded = true → Yields (Clean p c.lead) (c.lower s)
  | .empty, _ => by
    rw [Condition.lower]
    exact .ok .nil
  | .compare op left right, h => by
    rw [Condition.isGuarded] at h
    obtain ⟨hleft, hright⟩ := Bool.and_eq_true_iff.mp h
    rw [Condition.lower, Condition.lead]
    exact Clause.comparison_clean op _ (Term.lower_clean hquote s left hleft)
      ((Term.lower_clean hquote s right hright).mono fun _ h => h.calm)
  | .matches op negated term pattern escape, h => by
    rw [Condition.isGuarded] at h
    obtain ⟨hterm, hpattern⟩ := Bool.and_eq_true_iff.mp h
    rw [Condition.lower, Condition.lead]
    exact Clause.matching_clean s.dialect op negated escape (Term.lower_clean hquote s term hterm)
      ((Term.lower_clean hquote s pattern hpattern).mono fun _ h => h.calm)
  | .json op left right, h => by
    rw [Condition.isGuarded] at h
    obtain ⟨hleft, hright⟩ := Bool.and_eq_true_iff.mp h
    rw [Condition.lower, Condition.lead]
    exact Clause.json_clean s.dialect op (Term.lower_clean hquote s left hleft)
      ((Term.lower_clean hquote s right hright).mono fun _ h => h.calm)
  | .search op term value, h => by
    rw [Condition.isGuarded] at h
    obtain ⟨hterm, hvalue⟩ := Bool.and_eq_true_iff.mp h
    rw [Condition.lower, Condition.lead]
    exact Clause.search_clean s.dialect op (Term.lower_clean hquote s term hterm)
      ((Term.lower_clean hquote s value hvalue).mono fun _ h => h.calm)
  | .isNull negated term, h => by
    rw [Condition.isGuarded] at h
    rw [Condition.lower, Condition.lead]
    exact Clause.isNull_clean negated (Term.lower_clean hquote s term h)
  | .isIn negated term items, h => by
    rw [Condition.isGuarded] at h
    obtain ⟨hterm, hitems⟩ := Bool.and_eq_true_iff.mp h
    rw [Condition.lower, Condition.lead]
    exact Clause.isIn_clean negated _ (Term.lower_clean hquote s term hterm)
      (Term.lowerAll_calm hquote s items hitems)
  | .isInRows _ _ _, h => by
    rw [Condition.isGuarded] at h
    cases h
  | .between negated term low high, h => by
    rw [Condition.isGuarded] at h
    obtain ⟨h, hhigh⟩ := Bool.and_eq_true_iff.mp h
    obtain ⟨hterm, hlow⟩ := Bool.and_eq_true_iff.mp h
    rw [Condition.lower, Condition.lead]
    exact Clause.between_clean negated (Term.lower_clean hquote s term hterm)
      ((Term.lower_clean hquote s low hlow).mono fun _ h => h.calm)
      ((Term.lower_clean hquote s high hhigh).mono fun _ h => h.calm)
  | .hasRows _ _, h => by
    rw [Condition.isGuarded] at h
    cases h
  | .combined op left right, h => by
    rw [Condition.isGuarded] at h
    obtain ⟨hleft, hright⟩ := Bool.and_eq_true_iff.mp h
    rw [Condition.lower, Condition.lead]
    exact Clause.combined_clean (Condition.lower_clean hquote s.quiet left hleft)
      ((Condition.lower_clean hquote s.quiet right hright).mono fun _ h => h.calm)
  | .not c, h => by
    rw [Condition.isGuarded] at h
    rw [Condition.lower, Condition.lead]
    exact Clause.negated_clean _ ((Condition.lower_clean hquote s.quiet c h).mono fun _ h => h.calm)
  | .term t, h => by
    rw [Condition.isGuarded] at h
    rw [Condition.lower, Condition.lead]
    exact Term.lower_clean hquote s t h

theorem Term.lowerAll_calm (hquote : p.quote.isSome = true) (s : Scope) : ∀ ts : List Term,
    Term.allGuarded ts = true → Yields (AllCalm p) (Term.lowerAll s.quiet ts)
  | [], _ => by
    rw [Term.lowerAll]
    exact .none
  | t :: ts, h => by
    rw [Term.allGuarded] at h
    obtain ⟨ht, hts⟩ := Bool.and_eq_true_iff.mp h
    rw [Term.lowerAll]
    exact .cons ((Term.lower_clean hquote s t ht).mono fun _ h => h.calm)
      (Term.lowerAll_calm hquote s ts hts)

theorem OrderItem.lowerAll_calm (hquote : p.quote.isSome = true) (s : Scope) :
    ∀ items : List OrderItem, OrderItem.allGuarded items = true →
      Yields (AllCalm p) (OrderItem.lowerAll s.quiet [] items)
  | [], _ => by
    rw [OrderItem.lowerAll]
    exact .none
  | ⟨⟨expr, alias?⟩, order⟩ :: items, h => by
    rw [OrderItem.allGuarded] at h
    obtain ⟨hexpr, hitems⟩ := Bool.and_eq_true_iff.mp h
    have hrest := OrderItem.lowerAll_calm hquote s items hitems
    have hterm := Expr.lower_clean hquote s.quiet expr hexpr
    rw [OrderItem.lowerAll]
    split
    · next hnamed => simp at hnamed
    · exact hterm.bind fun _ ht => hrest.bind fun _ hrest =>
        .pure (List.forall_mem_cons.mpr ⟨ht.calm.append (direction_calm order), hrest⟩)

theorem Branch.lowerAll_calm (hquote : p.quote.isSome = true) (s : Scope) :
    ∀ branches : List Branch, Branch.allGuarded branches = true →
      Yields (AllCalm p) (Branch.lowerAll s.quiet branches)
  | [], _ => by
    rw [Branch.lowerAll]
    exact .none
  | ⟨condition, result⟩ :: branches, h => by
    rw [Branch.allGuarded] at h
    obtain ⟨h, hbranches⟩ := Bool.and_eq_true_iff.mp h
    obtain ⟨hcondition, hresult⟩ := Bool.and_eq_true_iff.mp h
    rw [Branch.lowerAll]
    exact .cons (Clause.branch_calm
      ((Condition.lower_clean hquote s.quiet condition hcondition).mono fun _ h => h.calm)
      ((Term.lower_clean hquote s result hresult).mono fun _ h => h.calm))
      (Branch.lowerAll_calm hquote s branches hbranches)

end

end Lower

/-! ## Rendering -/

/-- The text of tokens is that of one token behind the other. -/
theorem Tokens.toList_text (p : Spelling) (ts : Tokens) :
    (ts.text p).toList = ts.flatMap fun t => (t.text p).toList := by
  induction ts with
  | nil => rfl
  | cons t ts ih => rw [Tokens.text, String.toList_append, ih, List.flatMap_cons]

/-- The text of an item under some options, with a blank for each quoted identifier and string
literal, opens no comment. -/
def OpensNoComment {α : Type} [Renderable α] (x : α) (o : RenderOptions) : Prop :=
  ∀ text, render x o = .ok text → ∃ ts : Tokens, renderTokens x o = .ok ts ∧
    text = ts.text (o.spelling (renderDialect x o)) ∧
      ¬Text.HasComment (ts.bare (o.spelling (renderDialect x o)))

theorem OpensNoComment.of_isCalm {α : Type} [Renderable α] {x : α} {o : RenderOptions}
    (h : Yields (IsCalm (o.spelling (renderDialect x o))) (renderTokens x o)) :
    OpensNoComment x o := by
  intro text htext
  cases hts : renderTokens x o with
  | error e =>
    rw [render, hts] at htext
    cases htext
  | ok ts =>
    rw [render, hts] at htext
    cases htext
    exact ⟨ts, rfl, rfl, (h ts hts).not_hasComment⟩

/-- A guarded term or condition opens no comment, in any dialect and whatever the quotes around
identifiers are. -/
theorem opensNoComment_of_isGuarded (o : RenderOptions)
    (hquote : (o.spelling (o.dialect.getD .ansi)).quote.isSome = true) :
    (∀ t : Term, t.isGuarded = true → OpensNoComment t o) ∧
      ∀ c : Condition, c.isGuarded = true → OpensNoComment c o := by
  let s := Scope.ofOptions (o.dialect.getD .ansi) o
  refine ⟨fun t ht => .of_isCalm ?_, fun c hc => .of_isCalm ?_⟩
  · exact (Term.lower_clean hquote s t ht).mono fun _ h => h.calm
  · exact (Condition.lower_clean hquote s c hc).mono fun _ h => h.calm

/-- A negated sum, a negative number behind a product and a negative number that is compared. -/
theorem opensNoComment_of_isGuarded_signed :
    let t := Term.field "a" - Term.field "b" * -(Term.field "c" + Term.int (-1))
    let c := (Term.int (-1)).less t
    (RenderOptions.spelling {} .ansi).quote.isSome ∧ t.isGuarded ∧ c.isGuarded ∧
      render c {} = .ok "-1<\"a\"-\"b\"*-(\"c\"+-1)" ∧
      OpensNoComment t {} ∧ OpensNoComment c {} := by
  have h := opensNoComment_of_isGuarded {} rfl
  exact ⟨rfl, rfl, rfl, rfl, h.1 _ rfl, h.2 _ rfl⟩

/-- A difference does not put parentheses around a negated operand. -/
theorem not_opensNoComment_difference :
    ¬OpensNoComment (Term.field "a" - -Term.field "b") {} := by
  intro h
  obtain ⟨ts, hts, -, hcomment⟩ := h "\"a\"--\"b\"" rfl
  cases hts
  exact hcomment (.inl ⟨[' '], [' '], by decide⟩)

end SqlScribe
