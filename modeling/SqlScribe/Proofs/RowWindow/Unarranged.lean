import SqlScribe.Proofs.Reading.Shown
import SqlScribe.Proofs.SetOperation.Grouping
import SqlScribe.Proofs.SetOperation.Place
/-! # Keywords of orders and row windows

Outside its brackets a statement shows the keywords of its own order and row window only: those of
the queries and windows in its terms, conditions and sources stand inside brackets.

* `Token.arranges`: the keywords that begin a clause for the order or the row window.
* `Expr.lower_unarranged`, `Condition.lower_unarranged`: expressions and conditions show none.
* `Statement.sourceClauses_unarranged`: nor do the clauses from the sources to the condition on
  groups. -/

namespace SqlScribe

open Tokens

/-- The token begins a clause for the order or the row window. -/
def Token.arranges : Token → Bool
  | .word k => k.followsOperands
  | _ => false

/-- The brackets of the tokens fit, and outside them no clause for an order or a row window
begins. -/
abbrev Tokens.Unarranged (ts : Tokens) : Prop := Shows (fun t => t.arranges = false) ts

theorem Token.arranges_of_inAtom {t : Token} (h : t.inAtom = true) : t.arranges = false := by
  cases t with
  | word k => cases k <;> first | rfl | cases h
  | _ => rfl

theorem Token.arranges_of_inPredicate {t : Token} (h : t.inPredicate = true) :
    t.arranges = false := by
  cases t with
  | word k => cases k <;> first | rfl | cases h
  | _ => rfl

theorem Token.arranges_of_inClause {t : Token} (h : t.inClause = true) : t.arranges = false := by
  cases t with
  | word k => cases k <;> first | rfl | cases h
  | _ => rfl

theorem Connective.arranges_keyword (op : Connective) :
    (Token.word op.keyword).arranges = false := by
  cases op <;> rfl

/-- No token that an expression shows begins such a clause. -/
theorem Token.covers_unarranged : Token.Covers fun t => t.arranges = false where
  atom _ := arranges_of_inAtom
  predicate _ := arranges_of_inPredicate
  operation _ := rfl
  range := rfl
  connective := Connective.arranges_keyword

/-! ## Terms and conditions -/

theorem Expr.lower_unarranged (s : Scope) (e : Expr) : Yields Unarranged (e.lower s) :=
  Expr.lower_shows_all Token.covers_unarranged s e

theorem Condition.lower_unarranged (s : Scope) (c : Condition) : Yields Unarranged (c.lower s) :=
  Condition.lower_shows_all Token.covers_unarranged s c

theorem Term.lowerAllNamed_unarranged (s : Scope) (names : List String) (ts : List Term) :
    Yields (∀ us ∈ ·, Unarranged us) (Term.lowerAllNamed s names ts) := by
  induction ts with
  | nil =>
    rw [Term.lowerAllNamed]
    exact .none
  | cons t ts ih =>
    obtain ⟨expr, alias?⟩ := t
    rw [Term.lowerAllNamed]
    split
    · exact .cons (.ok (.cons rfl rfl .nil)) ih
    · exact .cons (expr.lower_unarranged s) ih

theorem OrderItem.lowerAll_unarranged (s : Scope) (names : List String) (items : List OrderItem) :
    Yields (∀ us ∈ ·, Unarranged us) (OrderItem.lowerAll s names items) := by
  induction items with
  | nil =>
    rw [OrderItem.lowerAll]
    exact .none
  | cons item items ih =>
    obtain ⟨⟨expr, alias?⟩, order⟩ := item
    have hitem {t : Lowered} (ht : Yields Unarranged t) : Yields (∀ us ∈ ·, Unarranged us)
        (t >>= fun t => OrderItem.lowerAll s names items >>= fun rest =>
          Pure.pure ((t ++ Tokens.direction order) :: rest)) :=
      ht.bind fun _ ht => ih.bind fun _ hrest => .pure (List.forall_mem_cons.mpr
        ⟨ht.append (direction_shows (fun _ => Token.arranges_of_inClause) order), hrest⟩)
    rw [OrderItem.lowerAll]
    split
    · exact hitem (.ok (.cons rfl rfl .nil))
    · exact hitem (expr.lower_unarranged s)

/-! ## Sources -/

/-- A query that is a source stands in parentheses, and shows its name at most. -/
theorem Subquery.lower_asSource_unarranged (s : Scope) (q : Subquery) :
    Yields Unarranged (q.lower s.asSource) := by
  refine (q.lower_placed_nests s.asSource).mono fun ts hts => ?_
  rcases hts with ⟨-, rfl⟩ | ⟨-, inner, hinner, rfl⟩
  · exact .nil
  · exact Statement.placed_shows (fun _ => Token.arranges_of_inClause) s.asSource q.id q.alias?
      hinner.parens

theorem Source.lower_unarranged (s : Scope) (source : Source) :
    Yields Unarranged (source.lower s) := by
  cases source with
  | table t =>
    rw [Source.lower]
    exact .ok (t.tokens_shows (fun _ => Token.arranges_of_inClause) s)
  | subquery q =>
    rw [Source.lower]
    exact q.lower_asSource_unarranged s

theorem JoinCondition.lower_unarranged (s : Scope) (c : JoinCondition) :
    Yields Unarranged (c.lower s) := by
  rw [JoinCondition.lower.eq_def]
  cases c with
  | all => exact .ok .nil
  | on c =>
    exact (c.lower_unarranged s.quiet).bind fun _ h => .pure (.append (.spaced rfl rfl) h)
  | sharing columns => exact .ok (.append (.spaced rfl rfl) (idents_nests columns).parens)

theorem Source.lowerAll_unarranged (s : Scope) (sources : List Source) :
    Yields (∀ us ∈ ·, Unarranged us) (Source.lowerAll s sources) := by
  induction sources with
  | nil =>
    rw [Source.lowerAll]
    exact .none
  | cons source sources ih =>
    rw [Source.lowerAll]
    exact .cons (source.lower_unarranged s) ih

theorem Join.lowerAll_unarranged (s : Scope) (joins : List Join) :
    Yields (∀ us ∈ ·, Unarranged us) (Join.lowerAll s joins) := by
  induction joins with
  | nil =>
    rw [Join.lowerAll]
    exact .none
  | cons j joins ih =>
    obtain ⟨kind, source, condition⟩ := j
    rw [Join.lowerAll, Join.lower]
    exact .cons (Statement.join_shows (fun _ => Token.arranges_of_inClause) kind
      (source.lower_unarranged s) (condition.lower_unarranged s)) ih

/-! ## Clauses -/

namespace Statement

/-- From its sources to its condition on groups a query shows no keyword of an order or a row
window. -/
theorem sourceClauses_unarranged (s : Scope) (q : Query) :
    Yields Unarranged (sourceClauses q (q.parts s)) := by
  have hp : ∀ t : Token, t.inClause = true → t.arranges = false :=
    fun _ => Token.arranges_of_inClause
  have hcondition (k : Keyword) (hk : (Token.word k).role = .plain)
      (hword : (Token.word k).arranges = false) (isEmpty : Bool) (c : Condition) :
      Yields Unarranged (conditionClause k isEmpty (c.lower s.quiet)) :=
    conditionClause_shows hk hword isEmpty (c.lower_unarranged s.quiet)
  exact (listClause_shows hp rfl rfl (Source.lowerAll_unarranged s q.sources)).bind
    fun _ hsources => (joinClauses_shows (Join.lowerAll_unarranged s q.joins)).bind
      fun _ hjoins => (hcondition .WHERE rfl rfl _ q.filter).bind fun _ hfilter =>
        (groupClause_shows hp _ (Term.lowerAllNamed_unarranged _ _ q.groupBy)).bind
          fun _ hgroups => (hcondition .HAVING rfl rfl _ q.having).bind fun _ hhaving =>
            .pure ((((hsources.append hjoins).append hfilter).append hgroups).append hhaving)

end Statement

end SqlScribe
