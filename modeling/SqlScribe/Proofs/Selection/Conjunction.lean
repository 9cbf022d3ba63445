import SqlScribe.Condition
import SqlScribe.Proofs.Selection.Row
/-! # The rows that conjunctions select

A condition joined to another one by `AND` selects the rows that both select, if it is a conjunct:
if what is read of its tokens does not fall apart where it stands behind an `AND`.

* `Condition.truth?`, `Condition.Selects`: the truth of a condition on a row, as it is read.
* `Condition.Leads`: conditions that are read as they are before an `AND`.
* `Condition.IsConjunct`: conditions that are read as they are behind an `AND`.
* `Condition.isConjunct_of_leaves`: conditions built from predicates by connectives and negations
  are conjuncts.
* `Condition.Leads.selects_and`: the rows that a conjunction selects. -/

namespace SqlScribe

open Tokens

namespace Truth

theorem true_and (x : Truth) : Truth.true.and x = x := by cases x <;> rfl

theorem and_true (x : Truth) : x.and .true = x := by cases x <;> rfl

theorem and_eq_true {x y : Truth} : x.and y = .true ↔ x = .true ∧ y = .true := by
  cases x <;> cases y <;> decide

end Truth

/-- All that a condition shows outside its brackets stands in expressions. -/
theorem Token.covers_inExpression : Token.Covers Token.InExpression where
  atom _ h := .of_isMute (Token.Quiet.of_inAtom h).1
  predicate _ h := .of_isMute (Token.isMute_of_inPredicate h)
  operation op := .of_isMute op.quiet_mark.1
  range := ⟨rfl, nofun⟩
  connective op := by cases op <;> exact ⟨rfl, nofun⟩

namespace Condition

variable {V : Type} (r : Row V) (s : Scope)

/-- The formula that the tokens of a condition stand for, if it has tokens that can be read. -/
def read? (c : Condition) : Option (Formula Connective Forest) :=
  match c.lower s with
  | .ok ts => readByPrecedence ts
  | .error _ => none

/-- The truth of a condition on a row. The empty condition excludes no row. -/
def truth? (c : Condition) : Option Truth :=
  if c.isEmpty then some .true else (c.read? s).map (·.eval kleene r.truth)

/-- The row is among those of which the condition is true. -/
def Selects (c : Condition) : Prop := c.truth? r s = some .true

instance (c : Condition) : Decidable (c.Selects r s) := inferInstanceAs (Decidable (_ = _))

/-- The condition is written as one predicate of this truth. -/
def Judges (x : Truth) (c : Condition) : Prop := ∃ ts, c.lower s = .ok ts ∧ Tokens.Judges r x ts

/-- The tokens of a condition under `AND`, in parentheses if it needs them there. -/
def conjunctTokens (c : Condition) (ts : Tokens) : Tokens :=
  Tokens.parensIf (c.connective?.any (· != .and)) ts

/-- The condition has this truth, and it is read as an operand of it before an `AND`. -/
structure Leads (x : Truth) (c : Condition) : Prop where
  truth : c.truth? r s = some x
  reads : ∃ ts f y, c.lower s = .ok ts ∧ Forms (c.conjunctTokens ts) f ∧ Logic.ReadsLeft f y ∧
    y.eval kleene r.truth = x

/-- The condition can stand behind an `AND`: outside its brackets it shows no `OR` and no `XOR`,
or it is put in parentheses there. -/
def IsConjunct (c : Condition) : Prop :=
  (∃ op ∈ c.connective?, op ≠ .and) ∨ Yields (Shows Logic.IsConjunctive) (c.lower s)

variable {r s} {c d : Condition} {x x' : Truth} {ts us : Tokens} {f : Forest}

theorem read?_eq (hts : c.lower s = .ok ts) (hf : Forms ts f) :
    c.read? s = Logic.precedence.read f := by
  rw [read?, hts]
  exact Grammar.readTokens_of_forms _ hf

theorem truth?_eq (hc : c.isEmpty = false) :
    c.truth? r s = (c.read? s).map (·.eval kleene r.truth) := by
  rw [truth?, hc, if_neg Bool.false_ne_true]

/-- A predicate of its own. -/
theorem Judges.leads (h : Judges r s x c) (hempty : c.isEmpty = false)
    (hc : c.connective? = none) : Leads r s x c := by
  obtain ⟨ts, hts, f, hf, hleaf, rfl⟩ := h
  refine ⟨?_, ts, f, .atom f, hts, ?_, hleaf.readsLeft, rfl⟩
  · rw [truth?_eq hempty, read?_eq hts hf, hleaf.read]
    rfl
  · rw [conjunctTokens, hc]
    exact hf

/-- Two predicates under `OR`. -/
theorem Judges.leads_or (h : Judges r s x c) (h' : Judges r s x' d) (hc : c.connective? = none)
    (hd : d.connective? = none) : Leads r s (x.or x') (.combined .or c d) := by
  obtain ⟨ts, hts, f, hf, hleaf, rfl⟩ := h
  obtain ⟨us, hus, g, hg, hleaf', rfl⟩ := h'
  have htokens : (Condition.combined .or c d).lower s = .ok (ts ++ spaced (.word .OR) ++ us) := by
    rw [Condition.lower, lower_quiet, lower_quiet, hts, hus, hc, hd]
    rfl
  have hforms : Forms (ts ++ spaced (.word .OR) ++ us) (f ++ .token (.word .OR) :: g) :=
    hf.spaced rfl hg
  have hexpr : Forest.Expresses (f ++ .token (.word .OR) :: g) :=
    .infixed hleaf.expresses.tokens ⟨rfl, nofun⟩ hleaf'.expresses.tokens
  have hread := hleaf.readsLeft.read_leaves .or hleaf'
  refine ⟨?_, _, _, _, htokens, hforms.parens, .parens hexpr.isQueryOrRow_eq_false hread, rfl⟩
  rw [truth?_eq rfl, read?_eq htokens hforms]
  exact congrArg (Option.map (·.eval kleene r.truth)) hread

/-! ## Conjuncts -/

/-- Under `AND` a conjunct shows neither `OR` nor `XOR`. -/
theorem IsConjunct.shows (h : c.IsConjunct s) :
    Yields (fun ts => Shows Logic.IsConjunctive (c.conjunctTokens ts)) (c.lower s) := by
  unfold conjunctTokens
  -- In parentheses nothing shows, whatever stands between them.
  rcases h with ⟨op, hop, hne⟩ | hshows
  · have hwrap : c.connective?.any (· != .and) = true := by
      rw [Option.mem_def.mp hop]
      simpa using hne
    rw [hwrap]
    exact (lower_nests s c).mono fun ts hts => hts.parens
  · exact hshows.mono fun ts hts => hts.parensIf _

/-- A condition of which each leaf is read as one predicate is a conjunct. -/
theorem isConjunct_of_leaves (s : Scope) (c : Condition)
    (h : ∀ leaf ∈ c.formula.atoms, Yields Predicates (leaf.lower s)) : c.IsConjunct s := by
  have hleaf : ∀ {leaf : Condition}, Yields Predicates (leaf.lower s) → leaf.IsConjunct s :=
    fun hleaf => .inr (hleaf.mono fun ts ⟨f, n, g, hf, _, hread⟩ =>
      have ⟨trees, hrun⟩ := hread {}
      ⟨f, hf, (Logic.isConjunctive_of_run hrun rfl).2⟩)
  cases c with
  | combined op left right =>
    cases op with
    | and =>
      -- Neither part shows one of the two, in parentheses if it has a connective of its own.
      have hleft := isConjunct_of_leaves s left fun leaf hl => h leaf (List.mem_append_left _ hl)
      have hright := isConjunct_of_leaves s right fun leaf hl => h leaf (List.mem_append_right _ hl)
      refine .inr ?_
      rw [Condition.lower, lower_quiet, lower_quiet]
      exact hleft.shows.bind fun _ hl => hright.shows.bind fun _ hr => .pure
        ((hl.append (.spaced (t := .word .AND) rfl ⟨nofun, nofun⟩)).append hr)
    | or => exact .inl ⟨.or, rfl, nofun⟩
    | xor => exact .inl ⟨.xor, rfl, nofun⟩
  | not d =>
    -- Under a negation what has a connective stands in parentheses.
    have hd := isConjunct_of_leaves s d h
    refine .inr ?_
    rw [Condition.lower, lower_quiet]
    cases hconn : d.connective? with
    | none =>
      have hshows := hd.shows
      unfold conjunctTokens at hshows
      rw [hconn] at hshows
      exact Clause.negated_shows _ ⟨nofun, nofun⟩ hshows
    | some op =>
      exact (lower_nests s d).bind fun ts hts =>
        .pure (.cons rfl ⟨nofun, nofun⟩ hts.parens.blank)
  | _ => exact hleaf (h _ (List.mem_singleton_self _))

/-! ## Conjunctions -/

/-- Conditions under a connective are no query and no row. -/
theorem combined_expresses (s : Scope) (op : Connective) (c d : Condition) :
    Yields (fun ts => ∃ f, Forms ts f ∧ f.Expresses) ((Condition.combined op c d).lower s) := by
  rw [Condition.lower, lower_quiet, lower_quiet]
  refine (lower_shows_all Token.covers_inExpression s c).bind fun ts hts =>
    (lower_shows_all Token.covers_inExpression s d).bind fun us hus => .pure ?_
  obtain ⟨f, hf, hleft⟩ := hts.parensIf (c.connective?.any (· != op))
  obtain ⟨g, hg, hright⟩ := hus.parensIf (d.connective?.any (· != op))
  exact ⟨f ++ .token (.word op.keyword) :: g, hf.spaced op.role_keyword hg,
    .infixed hleft (Token.covers_inExpression.connective op) hright⟩

/-- Behind an `AND` a conjunct is read as it is by itself. -/
theorem IsConjunct.read {y : Formula Connective Forest} (h : d.IsConjunct s)
    (hus : d.lower s = .ok us) (hf : Logic.ReadsLeft f y) :
    ∃ g, Forms (d.conjunctTokens us) g ∧
      Logic.Conjoined y (d.read? s) (Logic.precedence.read (f ++ .token (.word .AND) :: g)) := by
  unfold conjunctTokens
  cases hwrap : d.connective?.any (· != .and) with
  | true =>
    -- In parentheses stands what is under another connective.
    cases d with
    | combined op left right =>
      obtain ⟨g, hg, hexpr⟩ := combined_expresses s op left right us hus
      rw [read?_eq hus hg]
      exact ⟨_, hg.parens, Logic.read_and_group hf hexpr.isQueryOrRow_eq_false⟩
    | _ => cases hwrap
  | false =>
    rcases h with ⟨op, hop, hne⟩ | hshows
    · rw [Option.mem_def.mp hop] at hwrap
      exact absurd hne (by simpa using hwrap)
    · obtain ⟨g, hg, hconjunctive⟩ := hshows us hus
      rw [read?_eq hus hg]
      exact ⟨g, hg, Logic.read_and hf hconjunctive⟩

/-- The truth of a conjunction is that of both conditions together. -/
theorem Leads.truth?_and (h : Leads r s x c) (hd : d.IsConjunct s) :
    (c.and d).truth? r s = (d.truth? r s).map x.and := by
  -- An empty condition disappears under the connective, and excludes no row by itself.
  by_cases hcempty : c = .empty
  · have htruth : truth? r s .empty = some x := hcempty ▸ h.truth
    obtain rfl : Truth.true = x := Option.some.inj htruth
    have hid : Truth.true.and = id := funext Truth.true_and
    rw [hcempty, Condition.and, combine_empty_left, hid, Option.map_id_fun, id]
  by_cases hdempty : d = .empty
  · rw [hdempty, Condition.and, combine_empty_right, h.truth]
    exact congrArg some x.and_true.symm
  have hdnonempty : d.isEmpty = false := by
    cases d <;> first | rfl | exact absurd rfl hdempty
  obtain ⟨ts, f, y, hts, hf, hreads, rfl⟩ := h.reads
  rw [Condition.and, combine_of_ne_empty .and hcempty hdempty, truth?_eq rfl, truth?_eq hdnonempty]
  have hlower : (Condition.combined .and c d).lower s = (d.lower s).bind fun us =>
      .ok (c.conjunctTokens ts ++ spaced (.word .AND) ++ d.conjunctTokens us) := by
    rw [Condition.lower, lower_quiet, lower_quiet, hts]
    rfl
  cases hus : d.lower s with
  | error e => rw [read?, read?, hlower, hus]; rfl
  | ok us =>
    obtain ⟨g, hg, hconjoined⟩ := hd.read hus hreads
    rw [hus] at hlower
    have hforms : Forms (c.conjunctTokens ts ++ spaced (.word .AND) ++ d.conjunctTokens us)
        (f ++ .token (.word .AND) :: g) := hf.spaced rfl hg
    rw [read?_eq hlower hforms]
    exact hconjoined.map_eval r.truth

/-- A conjunction selects the rows that both conditions select. -/
theorem Leads.selects_and (h : Leads r s x c) (hd : d.IsConjunct s) :
    (c.and d).Selects r s ↔ d.Selects r s ∧ x = .true := by
  rw [Selects, Selects, h.truth?_and hd, Option.map_eq_some_iff]
  constructor
  · rintro ⟨z, hz, hand⟩
    obtain ⟨hx, rfl⟩ := Truth.and_eq_true.mp hand
    exact ⟨hz, hx⟩
  · rintro ⟨hd, rfl⟩
    exact ⟨_, hd, rfl⟩

end Condition

end SqlScribe
