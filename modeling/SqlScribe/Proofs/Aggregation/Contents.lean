import Mathlib.Data.List.Forall2
import SqlScribe.Syntax.Aggregation
/-! # Contents of terms

Whether a term is an aggregate is to say whether aggregate functions are called in it and columns
stand beside them.

* `Contents`: an aggregate call, and a column outside of aggregate calls.
* `Term.contents`: which of the two are in a term, in the places that count.
* `Contents.Fits`: what contents say about an aggregation.
* `Term.contents_fits`: those of a term say so about its aggregation. The proof follows the syntax.

Of tests for membership and for lying between two terms only the tested term counts, and of a call
of any other function only the arguments. Queries do not count. -/

namespace SqlScribe

/-- What is in a term. -/
structure Contents where
  /-- A call of an aggregate function. -/
  aggregate : Bool
  /-- A field or star outside of all such calls. -/
  column : Bool
deriving Repr, DecidableEq

namespace Contents

/-- Neither of the two. -/
def nothing : Contents := ⟨false, false⟩

/-- What is in a whole, from what is in its parts. -/
def union (parts : List Contents) : Contents :=
  ⟨parts.any (·.aggregate), parts.any (·.column)⟩

end Contents

mutual

/-- What is in a term. -/
def Term.contents : Term → Contents
  | ⟨expr, _⟩ => expr.contents

/-- What is in an expression. -/
def Expr.contents : Expr → Contents
  | .field _ _ => ⟨false, true⟩
  | .star _ => ⟨false, true⟩
  | .value _ => .nothing
  | .named _ _ => .nothing
  | .null => .nothing
  | .parameter _ => .nothing
  | .raw _ => .nothing
  | .tuple items => .union (Term.contentsAll items)
  | .array items => .union (Term.contentsAll items)
  | .interval _ => .nothing
  | .arithmetic _ left right => .union [left.contents, right.contents]
  | .negative t => t.contents
  | .call c => c.contents
  | .case branches otherwise =>
    .union (Branch.contentsAll branches ++
      match otherwise with
      | none => []
      | some t => [t.contents])
  | .subquery _ => .nothing
  | .condition c => c.contents

/-- What is in a call. The arguments of an aggregate function belong to it. -/
def Call.contents : Call → Contents
  | ⟨_, _, aggregate, _, _, args, _, _⟩ =>
    if aggregate then ⟨true, false⟩ else .union (Term.contentsAll args)

/-- What is in a condition. -/
def Condition.contents : Condition → Contents
  | .empty => .nothing
  | .compare _ left right => .union [left.contents, right.contents]
  | .matches _ _ term pattern _ => .union [term.contents, pattern.contents]
  | .json _ left right => .union [left.contents, right.contents]
  | .search _ term value => .union [term.contents, value.contents]
  | .isNull _ term => term.contents
  | .isIn _ term _ => term.contents
  | .isInRows _ term _ => term.contents
  | .between _ term _ _ => term.contents
  | .hasRows _ _ => .nothing
  | .combined _ left right => .union [left.contents, right.contents]
  | .not c => c.contents
  | .term t => t.contents

/-- What is in each term of a list. -/
def Term.contentsAll : List Term → List Contents
  | [] => []
  | t :: ts => t.contents :: Term.contentsAll ts

/-- What is in each branch of a list. -/
def Branch.contentsAll : List Branch → List Contents
  | [] => []
  | ⟨c, t⟩ :: branches => .union [c.contents, t.contents] :: Branch.contentsAll branches

end

namespace Contents

/-- The aggregation of what has no column in it. -/
def verdict (c : Contents) : Aggregation := if c.aggregate then .aggregate else .neutral

/-- An aggregation follows the contents where there is no column, and is that of an aggregate only
where an aggregate function is called. -/
structure Fits (c : Contents) (a : Aggregation) : Prop where
  settled : c.column = false → a = c.verdict
  sound : a = .aggregate → c.aggregate = true

variable {c c' : Contents} {a a' : Aggregation} {cs : List Contents} {as : List Aggregation}

theorem fits_column : Fits ⟨false, true⟩ .perRow := ⟨nofun, nofun⟩

theorem fits_nothing : Fits .nothing .neutral := ⟨fun _ => rfl, nofun⟩

theorem fits_aggregate : Fits ⟨true, false⟩ .aggregate := ⟨fun _ => rfl, fun _ => rfl⟩

theorem column_union : (union cs).column = false ↔ ∀ c ∈ cs, c.column = false := by
  simp [union]

theorem aggregate_union : (union cs).aggregate = true ↔ ∃ c ∈ cs, c.aggregate = true := by
  simp [union]

/-- Where there is no column, the whole is an aggregate if one of its parts is. -/
theorem resolve_verdict (cs : List Contents) :
    Aggregation.resolve (cs.map verdict) = (union cs).verdict := by
  have hperRow : Aggregation.perRow ∉ cs.map verdict := by
    intro hmem
    obtain ⟨c, _, hc⟩ := List.mem_map.mp hmem
    rw [verdict] at hc
    split at hc <;> cases hc
  rw [Aggregation.resolve, verdict]
  by_cases haggregate : (union cs).aggregate = true
  · obtain ⟨c, hc, hcaggregate⟩ := aggregate_union.mp haggregate
    have hall : ¬ ((cs.map verdict).all (· == .neutral)) = true := by
      intro hall
      have hneutral := List.all_eq_true.mp hall _ (List.mem_map_of_mem hc)
      rw [verdict, if_pos hcaggregate] at hneutral
      cases hneutral
    rw [if_neg hall, if_neg (by simpa using hperRow), if_pos haggregate]
  · have hall : ((cs.map verdict).all (· == .neutral)) = true := by
      refine List.all_eq_true.mpr fun a ha => ?_
      obtain ⟨c, hc, rfl⟩ := List.mem_map.mp ha
      have hcaggregate : ¬ c.aggregate = true := fun h =>
        haggregate (aggregate_union.mpr ⟨c, hc, h⟩)
      rw [verdict, if_neg hcaggregate]
      rfl
    rw [if_pos hall, if_neg haggregate]

/-- A whole is an aggregate only if one of its parts is. -/
theorem mem_of_resolve (h : Aggregation.resolve as = .aggregate) : .aggregate ∈ as := by
  rw [Aggregation.resolve] at h
  split at h
  · cases h
  · next hall =>
    split at h
    · cases h
    · next hperRow =>
      obtain ⟨a, ha, hneutral⟩ : ∃ a ∈ as, ¬ a = .neutral := by simpa using hall
      cases a with
      | aggregate => exact ha
      | neutral => exact absurd rfl hneutral
      | perRow => exact absurd (by simpa using ha) hperRow

theorem Fits.resolve (h : List.Forall₂ Fits cs as) :
    Fits (union cs) (Aggregation.resolve as) := by
  constructor
  · intro hcolumn
    -- No part has a column, so each aggregation is the verdict on its part.
    have hsettled : as = cs.map verdict := by
      rw [column_union] at hcolumn
      induction h with
      | nil => rfl
      | cons hfits _ ih =>
        obtain ⟨hfirst, hrest⟩ := List.forall_mem_cons.mp hcolumn
        rw [hfits.settled hfirst, ih hrest, List.map_cons]
    rw [hsettled, resolve_verdict]
  · intro haggregate
    have hmem := mem_of_resolve haggregate
    clear haggregate
    rw [aggregate_union]
    induction h with
    | nil => cases hmem
    | @cons c a cs as hfits _ ih =>
      rcases List.mem_cons.mp hmem with heq | hmem
      · exact ⟨c, List.mem_cons_self, hfits.sound heq.symm⟩
      · obtain ⟨c', hc', haggregate⟩ := ih hmem
        exact ⟨c', List.mem_cons_of_mem _ hc', haggregate⟩

theorem Fits.pair (h : Fits c a) (h' : Fits c' a') :
    Fits (union [c, c']) (Aggregation.resolve [a, a']) :=
  .resolve (.cons h (.cons h' .nil))

/-- The condition of a branch makes it an aggregate, and hides its own columns. -/
theorem Fits.orElse (h : Fits c a) (h' : Fits c' a') : Fits (union [c, c']) (a.orElse a') := by
  constructor
  · intro hcolumn
    obtain ⟨hc, hc'⟩ : c.column = false ∧ c'.column = false := by simpa [union] using hcolumn
    rw [h.settled hc, h'.settled hc']
    cases haggregate : c.aggregate <;> cases haggregate' : c'.aggregate <;>
      simp [union, verdict, haggregate, haggregate', Aggregation.orElse]
  · intro haggregate
    rw [aggregate_union]
    cases a with
    | aggregate => exact ⟨c, List.mem_cons_self, h.sound rfl⟩
    | neutral | perRow =>
      exact ⟨c', List.mem_cons_of_mem _ List.mem_cons_self, h'.sound haggregate⟩

end Contents

open Contents

mutual

theorem Term.contents_fits : ∀ t : Term, t.contents.Fits t.aggregation
  | ⟨expr, _⟩ => by
    rw [Term.contents, Term.aggregation]
    exact Expr.contents_fits expr

theorem Expr.contents_fits : ∀ e : Expr, e.contents.Fits e.aggregation
  | .field _ _ | .star _ => by
    rw [Expr.contents, Expr.aggregation]
    exact fits_column
  | .value _ | .named _ _ | .null | .parameter _ | .raw _ | .interval _ | .subquery _ => by
    rw [Expr.contents, Expr.aggregation]
    exact fits_nothing
  | .tuple items | .array items => by
    rw [Expr.contents, Expr.aggregation]
    exact .resolve (Term.contentsAll_fits items)
  | .arithmetic _ left right => by
    rw [Expr.contents, Expr.aggregation]
    exact (Term.contents_fits left).pair (Term.contents_fits right)
  | .negative t => by
    rw [Expr.contents, Expr.aggregation]
    exact Term.contents_fits t
  | .call c => by
    rw [Expr.contents, Expr.aggregation]
    exact Call.contents_fits c
  | .case branches none => by
    rw [Expr.contents, Expr.aggregation]
    exact .resolve (List.rel_append (Branch.contentsAll_fits branches) .nil)
  | .case branches (some t) => by
    rw [Expr.contents, Expr.aggregation]
    exact .resolve (List.rel_append (Branch.contentsAll_fits branches)
      (.cons (Term.contents_fits t) .nil))
  | .condition c => by
    rw [Expr.contents, Expr.aggregation]
    exact Condition.contents_fits c

theorem Call.contents_fits : ∀ c : Call, c.contents.Fits c.aggregation
  | ⟨_, _, aggregate, _, _, args, _, _⟩ => by
    rw [Call.contents, Call.aggregation]
    cases aggregate with
    | true => exact fits_aggregate
    | false => exact .resolve (Term.contentsAll_fits args)

theorem Condition.contents_fits : ∀ c : Condition, c.contents.Fits c.aggregation
  | .empty | .hasRows _ _ => by
    rw [Condition.contents, Condition.aggregation]
    exact fits_nothing
  | .compare _ left right | .json _ left right => by
    rw [Condition.contents, Condition.aggregation]
    exact (Term.contents_fits left).pair (Term.contents_fits right)
  | .matches _ _ term pattern _ => by
    rw [Condition.contents, Condition.aggregation]
    exact (Term.contents_fits term).pair (Term.contents_fits pattern)
  | .search _ term value => by
    rw [Condition.contents, Condition.aggregation]
    exact (Term.contents_fits term).pair (Term.contents_fits value)
  | .isNull _ term | .isIn _ term _ | .isInRows _ term _ | .between _ term _ _ => by
    rw [Condition.contents, Condition.aggregation]
    exact Term.contents_fits term
  | .combined _ left right => by
    rw [Condition.contents, Condition.aggregation]
    exact (Condition.contents_fits left).pair (Condition.contents_fits right)
  | .not c => by
    rw [Condition.contents, Condition.aggregation]
    exact Condition.contents_fits c
  | .term t => by
    rw [Condition.contents, Condition.aggregation]
    exact Term.contents_fits t

theorem Term.contentsAll_fits :
    ∀ ts : List Term, List.Forall₂ Fits (Term.contentsAll ts) (Term.aggregations ts)
  | [] => .nil
  | t :: ts => .cons (Term.contents_fits t) (Term.contentsAll_fits ts)

theorem Branch.contentsAll_fits : ∀ branches : List Branch,
    List.Forall₂ Fits (Branch.contentsAll branches) (Branch.aggregations branches)
  | [] => .nil
  | ⟨c, t⟩ :: branches =>
    .cons ((Condition.contents_fits c).orElse (Term.contents_fits t))
      (Branch.contentsAll_fits branches)

end

end SqlScribe
