import SqlScribe.Proofs.Selection.Conjunction
/-! # Complements

`a <> b` is unknown where `a` is null, so that a row with a null is selected neither by `a = b` nor
by it. Joined by `OR` to a test for null it selects exactly the rows that `a = b` does not, and
likewise for membership in a list.

* `Term.isLiteral`: values that have a literal.
* `Term.Writes`: terms that are written as an operand of a value.
* `Condition.Complements`: conditions of which one selects the rows that the other does not.
* `Term.negations_complement`: comparisons with a literal and membership in a list of literals. -/

namespace SqlScribe

open Tokens

/-! ## Truth -/

namespace Truth

theorem or_eq_unknown {x y : Truth} (h : x.or y = .unknown) : x = .unknown ∨ y = .unknown := by
  cases x <;> cases y <;> simp_all [Truth.or]

theorem or_eq_true {x y : Truth} : x.or y = .true ↔ x = .true ∨ y = .true := by
  cases x <;> cases y <;> decide

/-- What is not known only of null, and not true of it, is true or else it is false or asked of
null. -/
theorem not_or_isNull {V : Type} {x : Truth} {v : Option V} (hunknown : x = .unknown → v = none)
    (htrue : x = .true → v ≠ none) : x.not.or (.ofBool v.isNone) = .true ↔ x ≠ .true := by
  cases x with
  | false => exact ⟨nofun, fun _ => rfl⟩
  | unknown =>
    rw [hunknown rfl]
    exact ⟨nofun, fun _ => rfl⟩
  | true =>
    obtain ⟨w, rfl⟩ := Option.ne_none_iff_exists'.mp (htrue rfl)
    exact ⟨nofun, fun h => absurd rfl h⟩

end Truth

namespace Row

variable {V : Type} (r : Row V) {v w : Option V} {vs : List (Option V)}

/-- Only null is not known to be equal to a value or different from it. -/
theorem eq_none_of_equality_unknown (hw : w ≠ none) (h : r.equality v w = .unknown) : v = none := by
  obtain ⟨y, rfl⟩ := Option.ne_none_iff_exists'.mp hw
  cases v with
  | none => rfl
  | some x =>
    rw [equality] at h
    cases hxy : r.equal x y <;> rw [hxy] at h <;> cases h

/-- What is known to be equal to something is not null. -/
theorem ne_none_of_equality_true (h : r.equality v w = .true) : v ≠ none := by
  rintro rfl
  cases h

theorem membership_cons (v w : Option V) (vs : List (Option V)) :
    r.membership v (w :: vs) = (r.equality v w).or (r.membership v vs) := rfl

theorem eq_none_of_membership_unknown (hvs : ∀ w ∈ vs, w ≠ none)
    (h : r.membership v vs = .unknown) : v = none := by
  induction vs with
  | nil => cases h
  | cons w vs ih =>
    obtain ⟨hw, hvs⟩ := List.forall_mem_cons.mp hvs
    rw [membership_cons] at h
    rcases Truth.or_eq_unknown h with h | h
    · exact r.eq_none_of_equality_unknown hw h
    · exact ih hvs h

theorem ne_none_of_membership_true (h : r.membership v vs = .true) : v ≠ none := by
  induction vs with
  | nil => cases h
  | cons w vs ih =>
    rw [membership_cons] at h
    rcases Truth.or_eq_true.mp h with h | h
    · exact r.ne_none_of_equality_true h
    · exact ih h

end Row

/-! ## Operands -/

namespace Term

/-- The term is a value that has a literal. -/
def isLiteral : Term → Bool
  | ⟨.value v, _⟩ => v.hasLiteral
  | ⟨.named _ v, _⟩ => v.hasLiteral
  | _ => false

variable {V : Type} (r : Row V) (s : Scope)

/-- The term is written as an operand of this value. -/
def Writes (v : Option V) (t : Term) : Prop :=
  ∃ ts, t.lower s.quiet = .ok ts ∧ IsWorth r v ts

/-- A column has a value on each row, or is null. -/
theorem writes_field (q : Option Qualifier) (name : String) (alias? : Option String) :
    ∃ v, Writes r s v ⟨.field q name, alias?⟩ := by
  have hstands := Expr.lower_stands (p := Token.InOperand) (fun _ ht => .inl ht) s (.field q name)
    rfl rfl
  have hlower : Term.lower s.quiet ⟨.field q name, alias?⟩ =
      .ok (s.qualification q ++ [.ident name]) := by
    rw [Term.lower_quiet, Expr.lower]
  rw [Expr.lower] at hstands
  obtain ⟨f, hf, htokens, hsolid⟩ := hstands _ rfl
  exact ⟨r.value f, _, hlower, f, hf, ⟨hsolid, htokens⟩, rfl⟩

/-- A literal has a value that is not null. -/
theorem writes_literal {t : Term} (h : t.isLiteral = true) : ∃ x, Writes r s (some x) t := by
  have hsingle : ∀ {u : Token}, u.role = .plain → u.inAtom = true →
      IsWorth r (r.value [.token u]) [u] := fun hrole hin =>
    ⟨_, Forms.nil.plain hrole, ⟨Forest.solid_of_token List.mem_cons_self, fun u hu => by
      cases List.mem_singleton.mp hu
      exact .inl hin⟩, rfl⟩
  have hvalue : ∀ {v : Value} (u : Token), v.hasLiteral = true → Clause.value v u = .ok [u] := by
    intro v u hv
    cases v with
    | float x => exact if_pos hv
    | _ => rfl
  obtain ⟨e, alias?⟩ := t
  cases e with
  | value v =>
    refine ⟨r.literal v, _, ?_, hsingle (u := .literal v) rfl rfl⟩
    rw [lower_quiet, Expr.lower, hvalue _ h]
  | named name v =>
    refine ⟨r.literal v, _, ?_, hsingle (u := .named name v) rfl rfl⟩
    rw [lower_quiet, Expr.lower, hvalue _ h]
  | _ => cases h

theorem isNull_of_isLiteral {t : Term} (h : t.isLiteral = true) : t.isNull = false := by
  obtain ⟨e, alias?⟩ := t
  cases e with
  | null => cases h
  | _ => rfl

/-- The items of a list of literals are written as operands, none of them null. -/
theorem writes_literals {items : List Term} (h : ∀ item ∈ items, item.isLiteral = true) :
    ∃ l vs, Term.lowerAll s.quiet items = .ok l ∧ List.Forall₂ (IsWorth r) vs l ∧
      (∀ v ∈ vs, v ≠ none) ∧ vs.isEmpty = items.isEmpty := by
  induction items with
  | nil =>
    refine ⟨[], [], ?_, .nil, nofun, rfl⟩
    rw [Term.lowerAll]
  | cons item items ih =>
    obtain ⟨hitem, hitems⟩ := List.forall_mem_cons.mp h
    obtain ⟨x, ts, hts, hworth⟩ := writes_literal r s hitem
    obtain ⟨l, vs, hl, hworths, hvs, -⟩ := ih hitems
    refine ⟨ts :: l, some x :: vs, ?_, .cons hworth hworths,
      List.forall_mem_cons.mpr ⟨nofun, hvs⟩, rfl⟩
    rw [Term.lowerAll, hts, hl]
    rfl

end Term

/-! ## Comparisons and membership -/

namespace Condition

variable {V : Type} (r : Row V) (s : Scope)

/-- One condition selects exactly the rows that the other does not. It does so by itself and
together with any further conjunct, and each of the two conditions has a truth. -/
structure Complements (c d : Condition) : Prop where
  decided : (c.truth? r s).isSome = true ∧ (d.truth? r s).isSome = true
  selects : d.Selects r s ↔ ¬c.Selects r s
  selects_and : ∀ e : Condition, e.IsConjunct s →
    ((d.and e).Selects r s ↔ e.Selects r s ∧ ¬c.Selects r s)

variable {r s} {c d : Condition} {x y : Truth}

theorem Complements.of_leads (hc : Leads r s x c) (hd : Leads r s y d)
    (h : y = .true ↔ x ≠ .true) : Complements r s c d where
  decided := by
    rw [hc.truth, hd.truth]
    exact ⟨rfl, rfl⟩
  selects := by
    rw [Selects, Selects, hc.truth, hd.truth, Option.some.injEq, Option.some.injEq, h]
  selects_and e he := by
    have hselects : c.Selects r s ↔ x = .true := by rw [Selects, hc.truth, Option.some.injEq]
    rw [hd.selects_and he, h, hselects]

end Condition

namespace Term

variable {V : Type} {r : Row V} {s : Scope} {v w : Option V} {a b : Term}

theorem Writes.judges_isNull (ha : Writes r s v a) :
    Condition.Judges r s (.ofBool v.isNone) (.isNull false a) := by
  obtain ⟨ts, hts, hworth⟩ := ha
  refine ⟨ts ++ spaced (.word .IS) ++ Clause.negation false ++ [.word .NULL], ?_, ?_⟩
  · rw [Condition.lower, hts]
    rfl
  · rw [List.append_assoc, List.append_assoc]
    exact hworth.judges_isNull

theorem Writes.judges_equals (ha : Writes r s v a) (hb : Writes r s w b) (hnull : a.isNull = false)
    (hnull' : b.isNull = false) : Condition.Judges r s (r.equality v w) (a.equals b) := by
  obtain ⟨ts, hts, hworth⟩ := ha
  obtain ⟨us, hus, hworth'⟩ := hb
  refine ⟨_, ?_, hworth.judges_eq hworth'⟩
  rw [equals, Condition.lower, hnull, hnull', hts, hus]
  rfl

theorem Writes.judges_differsStrictly (ha : Writes r s v a) (hb : Writes r s w b)
    (hnull : a.isNull = false) (hnull' : b.isNull = false) :
    Condition.Judges r s (r.equality v w).not (a.differsStrictly b) := by
  obtain ⟨ts, hts, hworth⟩ := ha
  obtain ⟨us, hus, hworth'⟩ := hb
  refine ⟨_, ?_, hworth.judges_ne hworth'⟩
  rw [differsStrictly, Condition.lower, hnull, hnull', hts, hus]
  rfl

/-- Membership in a list. In an empty one it has its truth without the term. -/
theorem Writes.judges_membership {vs : List (Option V)} {l : List Tokens} {items : List Term}
    (ha : Writes r s v a) (hitems : Term.lowerAll s.quiet items = .ok l)
    (hl : List.Forall₂ (IsWorth r) vs l) (hempty : vs.isEmpty = items.isEmpty) :
    Condition.Judges r s (r.membership v vs) (.isIn false a items) ∧
      Condition.Judges r s (r.membership v vs).not (.isIn true a items) := by
  unfold Condition.Judges
  rw [Condition.lower, Condition.lower, hitems]
  cases vs with
  | nil =>
    -- The term is not written, so that it does not matter whether it is null.
    rw [← hempty]
    exact ⟨⟨_, rfl, judges_constant false⟩, _, rfl, judges_constant true⟩
  | cons w vs =>
    obtain ⟨ts, hts, hworth⟩ := ha
    obtain ⟨hin, hnotin⟩ := hworth.judges_isIn (List.cons_ne_nil _ _) hl
    rw [← hempty, hts]
    exact ⟨⟨_, rfl, hin⟩, _, rfl, hnotin⟩

/-- **The negations that include nulls are complements.** Let `a` be a column and `b` a literal, or
let there be a list of literals, perhaps an empty one. On each row, with whatever values and nulls,
what is written for them has a truth; `a <> b` or a null is selected exactly where `a = b` is not,
and none of the list or a null exactly where one of the list is not. Joined to a further conjunct
they select exactly those of its rows. -/
theorem negations_complement (r : Row V) (s : Scope) (q : Option Qualifier) (name : String)
    (alias? : Option String) {b : Term} {items : List Term} (hb : b.isLiteral = true)
    (hitems : ∀ item ∈ items, item.isLiteral = true) :
    let a : Term := ⟨.field q name, alias?⟩
    Condition.Complements r s (a.equals b) (a.differs b) ∧
      Condition.Complements r s (a.isOneOf (.listed items)) (a.isNoneOf (.listed items)) := by
  intro a
  obtain ⟨v, ha⟩ := writes_field r s q name alias?
  have hnull := ha.judges_isNull
  refine ⟨?_, ?_⟩
  · obtain ⟨x, hx⟩ := writes_literal r s hb
    have heq := ha.judges_equals hx rfl (isNull_of_isLiteral hb)
    have hne := ha.judges_differsStrictly hx rfl (isNull_of_isLiteral hb)
    exact .of_leads (heq.leads rfl rfl) (hne.leads_or hnull rfl rfl)
      (Truth.not_or_isNull (r.eq_none_of_equality_unknown nofun) r.ne_none_of_equality_true)
  · obtain ⟨l, vs, hl, hworths, hvs, hempty⟩ := writes_literals r s hitems
    obtain ⟨hin, hnotin⟩ := ha.judges_membership hl hworths hempty
    exact .of_leads (hin.leads rfl rfl) (hnotin.leads_or hnull rfl rfl)
      (Truth.not_or_isNull (r.eq_none_of_membership_unknown hvs) r.ne_none_of_membership_true)

/-- A row of integers, on which all that is asked otherwise is true. -/
def integerRow (fields : String → Option Int) : Row Int where
  literal
    | .int n => n
    | _ => 0
  operand
    | [.token (.ident name)] => fields name
    | _ => none
  rows _ := []
  equal x y := x == y
  predicate _ := .true

/-- A row with a null, and a disjunction behind the `AND`. -/
theorem negations_complement_null :
    let r := integerRow fun name => if name = "a" then none else some 1
    let s := Scope.ofOptions .ansi {}
    let a := field "a"
    let items := Members.listed [int 1, int 2]
    let c := ((field "x").equals (int 1)).or ((field "y").equals (int 2))
    (((a.differs (int 1)).and c).Selects r s ↔
      c.Selects r s ∧ ¬(a.equals (int 1)).Selects r s) ∧
    (((a.isNoneOf items).and c).Selects r s ↔
      c.Selects r s ∧ ¬(a.isOneOf items).Selects r s) := by
  intro r s a items c
  have hc : c.IsConjunct s := c.isConjunct_of_leaves s fun leaf hleaf =>
    Condition.lower_leaf s leaf (by revert leaf; decide)
  obtain ⟨hne, hnotin⟩ :=
    @negations_complement Int r s none "a" none (int 1) [int 1, int 2] rfl (by decide)
  exact ⟨hne.selects_and c hc, hnotin.selects_and c hc⟩

/-- What is not a number has no literal, so that no comparison with it is written. And a condition
that is an operand of another one is not put in parentheses: where its `OR` stands bare behind an
`AND`, it takes the conjunction apart. -/
theorem negations_complement_open :
    let r := integerRow fun name => if name = "y" then none else some 1
    let s := Scope.ofOptions .ansi {}
    let a := field "a"
    let nan := literal (.float (Binary64.ofFields false 2047 1))
    let c := Condition.isNull false
      (ofCondition (((field "x").equals (int 1)).or ((field "y").equals (int 2))))
    ¬((a.differs nan).Selects r s ↔ ¬(a.equals nan).Selects r s) ∧
      ((a.differs (int 1)).and c).Selects r s ∧ (a.equals (int 1)).Selects r s := by
  decide

end Term

end SqlScribe
