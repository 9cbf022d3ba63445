import SqlScribe.Proofs.Reading.Condition
import SqlScribe.Proofs.Reading.Shown
/-! # Conditions read by precedence

Where connectives are mixed without parentheses, `AND` binds tighter than `XOR`, and `XOR` tighter
than `OR`. So what stands behind an `AND` belongs to it up to the next `OR` or `XOR` outside
brackets.

* `Logic.Layers`, `Logic.precedence`, `readByPrecedence`: the grammar and its reader.
* `Logic.IsLeaf`: predicates without words of conditions.
* `Logic.isConjunctive_of_run`: what is read as one predicate shows neither `OR` nor `XOR`.
* `Logic.read_and`, `Logic.read_and_group`: what is read behind an `AND` if no other connective
  stands outside brackets, and if it is in parentheses. -/

namespace SqlScribe

open Tokens

/-- What a tree is for a reader that keeps more. -/
def TreeKind.map {Op π π' : Type} (f : π → π') : TreeKind Op π → TreeKind Op π'
  | .sign p => .sign (f p)
  | .operator op => .operator op
  | .part p => .part (f p)

namespace Logic

/-- What is pending before a condition: what stands before the last `OR` and before the last `XOR`
behind that, and what is pending in the conjunction. -/
structure Layers where
  /-- The conditions before an `OR`. -/
  disjunction : Option (Formula Connective Forest) := none
  /-- The conditions before an `XOR`. -/
  exclusion : Option (Formula Connective Forest) := none
  /-- What is pending in the conjunction. -/
  inner : Pending Forest := {}

namespace Layers

/-- The conditions since the last `OR`. -/
def exclusive (L : Layers) (x : Formula Connective Forest) : Formula Connective Forest :=
  .under (L.exclusion.map (·, .xor)) (L.inner.whole x)

/-- All conditions. -/
def whole (L : Layers) (x : Formula Connective Forest) : Formula Connective Forest :=
  .under (L.disjunction.map (·, .or)) (L.exclusive x)

/-- What is pending behind a condition and a connective: whatever binds tighter is complete. -/
def close (L : Layers) (op : Connective) (x : Formula Connective Forest) : Layers :=
  match op with
  | .and => { L with inner := { chain := some (L.inner.whole x, .and) } }
  | .xor => { disjunction := L.disjunction, exclusion := some (L.exclusive x) }
  | .or => { disjunction := some (L.whole x) }

end Layers

/-- The grammar of conditions in which connectives bind more or less tightly. -/
def precedence : Grammar Connective Layers where
  start := {}
  kind L begun tree := (kind L.inner begun tree).map fun P => { L with inner := P }
  close L op x := some (L.close op x)
  whole := Layers.whole

end Logic

/-- The formula that tokens stand for as a condition, where `AND` binds tighter than `XOR`, and
`XOR` tighter than `OR`. -/
def readByPrecedence (ts : Tokens) : Option (Formula Connective Forest) :=
  Logic.precedence.readTokens ts

/-- The first `AND` belongs to the range, and the second binds tighter than the `OR`. -/
example : readByPrecedence [.ident "a", .word .OR, .ident "b", .word .BETWEEN, .ident "c",
      .word .AND, .ident "d", .word .AND, .word .NOT, .ident "e"] =
    some (.binary .or (.atom [.token (.ident "a")])
      (.binary .and (.atom [.token (.ident "b"), .token (.word .BETWEEN), .token (.ident "c"),
        .token (.word .AND), .token (.ident "d")]) (.negated (.atom [.token (.ident "e")])))) := rfl

namespace Logic

/-! ## Predicates -/

/-- Mute trees of one operand that do not begin with a negation. -/
structure IsLeaf (f : Forest) : Prop where
  solid : f.Solid
  mute : ∀ t, TokenTree.token t ∈ f → t.isMute = true
  begins : ∀ t, f.head? = some (.token t) → t.negates = false

/-- A leaf is read as one predicate. -/
theorem IsLeaf.run {f : Forest} (h : IsLeaf f) (L : Layers) :
    precedence.run ⟨L, .missing⟩ f = some ⟨L, .present f (some (.atom f))⟩ := by
  have hpart {begun : Bool} {tree : TokenTree}
      (h : grammar.kind L.inner begun tree = .part L.inner) :
      precedence.kind L begun tree = .part L :=
    congrArg (TreeKind.map fun P => ({ L with inner := P } : Layers)) h
  refine Grammar.run_solid h.solid (fun tree htree => hpart (kind_head (fun t ht => ?_) _))
    fun tree htree => hpart (kind_of_mute (fun t ht => h.mute t (ht ▸ htree)) _)
  cases ht
  exact ⟨h.mute t (List.mem_of_mem_head? htree), h.begins t htree⟩

theorem IsLeaf.read {f : Forest} (h : IsLeaf f) : precedence.read f = some (.atom f) :=
  Grammar.read_eq_of_run _ (h.run {})

theorem IsLeaf.expresses {f : Forest} (h : IsLeaf f) : f.Expresses := .of_mute h.solid.1 h.mute

/-- The trees are read as an operand, and nothing is pending before it. -/
def ReadsLeft (f : Forest) (y : Formula Connective Forest) : Prop :=
  ∃ trees, precedence.run ⟨{}, .missing⟩ f = some ⟨{}, .present trees (some y)⟩

section ReadsLeft

variable {f : Forest} {y : Formula Connective Forest}

theorem ReadsLeft.read (h : ReadsLeft f y) : precedence.read f = some y := by
  obtain ⟨trees, hrun⟩ := h
  exact Grammar.read_eq_of_run _ hrun

theorem IsLeaf.readsLeft (h : IsLeaf f) : ReadsLeft f (.atom f) := ⟨f, h.run {}⟩

theorem ReadsLeft.parens (hclosed : Forest.isQueryOrRow f = false)
    (h : precedence.read f = some y) : ReadsLeft [.group .round f] y :=
  ⟨_, Grammar.run_parens hclosed h rfl⟩

/-- A connective behind an operand that nothing is pending before. -/
theorem ReadsLeft.run_connective (h : ReadsLeft f y) (op : Connective) (g : Forest) :
    precedence.run ⟨{}, .missing⟩ (f ++ .token (.word op.keyword) :: g) =
      precedence.run ⟨Layers.close {} op y, .missing⟩ g := by
  obtain ⟨trees, hrun⟩ := h
  rw [Grammar.run_append, hrun, Option.bind_some]
  refine Grammar.run_operator ?_ rfl
  cases op <;> rfl

/-- Two predicates under a connective. -/
theorem ReadsLeft.read_leaves {g : Forest} (h : ReadsLeft f y) (op : Connective) (hg : IsLeaf g) :
    precedence.read (f ++ .token (.word op.keyword) :: g) = some (.binary op y (.atom g)) := by
  rw [Grammar.read]
  show (precedence.run ⟨{}, .missing⟩ _).bind _ = _
  rw [h.run_connective op g, hg.run]
  cases op <;> rfl

end ReadsLeft

/-! ## What is pending behind an `AND` -/

/-- Behind `Q` the same is pending as behind `P`, but for a condition and an `AND` before it. -/
structure Follows (y : Formula Connective Forest) (P Q : Pending Forest) : Prop where
  negations : Q.negations = P.negations
  ranges : Q.ranges = P.ranges
  whole : ∀ x, (Q.whole x).Same kleene (.binary .and y (P.whole x))

/-- What a tree is behind `Q` and behind `P`. -/
inductive KindFollows (y : Formula Connective Forest) :
    TreeKind Connective (Pending Forest) → TreeKind Connective (Pending Forest) → Prop where
  /-- A sign. -/
  | sign {P Q : Pending Forest} (h : Follows y P Q) : KindFollows y (.sign P) (.sign Q)
  /-- The `AND` between conditions. -/
  | and : KindFollows y (.operator .and) (.operator .and)
  /-- A part of an operand. -/
  | part {P Q : Pending Forest} (h : Follows y P Q) : KindFollows y (.part P) (.part Q)

/-- The token is neither `OR` nor `XOR`. -/
def IsConjunctive (t : Token) : Prop := t ≠ .word .OR ∧ t ≠ .word .XOR

section Follows

variable {y : Formula Connective Forest} {P Q : Pending Forest}

theorem Follows.start (y : Formula Connective Forest) :
    Follows y {} { chain := some (y, .and) } := ⟨rfl, rfl, fun _ => .refl _⟩

theorem Follows.negate (h : Follows y P Q) (n : Nat) : Follows y (P.negate n) (Q.negate n) := by
  refine ⟨congrArg (· + n) h.negations, h.ranges, fun x => ?_⟩
  rw [Pending.whole_negate, Pending.whole_negate]
  exact h.whole _

/-- A further `AND` goes to the chain on both sides. -/
theorem Follows.close (h : Follows y P Q) (x : Formula Connective Forest) :
    Follows y { chain := some (P.whole x, .and) } { chain := some (Q.whole x, .and) } := by
  refine ⟨rfl, rfl, fun z => ?_⟩
  have hregroup := Formula.Same.regroup (kleene_regroups .and) y (P.whole x) z
  exact ((h.whole x).binary .and (.refl z)).trans hregroup

theorem kind_follows (h : Follows y P Q) (begun : Bool) {tree : TokenTree}
    (htree : ∀ t, tree = .token t → IsConjunctive t) :
    KindFollows y (kind P begun tree) (kind Q begun tree) := by
  cases tree with
  | group b inner => exact .part h
  | token t =>
    cases t with
    | word k =>
      cases k with
      | NOT =>
        cases begun with
        | true => exact .part h
        | false => exact .sign (h.negate 1)
      | BETWEEN => exact .part ⟨h.negations, congrArg (· + 1) h.ranges, h.whole⟩
      | AND =>
        -- The same ranges wait for their `AND`, so that it connects on both sides or on none.
        rw [kind, kind, h.ranges]
        split
        · exact .and
        · exact .part ⟨h.negations, rfl, h.whole⟩
      | OR => exact absurd rfl (htree _ rfl).1
      | XOR => exact absurd rfl (htree _ rfl).2
      | _ => exact .part h
    | _ => exact .part h

/-- What is read behind a condition and an `AND`. -/
abbrev Conjoined (y : Formula Connective Forest) :
    Option (Formula Connective Forest) → Option (Formula Connective Forest) → Prop :=
  Option.Rel fun x z => z.Same kleene (.binary .and y x)

theorem Conjoined.map_eval {p q : Option (Formula Connective Forest)} (h : Conjoined y p q)
    (ρ : Forest → Truth) :
    q.map (·.eval kleene ρ) = (p.map (·.eval kleene ρ)).map (y.eval kleene ρ).and := by
  cases h with
  | none => rfl
  | some hsame => exact congrArg some (hsame.value ρ)

theorem run_follows (h : Follows y P Q) {f : Forest}
    (hf : ∀ t, TokenTree.token t ∈ f → IsConjunctive t) (o : OpenOperand Connective) :
    Conjoined y ((precedence.run ⟨{ inner := P }, o⟩ f).bind precedence.finish)
      ((precedence.run ⟨{ inner := Q }, o⟩ f).bind precedence.finish) := by
  -- Each tree changes what is pending on both sides in the same way, so both are general.
  induction f generalizing P Q o with
  | nil =>
    rw [Grammar.run_nil, Grammar.run_nil]
    cases o with
    | missing => exact .none
    | present trees x =>
      cases x with
      | none => exact .none
      | some x => exact .some (h.whole x)
  | cons tree f ih =>
    obtain ⟨htree, hf⟩ : (∀ t, tree = .token t → IsConjunctive t) ∧
        ∀ t, TokenTree.token t ∈ f → IsConjunctive t :=
      ⟨fun t ht => hf t (ht ▸ List.mem_cons_self), fun t ht => hf t (List.mem_cons_of_mem _ ht)⟩
    have hkind := kind_follows h o.begun htree
    have hkindP : precedence.kind { inner := P } o.begun tree =
        (kind P o.begun tree).map fun P => { inner := P } := rfl
    have hkindQ : precedence.kind { inner := Q } o.begun tree =
        (kind Q o.begun tree).map fun Q => { inner := Q } := rfl
    rw [Grammar.run_cons, Grammar.run_cons, Grammar.step, Grammar.step, hkindP, hkindQ]
    generalize kind P o.begun tree = kindP at hkind
    generalize kind Q o.begun tree = kindQ at hkind
    cases hkind with
    | sign h' =>
      cases o with
      | missing => exact ih h' hf .missing
      | present trees x => exact .none
    | and =>
      cases o with
      | missing => exact .none
      | present trees x =>
        cases x with
        | none => exact .none
        | some x => exact ih (h.close x) hf .missing
    | part h' => exact ih h' hf _

end Follows

/-! ## Trees without `OR` and `XOR` -/

/-- What is no connective is neither `OR` nor `XOR`. -/
theorem isConjunctive_of_kind {P : Pending Forest} {begun : Bool} {tree : TokenTree}
    (h : ∀ op, kind P begun tree ≠ .operator op) :
    ∀ t, tree = .token t → IsConjunctive t := by
  rintro t rfl
  refine ⟨?_, ?_⟩
  · rintro rfl
    exact h .or rfl
  · rintro rfl
    exact h .xor rfl

/-- Only a connective adds to the chain that is pending. -/
theorem chain_of_kind {P Q : Pending Forest} {begun : Bool} {tree : TokenTree}
    (h : kind P begun tree = .sign Q ∨ kind P begun tree = .part Q) :
    Q.chain = P.chain := by
  unfold kind at h
  split at h
  · split at h <;> rcases h with h | h <;> cases h <;> rfl
  · rcases h with h | h <;> cases h
    rfl
  · split at h <;> rcases h with h | h <;> cases h
    rfl
  · rcases h with h | h <;> cases h
  · rcases h with h | h <;> cases h
  · rcases h with h | h <;> cases h
    rfl

/-- A tree behind which no chain is pending is neither `OR` nor `XOR`. -/
theorem isConjunctive_of_step {R R' : Grammar.Reader Connective (Pending Forest)}
    {tree : TokenTree} {x : Option (Formula Connective Forest)}
    (h : grammar.step R tree x = some R') (hchain : R'.pending.chain = none) :
    R.pending.chain = none ∧ ∀ t, tree = .token t → IsConjunctive t := by
  rcases Grammar.step_cases h with ⟨p, hkind, rfl⟩ | ⟨op, y, p, -, hclose, rfl⟩ | ⟨p, hkind, rfl⟩
  · exact ⟨chain_of_kind (.inl hkind) ▸ hchain,
      isConjunctive_of_kind fun op hop => nomatch hop.symm.trans hkind⟩
  · -- A connective leaves its chain pending.
    obtain ⟨-, hp⟩ := Option.ite_none_right_eq_some.mp hclose
    rw [← Option.some.inj hp] at hchain
    cases hchain
  · exact ⟨chain_of_kind (.inr hkind) ▸ hchain,
      isConjunctive_of_kind fun op hop => nomatch hop.symm.trans hkind⟩

/-- Trees behind which no chain is pending show neither `OR` nor `XOR`. -/
theorem isConjunctive_of_run {f : Forest} {P Q : Pending Forest}
    {o o' : OpenOperand Connective}
    (h : grammar.run ⟨P, o⟩ f = some ⟨Q, o'⟩) (hQ : Q.chain = none) :
    P.chain = none ∧ ∀ t, TokenTree.token t ∈ f → IsConjunctive t := by
  -- A chain that is pending stays so, so that none was pending before any of the trees.
  induction f generalizing P o with
  | nil =>
    cases h
    exact ⟨hQ, nofun⟩
  | cons tree f ih =>
    rw [Grammar.run_cons] at h
    obtain ⟨⟨P', o₁⟩, hstep, hrun⟩ := Option.bind_eq_some_iff.mp h
    obtain ⟨hP', hf⟩ := ih hrun
    obtain ⟨hP, htree⟩ := isConjunctive_of_step hstep hP'
    refine ⟨hP, fun t ht => ?_⟩
    rcases List.mem_cons.mp ht with ht | ht
    · exact htree t ht.symm
    · exact hf t ht

/-! ## Conditions behind an `AND` -/

section And

variable {f g : Forest} {y : Formula Connective Forest}

/-- Behind an `AND` conditions are read up to the end, if no other connective stands outside
brackets. -/
theorem read_and (h : ReadsLeft f y) (hg : ∀ t, TokenTree.token t ∈ g → IsConjunctive t) :
    Conjoined y (precedence.read g) (precedence.read (f ++ .token (.word .AND) :: g)) := by
  have hrun : precedence.run ⟨{}, .missing⟩ (f ++ .token (.word .AND) :: g) =
      precedence.run ⟨Layers.close {} .and y, .missing⟩ g := h.run_connective .and g
  show Conjoined y _ ((precedence.run ⟨{}, .missing⟩ (f ++ _)).bind _)
  rw [hrun]
  exact run_follows (.start y) hg .missing

/-- Behind an `AND` what stands in parentheses is read by itself. -/
theorem read_and_group (h : ReadsLeft f y) (hg : Forest.isQueryOrRow g = false) :
    Conjoined y (precedence.read g)
      (precedence.read (f ++ .token (.word .AND) :: [.group .round g])) := by
  have hrun : precedence.run ⟨{}, .missing⟩ (f ++ .token (.word .AND) :: [.group .round g]) =
      precedence.run ⟨Layers.close {} .and y, .missing⟩ [.group .round g] :=
    h.run_connective .and [.group .round g]
  have htree : precedence.readTree (.group .round g) = precedence.read g := by
    rw [Grammar.readTree, if_pos ⟨rfl, hg⟩]
    rfl
  have hgroup : precedence.run ⟨Layers.close {} .and y, .missing⟩ [.group .round g] =
      some ⟨Layers.close {} .and y, .present [.group .round g] (precedence.read g)⟩ := by
    rw [Grammar.run_cons, Grammar.step_part rfl, Option.bind_some, Grammar.run_nil, htree]
    rfl
  show Conjoined y _ ((precedence.run ⟨{}, .missing⟩ (f ++ _)).bind _)
  rw [hrun, hgroup, Option.bind_some]
  cases precedence.read g with
  | none => exact .none
  | some x => exact .some (.refl _)

end And

end Logic

end SqlScribe
