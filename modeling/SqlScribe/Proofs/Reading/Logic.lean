import SqlScribe.Proofs.Reading.Atom
/-! # Conditions read back

A condition is written with few parentheses too. Its tokens are read back as a boolean expression:
`NOT` binds tightest, a chain of one connective is read from the left, and connectives are not mixed
without parentheses. What is read has the same three-valued truth as the condition, whatever the
truth of its predicates is.

* `Logic.grammar`, `readCondition`: the grammar and its reader.
* `Truth`, `kleene`: three-valued logic.
* `Logic.ReadsLeaf`: trees that are read as one predicate, perhaps a negated one.
* `Logic.Reads`: what is pending before a condition carries over to its reading; one law for each
  way in which conditions are put together. -/

namespace SqlScribe

open Tokens

/-- The truth of a condition on rows that may hold nulls. -/
inductive Truth where
  /-- It does not hold. -/
  | false
  /-- It is not known. -/
  | unknown
  /-- It holds. -/
  | true
deriving Repr, DecidableEq

namespace Truth

/-- The truth of a negated condition. -/
def not : Truth → Truth
  | .false => .true
  | .unknown => .unknown
  | .true => .false

/-- The truth of two conditions together. -/
def and : Truth → Truth → Truth
  | .false, _ => .false
  | _, .false => .false
  | .true, .true => .true
  | _, _ => .unknown

/-- The truth of one condition or the other. -/
def or : Truth → Truth → Truth
  | .true, _ => .true
  | _, .true => .true
  | .false, .false => .false
  | _, _ => .unknown

/-- The truth of one condition or the other, not both. -/
def xor : Truth → Truth → Truth
  | .unknown, _ => .unknown
  | _, .unknown => .unknown
  | a, b => if a = b then .false else .true

end Truth

/-- Three-valued logic. -/
def kleene : Interpretation Connective Truth where
  negate := Truth.not
  apply
    | .and => Truth.and
    | .or => Truth.or
    | .xor => Truth.xor

/-- Each connective is associative. -/
theorem kleene_regroups (op : Connective) : kleene.Regroups op op := by
  intro a b c
  cases op <;> cases a <;> cases b <;> cases c <;> rfl

namespace Logic

variable {α β : Type}

/-- What is pending before a condition: the chain of a connective, and negations. Inside a predicate
the `AND` of a range is pending too. -/
structure Pending (α : Type) where
  /-- The chain so far. -/
  chain : Option (Formula Connective α × Connective) := none
  /-- The number of negations. -/
  negations : Nat := 0
  /-- The number of ranges that lack their `AND`. -/
  ranges : Nat := 0

namespace Pending

/-- The chain that ends with a condition. -/
def whole (P : Pending α) (x : Formula Connective α) : Formula Connective α :=
  .under P.chain (x.negatedTimes P.negations)

/-- What is pending behind a condition and a connective. A chain has one connective only. -/
def close (P : Pending α) (op : Connective) (x : Formula Connective α) : Option (Pending α) :=
  if P.chain.all (·.2 = op) then some { chain := some (P.whole x, op) } else none

/-- What is pending with formulas in the places of atoms. -/
def bind (P : Pending α) (r : α → Formula Connective β) : Pending β where
  chain := P.chain.map fun left => (left.1.bind r, left.2)
  negations := P.negations
  ranges := P.ranges

/-- What is pending behind further negations. -/
def negate (P : Pending α) (n : Nat) : Pending α := { P with negations := P.negations + n }

end Pending

/-- What a tree is. `NOT` negates the condition to come unless that is begun, and the `AND` of a
range is a part of its predicate. -/
def kind (P : Pending Forest) (begun : Bool) : TokenTree → TreeKind Connective (Pending Forest)
  | .token (.word .NOT) => if begun then .part P else .sign (P.negate 1)
  | .token (.word .BETWEEN) => .part { P with ranges := P.ranges + 1 }
  | .token (.word .AND) =>
    if P.ranges = 0 then .operator .and else .part { P with ranges := P.ranges - 1 }
  | .token (.word .OR) => .operator .or
  | .token (.word .XOR) => .operator .xor
  | _ => .part P

/-- The grammar of conditions. -/
def grammar : Grammar Connective (Pending Forest) where
  start := {}
  kind := kind
  close := Pending.close
  whole := Pending.whole

end Logic

/-- The formula that tokens stand for as a condition. -/
def readCondition (ts : Tokens) : Option (Formula Connective Forest) :=
  Logic.grammar.readTokens ts

/-- The first `AND` belongs to the range. -/
example : (readCondition [.word .NOT, .ident "a", .word .BETWEEN, .ident "b", .word .AND, .ident "c",
      .word .AND, .ident "d"]) =
    some (.binary .and (.negated (.atom [.token (.ident "a"), .token (.word .BETWEEN),
      .token (.ident "b"), .token (.word .AND), .token (.ident "c")]))
      (.atom [.token (.ident "d")])) := rfl

namespace Logic

variable {α β : Type}

namespace Pending

variable {P : Pending α} {x y : Formula Connective α} {op : Connective}

theorem whole_bind (P : Pending α) (x : Formula Connective α) (r : α → Formula Connective β) :
    (P.bind r).whole (x.bind r) = (P.whole x).bind r := by
  rw [whole, whole, ← Formula.under_bind, Formula.bind_negatedTimes]
  rfl

theorem whole_same (P : Pending α) (h : x.Same kleene y) :
    (P.whole x).Same kleene (P.whole y) :=
  (h.negatedTimes P.negations).under _

theorem whole_negate (P : Pending α) (n : Nat) (x : Formula Connective α) :
    (P.negate n).whole x = P.whole (x.negatedTimes n) := by
  rw [whole, whole, Formula.negatedTimes_add, Nat.add_comm n]
  rfl

/-- The chain so far, if there is one, has the connective. -/
def Chains (P : Pending α) (op : Connective) : Prop := ∀ left ∈ P.chain, left.2 = op

/-- A chain can be read without parentheses behind what is pending. -/
def Admits (P : Pending α) (op : Connective) : Prop := P.negations = 0 ∧ P.Chains op

theorem close_eq (h : P.Chains op) (x : Formula Connective α) :
    P.close op x = some { chain := some (P.whole x, op) } := by
  refine if_pos ?_
  cases hchain : P.chain with
  | none => rfl
  | some left => exact decide_eq_true (h left hchain)

/-- A chain behind what admits it. -/
theorem Admits.whole (h : P.Admits op) (x y : Formula Connective α) :
    (Formula.binary op (P.whole x) y).Same kleene (P.whole (.binary op x y)) := by
  rw [Pending.whole, Pending.whole, h.1]
  refine .under_regroup (fun l hl => ?_) x y
  rw [h.2 l hl]
  exact kleene_regroups op

end Pending

/-! ## Predicates -/

end Logic

/-- The token is no connective, and no word of a range, query or row. -/
def Token.isMute : Token → Bool
  | .word .AND => false
  | .word .OR => false
  | .word .XOR => false
  | .word .BETWEEN => false
  | .mark .comma => false
  | t => !t.isQueryWord

namespace Logic

/-- The trees are read as one predicate under some negations, whatever is pending. -/
def ReadsLeaf (f : Forest) (n : Nat) (g : Forest) : Prop :=
  ∀ P : Pending Forest, ∃ trees,
    grammar.run ⟨P, .missing⟩ f = some ⟨P.negate n, .present trees (some (.atom g))⟩

section Leaf

variable {f g : Forest} {P : Pending Forest}

/-- A mute token inside a predicate is a part of it. -/
theorem kind_of_mute {tree : TokenTree} (h : ∀ t, tree = .token t → t.isMute = true)
    (P : Pending Forest) : grammar.kind P true tree = .part P := by
  cases tree with
  | group b inner => rfl
  | token t =>
    have ht := h t rfl
    cases t with
    | word k => cases k <;> first | rfl | cases ht
    | _ => rfl

/-- A mute token that does not negate begins a predicate. -/
theorem kind_head {tree : TokenTree}
    (h : ∀ t, tree = .token t → t.isMute = true ∧ t.negates = false) (P : Pending Forest) :
    grammar.kind P false tree = .part P := by
  cases tree with
  | group b inner => rfl
  | token t =>
    obtain ⟨hmute, hnot⟩ := h t rfl
    cases t with
    | word k =>
      cases k <;> (first | rfl | exact absurd hmute Bool.false_ne_true |
        exact absurd hnot.symm Bool.false_ne_true)
    | _ => rfl

/-- A forest is its leading negations and what is behind them. -/
theorem exists_negations (f : Forest) : ∃ n rest,
    f = List.replicate n (.token (.word .NOT)) ++ rest ∧
      ∀ t, rest.head? = some (.token t) → t.negates = false := by
  induction f with
  | nil => exact ⟨0, [], rfl, nofun⟩
  | cons tree f ih =>
    by_cases h : tree = .token (.word .NOT)
    · obtain ⟨n, rest, rfl, hrest⟩ := ih
      exact ⟨n + 1, rest, by rw [h]; rfl, hrest⟩
    · refine ⟨0, tree :: f, rfl, fun t ht => ?_⟩
      cases ht
      cases t with
      | word k => cases k <;> first | rfl | exact absurd rfl h
      | _ => rfl

theorem run_negations (P : Pending Forest) (n : Nat) (rest : Forest) :
    grammar.run ⟨P, .missing⟩ (List.replicate n (.token (.word .NOT)) ++ rest) =
      grammar.run ⟨P.negate n, .missing⟩ rest := by
  induction n generalizing P with
  | zero => rfl
  | succ n ih =>
    have hsign : grammar.kind P false (.token (.word .NOT)) = .sign (P.negate 1) := rfl
    rw [List.replicate_succ, List.cons_append, Grammar.run_sign hsign, ih]
    simp only [Pending.negate, Nat.add_assoc, Nat.add_comm 1]

/-- Mute trees of one operand that do not begin with a negation. -/
theorem run_mute (hf : f.Solid) (hmute : ∀ t, TokenTree.token t ∈ f → t.isMute = true)
    (hhead : ∀ t, f.head? = some (.token t) → t.negates = false) (P : Pending Forest) :
    grammar.run ⟨P, .missing⟩ f = some ⟨P, .present f (some (.atom f))⟩ := by
  refine Grammar.run_solid hf (fun tree htree => kind_head (fun t ht => ?_) P) fun tree htree =>
    kind_of_mute (fun t ht => hmute t (ht ▸ htree)) P
  cases ht
  exact ⟨hmute t (List.mem_of_mem_head? htree), hhead t htree⟩

/-- Mute trees that say more than `NOT`. -/
theorem ReadsLeaf.of_mute (hmute : ∀ t, TokenTree.token t ∈ f → t.isMute = true)
    (hmore : ∃ t, TokenTree.token t ∈ f ∧ t.negates = false) : ∃ n g, ReadsLeaf f n g := by
  obtain ⟨n, rest, rfl, hhead⟩ := exists_negations f
  obtain ⟨t, ht, hnot⟩ := hmore
  have hrest : TokenTree.token t ∈ rest := by
    rcases List.mem_append.mp ht with ht | ht
    · cases List.eq_of_mem_replicate ht
      cases hnot
    · exact ht
  refine ⟨n, rest, fun P => ⟨rest, ?_⟩⟩
  rw [run_negations]
  exact run_mute (Forest.solid_of_token hrest)
    (fun t ht => hmute t (List.mem_append_right _ ht)) hhead _

/-- Further mute trees of an atom. -/
theorem run_more {trees : Forest} (hmute : ∀ t, TokenTree.token t ∈ f → t.isMute = true) :
    grammar.run ⟨P, .present trees (some (.atom trees))⟩ f =
      some ⟨P, .present (trees ++ f) (some (.atom (trees ++ f)))⟩ := by
  by_cases hf : f = []
  · rw [hf, Grammar.run_nil, List.append_nil]
  · exact Grammar.run_parts hf fun tree htree =>
      kind_of_mute (fun t ht => hmute t (ht ▸ htree)) P

/-- The word of a range begins a predicate or is a part of it. -/
theorem run_between (hmute : ∀ t, TokenTree.token t ∈ f → t.isMute = true) : ∃ n trees,
    ∀ P : Pending Forest, grammar.run ⟨P, .missing⟩ (f ++ [.token (.word .BETWEEN)]) =
      some ⟨{ P.negate n with ranges := P.ranges + 1 }, .present trees (some (.atom trees))⟩ := by
  obtain ⟨n, rest, rfl, hhead⟩ := exists_negations f
  have hrest : ∀ t, TokenTree.token t ∈ rest → t.isMute = true :=
    fun t ht => hmute t (List.mem_append_right _ ht)
  refine ⟨n, rest ++ [.token (.word .BETWEEN)], fun P => ?_⟩
  rw [List.append_assoc, run_negations, Grammar.run_append]
  cases rest with
  | nil => rfl
  | cons tree rest =>
    have hbegun : ∃ x, grammar.run ⟨P.negate n, .missing⟩ (tree :: rest) =
        some ⟨P.negate n, .present (tree :: rest) x⟩ := by
      have hstep : grammar.step ⟨P.negate n, .missing⟩ tree (grammar.readTree tree) =
          some ⟨P.negate n, .present [tree] (grammar.readTree tree)⟩ := by
        refine Grammar.step_part (kind_head (fun t ht => ?_) _)
        cases ht
        exact ⟨hrest t (List.mem_cons_self ..), hhead t rfl⟩
      rw [Grammar.run_cons, hstep, Option.bind_some]
      cases rest with
      | nil => exact ⟨_, Grammar.run_nil _ _⟩
      | cons next rest =>
        exact ⟨_, Grammar.run_parts (List.cons_ne_nil _ _) fun tree htree => kind_of_mute
          (fun t ht => hrest t (List.mem_cons_of_mem _ (ht ▸ htree))) _⟩
    obtain ⟨x, hx⟩ := hbegun
    rw [hx]
    rfl

/-- Mute operands of a range. -/
theorem ReadsLeaf.of_between {low high : Forest}
    (hmute : ∀ t, TokenTree.token t ∈ f → t.isMute = true)
    (hlow : ∀ t, TokenTree.token t ∈ low → t.isMute = true)
    (hhigh : ∀ t, TokenTree.token t ∈ high → t.isMute = true) :
    ∃ n g, ReadsLeaf (f ++ .token (.word .BETWEEN) :: (low ++ .token (.word .AND) :: high)) n g := by
  -- The range is pending from its word to its `AND`, which therefore is no connective.
  obtain ⟨n, trees, hbetween⟩ := run_between hmute
  let all := trees ++ low ++ [.token (.word .AND)] ++ high
  refine ⟨n, all, fun P => ⟨all, ?_⟩⟩
  have hand : ∀ ts : Forest, grammar.run
      ⟨{ P.negate n with ranges := P.ranges + 1 }, .present ts (some (.atom ts))⟩
        [.token (.word .AND)] =
      some ⟨P.negate n, .present (ts ++ [.token (.word .AND)])
        (some (.atom (ts ++ [.token (.word .AND)])))⟩ := fun ts => rfl
  rw [List.append_cons f, Grammar.run_append, hbetween, Option.bind_some, Grammar.run_append,
    run_more hlow, Option.bind_some, ← List.singleton_append, Grammar.run_append, hand,
    Option.bind_some, run_more hhigh]

/-- Mute trees without negations, perhaps in parentheses. -/
inductive Plain : Forest → Prop where
  /-- One operand. -/
  | solid {f : Forest} (hf : f.Solid)
    (hmute : ∀ t, TokenTree.token t ∈ f → t.isMute = true ∧ t.negates = false) : Plain f
  /-- An operand in parentheses. -/
  | parens {f : Forest} (h : Plain f) : Plain [.group .round f]

theorem ReadsLeaf.of_plain (h : Plain f) : ∃ g, ReadsLeaf f 0 g := by
  induction h with
  | @solid f hf hmute =>
    exact ⟨f, fun P => ⟨f, run_mute hf (fun t ht => (hmute t ht).1)
      (fun t ht => (hmute t (List.mem_of_mem_head? ht)).2) P⟩⟩
  | @parens f h ih =>
    obtain ⟨g, hg⟩ := ih
    cases hclosed : Forest.isQueryOrRow f with
    | true =>
      have hsolid : Forest.Solid [.group .round f] := by
        refine ⟨List.cons_ne_nil _ _, fun inner heq => ?_⟩
        cases heq
        exact hclosed
      exact ⟨[.group .round f], fun P => ⟨_, run_mute hsolid (by simp) (by simp) P⟩⟩
    | false =>
      -- Between parentheses the operand is read from the start.
      obtain ⟨trees, hrun⟩ := hg grammar.start
      exact ⟨g, fun P => ⟨_, Grammar.run_parens hclosed (grammar.read_eq_of_run hrun) rfl⟩⟩

end Leaf

/-! ## Reading -/

/-- The trees stand for `x` wherever they are read and their connective, if they have one outside
their brackets, is admitted: with what is pending they come to the same truth as `x`, and a chain
that takes in both may go on. -/
def Reads (r : α → Formula Connective Forest) (f : Forest) (x : Formula Connective α)
    (op? : Option Connective) : Prop :=
  ∀ P : Pending α, P.ranges = 0 → (∀ op ∈ op?, P.Admits op) →
    ∃ (Q : Pending Forest) (trees : Forest) (z : Formula Connective Forest)
      (tree : Formula Connective α),
      grammar.run ⟨P.bind r, .missing⟩ f = some ⟨Q, .present trees (some z)⟩ ∧ Q.ranges = 0 ∧
      Q.whole z = tree.bind r ∧ tree.Same kleene (P.whole x) ∧
      ∀ op, P.Chains op → (∀ o ∈ op?, o = op) → Q.Chains op

section Reads

variable {r : α → Formula Connective Forest} {f g : Forest} {x y : Formula Connective α}
  {op : Connective} {op? left? right? : Option Connective}

theorem Pending.Chains.bind {P : Pending α} (h : P.Chains op) : (P.bind r).Chains op := by
  intro left hleft
  obtain ⟨l, hl, rfl⟩ := Option.map_eq_some_iff.mp hleft
  exact h l hl

theorem Reads.leaf {a : α} {n : Nat} (hf : ReadsLeaf f n g)
    (ha : r a = (Formula.atom g).negatedTimes n) : Reads r f (.atom a) none := by
  intro P hP _
  obtain ⟨trees, hrun⟩ := hf (P.bind r)
  refine ⟨(P.bind r).negate n, trees, .atom g, P.whole (.atom a), hrun, hP, ?_, .refl _,
    fun op h _ => h.bind⟩
  rw [Pending.whole_negate, ← ha, ← Pending.whole_bind]
  rfl

/-- What stands in parentheses is read by itself. -/
theorem Reads.parens (hf : Forest.isQueryOrRow f = false) (h : Reads r f x op?) :
    Reads r [.group .round f] x none := by
  obtain ⟨Q, trees, z, tree, hrun, -, hwhole, hsame, -⟩ :=
    h {} rfl fun op _ => ⟨rfl, nofun⟩
  have hread : grammar.read f = some (tree.bind r) := by
    rw [← hwhole]
    exact grammar.read_eq_of_run hrun
  intro P hP _
  exact ⟨P.bind r, [.group .round f], tree.bind r, P.whole tree, Grammar.run_parens hf hread rfl, hP,
    P.whole_bind tree r, P.whole_same hsame, fun op h _ => h.bind⟩

theorem Reads.negated (h : Reads r f x none) :
    Reads r (.token (.word .NOT) :: f) (.negated x) none := by
  intro P hP _
  obtain ⟨Q, trees, z, tree, hrun, hQ, hwhole, hsame, hchains⟩ := h (P.negate 1) hP nofun
  have hsign : grammar.kind (P.bind r) false (.token (.word .NOT)) =
      .sign ((P.negate 1).bind r) := rfl
  refine ⟨Q, trees, z, tree, ?_, hQ, hwhole, ?_, hchains⟩
  · rw [Grammar.run_sign hsign]
    exact hrun
  · rw [Pending.whole_negate] at hsame
    exact hsame

/-- A chain is read from the left. Its left condition may come out as part of what was pending, and
its right condition may be pulled apart, but neither changes the truth. -/
theorem Reads.combined (hx : Reads r f x left?) (hy : Reads r g y right?)
    (hleft : ∀ o ∈ left?, o = op) (hright : ∀ o ∈ right?, o = op) :
    Reads r (f ++ .token (.word op.keyword) :: g) (.binary op x y) (some op) := by
  intro P hP hadmits
  have hop := hadmits op rfl
  obtain ⟨Q, trees, z, tree, hrunx, hQ, hwholex, hsamex, hchainsx⟩ :=
    hx P hP fun o ho => hleft o ho ▸ hop
  -- What was read so far becomes the pending chain of the right condition.
  let P' : Pending α := { chain := some (tree, op) }
  have hchain : P'.Chains op := fun l hl => by cases hl; rfl
  obtain ⟨R, trees', z', tree', hruny, hR, hwholey, hsamey, hchainsy⟩ :=
    hy P' rfl fun o ho => hright o ho ▸ ⟨rfl, hchain⟩
  have hkind : grammar.kind Q true (.token (.word op.keyword)) = .operator op := by
    cases op with
    | and => exact if_pos hQ
    | or => rfl
    | xor => rfl
  have hclose : grammar.close Q op z = some (P'.bind r) := by
    refine (Pending.close_eq (hchainsx op hop.2 hleft) z).trans ?_
    rw [hwholex]
    rfl
  refine ⟨R, trees', z', tree', ?_, hR, hwholey, ?_, fun op' h h' => ?_⟩
  · rw [Grammar.run_append, hrunx, Option.bind_some, Grammar.run_operator hkind hclose, hruny]
  · have hpending : P'.whole y = .binary op tree y := rfl
    rw [hpending] at hsamey
    exact (hsamey.trans (.binary op hsamex (.refl y))).trans (hop.whole x y)
  · cases h' op rfl
    exact hchainsy op hchain hright

end Reads

/-- The tokens have trees that stand for `x`. -/
abbrev ReadsAs (r : α → Formula Connective Forest) (x : Formula Connective α)
    (op? : Option Connective) (ts : Tokens) : Prop :=
  ReadBy (fun f => Reads r f x op?) ts

namespace ReadsAs

variable {r : α → Formula Connective Forest} {x y : Formula Connective α}
  {op? left? right? : Option Connective} {ts us : Tokens}

/-- What is read of tokens by themselves has the same truth. -/
theorem read (h : ReadsAs r x op? ts) :
    ∃ tree : Formula Connective α, readCondition ts = some (tree.bind r) ∧
      tree.Same kleene x := by
  obtain ⟨f, hf, -, h⟩ := h
  obtain ⟨Q, trees, z, tree, hrun, -, hwhole, hsame, -⟩ :=
    h {} rfl fun op _ => ⟨rfl, nofun⟩
  refine ⟨tree, ?_, hsame⟩
  rw [readCondition, Grammar.readTokens_of_forms _ hf, ← hwhole]
  exact grammar.read_eq_of_run hrun

theorem parensIf (wrap : Bool) (h : ReadsAs r x op? ts) :
    ReadsAs r x (if wrap then none else op?) (Tokens.parensIf wrap ts) :=
  ReadBy.parensIf (R := fun op? f => Reads r f x op?) (fun _ => Reads.parens) wrap h

theorem negated (h : ReadsAs r x none ts) :
    ReadsAs r (.negated x) none (.word .NOT :: .space :: ts) :=
  h.signed (Forms.plain rfl Forms.nil.blank) ⟨rfl, nofun⟩ fun _ hf => hf.negated

theorem combined {op : Connective} (hx : ReadsAs r x left? ts) (hy : ReadsAs r y right? us)
    (hleft : ∀ o ∈ left?, o = op) (hright : ∀ o ∈ right?, o = op) :
    ReadsAs r (.binary op x y) (some op) (ts ++ spaced (.word op.keyword) ++ us) := by
  have hop : (Token.word op.keyword).InExpression := by cases op <;> exact ⟨rfl, nofun⟩
  rw [List.append_assoc]
  exact hx.joined (Forms.blank (.plain op.role_keyword Forms.nil.blank)) hop
    (fun _ _ hf hg => hf.combined hg hleft hright) hy

end ReadsAs

end Logic

end SqlScribe
