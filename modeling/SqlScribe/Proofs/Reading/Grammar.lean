import SqlScribe.Proofs.Nesting.Statement
import SqlScribe.Proofs.Reading.Formula
/-! # Reading formulas from token trees

A grammar with prefix signs and infix operators reads formulas from left to right. Trees that are
neither signs nor operators make up operands; a pair of parentheses that is a whole operand is read
by itself, unless it holds a query or a row.

* `Grammar.run`, `Grammar.readTree`: the reader, one step for each tree.
* `Grammar.read`: the formula of a whole forest; its atoms are the forests of the operands.
* `Grammar.run_solid`, `Grammar.run_parens`: what becomes of an operand without parentheses of its
  own, and of one in parentheses.
* `Tokens.ReadBy`: tokens that are read as an expression; parentheses, signs and operators. -/

namespace SqlScribe

namespace Forest

/-- The trees are those of a query or set operation: outside brackets stands a word of a
statement. -/
def isQuery (f : Forest) : Bool := f.any fun
  | .token t => t.isQueryWord
  | .group _ _ => false

/-- The trees are those of a row: there are none, or outside brackets stands a comma. -/
def isRow (f : Forest) : Bool := f.isEmpty || f.any fun
  | .token (.mark .comma) => true
  | _ => false

/-- Between parentheses the trees are an operand as a whole. -/
def isQueryOrRow (f : Forest) : Bool := f.isQuery || f.isRow

/-- There are trees, and not just one pair of parentheses around something that is read by
itself. -/
def Solid (f : Forest) : Prop := f ≠ [] ∧ ∀ inner, f = [.group .round inner] → isQueryOrRow inner

/-- A forest with a token outside its brackets is solid. -/
theorem solid_of_token {f : Forest} {t : Token} (h : TokenTree.token t ∈ f) : Solid f := by
  refine ⟨List.ne_nil_of_mem h, ?_⟩
  rintro inner rfl
  cases List.mem_singleton.mp h

end Forest

/-- The token is no word of a statement and no comma. -/
def Token.InExpression (t : Token) : Prop := t.isQueryWord = false ∧ t ≠ .mark .comma

namespace Forest

/-- The trees are those of an expression: there are some, and outside their brackets stand only
tokens of expressions. -/
structure Expresses (f : Forest) : Prop where
  ne_nil : f ≠ []
  tokens : ∀ t, TokenTree.token t ∈ f → t.InExpression

/-- Trees that show no word of a statement are not those of a query. -/
theorem isQuery_eq_false {f : Forest}
    (h : ∀ t, TokenTree.token t ∈ f → t.isQueryWord = false) : isQuery f = false := by
  refine List.any_eq_false.mpr fun tree htree => ?_
  cases tree with
  | token t => simpa using h t htree
  | group b inner => simp

namespace Expresses

variable {f g : Forest} {t : Token}

theorem group (b : Bracket) (f : Forest) : Expresses [.group b f] :=
  ⟨List.cons_ne_nil _ _, by simp⟩

/-- A token of expressions between trees that show no others. -/
theorem infixed (hf : ∀ u, TokenTree.token u ∈ f → u.InExpression) (ht : t.InExpression)
    (hg : ∀ u, TokenTree.token u ∈ g → u.InExpression) : Expresses (f ++ .token t :: g) := by
  refine ⟨by simp, fun u hu => ?_⟩
  rcases List.mem_append.mp hu with hu | hu
  · exact hf u hu
  · rcases List.mem_cons.mp hu with hu | hu
    · cases hu
      exact ht
    · exact hg u hu

/-- The trees of an expression are not those of a query or row. -/
theorem isQueryOrRow_eq_false (hf : f.Expresses) : isQueryOrRow f = false := by
  have hquery : isQuery f = false := isQuery_eq_false fun t ht => (hf.tokens t ht).1
  have hrow : isRow f = false := by
    refine Bool.or_eq_false_iff.mpr ⟨by simpa using hf.ne_nil, List.any_eq_false.mpr ?_⟩
    intro tree htree
    split
    · exact absurd rfl (hf.tokens _ htree).2
    · simp
  rw [isQueryOrRow, hquery, hrow]
  rfl

end Expresses

end Forest

/-- The operand that is being read: its trees and the formula they stand for, if they have one. -/
inductive OpenOperand (Op : Type) where
  /-- There is none yet. -/
  | missing
  /-- There are trees. -/
  | present (trees : Forest) (reading : Option (Formula Op Forest))

namespace OpenOperand

variable {Op : Type}

/-- There are trees. -/
def begun : OpenOperand Op → Bool
  | .missing => false
  | .present _ _ => true

/-- The formula that the trees stand for. -/
def reading : OpenOperand Op → Option (Formula Op Forest)
  | .missing => none
  | .present _ x => x

/-- The operand with one more tree. A single tree stands for what it is read as by itself, several
of them for an atom. -/
def add (tree : TokenTree) (x : Option (Formula Op Forest)) : OpenOperand Op → OpenOperand Op
  | .missing => .present [tree] x
  | .present trees _ => .present (trees ++ [tree]) (some (.atom (trees ++ [tree])))

end OpenOperand

/-- What a tree is for the reader. -/
inductive TreeKind (Op π : Type) where
  /-- A sign before an operand, and what is pending behind it. -/
  | sign (p : π)
  /-- An operator. -/
  | operator (op : Op)
  /-- A part of an operand, and what is pending beside it. -/
  | part (p : π)

/-- A grammar whose readers keep what is pending, that is what was read before the operand at
hand. -/
structure Grammar (Op π : Type) where
  /-- Nothing was read. -/
  start : π
  /-- What a tree is where an operand is or is not begun. -/
  kind : π → Bool → TokenTree → TreeKind Op π
  /-- What is pending behind an operand and an operator. -/
  close : π → Op → Formula Op Forest → Option π
  /-- The formula of all that was read. -/
  whole : π → Formula Op Forest → Formula Op Forest

namespace Grammar

variable {Op π : Type}

/-- A reader: what is pending, and the operand at hand. -/
structure Reader (Op π : Type) where
  /-- What is pending. -/
  pending : π
  /-- The operand at hand. -/
  operand : OpenOperand Op := .missing

/-- Reads a tree that by itself is read as `x`. -/
def step (g : Grammar Op π) (r : Reader Op π) (tree : TokenTree)
    (x : Option (Formula Op Forest)) : Option (Reader Op π) :=
  match g.kind r.pending r.operand.begun tree with
  | .sign p => if r.operand.begun then none else some { pending := p }
  | .operator op =>
    match r.operand.reading with
    | none => none
    | some y => (g.close r.pending op y).map fun p => { pending := p }
  | .part p => some { pending := p, operand := r.operand.add tree x }

/-- The formula of all that was read, if it ends with an operand. -/
def finish (g : Grammar Op π) (r : Reader Op π) : Option (Formula Op Forest) :=
  r.operand.reading.map (g.whole r.pending)

mutual

/-- The formula of a tree by itself. -/
def readTree (g : Grammar Op π) : TokenTree → Option (Formula Op Forest)
  | .token t => some (.atom [.token t])
  | .group b inner =>
    if b = .round ∧ Forest.isQueryOrRow inner = false then
      (run g { pending := g.start } inner).bind g.finish
    else some (.atom [.group b inner])

/-- Reads trees. -/
def run (g : Grammar Op π) (r : Reader Op π) : List TokenTree → Option (Reader Op π)
  | [] => some r
  | tree :: trees =>
    match g.step r tree (readTree g tree) with
    | none => none
    | some r => run g r trees

end

/-- The formula of a forest. -/
def read (g : Grammar Op π) (f : Forest) : Option (Formula Op Forest) :=
  (g.run { pending := g.start } f).bind g.finish

/-- The formula of tokens. -/
def readTokens (g : Grammar Op π) (ts : Tokens) : Option (Formula Op Forest) :=
  ts.forest?.bind g.read

variable (g : Grammar Op π)

theorem readTokens_of_forms {ts : Tokens} {f : Forest} (h : Tokens.Forms ts f) :
    g.readTokens ts = g.read f := by
  rw [readTokens, h.forest?_eq, Option.bind_some]

@[simp] theorem run_nil (r : Reader Op π) : g.run r [] = some r := by rw [run]

theorem run_cons (r : Reader Op π) (tree : TokenTree) (trees : Forest) :
    g.run r (tree :: trees) = (g.step r tree (g.readTree tree)).bind (g.run · trees) := by
  rw [run]
  cases g.step r tree (g.readTree tree) <;> rfl

theorem run_append (r : Reader Op π) (f f' : Forest) :
    g.run r (f ++ f') = (g.run r f).bind (g.run · f') := by
  induction f generalizing r with
  | nil => rw [List.nil_append, run_nil, Option.bind_some]
  | cons tree trees ih =>
    rw [List.cons_append, run_cons, run_cons, Option.bind_assoc]
    congr 1
    funext r'
    exact ih r'

theorem read_eq_of_run {f : Forest} {p : π} {trees : Forest} {x : Formula Op Forest}
    (h : g.run { pending := g.start } f = some ⟨p, .present trees (some x)⟩) :
    g.read f = some (g.whole p x) := by
  rw [read, h]
  rfl

/-! ## Operands -/

section Operand

variable {g} {p p' : π}

/-- One more part of an operand. -/
theorem step_part {r : Reader Op π} {tree : TokenTree}
    (h : g.kind r.pending r.operand.begun tree = .part p) :
    g.step r tree (g.readTree tree) = some ⟨p, r.operand.add tree (g.readTree tree)⟩ := by
  rw [step, h]

/-- What a step does: it takes in a sign, an operator behind an operand, or a part. -/
theorem step_cases {r r' : Reader Op π} {tree : TokenTree} {x : Option (Formula Op Forest)}
    (h : g.step r tree x = some r') :
    (∃ p, g.kind r.pending r.operand.begun tree = .sign p ∧ r' = ⟨p, .missing⟩) ∨
    (∃ op y p, g.kind r.pending r.operand.begun tree = .operator op ∧
      g.close r.pending op y = some p ∧ r' = ⟨p, .missing⟩) ∨
    ∃ p, g.kind r.pending r.operand.begun tree = .part p ∧ r' = ⟨p, r.operand.add tree x⟩ := by
  unfold step at h
  split at h
  · next p hp =>
    split at h
    · cases h
    · exact .inl ⟨p, hp, (Option.some.inj h).symm⟩
  · next op hop =>
    split at h
    · cases h
    · next y hy =>
      obtain ⟨p, hclose, rfl⟩ := Option.map_eq_some_iff.mp h
      exact .inr (.inl ⟨op, y, p, hop, hclose, rfl⟩)
  · next p hp => exact .inr (.inr ⟨p, hp, (Option.some.inj h).symm⟩)

/-- Further parts make the operand an atom. -/
theorem run_parts {f trees : Forest} {x : Option (Formula Op Forest)} (hf : f ≠ [])
    (h : ∀ tree ∈ f, g.kind p true tree = .part p) :
    g.run ⟨p, .present trees x⟩ f =
      some ⟨p, .present (trees ++ f) (some (.atom (trees ++ f)))⟩ := by
  -- Each part goes to the end of the operand, so the operand is general in the induction.
  induction f generalizing trees x with
  | nil => exact absurd rfl hf
  | cons tree f ih =>
    have hstep : g.step ⟨p, .present trees x⟩ tree (g.readTree tree) =
        some ⟨p, .present (trees ++ [tree]) (some (.atom (trees ++ [tree])))⟩ :=
      step_part (h tree (List.mem_cons_self ..))
    rw [run_cons, hstep, Option.bind_some]
    cases f with
    | nil => rw [run_nil]
    | cons next f =>
      rw [ih (List.cons_ne_nil _ _) fun t ht => h t (List.mem_cons_of_mem _ ht), List.append_assoc,
        List.singleton_append]

/-- A single tree is an atom by itself unless it is a pair of parentheses that is read. -/
theorem readTree_of_solid {tree : TokenTree} (h : Forest.Solid [tree]) :
    g.readTree tree = some (.atom [tree]) := by
  cases tree with
  | token t => rw [readTree]
  | group b inner =>
    rw [readTree]
    -- Parentheses that are read by themselves are not solid.
    refine if_neg ?_
    rintro ⟨rfl, hinner⟩
    rw [h.2 inner rfl] at hinner
    cases hinner

/-- A solid forest of parts is an atom. -/
theorem run_solid {f : Forest} (hf : f.Solid)
    (hhead : ∀ tree, f.head? = some tree → g.kind p false tree = .part p)
    (h : ∀ tree ∈ f, g.kind p true tree = .part p) :
    g.run ⟨p, .missing⟩ f = some ⟨p, .present f (some (.atom f))⟩ := by
  cases f with
  | nil => exact absurd rfl hf.1
  | cons tree f =>
    have hstep : g.step ⟨p, .missing⟩ tree (g.readTree tree) =
        some ⟨p, .present [tree] (g.readTree tree)⟩ := step_part (hhead tree rfl)
    rw [run_cons, hstep, Option.bind_some]
    cases f with
    | nil => rw [run_nil, readTree_of_solid hf]
    | cons next f =>
      exact run_parts (List.cons_ne_nil _ _) fun t ht => h t (List.mem_cons_of_mem _ ht)

/-- A pair of parentheses stands for what is read between them. -/
theorem run_parens {f : Forest} {x : Formula Op Forest} (hf : Forest.isQueryOrRow f = false)
    (hx : g.read f = some x)
    (h : g.kind p false (.group .round f) = .part p) :
    g.run ⟨p, .missing⟩ [.group .round f] =
      some ⟨p, .present [.group .round f] (some x)⟩ := by
  have htree : g.readTree (.group .round f) = some x := by
    rw [readTree, if_pos ⟨rfl, hf⟩]
    exact hx
  have hstep : g.step ⟨p, .missing⟩ (.group .round f) (g.readTree (.group .round f)) =
      some ⟨p, .present [.group .round f] (g.readTree (.group .round f))⟩ := step_part h
  rw [run_cons, hstep, Option.bind_some, run_nil, htree]

/-- An operator behind an operand. -/
theorem run_operator {op : Op} {t : Token} {trees f : Forest} {x : Formula Op Forest}
    (hkind : g.kind p true (.token t) = .operator op) (hclose : g.close p op x = some p') :
    g.run ⟨p, .present trees (some x)⟩ (.token t :: f) = g.run ⟨p', .missing⟩ f := by
  have hstep : g.step ⟨p, .present trees (some x)⟩ (.token t) (g.readTree (.token t)) =
      some ⟨p', .missing⟩ := by
    have hk : g.kind p (OpenOperand.present trees (some x)).begun (.token t) = .operator op := hkind
    rw [step, hk]
    show (g.close p op x).map _ = _
    rw [hclose]
    rfl
  rw [run_cons, hstep, Option.bind_some]

/-- A sign before an operand. -/
theorem run_sign {t : Token} {f : Forest} (hkind : g.kind p false (.token t) = .sign p') :
    g.run ⟨p, .missing⟩ (.token t :: f) = g.run ⟨p', .missing⟩ f := by
  have hstep : g.step ⟨p, .missing⟩ (.token t) (g.readTree (.token t)) = some ⟨p', .missing⟩ := by
    have hk : g.kind p (.missing : OpenOperand Op).begun (.token t) = .sign p' := hkind
    rw [step, hk]
    rfl
  rw [run_cons, hstep, Option.bind_some]

end Operand

end Grammar

/-! ## Tokens that are read -/

namespace Tokens

/-- The tokens have trees of an expression with a property. -/
def ReadBy (R : Forest → Prop) (ts : Tokens) : Prop := ∃ f, Forms ts f ∧ f.Expresses ∧ R f

namespace ReadBy

variable {Op : Type} {R R₁ R₂ : Forest → Prop} {ts us : Tokens} {t : Token}

/-- Parentheses hide an operator. -/
theorem parensIf {R : Option Op → Forest → Prop} {op? : Option Op}
    (hparens : ∀ f, Forest.isQueryOrRow f = false → R op? f → R none [.group .round f])
    (wrap : Bool) (h : ReadBy (R op?) ts) :
    ReadBy (R (if wrap then none else op?)) (Tokens.parensIf wrap ts) := by
  cases wrap with
  | false => exact h
  | true =>
    obtain ⟨f, hf, hexpr, h⟩ := h
    exact ⟨_, hf.parens, .group _ _, hparens f hexpr.isQueryOrRow_eq_false h⟩

/-- A sign before what is read. -/
theorem signed {sign : Tokens} (hsign : Forms sign [.token t]) (ht : t.InExpression)
    (hR : ∀ f, R₁ f → R (.token t :: f)) (h : ReadBy R₁ ts) : ReadBy R (sign ++ ts) := by
  obtain ⟨f, hf, hexpr, h⟩ := h
  exact ⟨_, hsign.append hf, .infixed (f := []) (by simp) ht hexpr.tokens, hR f h⟩

/-- An operator between what is read. -/
theorem joined {op : Tokens} (hop : Forms op [.token t]) (ht : t.InExpression)
    (hR : ∀ f g, R₁ f → R₂ g → R (f ++ .token t :: g)) (h₁ : ReadBy R₁ ts) (h₂ : ReadBy R₂ us) :
    ReadBy R (ts ++ (op ++ us)) := by
  obtain ⟨f, hf, hfexpr, h₁⟩ := h₁
  obtain ⟨g, hg, hgexpr, h₂⟩ := h₂
  exact ⟨_, hf.append (hop.append hg),
    .infixed hfexpr.tokens ht hgexpr.tokens, hR f g h₁ h₂⟩

/-- An operator that calls for parentheses is hidden by them. -/
theorem not_hidden {p : Op → Bool} {op? : Option Op} :
    ∀ o ∈ (if op?.any p then none else op?), p o = false := by
  intro o ho
  split at ho
  · cases ho
  · next h =>
    cases ho
    simpa using h

end ReadBy

end Tokens

end SqlScribe
