import Mathlib.Data.List.SplitBy
import SqlScribe.Proofs.Reading.Condition
/-! # Chains of predicates

A predicate can be the left operand of another one: `a->b = c` asks whether a member of `a` is `c`.
Its tokens are an operand and, behind it, symbols of predicates with operands between them. They
fall into the predicates in one way only, which takes them in from the left.

* `Forest.pieces`: the operand that trees begin with, and the symbols with the trees behind them.
* `Forest.steps`: the symbols, those of each predicate together.
* `Logic.Balanced`, `Logic.ReadsLeaf.of_balanced`: with its ranges complete, a chain is read as one
  predicate. -/

namespace SqlScribe

open Tokens

/-- The token is a symbol of a predicate that stands behind its left operand. -/
def Token.isSymbol : Token → Bool
  | .mark .eq => true
  | .mark .ne => true
  | .mark .lt => true
  | .mark .gt => true
  | .mark .le => true
  | .mark .ge => true
  | .operator _ => true
  | .word .NOT => true
  | .word .LIKE => true
  | .word .ESCAPE => true
  | .word .IS => true
  | .word .IN => true
  | .word .BETWEEN => true
  | .word .AND => true
  | _ => false

/-- The symbol stands before a further operand of its predicate. -/
def Token.isFurther : Token → Bool
  | .word .AND => true
  | .word .ESCAPE => true
  | _ => false

/-- The token stands in an operand, outside its brackets. -/
def Token.InOperand (t : Token) : Prop :=
  t.inAtom = true ∨ ∃ op : ArithmeticOp, t = .mark op.mark

namespace Token.InOperand

variable {t : Token}

theorem isSymbol (h : t.InOperand) : t.isSymbol = false := by
  rcases h with h | ⟨op, rfl⟩
  · cases t with
    | word k => cases k <;> first | rfl | exact absurd h Bool.false_ne_true
    | mark m => cases m <;> first | rfl | exact absurd h Bool.false_ne_true
    | operator symbol => exact absurd h Bool.false_ne_true
    | _ => rfl
  · cases op <;> rfl

theorem quiet (h : t.InOperand) : t.Quiet := by
  rcases h with h | ⟨op, rfl⟩
  · exact .of_inAtom h
  · exact op.quiet_mark

end Token.InOperand

namespace Forest

/-- A symbol of a predicate and the trees behind it. -/
abbrev Piece := Token × Forest

/-- The trees before the first symbol, and each symbol with the trees behind it. -/
def pieces : Forest → Forest × List Piece
  | [] => ([], [])
  | .token t :: f =>
    if t.isSymbol then ([], (t, (pieces f).1) :: (pieces f).2)
    else (.token t :: (pieces f).1, (pieces f).2)
  | .group b inner :: f => (.group b inner :: (pieces f).1, (pieces f).2)

/-- The trees of pieces. -/
def ofPieces (ps : List Piece) : Forest := ps.flatMap fun p => .token p.1 :: p.2

theorem ofPieces_append (ps qs : List Piece) : ofPieces (ps ++ qs) = ofPieces ps ++ ofPieces qs :=
  List.flatMap_append

theorem ofPieces_singleton (p : Piece) : ofPieces [p] = .token p.1 :: p.2 := by
  rw [ofPieces, List.flatMap_singleton]

/-- A piece belongs to the predicate of the piece before it: nothing stands between their symbols,
or its symbol stands before a further operand. -/
def continues (p q : Piece) : Bool := p.2.isEmpty || q.1.isFurther

/-- The pieces behind the first operand, those of each predicate together. -/
def steps (f : Forest) : List (List Piece) := (pieces f).2.splitBy continues

/-- Outside their brackets the trees show no symbol of a predicate. -/
def Unmarked (f : Forest) : Prop := ∀ t, TokenTree.token t ∈ f → t.isSymbol = false

/-- The trees are one operand, and outside their brackets stand only tokens of operands. -/
structure IsOperand (f : Forest) : Prop where
  solid : Solid f
  tokens : ∀ t, TokenTree.token t ∈ f → t.InOperand

namespace IsOperand

variable {f : Forest}

theorem ne_nil (h : f.IsOperand) : f ≠ [] := h.solid.1

theorem unmarked (h : f.IsOperand) : Unmarked f := fun t ht => (h.tokens t ht).isSymbol

theorem mute (h : f.IsOperand) : ∀ t, TokenTree.token t ∈ f → t.isMute = true :=
  fun t ht => (h.tokens t ht).quiet.1

end IsOperand

theorem Unmarked.of_cons {tree : TokenTree} {f : Forest} (h : Unmarked (tree :: f)) : Unmarked f :=
  fun t ht => h t (List.mem_cons_of_mem _ ht)

theorem pieces_append {f : Forest} (hf : Unmarked f) (g : Forest) :
    pieces (f ++ g) = (f ++ (pieces g).1, (pieces g).2) := by
  induction f with
  | nil => rfl
  | cons tree f ih =>
    rw [List.cons_append]
    cases tree with
    | group b inner => rw [pieces, ih hf.of_cons, List.cons_append]
    | token t =>
      have ht : t.isSymbol = false := hf t List.mem_cons_self
      rw [pieces, ht, if_neg Bool.false_ne_true, ih hf.of_cons, List.cons_append]

theorem pieces_of_unmarked {f : Forest} (hf : Unmarked f) : pieces f = (f, []) := by
  have happend := pieces_append hf []
  rwa [List.append_nil, pieces, List.append_nil] at happend

/-- The pieces have symbols, and show no others. -/
def Cut (ps : List Piece) : Prop := ∀ p ∈ ps, p.1.isSymbol = true ∧ Unmarked p.2

theorem pieces_ofPieces {ps : List Piece} (h : Cut ps) : pieces (ofPieces ps) = ([], ps) := by
  induction ps with
  | nil => rfl
  | cons p ps ih =>
    obtain ⟨⟨hsymbol, hbehind⟩, hps⟩ := List.forall_mem_cons.mp h
    rw [ofPieces, List.flatMap_cons, List.cons_append, pieces, hsymbol, if_pos rfl,
      pieces_append hbehind, ← ofPieces, ih hps, List.append_nil]

/-- Pieces behind other trees. -/
theorem pieces_append_ofPieces (f : Forest) {ps : List Piece} (h : Cut ps) :
    pieces (f ++ ofPieces ps) = ((pieces f).1, (pieces f).2 ++ ps) := by
  induction f with
  | nil => exact pieces_ofPieces h
  | cons tree f ih =>
    rw [List.cons_append]
    cases tree with
    | group b inner => rw [pieces, pieces, ih]
    | token t =>
      rw [pieces, pieces, ih]
      split <;> rfl

/-- The pieces of one predicate: each belongs to that of the one before it, and the first does not
belong to a predicate that is complete. -/
structure IsStep (ps : List Piece) : Prop where
  cut : Cut ps
  ne_nil : ps ≠ []
  linked : ps.IsChain fun p q => continues p q = true
  begins : ∀ p ∈ ps.head?, p.1.isFurther = false
  complete : ∀ p ∈ ps.getLast?, p.2 ≠ []

/-- Behind what is complete a predicate is a step of its own. -/
theorem steps_append {f : Forest} {ps : List Piece} (hf : ∀ p ∈ (pieces f).2.getLast?, p.2 ≠ [])
    (h : IsStep ps) : steps (f ++ ofPieces ps) = steps f ++ [ps] := by
  have hseparate : ∀ p ∈ (pieces f).2.getLast?, ∀ q ∈ ps.head?, continues p q = false := by
    intro p hp q hq
    rw [continues, h.begins q hq, List.isEmpty_eq_false_iff.mpr (hf p hp)]
    rfl
  rw [steps, pieces_append_ofPieces f h.cut, List.splitBy_append hseparate,
    List.splitBy_of_isChain h.ne_nil h.linked, ← steps]

namespace IsStep

variable {ps : List Piece} {t : Token} {f : Forest}

/-- A symbol with one operand. -/
theorem single (ht : t.isSymbol = true) (hfurther : t.isFurther = false) (hne : f ≠ [])
    (hf : Unmarked f) : IsStep [(t, f)] where
  cut := List.forall_mem_singleton.mpr ⟨ht, hf⟩
  ne_nil := List.cons_ne_nil _ _
  linked := .singleton _
  begins p hp := by
    cases hp
    exact hfurther
  complete p hp := by
    cases hp
    exact hne

/-- A symbol of its own before others of a predicate. -/
theorem cons (ht : t.isSymbol = true) (hfurther : t.isFurther = false) (h : IsStep ps) :
    IsStep ((t, []) :: ps) where
  cut := List.forall_mem_cons.mpr ⟨⟨ht, nofun⟩, h.cut⟩
  ne_nil := List.cons_ne_nil _ _
  linked := List.isChain_cons.mpr ⟨fun _ _ => rfl, h.linked⟩
  begins p hp := by
    cases hp
    exact hfurther
  complete p hp := by
    refine h.complete p ?_
    rwa [← List.singleton_append, List.getLast?_append_of_ne_nil _ h.ne_nil] at hp

/-- A further operand of a predicate. -/
theorem concat (h : IsStep ps) (ht : t.isSymbol = true) (hfurther : t.isFurther = true)
    (hne : f ≠ []) (hf : Unmarked f) : IsStep (ps ++ [(t, f)]) where
  cut p hp := by
    rcases List.mem_append.mp hp with hp | hp
    · exact h.cut p hp
    · cases List.mem_singleton.mp hp
      exact ⟨ht, hf⟩
  ne_nil := List.append_ne_nil_of_left_ne_nil h.ne_nil _
  linked := by
    refine h.linked.append (.singleton _) fun p _ q hq => ?_
    cases hq
    exact Bool.or_eq_true_iff.mpr (.inr hfurther)
  begins p hp := by
    rw [List.head?_append_of_ne_nil _ h.ne_nil] at hp
    exact h.begins p hp
  complete p hp := by
    rw [List.getLast?_append_of_ne_nil _ (List.cons_ne_nil _ _)] at hp
    cases hp
    exact hne

end IsStep

end Forest

namespace Logic

/-- The trees are mute but for ranges, each with its `AND`. -/
inductive Balanced : Forest → Prop where
  /-- No trees. -/
  | nil : Balanced []
  /-- A tree that is mute. -/
  | cons {tree : TokenTree} {f : Forest} (h : ∀ t, tree = .token t → t.isMute = true)
    (hf : Balanced f) : Balanced (tree :: f)
  /-- A range up to its `AND`. -/
  | range {low f : Forest} (hlow : ∀ t, TokenTree.token t ∈ low → t.isMute = true)
    (hf : Balanced f) : Balanced (.token (.word .BETWEEN) :: (low ++ .token (.word .AND) :: f))

namespace Balanced

variable {f g : Forest}

theorem of_mute (h : ∀ t, TokenTree.token t ∈ f → t.isMute = true) : Balanced f := by
  induction f with
  | nil => exact .nil
  | cons tree f ih =>
    refine .cons (fun t ht => h t (ht ▸ List.mem_cons_self)) ?_
    exact ih fun t ht => h t (List.mem_cons_of_mem _ ht)

theorem append (hf : Balanced f) (hg : Balanced g) : Balanced (f ++ g) := by
  induction hf with
  | nil => exact hg
  | cons h _ ih => exact .cons h ih
  | range hlow _ ih =>
    rw [List.cons_append, List.append_assoc]
    exact .range hlow ih

theorem expresses (h : Balanced f) : ∀ t, TokenTree.token t ∈ f → t.InExpression := by
  induction h with
  | nil => exact nofun
  | cons h _ ih =>
    intro t ht
    rcases List.mem_cons.mp ht with ht | ht
    · exact .of_isMute (h t ht.symm)
    · exact ih t ht
  | range hlow _ ih =>
    intro t ht
    rcases List.mem_cons.mp ht with ht | ht
    · cases ht
      exact ⟨rfl, nofun⟩
    · rcases List.mem_append.mp ht with ht | ht
      · exact .of_isMute (hlow t ht)
      · rcases List.mem_cons.mp ht with ht | ht
        · cases ht
          exact ⟨rfl, nofun⟩
        · exact ih t ht

/-- Balanced trees behind others of a predicate belong to it, and leave nothing pending. -/
theorem run (h : Balanced f) (hne : f ≠ []) (P : Pending Forest) (trees : Forest)
    (x : Option (Formula Connective Forest)) :
    grammar.run ⟨P, .present trees x⟩ f =
      some ⟨P, .present (trees ++ f) (some (.atom (trees ++ f)))⟩ := by
  -- Each tree goes to the end of the predicate, so the trees before are general in the induction.
  induction h generalizing trees x with
  | nil => exact absurd rfl hne
  | @cons tree f h hf ih =>
    have hstep : grammar.step ⟨P, .present trees x⟩ tree (grammar.readTree tree) =
        some ⟨P, .present (trees ++ [tree]) (some (.atom (trees ++ [tree])))⟩ :=
      Grammar.step_part (kind_of_mute h P)
    rw [Grammar.run_cons, hstep, Option.bind_some]
    by_cases hnil : f = []
    · rw [hnil, Grammar.run_nil]
    · rw [ih hnil, List.append_assoc, List.singleton_append]
  | @range low f hlow hf ih =>
    -- The range is pending up to its `AND`, which therefore is no connective.
    have hbetween : grammar.run ⟨P, .present trees x⟩ [.token (.word .BETWEEN)] =
        some ⟨{ P with ranges := P.ranges + 1 }, .present (trees ++ [.token (.word .BETWEEN)])
          (some (.atom (trees ++ [.token (.word .BETWEEN)])))⟩ := rfl
    have hand : ∀ ts : Forest, grammar.run
        ⟨{ P with ranges := P.ranges + 1 }, .present ts (some (.atom ts))⟩
          [.token (.word .AND)] =
        some ⟨P, .present (ts ++ [.token (.word .AND)])
          (some (.atom (ts ++ [.token (.word .AND)])))⟩ := fun ts => rfl
    have hsplit : TokenTree.token (.word .BETWEEN) :: (low ++ .token (.word .AND) :: f) =
        [.token (.word .BETWEEN)] ++ (low ++ ([.token (.word .AND)] ++ f)) := rfl
    rw [hsplit, Grammar.run_append, hbetween, Option.bind_some, Grammar.run_append, run_more hlow,
      Option.bind_some, Grammar.run_append, hand, Option.bind_some]
    by_cases hnil : f = []
    · rw [hnil, Grammar.run_nil]
      simp only [List.append_assoc, List.append_nil]
    · rw [ih hnil]
      simp only [List.append_assoc]

end Balanced

/-- A predicate that begins with an operand and goes on with balanced trees. -/
theorem ReadsLeaf.of_balanced {tree : TokenTree} {f : Forest}
    (hhead : ∀ t, tree = .token t → t.Quiet) (hf : Balanced f)
    (hsolid : Forest.Solid (tree :: f)) : ReadsLeaf (tree :: f) 0 (tree :: f) := by
  intro P
  have hstep : grammar.step ⟨P, .missing⟩ tree (grammar.readTree tree) =
      some ⟨P, .present [tree] (grammar.readTree tree)⟩ := Grammar.step_part (kind_head hhead P)
  refine ⟨tree :: f, ?_⟩
  rw [Grammar.run_cons, hstep, Option.bind_some]
  by_cases hnil : f = []
  · subst hnil
    rw [Grammar.run_nil, Grammar.readTree_of_solid hsolid]
    rfl
  · rw [hf.run hnil]
    rfl

end Logic

end SqlScribe
