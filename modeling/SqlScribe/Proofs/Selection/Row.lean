import SqlScribe.Proofs.Reading.Meaning
import SqlScribe.Proofs.Reading.Precedence
/-! # Predicates on a row

A row has values, some of them null. What the truth of a predicate on a row is, its trees tell:
nothing is known to be equal to null or different from it, and null is known to be null.

* `Row`: a row with the values of operands, and what is known of other predicates.
* `Row.truth`: the truth of a predicate on a row, as told by its trees.
* `Tokens.IsWorth`, `Tokens.Judges`: operands of a value, and predicates of a truth.
* `Tokens.IsWorth.judges`: an operand and the pieces of a predicate behind it. -/

namespace SqlScribe

open Tokens

/-- The truth of what is known. -/
def Truth.ofBool (b : Bool) : Truth := if b then .true else .false

/-- A row of values. -/
structure Row (V : Type) where
  /-- The value of a literal. -/
  literal : Value → V
  /-- The value of an operand that is no literal; null is no value. -/
  operand : Forest → Option V
  /-- The values in the rows of a query. -/
  rows : Forest → List (Option V)
  /-- The values are equal. -/
  equal : V → V → Bool
  /-- The truth of a predicate that asks neither for equality, nor for membership, nor for null. -/
  predicate : Forest → Truth

namespace Row

variable {V : Type} (r : Row V)

/-- The value of an operand. -/
def value : Forest → Option V
  | [.token (.literal v)] => some (r.literal v)
  | [.token (.named _ v)] => some (r.literal v)
  | [.token (.word .NULL)] => none
  | f => r.operand f

/-- Whether values are equal. -/
def equality : Option V → Option V → Truth
  | some x, some y => .ofBool (r.equal x y)
  | _, _ => .unknown

/-- Whether a value is one of a list: it is equal to the first or to another one. -/
def membership (v : Option V) (vs : List (Option V)) : Truth :=
  (vs.map (r.equality v)).foldr Truth.or .false

/-- The values between the parentheses behind `IN`. -/
def members (inner : Forest) : List (Option V) :=
  if inner.isQuery then r.rows inner else (Forest.items inner).map r.value

/-- What is written for membership in an empty list has its truth without an operand. -/
def constant : Forest → Truth
  | [.token (.raw "1=1")] => .true
  | [.token (.raw "1=0")] => .false
  | f => r.predicate f

/-- The truth of the predicate `f`, which consists of an operand of this value and of pieces. -/
def truthOf (f : Forest) (v : Option V) : List Forest.Piece → Truth
  | [] => r.constant f
  | [(.mark .eq, right)] => r.equality v (r.value right)
  | [(.mark .ne, right)] => (r.equality v (r.value right)).not
  | [(.word .IS, [.token (.word .NULL)])] => .ofBool v.isNone
  | [(.word .IN, [.group .round inner])] => r.membership v (r.members inner)
  | [(.word .NOT, []), (.word .IN, [.group .round inner])] =>
    (r.membership v (r.members inner)).not
  | _ => r.predicate f

/-- The truth of a predicate. -/
def truth (f : Forest) : Truth := r.truthOf f (r.value f.pieces.1) f.pieces.2

theorem truth_append {left : Forest} (hleft : left.Unmarked) {ps : List Forest.Piece}
    (hps : Forest.Cut ps) : r.truth (left ++ Forest.ofPieces ps) =
      r.truthOf (left ++ Forest.ofPieces ps) (r.value left) ps := by
  rw [truth, Forest.pieces_append_ofPieces left hps, Forest.pieces_of_unmarked hleft,
    List.nil_append]

/-- What is null is not known to be equal to anything. -/
theorem equality_null (w : Option V) : r.equality none w = .unknown := rfl

/-- It is known whether values are equal. -/
theorem equality_ne_unknown {v w : Option V} (hv : v ≠ none) (hw : w ≠ none) :
    r.equality v w ≠ .unknown := by
  obtain ⟨x, rfl⟩ := Option.ne_none_iff_exists'.mp hv
  obtain ⟨y, rfl⟩ := Option.ne_none_iff_exists'.mp hw
  rw [equality]
  cases r.equal x y <;> nofun

end Row

/-! ## Operands and predicates -/

namespace Tokens

variable {V : Type} (r : Row V)

/-- The tokens are one operand of this value. -/
def IsWorth (v : Option V) (ts : Tokens) : Prop := ∃ f, Forms ts f ∧ f.IsOperand ∧ r.value f = v

/-- The tokens are read as one predicate of this truth. -/
def Judges (x : Truth) (ts : Tokens) : Prop := ∃ f, Forms ts f ∧ Logic.IsLeaf f ∧ r.truth f = x

variable {r} {v w : Option V} {ts us : Tokens}

theorem IsWorth.blank (h : IsWorth r v ts) : IsWorth r v (.space :: ts) :=
  h.imp fun _ ⟨hf, h⟩ => ⟨hf.blank, h⟩

/-- A left operand and the pieces of a predicate behind it. -/
theorem IsWorth.judges {ps : List Forest.Piece} (h : IsWorth r v ts)
    (hus : Forms us (Forest.ofPieces ps)) (hps : Forest.IsStep ps)
    (hmute : ∀ t, TokenTree.token t ∈ Forest.ofPieces ps → t.isMute = true) :
    ∃ f, Judges r (r.truthOf f v ps) (ts ++ us) := by
  obtain ⟨left, hleft, hoperand, rfl⟩ := h
  refine ⟨left ++ Forest.ofPieces ps, _, hleft.append hus, ?_,
    r.truth_append hoperand.unmarked hps.cut⟩
  -- The operand stands first, so that a `NOT` among the pieces negates no condition.
  obtain ⟨tree, rest, rfl⟩ := List.exists_cons_of_ne_nil hoperand.ne_nil
  obtain ⟨p, ps, rfl⟩ := List.exists_cons_of_ne_nil hps.ne_nil
  refine ⟨Forest.solid_of_token (t := p.1) (List.mem_append_right _ List.mem_cons_self),
    fun t ht => ?_, fun t ht => ?_⟩
  · exact (List.mem_append.mp ht).elim (hoperand.mute t) (hmute t)
  · cases ht
    exact (hoperand.tokens t List.mem_cons_self).quiet.2

/-- The symbol of a predicate and its right operand. -/
theorem IsWorth.judges_symbol {t : Token} {right : Forest} (h : IsWorth r v ts)
    (hus : Forms us (.token t :: right)) (ht : t.isSymbol = true) (hmute : t.isMute = true)
    (hfurther : t.isFurther = false) (hright : right.IsOperand) :
    ∃ f, Judges r (r.truthOf f v [(t, right)]) (ts ++ us) := by
  rw [← Forest.ofPieces_singleton (t, right)] at hus
  refine h.judges hus (.single ht hfurther hright.ne_nil hright.unmarked) fun u hu => ?_
  rw [Forest.ofPieces_singleton] at hu
  rcases List.mem_cons.mp hu with hu | hu
  · cases hu
    exact hmute
  · exact hright.mute u hu

/-- A comparison for equality. -/
theorem IsWorth.judges_eq (h : IsWorth r v ts) (hus : IsWorth r w us) :
    Judges r (r.equality v w) (ts ++ .mark .eq :: us) := by
  obtain ⟨right, hright, hoperand, rfl⟩ := hus
  obtain ⟨f, hf⟩ := h.judges_symbol (t := .mark .eq) (hright.plain rfl) rfl rfl rfl hoperand
  exact hf

/-- A comparison for difference. -/
theorem IsWorth.judges_ne (h : IsWorth r v ts) (hus : IsWorth r w us) :
    Judges r (r.equality v w).not (ts ++ .mark .ne :: us) := by
  obtain ⟨right, hright, hoperand, rfl⟩ := hus
  obtain ⟨f, hf⟩ := h.judges_symbol (t := .mark .ne) (hright.plain rfl) rfl rfl rfl hoperand
  exact hf

/-- A test for null. -/
theorem IsWorth.judges_isNull (h : IsWorth r v ts) :
    Judges r (.ofBool v.isNone) (ts ++ (spaced (.word .IS) ++ [.word .NULL])) := by
  have hnull : Forest.IsOperand [.token (.word .NULL)] := by
    refine ⟨Forest.solid_of_token List.mem_cons_self, fun t ht => ?_⟩
    cases List.mem_singleton.mp ht
    exact .inl rfl
  obtain ⟨f, hf⟩ := h.judges_symbol (t := .word .IS)
    (Forms.blank (.plain rfl (.blank (.plain rfl .nil)))) rfl rfl rfl hnull
  exact hf

/-- The values of a list of operands. -/
theorem members_listed {vs : List (Option V)} {l : List Tokens} (hne : vs ≠ [])
    (h : List.Forall₂ (IsWorth r) vs l) :
    ∃ f, Forms (listed l) f ∧ r.members f = vs := by
  obtain ⟨f, hf, hitems⟩ := listed_items r.value hne h
  -- No operand shows a word of a statement, so that the list is not taken for a query.
  have hitem : ∀ v ts, IsWorth r v ts → Shows (fun t => t.isQueryWord = false) ts ∧ True :=
    fun v ts ⟨g, hg, hoperand, _⟩ =>
      ⟨⟨g, hg, fun t ht => (Token.InExpression.of_isMute (hoperand.mute t ht)).1⟩, trivial⟩
  have hshows : Shows (fun t => t.isQueryWord = false) (listed l) :=
    .listed (List.forall₂_and_left _ _ |>.mp (h.flip.imp fun ts v => hitem v ts)).1 rfl
  obtain ⟨g, hg, hwords⟩ := hshows
  cases hf.unique hg
  refine ⟨f, hf, ?_⟩
  rw [Row.members, Forest.isQuery_eq_false hwords, if_neg Bool.false_ne_true, hitems]

/-- A test for membership in a list. -/
theorem IsWorth.judges_isIn {vs : List (Option V)} {l : List Tokens} (h : IsWorth r v ts)
    (hne : vs ≠ []) (hl : List.Forall₂ (IsWorth r) vs l) :
    Judges r (r.membership v vs)
        (Clause.infixed ts false (.word .IN) (Tokens.parens (listed l))) ∧
      Judges r (r.membership v vs).not
        (Clause.infixed ts true (.word .IN) (Tokens.parens (listed l))) := by
  obtain ⟨inner, hinner, rfl⟩ := members_listed hne hl
  have hstep : Forest.IsStep [(.word .IN, [.group .round inner])] :=
    .single rfl rfl (List.cons_ne_nil _ _) (by simp [Forest.Unmarked])
  have hin : Forms (.word .IN :: .space :: Tokens.parens (listed l))
      (Forest.ofPieces [(.word .IN, [.group .round inner])]) := Forms.plain rfl hinner.parens.blank
  refine ⟨?_, ?_⟩
  · obtain ⟨f, hf⟩ := h.judges hin.blank hstep
      (by simp [Forest.ofPieces, Token.isMute, Token.isQueryWord])
    rw [Clause.infixed, List.append_assoc]
    exact hf
  · obtain ⟨f, hf⟩ := h.judges (Forms.blank (.plain rfl hin.blank))
      (hstep.cons (t := .word .NOT) rfl rfl)
      (by simp [Forest.ofPieces, Token.isMute, Token.isQueryWord])
    rw [Clause.infixed, List.append_assoc]
    exact hf

/-- What is written for membership in an empty list. -/
theorem judges_constant (negated : Bool) :
    Judges r (if negated then .true else .false) [.raw (if negated then "1=1" else "1=0")] := by
  refine ⟨_, Forms.nil.plain rfl, ⟨Forest.solid_of_token List.mem_cons_self, fun t ht => ?_,
    fun t ht => ?_⟩, ?_⟩
  · cases List.mem_singleton.mp ht
    rfl
  · cases ht
    rfl
  · cases negated <;> rfl

end Tokens

end SqlScribe
