import SqlScribe.Token
/-! # Keywords and what they introduce

`WHERE`, `HAVING`, `ON`, `WHEN`, `NOT` and the connectives are followed by a condition, or by a part
of one. A list of tokens can be looked through for keywords that nothing follows, with a glance over
the blanks behind each.

* `Keyword.needsCondition`, `Token.startsCondition`: the keywords, and the tokens that conditions
  begin with.
* `Tokens.Opens`: tokens that begin, behind blanks, as a condition does.
* `Tokens.Backed`: tokens in which no keyword is left without its condition.
* `Tokens.Fills`: backed tokens that open, unless they may be missing and are. -/

namespace SqlScribe

/-- The keyword introduces a condition. -/
def Keyword.needsCondition : Keyword → Bool
  | .WHERE | .HAVING | .ON | .WHEN | .NOT | .AND | .OR | .XOR => true
  | _ => false

namespace Token

/-- A condition, or what is left of one behind `NOT` or `AND`, may begin with the token. -/
def startsCondition : Token → Bool
  | .word .NOT | .word .EXISTS | .word .CASE | .word .NULL => true
  | .word .IS | .word .IN | .word .LIKE | .word .BETWEEN => true
  | .word _ => false
  | .mark .comma | .mark .dot | .mark .closeParen | .mark .closeBracket => false
  | .space | .aliasName _ => false
  | _ => true

/-- The token introduces no condition. -/
def isPlain : Token → Bool
  | .word k => !k.needsCondition
  | _ => true

end Token

/-- What the keyword is followed by in its other uses: in `ON CONFLICT`, in the events of a foreign
key, in `OR REPLACE` and in the range of a window frame. -/
def Keyword.otherUses : Keyword → List Keyword
  | .ON => [.CONFLICT, .DELETE, .UPDATE]
  | .OR => [.REPLACE]
  | .AND => [.UNBOUNDED, .CURRENT_ROW]
  | _ => []

/-- The token may follow a keyword that introduces a condition: a condition begins with it, or the
keyword is put to another use. -/
def Keyword.admits (k : Keyword) (t : Token) : Bool :=
  t.startsCondition ||
    match t with
    | .word k' => k.otherUses.contains k'
    | _ => false

namespace Tokens

/-- The first token behind blanks is there and passes a test. -/
def Faces (p : Token → Bool) : Tokens → Prop
  | [] => False
  | .space :: ts => Faces p ts
  | t :: _ => p t = true

/-- The tokens begin, behind blanks, as a condition does. -/
abbrev Opens (ts : Tokens) : Prop := Faces Token.startsCondition ts

/-- Every keyword that introduces a condition is followed by one. -/
def Backed : Tokens → Prop
  | [] => True
  | .word k :: ts => (k.needsCondition = true → Faces k.admits ts) ∧ Backed ts
  | _ :: ts => Backed ts

variable {p : Token → Bool} {t : Token} {ts us : Tokens} {k : Keyword}

namespace Faces

theorem append (h : Faces p ts) (us : Tokens) : Faces p (ts ++ us) := by
  induction ts with
  | nil => cases h
  | cons t ts ih =>
    cases t with
    | space => exact ih h
    | _ => exact h

theorem mono {q : Token → Bool} (h : Faces p ts) (hpq : ∀ t, p t = true → q t = true) :
    Faces q ts := by
  induction ts with
  | nil => cases h
  | cons t ts ih =>
    cases t with
    | space => exact ih h
    | _ => exact hpq _ h

theorem ne_nil (h : Faces p ts) : ts ≠ [] := by
  rintro rfl
  cases h

end Faces

namespace Opens

theorem admitted (h : Opens ts) (k : Keyword) : Faces k.admits ts :=
  h.mono fun _ ht => (congrArg (· || _) ht).trans (Bool.true_or _)

theorem parens (ts : Tokens) : Opens (parens ts) := rfl

end Opens

/-! ## Backed tokens -/

namespace Backed

theorem nil : Backed [] := trivial

theorem cons (ht : t.isPlain = true) (h : Backed ts) : Backed (t :: ts) := by
  cases t with
  | word k => exact ⟨fun hk => by simp [Token.isPlain, hk] at ht, h⟩
  | _ => exact h

theorem one (ht : t.isPlain = true) : Backed [t] := cons ht nil

theorem space (h : Backed ts) : Backed (.space :: ts) := h

/-- A keyword with its condition behind it. -/
theorem keyword (hopens : Faces k.admits ts) (h : Backed ts) : Backed (.word k :: ts) :=
  ⟨fun _ => hopens, h⟩

theorem append (h : Backed ts) (h' : Backed us) : Backed (ts ++ us) := by
  induction ts with
  | nil => exact h'
  | cons t ts ih =>
    cases t with
    | word k => exact ⟨fun hk => (h.1 hk).append us, ih h.2⟩
    | _ => exact ih h

theorem parens (h : Backed ts) : Backed (parens ts) := cons rfl (h.append (one rfl))

theorem parensIf (wrap : Bool) (h : Backed ts) : Backed (parensIf wrap ts) := by
  cases wrap with
  | false => exact h
  | true => exact h.parens

theorem spaced (ht : t.isPlain = true) : Backed (spaced t) := (cons ht (space nil)).space

/-- A keyword between blanks that introduces no condition, and what stands behind it. -/
theorem behind (ht : t.isPlain = true) (h : Backed ts) : Backed (Tokens.spaced t ++ ts) :=
  (spaced ht).append h

theorem direction (order : Option SortOrder) : Backed (direction order) := by
  cases order with
  | none => exact nil
  | some order => cases order <;> exact space (one rfl)

/-- What a keyword of a condition is followed by in backed tokens. -/
theorem faces_of_append (ts : Tokens) (h : Backed (ts ++ .word k :: us))
    (hk : k.needsCondition = true) : Faces k.admits us := by
  induction ts with
  | nil => exact h.1 hk
  | cons t ts ih =>
    cases t with
    | word k' => exact ih h.2
    | _ => exact ih h

end Backed

/-! ## Lists -/

/-- All tokens of a list are backed. -/
abbrev AllBacked (l : List Tokens) : Prop := ∀ ts ∈ l, Backed ts

namespace Backed

variable {l : List Tokens}

theorem flatten (hl : AllBacked l) : Backed l.flatten := by
  induction l with
  | nil => exact nil
  | cons ts l ih =>
    exact (hl ts List.mem_cons_self).append (ih fun us hus => hl us (List.mem_cons_of_mem _ hus))

theorem flatMap {α : Type} {l : List α} {g : α → Tokens} (h : ∀ a ∈ l, Backed (g a)) :
    Backed (l.flatMap g) := by
  rw [List.flatMap_def]
  refine flatten fun ts hts => ?_
  obtain ⟨a, ha, rfl⟩ := List.mem_map.mp hts
  exact h a ha

theorem listed (hl : AllBacked l) : Backed (listed l) := by
  induction l with
  | nil => exact nil
  | cons ts l ih =>
    have hts := hl ts List.mem_cons_self
    cases l with
    | nil => exact hts
    | cons us l => exact hts.append (cons rfl (ih fun vs hvs => hl vs (List.mem_cons_of_mem _ hvs)))

theorem spacedOut (hl : AllBacked l) : Backed (spacedOut l) := by
  induction l with
  | nil => exact nil
  | cons ts l ih =>
    have hts := hl ts List.mem_cons_self
    cases l with
    | nil => exact hts
    | cons us l => exact hts.append (ih fun vs hvs => hl vs (List.mem_cons_of_mem _ hvs)).space

theorem idents (names : List String) : Backed (idents names) := by
  refine listed fun ts hts => ?_
  obtain ⟨name, -, rfl⟩ := List.mem_map.mp hts
  exact one rfl

theorem pair (hts : Backed ts) (hus : Backed us) : AllBacked [ts, us] := by
  intro vs hvs
  rcases List.mem_cons.mp hvs with rfl | hvs
  · exact hts
  · cases List.mem_singleton.mp hvs
    exact hus

end Backed

/-! ## Tokens of terms and conditions -/

/-- The tokens are backed, and they open unless they may be missing and are. -/
structure Fills (vacant : Bool) (ts : Tokens) : Prop where
  backed : Backed ts
  opens : Opens ts ∨ vacant = true ∧ ts = []

namespace Fills

variable {v : Bool}

theorem of_opens (hopens : Opens ts) (h : Backed ts) : Fills v ts := ⟨h, .inl hopens⟩

/-- A token that begins a condition, and backed tokens behind it. -/
theorem cons (ht : t.startsCondition = true) (hplain : t.isPlain = true) (h : Backed ts) :
    Fills v (t :: ts) := by
  refine of_opens ?_ (h.cons hplain)
  cases t with
  | space => cases ht
  | _ => exact ht

theorem one (ht : t.startsCondition = true) (hplain : t.isPlain = true) : Fills v [t] :=
  cons ht hplain .nil

/-- Where no tokens may be missing, they open. -/
theorem faces (h : Fills false ts) : Opens ts := by
  rcases h.opens with hopens | ⟨hvacant, -⟩
  · exact hopens
  · cases hvacant

/-- Tokens of an operand before tokens that open by themselves. -/
theorem append {w : Bool} (h : Fills v ts) (hopens : Opens us) (h' : Backed us) :
    Fills w (ts ++ us) := by
  refine of_opens ?_ (h.backed.append h')
  -- Where the operand is missing, the tokens behind it are the first ones.
  rcases h.opens with hts | ⟨-, rfl⟩
  · exact Faces.append hts us
  · exact hopens

/-- Tokens that open, and more behind them. -/
theorem followed {w : Bool} (h : Fills false ts) (h' : Backed us) : Fills w (ts ++ us) :=
  of_opens (Faces.append h.faces us) (h.backed.append h')

theorem parens (h : Backed ts) : Fills v (parens ts) := of_opens (Opens.parens ts) h.parens

theorem parensIf (wrap : Bool) (h : Fills v ts) : Fills v (parensIf wrap ts) := by
  cases wrap with
  | false => exact h
  | true => exact parens h.backed

/-- A condition behind its keyword and a blank. -/
theorem keyword (h : Fills false ts) (k : Keyword) : Backed (.word k :: .space :: ts) :=
  .keyword (h.faces.admitted k) h.backed

end Fills

end Tokens

end SqlScribe
