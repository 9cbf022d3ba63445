import SqlScribe.Proofs.Comment.Text
import SqlScribe.Token.Text
/-! # Tokens without comments

The text of tokens with what is quoted left out, and the tokens for which it is calm.

* `Tokens.bare`: the text of tokens outside quoted identifiers and string literals.
* `Tokens.Clean`: tokens whose bare text is calm and begins as is said.
* One law for each kind of token that is clean by itself; a minus and a slash are clean before what
  does not make a comment of them. -/

namespace SqlScribe

/-- The text is calm and begins with no sign. -/
def Text.isPlain (text : String) : Bool :=
  decide (Text.Calm text.toList) && decide (Lead.of text.toList = .other)

/-- The literal of the value stands between quotes. -/
def Value.isQuoted : Value → Bool
  | .int _ => false
  | .float _ => false
  | .bool _ => false
  | _ => true

/-- What the literal of a value begins with. -/
def Value.lead : Value → Lead
  | .int n => if n < 0 then .minus else .other
  | .float x => if x.isNegative then .minus else .other
  | _ => .other

namespace ArithmeticOp

/-- What the mark of an operator begins with. -/
def lead : ArithmeticOp → Lead
  | .add => .other
  | .sub => .minus
  | .mul => .star
  | .div => .other

/-- No comment begins with the mark of the operator before a text that begins so. -/
def admits : ArithmeticOp → Lead → Bool
  | .add, _ => true
  | .sub, l => l != .nothing && l != .minus
  | .mul, _ => true
  | .div, l => l != .nothing && l != .star

end ArithmeticOp

namespace Token

/-- The token is an identifier or a literal that stands between quotes as a whole. -/
def isQuoted (p : Spelling) : Token → Bool
  | .ident _ => p.quote.isSome
  | .aliasName _ => p.aliasQuote.isSome
  | .literal v => v.isQuoted
  | .named _ v => v.isQuoted
  | _ => false

/-- The text of a token outside its quotes: a blank stands for what is quoted. -/
def bare (p : Spelling) (t : Token) : List Char :=
  if t.isQuoted p then [' '] else (t.text p).toList

end Token

/-- A literal that counts as quoted stands between two quotes, behind an `N` at most. -/
theorem Value.literal_of_isQuoted (d : Dialect) {v : Value} (h : v.isQuoted = true) :
    ∃ (mark : String) (inner : List Char), (mark = "" ∨ mark = "N") ∧
      (d.literal v).toList = mark.toList ++ '\'' :: inner ++ ['\''] := by
  have hquoted : ∀ (doubles : Char → Bool) (s : String),
      (String.ofList ('\'' :: Text.doubled doubles s.toList ++ ['\''])).toList =
        "".toList ++ '\'' :: Text.doubled doubles s.toList ++ ['\''] :=
    fun _ _ => String.toList_ofList
  have hstring : ∀ s : String, ∃ (mark : String) (inner : List Char), (mark = "" ∨ mark = "N") ∧
      (d.stringLiteral s).toList = mark.toList ++ '\'' :: inner ++ ['\''] := by
    intro s
    rw [Dialect.stringLiteral]
    cases d.profile.strings with
    | plain => exact ⟨"", _, .inl rfl, hquoted _ s⟩
    | backslashes => exact ⟨"", _, .inl rfl, hquoted _ s⟩
    | national =>
      rw [StringStyle.literal]
      split
      · exact ⟨"", _, .inl rfl, hquoted _ s⟩
      · refine ⟨"N", Text.doubled (· == '\'') s.toList, .inr rfl, ?_⟩
        rw [String.toList_append]
        exact congrArg ("N".toList ++ ·) String.toList_ofList
  cases v with
  | int n => cases h
  | float x => cases h
  | bool b => cases h
  | _ => exact hstring _

/-- A literal that does not count as quoted is calm, and begins with a sign only if its value is
negative. -/
theorem Value.literal_of_not_isQuoted (d : Dialect) {v : Value} (h : v.isQuoted = false) :
    Text.Calm (d.literal v).toList ∧
      (Lead.of (d.literal v).toList = v.lead ∨ Lead.of (d.literal v).toList = .other) := by
  have hsigned : ∀ {isNegative : Prop} [Decidable isNegative] {cs : List Char},
      Text.Signed isNegative cs → Text.Calm cs ∧
        (Lead.of cs = (if isNegative then .minus else .other) ∨ Lead.of cs = .other) := by
    intro isNegative _ cs hcs
    refine ⟨hcs.calm, hcs.lead.imp_left ?_⟩
    rintro ⟨hnegative, hlead⟩
    rw [if_pos hnegative, hlead]
  cases v with
  | int n => exact hsigned (Text.signed_int n)
  | float x => exact hsigned (Text.signed_float x)
  | bool b =>
    have hbool : ∀ style : BooleanStyle, Text.isPlain (style.literal b) = true := by
      intro style
      cases style <;> cases b <;> decide
    obtain ⟨hcalm, hlead⟩ := Bool.and_eq_true_iff.mp (hbool d.profile.booleans)
    exact ⟨of_decide_eq_true hcalm, .inr (of_decide_eq_true hlead)⟩
  | _ => cases h

/-- An identifier that counts as quoted stands between two quotes. -/
theorem Token.text_of_isQuoted {p : Spelling} {name : String}
    (h : (Token.ident name).isQuoted p = true) :
    ∃ (q : Char) (inner : List Char), ((Token.ident name).text p).toList = q :: inner ++ [q] := by
  obtain ⟨q, hq⟩ := Option.isSome_iff_exists.mp h
  refine ⟨q, Text.doubled (· == q) name.toList, ?_⟩
  rw [Token.text, hq, Text.identifier_some, Text.quoted, String.toList_ofList]

theorem Keyword.isPlain_text (k : Keyword) : Text.isPlain k.text = true := by cases k <;> decide

/-- The other names that a dialect has for functions are plain. -/
theorem Dialect.isPlain_of_mem_renamedFunctions (d : Dialect) :
    ∀ r ∈ d.renamedFunctions, Text.isPlain r.2 = true := by
  cases d <;> decide

theorem Dialect.isPlain_functionName (d : Dialect) {name : String} (h : Text.isPlain name = true) :
    Text.isPlain (d.functionName name) = true := by
  rw [functionName, renamed?]
  cases hother : d.renamedFunctions.lookup (Text.upper name) with
  | none => exact h
  | some other =>
    obtain ⟨before, behind, hsplit, -⟩ := List.lookup_eq_some_iff.mp hother
    have hmem : (Text.upper name, other) ∈ d.renamedFunctions := by
      rw [hsplit]
      exact List.mem_append_right before List.mem_cons_self
    exact d.isPlain_of_mem_renamedFunctions _ hmem

namespace Tokens

/-- The text of tokens outside their quotes: a blank stands for each quoted token. -/
def bare (p : Spelling) (ts : Tokens) : List Char := ts.flatMap (Token.bare p)

/-- The bare text of the tokens is calm. -/
abbrev IsCalm (p : Spelling) (ts : Tokens) : Prop := Text.Calm (ts.bare p)

/-- The bare text of the tokens is calm, and begins as is said or with a character before which no
comment can begin. -/
structure Clean (p : Spelling) (l : Lead) (ts : Tokens) : Prop where
  calm : IsCalm p ts
  lead : Lead.of (ts.bare p) = l ∨ Lead.of (ts.bare p) = .other

variable {p : Spelling} {l l' : Lead} {t : Token} {ts us : Tokens}

theorem bare_append (ts us : Tokens) : (ts ++ us).bare p = ts.bare p ++ us.bare p :=
  List.flatMap_append

theorem bare_singleton (h : t.isQuoted p = false) : bare p [t] = (t.text p).toList := by
  rw [bare, List.flatMap_singleton, Token.bare, h]
  rfl

theorem bare_singleton_of_isQuoted (h : t.isQuoted p = true) : bare p [t] = [' '] := by
  rw [bare, List.flatMap_singleton, Token.bare, h]
  rfl

namespace IsCalm

theorem nil : IsCalm p [] := Text.Calm.nil

theorem append (h : IsCalm p ts) (h' : IsCalm p us) : IsCalm p (ts ++ us) := by
  rw [IsCalm, bare_append]
  exact Text.Calm.append h h'

theorem cons (h : IsCalm p [t]) (h' : IsCalm p us) : IsCalm p (t :: us) := append h h'

end IsCalm

namespace Clean

theorem nil : Clean p .nothing [] := ⟨.nil, .inl rfl⟩

/-- What begins with no sign begins as well as is said. -/
theorem of_other (h : Clean p .other ts) : Clean p l ts := ⟨h.calm, h.lead.elim .inr .inr⟩

theorem lead_ne (h : Clean p l ts) (hl : l ≠ l') (ho : .other ≠ l') : Lead.of (ts.bare p) ≠ l' := by
  rcases h.lead with hlead | hlead
  · rwa [hlead]
  · rwa [hlead]

theorem append (h : Clean p l ts) (h' : Clean p l' us) : Clean p (l.or l') (ts ++ us) := by
  refine ⟨h.calm.append h'.calm, ?_⟩
  rw [bare_append, Lead.of_append]
  rcases h.lead with hl | hl
  · rw [hl]
    cases l with
    | nothing => exact h'.lead
    | minus => exact .inl rfl
    | star => exact .inl rfl
    | other => exact .inl rfl
  · rw [hl]
    exact .inr rfl

/-- What tokens begin with does not depend on those behind them. -/
theorem append_of_ne (h : Clean p l ts) (hl : l ≠ .nothing) (h' : IsCalm p us) :
    Clean p l (ts ++ us) := by
  refine ⟨h.calm.append h', ?_⟩
  rw [bare_append, Lead.of_append]
  rcases h.lead with hlead | hlead
  · rw [hlead]
    cases l with
    | nothing => exact absurd rfl hl
    | minus => exact .inl rfl
    | star => exact .inl rfl
    | other => exact .inl rfl
  · rw [hlead]
    exact .inr rfl

/-- Tokens that begin with no sign, with calm ones behind them. -/
theorem append_calm (h : Clean p .other ts) (h' : IsCalm p us) : Clean p .other (ts ++ us) :=
  h.append_of_ne nofun h'

theorem cons_calm (h : Clean p .other [t]) (h' : IsCalm p us) : Clean p .other (t :: us) :=
  h.append_calm h'

end Clean

/-! ## Single tokens -/

/-- A token that is not quoted begins as its text does. -/
theorem Clean.written (ht : t.isQuoted p = false) (h : Text.Calm (t.text p).toList) :
    Clean p (Lead.of (t.text p).toList) [t] := by
  refine ⟨?_, .inl ?_⟩
  · rwa [IsCalm, bare_singleton ht]
  · rw [bare_singleton ht]

theorem Clean.plain (ht : t.isQuoted p = false) (h : Text.isPlain (t.text p) = true) :
    Clean p .other [t] := by
  obtain ⟨hcalm, hlead⟩ := Bool.and_eq_true_iff.mp h
  rw [← of_decide_eq_true hlead]
  exact .written ht (of_decide_eq_true hcalm)

theorem Clean.quoted (h : t.isQuoted p = true) : Clean p .other [t] := by
  refine ⟨?_, .inl ?_⟩
  · rw [IsCalm, bare_singleton_of_isQuoted h]
    decide
  · rw [bare_singleton_of_isQuoted h]
    rfl

theorem Clean.word (k : Keyword) : Clean p .other [.word k] := .plain rfl k.isPlain_text

theorem Clean.space : Clean p .other [.space] := .plain rfl (by decide : Text.isPlain " " = true)

theorem Clean.mark {m : Mark} (h : Text.isPlain m.text = true) : Clean p .other [.mark m] :=
  .plain rfl h

theorem Clean.operator {symbol : String} (h : Text.isPlain symbol = true) :
    Clean p .other [.operator symbol] :=
  .plain rfl h

theorem Clean.raw {text : String} (h : Text.isPlain text = true) : Clean p .other [.raw text] :=
  .plain rfl h

theorem Clean.functionName {name : String} (h : Text.isPlain name = true) :
    Clean p .other [.functionName name] :=
  .plain rfl (p.dialect.isPlain_functionName h)

theorem IsCalm.raw {text : String} (h : Text.Calm text.toList) : IsCalm p [.raw text] :=
  (Clean.written (t := .raw text) rfl h).calm

/-- A number may have a sign. -/
theorem IsCalm.count (n : Int) : IsCalm p [.count n] :=
  (Clean.written (t := .count n) rfl (Text.signed_int n).calm).calm

/-- A token that is written as the literal of a value. -/
theorem Clean.value {v : Value} (hq : t.isQuoted p = v.isQuoted)
    (ht : t.text p = p.dialect.literal v) : Clean p v.lead [t] := by
  cases hv : v.isQuoted with
  | true => exact .of_other (.quoted (hq.trans hv))
  | false =>
    obtain ⟨hcalm, hlead⟩ := v.literal_of_not_isQuoted p.dialect hv
    have hbare : bare p [t] = (p.dialect.literal v).toList := by
      rw [bare_singleton (hq.trans hv), ht]
    refine ⟨?_, ?_⟩
    · rwa [IsCalm, hbare]
    · rwa [hbare]

/-! ## Groups of tokens -/

theorem Clean.space_cons (h : IsCalm p ts) : Clean p .other (.space :: ts) :=
  Clean.space.cons_calm h

theorem Clean.spaced (h : IsCalm p [t]) : Clean p .other (spaced t) :=
  .space_cons (h.cons Clean.space.calm)

theorem Clean.parens (h : IsCalm p ts) : Clean p .other (parens ts) :=
  (Clean.mark (by decide)).cons_calm (h.append (Clean.mark (by decide)).calm)

theorem Clean.parensIf {wrap : Bool} (h : Clean p l ts) :
    Clean p (if wrap then .other else l) (parensIf wrap ts) := by
  cases wrap with
  | false => exact h
  | true => exact .parens h.calm

theorem IsCalm.listed {l : List Tokens} (h : ∀ ts ∈ l, IsCalm p ts) : IsCalm p (listed l) := by
  induction l with
  | nil => exact .nil
  | cons ts l ih =>
    obtain ⟨hts, hl⟩ := List.forall_mem_cons.mp h
    cases l with
    | nil => exact hts
    | cons us l => exact hts.append ((Clean.mark (by decide)).calm.cons (ih hl))

theorem IsCalm.spacedOut {l : List Tokens} (h : ∀ ts ∈ l, IsCalm p ts) :
    IsCalm p (spacedOut l) := by
  induction l with
  | nil => exact .nil
  | cons ts l ih =>
    obtain ⟨hts, hl⟩ := List.forall_mem_cons.mp h
    cases l with
    | nil => exact hts
    | cons us l => exact hts.append (Clean.space_cons (ih hl)).calm

theorem IsCalm.flatten {l : List Tokens} (h : ∀ ts ∈ l, IsCalm p ts) : IsCalm p l.flatten := by
  induction l with
  | nil => exact .nil
  | cons ts l ih =>
    obtain ⟨hts, hl⟩ := List.forall_mem_cons.mp h
    exact hts.append (ih hl)

/-- A mark of one character, calm with what stands behind it. -/
theorem Clean.mark_cons {m : Mark} {c : Char} (hm : m.text.toList = [c])
    (h : Text.Calm (c :: ts.bare p)) : Clean p (Lead.of [c]) (.mark m :: ts) := by
  have hbare : bare p (.mark m :: ts) = c :: ts.bare p := by
    rw [← List.singleton_append, bare_append, bare_singleton rfl, Token.text, hm]
    rfl
  refine ⟨?_, .inl ?_⟩
  · rwa [IsCalm, hbare]
  · rw [hbare]
    rfl

/-- The mark of an operator before an operand that it admits. -/
theorem Clean.operation (op : ArithmeticOp) (h : Clean p l ts) (ha : op.admits l = true) :
    Clean p op.lead (.mark op.mark :: ts) := by
  cases op with
  | add => exact (Clean.mark (by decide)).cons_calm h.calm
  | sub =>
    obtain ⟨hne, hminus⟩ := Bool.and_eq_true_iff.mp ha
    have hcalm : Text.Calm ('-' :: ts.bare p) := h.calm.minus
      (h.lead_ne (bne_iff_ne.mp hne) nofun) (h.lead_ne (bne_iff_ne.mp hminus) nofun)
    exact .mark_cons (by decide) hcalm
  | mul =>
    have hstar : Clean p .star [.mark .times] :=
      .mark_cons (c := '*') (by decide) (by decide : Text.Calm ['*'])
    exact hstar.append h
  | div =>
    obtain ⟨hne, hstar⟩ := Bool.and_eq_true_iff.mp ha
    have hcalm : Text.Calm ('/' :: ts.bare p) := h.calm.slash
      (h.lead_ne (bne_iff_ne.mp hne) nofun) (h.lead_ne (bne_iff_ne.mp hstar) nofun)
    exact .mark_cons (by decide) hcalm

end Tokens

end SqlScribe
