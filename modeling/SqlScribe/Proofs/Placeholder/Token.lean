import SqlScribe.Proofs.Placeholder.Text
/-! # Tokens between placeholders

In the text of a statement with placeholders, the placeholders are found if all other tokens are
silent and no digit stands right behind a value.

* `Tokens.Tame`: tokens of which only the values show placeholders.
* `Tokens.Apart`: the same also right behind a value, with whose number they do not go on.
* `Tokens.Tame.found`: in the text of such tokens the placeholders of their values are found. -/

namespace SqlScribe

namespace Scan

/-- How names are spelt with the quotes that are passed over. -/
def spelling (c : Scan) (d : Dialect) : Spelling := ⟨d, some c.quote, some c.aliasQuote⟩

theorem isQuote_quote (c : Scan) : c.isQuote c.quote = true := by simp [isQuote]

theorem isQuote_aliasQuote (c : Scan) : c.isQuote c.aliasQuote = true := by simp [isQuote]

end Scan

/-- The other names that a dialect has for functions are made of inert characters. -/
theorem Dialect.isFixed_of_mem_renamedFunctions (d : Dialect) :
    ∀ r ∈ d.renamedFunctions, Text.isFixed r.2 = true := by
  cases d <;> decide

theorem Keyword.isWord_text (k : Keyword) : Text.isWord k.text = true := by cases k <;> decide

theorem Mark.isWord_text (m : Mark) : Text.isWord m.text = true := by cases m <;> decide

namespace Token

variable (c : Scan) (d : Dialect)

/-- The token binds no value and is silent. -/
structure Mute (t : Token) : Prop where
  value : t.value? = none
  silent : c.Silent (t.text (c.spelling d)).toList

/-- Right behind a value, the token does not go on with its number: it has a value too, or begins
with a character that is no digit. -/
def EndsNumber (t : Token) : Prop :=
  t.value? = none →
    ∃ ch, (c.bare (t.text (c.spelling d)).toList).head? = some ch ∧ ch.isDigit = false

/-- The token is silent, and so it is right behind a value. -/
structure Separates (t : Token) : Prop where
  mute : t.Mute c d
  ends : t.EndsNumber c d

variable {c d}

/-! ## Single tokens -/

theorem Separates.fixed {t : Token} (ht : t.value? = none)
    (h : Text.isWord (t.text (c.spelling d)) = true) : t.Separates c d := by
  obtain ⟨hfixed, hhead⟩ := Bool.and_eq_true_iff.mp h
  refine ⟨⟨ht, .fixed hfixed⟩, fun _ => ?_⟩
  obtain ⟨ch, hch, hdigit⟩ := (Option.any_eq_true _ _).mp hhead
  exact ⟨ch, by rw [c.bare_fixed hfixed, hch], by simpa using hdigit⟩

theorem Separates.word (k : Keyword) : (Token.word k).Separates c d := .fixed rfl k.isWord_text

theorem Separates.mark (m : Mark) : (Token.mark m).Separates c d := .fixed rfl m.isWord_text

theorem Separates.space : Token.space.Separates c d :=
  .fixed rfl (by decide : Text.isWord " " = true)

theorem Separates.operator {symbol : String} (h : Text.isWord symbol = true) :
    (Token.operator symbol).Separates c d :=
  .fixed rfl h

theorem Separates.raw {text : String} (h : Text.isWord text = true) :
    (Token.raw text).Separates c d :=
  .fixed rfl h

theorem Separates.ident (name : String) : (Token.ident name).Separates c d := by
  obtain ⟨hsilent, hhead⟩ := Scan.Silent.identifier c.isQuote_quote name
  exact ⟨⟨rfl, hsilent⟩, fun _ => ⟨' ', hhead, by decide⟩⟩

theorem Separates.aliasName (name : String) : (Token.aliasName name).Separates c d := by
  obtain ⟨hsilent, hhead⟩ := Scan.Silent.identifier c.isQuote_aliasQuote name
  exact ⟨⟨rfl, hsilent⟩, fun _ => ⟨' ', hhead, by decide⟩⟩

theorem Mute.raw {text : String} (h : c.Silent text.toList) : (Token.raw text).Mute c d := ⟨rfl, h⟩

theorem Mute.count (n : Int) : (Token.count n).Mute c d := ⟨rfl, .fixed (Text.isFixed_int n)⟩

/-- A function goes by the name that it is given, or by another one that the dialect has for it. -/
theorem Mute.functionName {name : String} (h : c.admits name = true) :
    (Token.functionName name).Mute c d := by
  refine ⟨rfl, ?_⟩
  show c.Silent (d.functionName name).toList
  rw [Dialect.functionName, Dialect.renamed?]
  cases hother : d.renamedFunctions.lookup (Text.upper name) with
  | none => exact .admitted h
  | some other =>
    obtain ⟨before, behind, hsplit, -⟩ := List.lookup_eq_some_iff.mp hother
    have hmem : (Text.upper name, other) ∈ d.renamedFunctions := by
      rw [hsplit]
      exact List.mem_append_right before List.mem_cons_self
    exact .fixed (d.isFixed_of_mem_renamedFunctions _ hmem)

end Token

namespace Tokens

variable (c : Scan) (d : Dialect)

/-- Tokens without values are silent, and what stands right behind a value does not go on with its
number. -/
def Tame : Tokens → Prop
  | [] => True
  | t :: ts =>
    (t.value? = none → t.Mute c d) ∧
      (t.value? ≠ none → ∀ u ∈ ts.head?, u.EndsNumber c d) ∧ Tame ts

/-- The tokens are tame, and so they are right behind a value. -/
structure Apart (ts : Tokens) : Prop where
  tame : Tame c d ts
  ends : ∀ t ∈ ts.head?, t.EndsNumber c d

/-- All tokens of a list are tame. -/
abbrev AllTame (l : List Tokens) : Prop := ∀ ts ∈ l, Tame c d ts

variable {c d} {t : Token} {ts us : Tokens} {l : List Tokens}

namespace Tame

theorem nil : Tame c d [] := trivial

theorem value (h : t.value? ≠ none) : Tame c d [t] :=
  ⟨fun hnone => absurd hnone h, fun _ => nofun, trivial⟩

theorem cons (ht : t.Mute c d) (h : Tame c d ts) : Tame c d (t :: ts) :=
  ⟨fun _ => ht, fun hvalue => absurd ht.value hvalue, h⟩

theorem append (h : Tame c d ts) (h' : Apart c d us) : Tame c d (ts ++ us) := by
  induction ts with
  | nil => exact h'.tame
  | cons t ts ih =>
    obtain ⟨ht, hnext, hts⟩ := h
    refine ⟨ht, fun hvalue => ?_, ih hts⟩
    -- Behind the last token stands the first one of what is appended.
    cases ts with
    | nil => exact h'.ends
    | cons u ts => exact hnext hvalue

theorem one (ht : t.Mute c d) : Tame c d [t] := .cons ht .nil

end Tame

namespace Apart

theorem nil : Apart c d [] := ⟨trivial, nofun⟩

theorem cons (ht : t.Separates c d) (h : Tame c d ts) : Apart c d (t :: ts) :=
  ⟨.cons ht.mute h, fun u hu => by cases hu; exact ht.ends⟩

theorem one (ht : t.Separates c d) : Apart c d [t] := .cons ht .nil

theorem append (h : Apart c d ts) (h' : Apart c d us) : Apart c d (ts ++ us) := by
  refine ⟨h.tame.append h', ?_⟩
  cases ts with
  | nil => exact h'.ends
  | cons t ts => exact h.ends

theorem word (k : Keyword) (h : Tame c d ts) : Apart c d (.word k :: ts) := .cons (.word k) h

theorem mark (m : Mark) (h : Tame c d ts) : Apart c d (.mark m :: ts) := .cons (.mark m) h

theorem space (h : Tame c d ts) : Apart c d (.space :: ts) := .cons .space h

theorem ident (name : String) (h : Tame c d ts) : Apart c d (.ident name :: ts) :=
  .cons (.ident name) h

/-- A keyword and a blank. -/
theorem head (k : Keyword) (h : Tame c d ts) : Apart c d (.word k :: .space :: ts) :=
  .word k (space h).tame

/-- A token between blanks, and what it introduces. -/
theorem spaced (ht : t.Mute c d) (h : Tame c d ts) : Apart c d (spaced t ++ ts) :=
  .space (.cons ht (space h).tame)

theorem keyword (k : Keyword) (h : Tame c d ts) : Apart c d (Tokens.spaced (.word k) ++ ts) :=
  .spaced (Token.Separates.word k).mute h

theorem parens (h : Tame c d ts) : Apart c d (parens ts) :=
  .mark _ (h.append (.mark _ .nil))

theorem flatten (h : ∀ ts ∈ l, Apart c d ts) : Apart c d l.flatten := by
  induction l with
  | nil => exact .nil
  | cons ts l ih =>
    obtain ⟨hts, hl⟩ := List.forall_mem_cons.mp h
    exact hts.append (ih hl)

theorem flatMap {α : Type} {l : List α} {g : α → Tokens} (h : ∀ a ∈ l, Apart c d (g a)) :
    Apart c d (l.flatMap g) := by
  rw [List.flatMap_def]
  refine .flatten fun ts hts => ?_
  obtain ⟨a, ha, rfl⟩ := List.mem_map.mp hts
  exact h a ha

/-- Either of two pieces. -/
theorem choose {b : Prop} [Decidable b] (h : Apart c d ts) (h' : Apart c d us) :
    Apart c d (if b then ts else us) := by
  split
  · exact h
  · exact h'

end Apart

namespace Tame

theorem parensIf (wrap : Bool) (h : Tame c d ts) : Tame c d (parensIf wrap ts) := by
  cases wrap with
  | false => exact h
  | true => exact (Apart.parens h).tame

theorem listed (h : AllTame c d l) : Tame c d (listed l) := by
  induction l with
  | nil => exact .nil
  | cons ts l ih =>
    obtain ⟨hts, hl⟩ := List.forall_mem_cons.mp h
    cases l with
    | nil => exact hts
    | cons us l => exact hts.append (.mark _ (ih hl))

theorem spacedOut (h : AllTame c d l) : Tame c d (spacedOut l) := by
  induction l with
  | nil => exact .nil
  | cons ts l ih =>
    obtain ⟨hts, hl⟩ := List.forall_mem_cons.mp h
    cases l with
    | nil => exact hts
    | cons us l => exact hts.append (.space (ih hl))

theorem idents (names : List String) : Tame c d (idents names) := by
  refine .listed fun ts hts => ?_
  obtain ⟨name, -, rfl⟩ := List.mem_map.mp hts
  exact (Apart.ident name .nil).tame

end Tame

theorem AllTame.pair (hts : Tame c d ts) (hus : Tame c d us) : AllTame c d [ts, us] := by
  intro vs hvs
  rcases List.mem_cons.mp hvs with rfl | hvs
  · exact hts
  · cases List.mem_singleton.mp hvs
    exact hus

/-! ## The placeholders of tame tokens -/

/-- The text of tokens with placeholders for their values, behind so many other values. -/
def filled (c : Scan) (d : Dialect) (ts : Tokens) (bound : Nat) : String :=
  interleave (pieces (c.spelling d) ts) (placeholders c.style bound (values ts).length)

theorem filled_cons_of_none (ht : t.value? = none) (ts : Tokens) (bound : Nat) :
    filled c d (t :: ts) bound = t.text (c.spelling d) ++ filled c d ts bound := by
  rw [filled, pieces, values, ht]
  exact interleave_prependText _ _ _ (pieces_ne_nil _ ts)

theorem filled_cons_of_some {nv : Option String × Value} (ht : t.value? = some nv) (ts : Tokens)
    (bound : Nat) :
    filled c d (t :: ts) bound = c.style.numbered (bound + 1) ++ filled c d ts (bound + 1) := by
  obtain ⟨name, v⟩ := nv
  rw [filled, pieces, values, ht]
  simp [placeholders, List.range'_succ, interleave, filled]

/-- Behind a value, the text of tokens that may stand there begins with no digit. -/
theorem Apart.head_filled (h : Apart c d ts) (bound : Nat) :
    ∀ ch ∈ (c.bare (filled c d ts bound).toList).head?, ch.isDigit = false := by
  cases ts with
  | nil => exact nofun
  | cons t ts =>
    cases ht : t.value? with
    | none =>
      obtain ⟨ch, hch, hdigit⟩ := h.ends t rfl ht
      obtain ⟨rest, hrest⟩ := List.head?_eq_some_iff.mp hch
      rw [filled_cons_of_none ht, String.toList_append, (h.tame.1 ht).silent.closed, hrest]
      intro ch' hch'
      cases hch'
      exact hdigit
    | some nv =>
      rw [filled_cons_of_some ht, String.toList_append, c.bare_numbered]
      exact c.head_numbered _ _

/-- **The placeholders of tame tokens.** In their text with placeholders, exactly those of their
values are found, numbered on from the values before. -/
theorem Tame.found (h : Tame c d ts) (bound : Nat) :
    c.found (filled c d ts bound) = placeholders c.style bound (values ts).length := by
  induction ts generalizing bound with
  | nil => rfl
  | cons t ts ih =>
    obtain ⟨hmute, hnext, hts⟩ := h
    cases ht : t.value? with
    | none =>
      have hsilent := (hmute ht).silent
      rw [Scan.found, filled_cons_of_none ht, String.toList_append, hsilent.closed,
        ParameterStyle.occurrences_append hsilent.unsigned, values, ht]
      exact ih hts bound
    | some nv =>
      -- What follows the value does not go on with its number.
      have hapart : Apart c d ts := ⟨hts, hnext (by simp [ht])⟩
      rw [Scan.found, filled_cons_of_some ht, String.toList_append, c.bare_numbered,
        ParameterStyle.occurrences_numbered c.positional _ (hapart.head_filled _), values, ht]
      obtain ⟨name, v⟩ := nv
      have hrest := ih hts (bound + 1)
      rw [Scan.found] at hrest
      rw [hrest]
      simp [placeholders, List.range'_succ]

/-! ## The places of placeholders -/

theorem Tame.of_append (h : Tame c d (ts ++ us)) : Tame c d ts := by
  induction ts with
  | nil => exact .nil
  | cons t ts ih =>
    obtain ⟨ht, hnext, hts⟩ := h
    refine ⟨ht, fun hvalue u hu => hnext hvalue u ?_, ih hts⟩
    cases ts with
    | nil => cases hu
    | cons v ts => exact hu

theorem values_append (ts us : Tokens) : values (ts ++ us) = values ts ++ values us := by
  induction ts with
  | nil => rfl
  | cons t ts ih =>
    rw [List.cons_append, values, values, ih]
    cases t.value? <;> rfl

/-- The text of tokens with one more value behind them. -/
theorem filled_snoc (ht : t.value? ≠ none) (ts : Tokens) (bound : Nat) :
    filled c d (ts ++ [t]) bound =
      filled c d ts bound ++ c.style.numbered (bound + (values ts).length + 1) := by
  induction ts generalizing bound with
  | nil =>
    obtain ⟨nv, hnv⟩ := Option.ne_none_iff_exists'.mp ht
    have hend : ∀ n, filled c d [] n = "" := fun _ => rfl
    rw [List.nil_append, filled_cons_of_some hnv, hend, hend, String.append_empty,
      String.empty_append]
    rfl
  | cons u ts ih =>
    rw [List.cons_append]
    cases hu : u.value? with
    | none =>
      rw [filled_cons_of_none hu, filled_cons_of_none hu, ih, String.append_assoc, values, hu]
    | some nv =>
      have hsucc : bound + 1 + (values ts).length = bound + ((values ts).length + 1) := by omega
      rw [filled_cons_of_some hu, filled_cons_of_some hu, ih, String.append_assoc, values, hu,
        List.length_cons, hsucc]

/-- Before each value stand tokens whose pieces are those before it. -/
theorem take_pieces (s : Spelling) {k : Nat} (hk : k < (values ts).length) :
    ∃ before t behind, ts = before ++ t :: behind ∧ t.value? ≠ none ∧
      (values before).length = k ∧ (pieces s ts).take (k + 1) = pieces s before := by
  induction ts generalizing k with
  | nil => exact absurd hk (Nat.not_lt_zero k)
  | cons u ts ih =>
    rw [values] at hk
    cases hu : u.value? with
    | none =>
      rw [hu] at hk
      obtain ⟨before, t, behind, hts, ht, hlength, htake⟩ := ih hk
      refine ⟨u :: before, t, behind, congrArg (u :: ·) hts, ht, ?_, ?_⟩
      · rw [values, hu]
        exact hlength
      · rw [pieces, pieces, hu, ← htake]
        cases pieces s ts <;> rfl
    | some nv =>
      have hvalue : u.value? ≠ none := by simp [hu]
      -- The token is the value that is looked for, or one of those before it.
      cases k with
      | zero =>
        have hfirst : (pieces s (u :: ts)).take 1 = [""] := by
          rw [pieces, hu]
          rfl
        exact ⟨[], u, ts, rfl, hvalue, rfl, hfirst⟩
      | succ k =>
        rw [hu] at hk
        obtain ⟨before, t, behind, hts, ht, hlength, htake⟩ := ih (Nat.lt_of_succ_lt_succ hk)
        refine ⟨u :: before, t, behind, congrArg (u :: ·) hts, ht, ?_, ?_⟩
        · rw [values, hu, List.length_cons, hlength]
        · rw [pieces, pieces, hu, List.take_succ_cons, htake]

/-- The placeholder of a value is found where it stands: before it those of the values before, and
with it one more. -/
theorem Tame.found_upto (h : Tame c d ts) {k : Nat} (hk : k < (values ts).length) :
    c.found (interleave ((pieces (c.spelling d) ts).take (k + 1)) (placeholders c.style 0 k)) =
        placeholders c.style 0 k ∧
      c.found (interleave ((pieces (c.spelling d) ts).take (k + 1)) (placeholders c.style 0 k) ++
          c.style.numbered (k + 1)) = placeholders c.style 0 (k + 1) := by
  obtain ⟨before, t, behind, rfl, ht, rfl, htake⟩ := take_pieces (c.spelling d) hk
  -- What is tame as a whole is tame up to any place.
  have hwith : Tame c d (before ++ [t]) := by
    rw [List.append_cons] at h
    exact h.of_append
  have hnumber := filled_snoc (c := c) (d := d) ht before 0
  have hcount : (values (before ++ [t])).length = (values before).length + 1 := by
    obtain ⟨nv, hnv⟩ := Option.ne_none_iff_exists'.mp ht
    rw [values_append, List.length_append, values, hnv]
    rfl
  rw [Nat.zero_add] at hnumber
  rw [htake]
  refine ⟨hwith.of_append.found 0, ?_⟩
  have hfound := hwith.found 0
  rwa [hnumber, hcount] at hfound

end Tokens

end SqlScribe
