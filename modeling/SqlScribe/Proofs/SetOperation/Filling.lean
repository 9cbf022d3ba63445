import SqlScribe.Proofs.SetOperation.Window
/-! # Values in texts

The values among tokens are written as literals, or bound one after the other with placeholders in
their places. Either way tokens without a value are written as they are, and what is written for a
value cannot be taken for a part of an ordering of no meaning.

* `Filling`: a way to write values, in view of those before them.
* `Filling.Writes`: what tokens become.
* `Statement.ordered_ne`: texts with and without some clauses for the order and the row window. -/

namespace SqlScribe

open Tokens Text

/-- A way to write values: each is written as it is or by a placeholder, in view of what was written
before it, or it is refused. -/
structure Filling (σ : Type) where
  /-- What is written for a token. -/
  write : Token → σ → Option (Token × σ)
  /-- A token without a value is written as it is. -/
  write_plain : ∀ {t : Token} (a : σ), t.value? = none → write t a = some (t, a)
  /-- A placeholder begins with a sign. -/
  write_eq : ∀ {t u : Token} {a b : σ}, write t a = some (u, b) →
    u = t ∨ ∃ text sign cs, u = .placeholder text ∧ text.toList = sign :: cs ∧ isSign sign = true

/-- Tokens among which there is no value. -/
def Tokens.Valueless (ts : Tokens) : Prop := ∀ t ∈ ts, t.value? = none

instance (ts : Tokens) : Decidable ts.Valueless :=
  inferInstanceAs (Decidable (∀ t ∈ ts, t.value? = none))

theorem ParameterStyle.toList_placeholder (style : ParameterStyle) (n : Nat) (name : String) :
    ∃ cs, (style.placeholder n name).toList = style.sign :: cs := by
  cases style <;> simp [placeholder, sign]

theorem Bindings.exists_placeholder {b b' : Bindings} {name : Option String} {v : Value}
    {text : String} (h : b.bind name v = .ok (text, b')) :
    ∃ n key, text = b.style.placeholder n key := by
  have hpair {x y : String × Bindings} (hx : x = y) : x.1 = y.1 := congrArg Prod.fst hx
  unfold bind at h
  dsimp only at h
  split at h
  · split at h
    · split at h
      · exact ⟨_, _, (hpair (Except.ok.inj h)).symm⟩
      · cases h
    · exact ⟨_, _, (hpair (Except.ok.inj h)).symm⟩
  · exact ⟨_, _, (hpair (Except.ok.inj h)).symm⟩

namespace Filling

/-- Values are written as literals. -/
def literals : Filling Unit where
  write t a := some (t, a)
  write_plain _ _ := rfl
  write_eq h := .inl (Prod.ext_iff.mp (Option.some.inj h)).1.symm

/-- Values are bound, and placeholders are written for them. -/
def placeholders : Filling Bindings where
  write t b := t.value?.elim (some (t, b)) fun v =>
    (b.bind v.1 v.2).toOption.map fun r => (.placeholder r.1, r.2)
  write_plain b h := by rw [h, Option.elim_none]
  write_eq := by
    intro t u a b h
    cases hvalue : t.value? with
    | none =>
      rw [hvalue] at h
      exact .inl (Prod.ext_iff.mp (Option.some.inj h)).1.symm
    | some v =>
      rw [hvalue, Option.elim_some] at h
      cases hbind : a.bind v.1 v.2 with
      | error e =>
        rw [hbind] at h
        cases h
      | ok r =>
        rw [hbind] at h
        cases Option.some.inj h
        obtain ⟨n, key, htext⟩ := Bindings.exists_placeholder hbind
        obtain ⟨cs, hcs⟩ := a.style.toList_placeholder n key
        exact .inr ⟨r.1, a.style.sign, cs, rfl, htext ▸ hcs, a.style.isSign_sign⟩

variable {σ : Type} (F : Filling σ)

/-- What tokens become, from one state to another. -/
inductive Writes : σ → Tokens → Tokens → σ → Prop where
  | nil (a : σ) : Writes a [] [] a
  | cons {a b c : σ} {t u : Token} {ts us : Tokens} :
    F.write t a = some (u, b) → Writes b ts us c → Writes a (t :: ts) (u :: us) c

namespace Writes

variable {F} {a b b' c : σ} {ts ts' us us' vs : Tokens} {p : Spelling}

theorem unique (h : F.Writes a ts us b) (h' : F.Writes a ts us' b') : us = us' ∧ b = b' := by
  induction h generalizing us' with
  | nil a =>
    cases h'
    exact ⟨rfl, rfl⟩
  | cons ht _ ih =>
    cases h' with
    | cons ht' h' =>
      cases Option.some.inj (ht.symm.trans ht')
      obtain ⟨rfl, rfl⟩ := ih h'
      exact ⟨rfl, rfl⟩

theorem append_inv (h : F.Writes a (ts ++ ts') vs c) :
    ∃ us us' b, vs = us ++ us' ∧ F.Writes a ts us b ∧ F.Writes b ts' us' c := by
  induction ts generalizing a vs with
  | nil => exact ⟨[], vs, a, rfl, .nil a, h⟩
  | cons t ts ih =>
    cases h with
    | cons ht h =>
      obtain ⟨us, us', b, rfl, hts, hts'⟩ := ih h
      exact ⟨_ :: us, us', b, rfl, .cons ht hts, hts'⟩

theorem plain (h : F.Writes a ts us b) (hts : ts.Valueless) : us = ts ∧ b = a := by
  induction h with
  | nil a => exact ⟨rfl, rfl⟩
  | @cons a _ _ t _ _ _ ht _ ih =>
    obtain ⟨hvalue, hts⟩ := List.forall_mem_cons.mp hts
    cases Option.some.inj (ht.symm.trans (F.write_plain a hvalue))
    obtain ⟨rfl, rfl⟩ := ih hts
    exact ⟨rfl, rfl⟩

theorem cons_plain {t : Token} (h : F.Writes a (t :: ts) vs c) (ht : t.value? = none) :
    ∃ us, vs = t :: us ∧ F.Writes a ts us c := by
  cases h with
  | cons hwrite h =>
    cases Option.some.inj (hwrite.symm.trans (F.write_plain a ht))
    exact ⟨_, rfl, h⟩

/-- Tokens without a value stand in the text as they do among the tokens. -/
theorem plain_append (h : F.Writes a (ts ++ ts') vs c) (hts : ts.Valueless) :
    ∃ us', vs = ts ++ us' ∧ F.Writes a ts' us' c := by
  obtain ⟨us, us', b, rfl, hus, hus'⟩ := h.append_inv
  obtain ⟨rfl, rfl⟩ := hus.plain hts
  exact ⟨us', rfl, hus'⟩

theorem append_plain (h : F.Writes a (ts ++ ts') vs c) (hts' : ts'.Valueless) :
    ∃ us, vs = us ++ ts' ∧ F.Writes a ts us c := by
  obtain ⟨us, us', b, rfl, hus, hus'⟩ := h.append_inv
  obtain ⟨rfl, rfl⟩ := hus'.plain hts'
  exact ⟨us, rfl, hus⟩

/-- A text without a sign has no placeholder in it. -/
theorem eq_of_unsigned (h : F.Writes a ts us b) (hus : ∀ ch ∈ chars p us, isSign ch = false) :
    us = ts := by
  induction h with
  | nil a => rfl
  | cons ht _ ih =>
    rw [chars_cons, List.forall_mem_append] at hus
    obtain ⟨hu, hus⟩ := hus
    rw [ih hus]
    rcases F.write_eq ht with rfl | ⟨text, sign, cs, rfl, htext, hsign⟩
    · rfl
    · have hnone : isSign sign = false := hu sign (by rw [Token.text, htext]; exact .head _)
      cases hsign.symm.trans hnone

/-- What a text begins with before any sign is not written by placeholders. -/
theorem prefix_chars (h : F.Writes a ts us b) {w : List Char} (hw : ∀ ch ∈ w, isSign ch = false)
    (hus : w <+: chars p us) : w <+: chars p ts := by
  induction h generalizing w with
  | nil a => exact hus
  | @cons _ _ _ t u ts us ht _ ih =>
    rw [chars_cons] at hus ⊢
    rcases F.write_eq ht with rfl | ⟨text, sign, cs, rfl, htext, hsign⟩
    · rcases List.prefix_or_prefix_of_prefix hus (List.prefix_append _ _) with hu | ⟨w', rfl⟩
      · exact hu.trans (List.prefix_append _ _)
      · obtain ⟨-, hw'⟩ := List.forall_mem_append.mp hw
        exact (List.prefix_append_right_inj _).mpr
          (ih hw' ((List.prefix_append_right_inj _).mp hus))
    · cases w with
      | nil => exact List.nil_prefix
      | cons ch w =>
        rw [Token.text, htext, List.cons_append, List.cons_prefix_cons] at hus
        cases hsign.symm.trans (hus.1 ▸ hw ch List.mem_cons_self)

/-- An ordering that is written as one of no meaning has no values in what makes it one. -/
theorem meansNoOrder (h : F.Writes a ts us b) (hus : MeansNoOrder (chars p us)) :
    MeansNoOrder (chars p ts) := by
  have hunsigned {w : List Char} (hw : w.all (!isSign ·) = true) : ∀ ch ∈ w, isSign ch = false := by
    simpa using hw
  rcases hus with hus | hus
  · rw [h.eq_of_unsigned (hunsigned (by rw [hus]; decide))] at hus
    exact .inl hus
  · exact .inr (h.prefix_chars (hunsigned (by decide)) hus)

end Writes

/-- Literals are written as they are. -/
theorem literals_writes (ts : Tokens) : literals.Writes () ts ts () := by
  induction ts with
  | nil => exact .nil ()
  | cons t ts ih => exact .cons rfl ih

/-- A token whose text is bound is written as it is if it has no value, and by the placeholder for
its value otherwise. -/
theorem write_of_textBound {p : Spelling} {t : Token} {b b' : Bindings} {text : String}
    (h : t.textBound p b = .ok (text, b')) :
    ∃ u, placeholders.write t b = some (u, b') ∧ text = u.text p := by
  rw [Token.textBound] at h
  cases hvalue : t.value? with
  | none =>
    rw [hvalue] at h
    cases h
    exact ⟨t, placeholders.write_plain b hvalue, rfl⟩
  | some v =>
    rw [hvalue] at h
    have hbind : b.bind v.1 v.2 = .ok (text, b') := h
    refine ⟨.placeholder text, ?_, rfl⟩
    show t.value?.elim _ _ = _
    rw [hvalue, Option.elim_some, hbind]
    rfl

/-- A text with placeholders is that of tokens that are written so. -/
theorem writes_of_textBound {p : Spelling} {ts : Tokens} {b b' : Bindings} {text : String}
    (h : textBound p ts b = (.ok text, b')) :
    ∃ us, placeholders.Writes b ts us b' ∧ text = us.text p := by
  induction ts generalizing b text with
  | nil =>
    cases h
    exact ⟨[], .nil b', rfl⟩
  | cons t ts ih =>
    rw [textBound] at h
    cases ht : t.textBound p b with
    | error e =>
      rw [ht] at h
      cases h
    | ok r =>
      obtain ⟨piece, b₁⟩ := r
      rw [ht] at h
      dsimp only at h
      cases hrest : textBound p ts b₁ with
      | mk result b₂ =>
        rw [hrest] at h
        cases result with
        | error e => cases h
        | ok rest =>
          cases h
          obtain ⟨u, hwrite, rfl⟩ := write_of_textBound ht
          obtain ⟨us, hus, rfl⟩ := ih hrest
          exact ⟨u :: us, .cons hwrite hus, rfl⟩

end Filling

section Order

open PaginationStyle

variable {d : Dialect} {p : Spelling} {lim lim' off off' : Option UInt64} {r r' : List Char}

namespace Statement

theorem windowClause_valueless (d : Dialect) (unordered : Bool) (limit offset : Option UInt64) :
    (windowClause d unordered limit offset).Valueless := by
  have hclause {write : Token → Tokens} (hwrite : ∀ n, (write (countToken n)).Valueless)
      (n : Option UInt64) : (clause write n).Valueless := by
    cases n with
    | none => exact List.forall_mem_nil _
    | some n => exact hwrite n
  have hlimit : ∀ n, (PaginationStyle.limitClause (countToken n)).Valueless := by
    simp [Valueless, PaginationStyle.limitClause, countToken, Token.value?]
  have hoffset : ∀ n, (offsetClause (countToken n)).Valueless := by
    simp [Valueless, offsetClause, countToken, Token.value?]
  have hrows : ∀ n, (offsetRows (countToken n)).Valueless := by
    simp [Valueless, offsetRows, offsetClause, countToken, Token.value?]
  have hfetch : ∀ n, (fetchNext (countToken n)).Valueless := by
    simp [Valueless, fetchNext, countToken, Token.value?]
  have hunbounded (text : String) : (PaginationStyle.limitClause (.raw text)).Valueless := by
    simp [Valueless, PaginationStyle.limitClause, Token.value?]
  refine List.forall_mem_append.mpr ⟨?_, ?_⟩
  · split
    · simp [Token.value?]
    · exact List.forall_mem_nil _
  · unfold Dialect.window PaginationStyle.window
    split
    · exact List.forall_mem_append.mpr ⟨hclause hlimit _, hclause hoffset _⟩
    · split
      · exact List.forall_mem_append.mpr ⟨hunbounded _, hoffset _⟩
      · exact List.forall_mem_append.mpr ⟨hclause hlimit _, hclause hoffset _⟩
    · exact List.forall_mem_nil _
    · exact List.forall_mem_append.mpr ⟨hrows _, hclause hfetch _⟩
    · exact List.forall_mem_append.mpr ⟨hclause hrows _, hclause hfetch _⟩

/-- The order and the row window of a query or of the result of a set operation. -/
def orderTokens (d : Dialect) (l : List Tokens) (limit offset : Option UInt64) : Tokens :=
  headed .ORDER_BY l ++ windowClause d l.isEmpty limit offset

/-- **Texts with and without some clauses.** The order and the row window of a query or of the
result of a set operation differ from those without some more terms of the order, another limit or
another offset, whatever comes behind and however values are written. -/
theorem ordered_ne (h : d.profile.wrapsOperands = true) {l e : List Tokens}
    (hmeans : d.profile.orderForOffset = true → l = [] → ¬MeansNoOrder (chars p (listed e)))
    (hlim : lim'.isSome = true → lim = none) (hoff : off'.isSome = true → off = none)
    (hextra : e ≠ [] ∨ lim'.isSome = true ∨ (properOffset off').isSome = true)
    (hr : GoesOn closing r) {σ : Type} {F : Filling σ} {a b b' : σ} {us us' : Tokens}
    (hus' : F.Writes a (orderTokens d (l ++ e) (lim'.or lim) (off'.or off)) us' b')
    (hus : F.Writes a (orderTokens d l lim off) us b) :
    chars p us' ++ r' ≠ chars p us ++ r := by
  obtain ⟨hs', rfl, hhead'⟩ := hus'.append_plain (windowClause_valueless _ _ _ _)
  obtain ⟨hs, rfl, hhead⟩ := hus.append_plain (windowClause_valueless _ _ _ _)
  by_cases he : e = []
  · rw [he, List.append_nil] at hhead' ⊢
    obtain ⟨rfl, -⟩ := hhead'.unique hhead
    rw [chars_append, chars_append, List.append_assoc, List.append_assoc]
    exact fun heq => windowClause_ne h _ hlim hoff (hextra.resolve_left (not_not_intro he)) hr
      (List.append_cancel_left heq)
  · have hnonempty : (l ++ e).isEmpty = false := by simp [he]
    have hlead : Valueless [.space, .word .ORDER_BY, .space] := by decide
    rw [headed_eq _ (List.append_ne_nil_of_right_ne_nil _ he)] at hhead'
    obtain ⟨ls', rfl, hlist'⟩ := hhead'.plain_append hlead
    rw [hnonempty]
    by_cases hl : l = []
    · rw [hl] at hhead hlist' ⊢
      obtain ⟨rfl, -⟩ := hhead.plain (List.forall_mem_nil _)
      rw [List.append_assoc]
      exact ordering_ne_windowClause h
        (fun horder hmeaningless => hmeans horder hl (hlist'.meansNoOrder hmeaningless)) hoff hr
    · have hnonempty' : l.isEmpty = false := by simpa using hl
      rw [headed_eq _ hl] at hhead
      obtain ⟨ls, rfl, hlist⟩ := hhead.plain_append hlead
      -- The order goes on with a comma where the other one is at its end.
      rw [listed_append hl he] at hlist'
      obtain ⟨ls₀, es, b₀, rfl, hls₀, hes⟩ := hlist'.append_inv
      obtain ⟨rfl, -⟩ := hls₀.unique hlist
      obtain ⟨es, rfl, -⟩ := hes.cons_plain rfl
      rw [hnonempty']
      generalize [Token.space, .word .ORDER_BY, .space] = lead
      simp only [chars_append, List.append_assoc, List.cons_append, chars_comma]
      intro heq
      have hrest := List.append_cancel_left (List.append_cancel_left heq)
      exact (windowClause_goesOn h Bool.noConfusion hr).ne_comma _ hrest

end Statement

end Order

end SqlScribe
