import Mathlib.Data.List.Infix
import SqlScribe.Lowering.Statement
import SqlScribe.Proofs.Comment.Syntax
import SqlScribe.Proofs.Placeholder.Text
import SqlScribe.Proofs.SetOperation.Operands
/-! # Texts with and without an order and a row window

The clauses for the order and the row window of a result each begin with a keyword behind a blank,
and so does what may stand behind them, unless it is a closing parenthesis or nothing. A text in
which there is one more of these clauses differs from the text without it, whatever comes behind.

* `Text.Diverge`: texts of which neither begins with the other.
* `Text.GoesOn`: what may stand behind a clause.
* `Text.MeansNoOrder`: what may be taken for an ordering written only where one is needed.
* `Statement.ordering_ne_windowClause`: an order of some meaning is not the beginning of a row
  window. -/

namespace SqlScribe

open Tokens

/-! ## Characters -/

namespace Tokens

variable (p : Spelling)

/-- The characters of the text of tokens. -/
def chars (ts : Tokens) : List Char := (ts.text p).toList

@[simp] theorem chars_nil : chars p [] = [] := rfl

theorem chars_cons (t : Token) (ts : Tokens) :
    chars p (t :: ts) = (t.text p).toList ++ chars p ts := String.toList_append ..

@[simp] theorem chars_append (ts us : Tokens) : chars p (ts ++ us) = chars p ts ++ chars p us := by
  rw [chars, toList_text, List.flatMap_append, ← toList_text, ← toList_text]
  rfl

theorem chars_space (ts : Tokens) : chars p (.space :: ts) = ' ' :: chars p ts := by
  have hblank : (Token.text p .space).toList = [' '] := by simp [Token.text]
  rw [chars_cons, hblank, List.singleton_append]

theorem chars_comma (ts : Tokens) : chars p (.mark .comma :: ts) = ',' :: chars p ts := by
  have hcomma : (Token.text p (.mark .comma)).toList = [','] := by simp [Token.text, Mark.text]
  rw [chars_cons, hcomma, List.singleton_append]

theorem listed_append {l e : List Tokens} (hl : l ≠ []) (he : e ≠ []) :
    listed (l ++ e) = listed l ++ .mark .comma :: listed e := by
  induction l with
  | nil => exact absurd rfl hl
  | cons ts l ih =>
    cases l with
    | nil =>
      obtain ⟨us, e, rfl⟩ := List.exists_cons_of_ne_nil he
      rfl
    | cons us l =>
      have hrest := ih (List.cons_ne_nil _ _)
      rw [List.cons_append, List.cons_append, listed_cons_cons, ← List.cons_append, hrest,
        listed_cons_cons, List.append_assoc, List.cons_append]

end Tokens

namespace Text

variable {a b x y : List Char}

/-- Neither text begins with the other. -/
def Diverge (a b : List Char) : Prop := ¬a <+: b ∧ ¬b <+: a

instance : Decidable (Diverge a b) := inferInstanceAs (Decidable (_ ∧ _))

theorem Diverge.ne (h : Diverge a b) (ha : a <+: x) (hb : b <+: y) : x ≠ y := by
  rintro rfl
  exact (List.prefix_or_prefix_of_prefix ha hb).elim h.1 h.2

end Text

/-- A keyword behind a blank. -/
def Keyword.lead (k : Keyword) : List Char := ' ' :: k.text.toList

namespace Text

/-- The text ends here, or goes on with a closing parenthesis or with one of some keywords behind a
blank. -/
def GoesOn (ks : List Keyword) (cs : List Char) : Prop :=
  cs = [] ∨ cs.head? = some ')' ∨ ∃ k ∈ ks, k.lead <+: cs

/-- The keywords that may stand behind the order and the row window of a query. -/
def closing : List Keyword := [.FOR, .ON, .RETURNING]

namespace GoesOn

variable {ks ks' : List Keyword} {cs : List Char}

theorem mono (h : GoesOn ks cs) (hks : ks ⊆ ks') : GoesOn ks' cs := by
  rcases h with h | h | ⟨k, hk, h⟩
  · exact .inl h
  · exact .inr (.inl h)
  · exact .inr (.inr ⟨k, hks hk, h⟩)

theorem word (k : Keyword) (ks : List Keyword) (cs : List Char) : GoesOn (k :: ks) (k.lead ++ cs) :=
  .inr (.inr ⟨k, List.mem_cons_self, List.prefix_append _ _⟩)

/-- What goes on with other keywords does not go on with this one. -/
theorem ne_lead (h : GoesOn ks cs) {k : Keyword} (hk : ∀ k' ∈ ks, Diverge k.lead k'.lead)
    (x : List Char) : k.lead ++ x ≠ cs := by
  rcases h with rfl | h | ⟨k', hk', h⟩
  · exact List.cons_ne_nil _ _
  · rintro rfl
    cases h
  · exact (hk k' hk').ne (List.prefix_append _ _) h

theorem ne_comma (h : GoesOn ks cs) (x : List Char) : ',' :: x ≠ cs := by
  rintro rfl
  rcases h with h | h | ⟨k, -, h⟩
  · cases h
  · cases h
  · cases (List.cons_prefix_cons.mp h).1

end GoesOn

end Text

/-! ## Row windows -/

section Window

open PaginationStyle Text

variable {p : Spelling} {lim lim' off off' : Option UInt64} {r r' : List Char}

theorem Tokens.chars_word (p : Spelling) (k : Keyword) (ts : Tokens) :
    chars p (.space :: .word k :: ts) = k.lead ++ chars p ts := by
  rw [chars_space, chars_cons]
  rfl

theorem Tokens.headed_eq (k : Keyword) {l : List Tokens} (hl : l ≠ []) :
    headed k l = [.space, .word k, .space] ++ listed l := by
  obtain ⟨ts, l, rfl⟩ := List.exists_cons_of_ne_nil hl
  rfl

theorem Tokens.chars_headed (k : Keyword) {l : List Tokens} (hl : l ≠ []) :
    chars p (headed k l) = k.lead ++ ' ' :: chars p (listed l) := by
  rw [headed_eq k hl]
  exact (chars_word p k _).trans (congrArg (k.lead ++ ·) (chars_space p _))

/-- The clause begins with a keyword, whatever count is in it. -/
def Keyword.Opens (k : Keyword) (write : Token → Tokens) : Prop :=
  ∀ t, ∃ ts, write t = .space :: .word k :: ts

theorem limitClause_opens : Keyword.LIMIT.Opens limitClause := fun _ => ⟨_, rfl⟩

theorem offsetClause_opens : Keyword.OFFSET.Opens offsetClause := fun _ => ⟨_, rfl⟩

theorem offsetRows_opens : Keyword.OFFSET.Opens offsetRows := fun _ => ⟨_, rfl⟩

theorem fetchNext_opens : Keyword.FETCH.Opens fetchNext := fun _ => ⟨_, rfl⟩

namespace Keyword.Opens

variable {k k' : Keyword} {write write' : Token → Tokens}

theorem chars_eq (h : k.Opens write) (t : Token) : ∃ cs, chars p (write t) = k.lead ++ cs := by
  obtain ⟨ts, hts⟩ := h t
  exact ⟨_, hts ▸ chars_word p k ts⟩

theorem goesOn (h : k.Opens write) {ks : List Keyword} (hr : GoesOn ks r) (n : Option UInt64) :
    GoesOn (k :: ks) (chars p (clause write n) ++ r) := by
  cases n with
  | none => exact hr.mono (List.subset_cons_self _ _)
  | some n =>
    obtain ⟨cs, hcs⟩ := h.chars_eq (p := p) (countToken n)
    rw [clause, hcs, List.append_assoc]
    exact .word k ks _

/-- A clause that is there differs from what goes on without it. -/
theorem some_ne (h : k.Opens write) {ks : List Keyword} (hr : GoesOn ks r)
    (hk : ∀ k' ∈ ks, Diverge k.lead k'.lead) (n : UInt64) (x : List Char) :
    chars p (write (countToken n)) ++ x ≠ r := by
  obtain ⟨cs, hcs⟩ := h.chars_eq (p := p) (countToken n)
  rw [hcs, List.append_assoc]
  exact hr.ne_lead hk _

/-- Two clauses, of which one more is there than without the counts `lim'` and `off'`. -/
theorem pair_ne (h : k.Opens write) (h' : k'.Opens write') (hkk' : Diverge k.lead k'.lead)
    (hk : ∀ j ∈ closing, Diverge k.lead j.lead) (hk' : ∀ j ∈ closing, Diverge k'.lead j.lead)
    (hlim : lim'.isSome = true → lim = none) (hoff : off'.isSome = true → off = none)
    (hextra : lim'.isSome = true ∨ off'.isSome = true) (hr : GoesOn closing r) :
    chars p (clause write (lim'.or lim) ++ clause write' (off'.or off)) ++ r' ≠
      chars p (clause write lim ++ clause write' off) ++ r := by
  rw [chars_append, chars_append, List.append_assoc, List.append_assoc]
  cases lim' with
  | some n =>
    rw [hlim rfl]
    exact h.some_ne (h'.goesOn hr off) (List.forall_mem_cons.mpr ⟨hkk', hk⟩) n _
  | none =>
    cases off' with
    | none => simp at hextra
    | some n =>
      rw [hoff rfl]
      exact fun heq => h'.some_ne hr hk' n _ (List.append_cancel_left heq)

end Keyword.Opens

/-- An ordering of no meaning. -/
def meaningless : List Tokens := [[.raw "(SELECT 0)"]]

theorem meaningless_ne_nil : meaningless ≠ [] := List.cons_ne_nil _ _

/-- A row window in which a fetch stands behind an offset, with or without an ordering of no meaning
before it. -/
def offsetFetchTokens (unordered : Bool) (lim off : Option UInt64) : Tokens :=
  if lim.isSome || off.isSome then
    headed .ORDER_BY (if unordered then meaningless else []) ++
      (offsetRows (countToken (off.getD 0)) ++ clause fetchNext lim)
  else []

/-- Different counts are written differently, if no digit follows. -/
theorem chars_count_inj {m n : UInt64} {x y : List Char}
    (h : chars p [countToken m] ++ ' ' :: x = chars p [countToken n] ++ ' ' :: y) :
    writtenCount m = writtenCount n := by
  have hdigits (k : UInt64) :
      chars p [countToken k] = Nat.toDigits 10 (min k.toNat greatestCount) := by
    have hcast : writtenCount k = ((min k.toNat greatestCount : Nat) : Int) := by
      unfold writtenCount
      omega
    have htext : (Int.repr ((min k.toNat greatestCount : Nat) : Int)).toList =
        Nat.toDigits 10 (min k.toNat greatestCount) := by simp [Int.repr]
    rw [chars_cons, chars_nil, List.append_nil, countToken, hcast]
    exact htext
  -- Each count is what is written up to the first character that is no digit.
  rw [hdigits, hdigits] at h
  have htake := congrArg (List.takeWhile Char.isDigit) h
  rw [Text.takeWhile_toDigits _ (by simp), Text.takeWhile_toDigits _ (by simp)]
    at htake
  have hnumber : min m.toNat greatestCount = min n.toNat greatestCount := by
    rw [← Nat.ofDigitChars_ten_toDigits (n := min m.toNat greatestCount), htake,
      Nat.ofDigitChars_ten_toDigits]
  unfold writtenCount
  omega

/-- An offset that passes over some rows is not written as one that passes over none. -/
theorem offsetRows_ne {n : UInt64} (hn : 0 < n) (x y : List Char) :
    chars p (offsetRows (countToken n)) ++ x ≠ chars p (offsetRows (countToken 0)) ++ y := by
  have hrows (k : UInt64) (x : List Char) : chars p (offsetRows (countToken k)) ++ x =
      Keyword.OFFSET.lead ++ ' ' :: (chars p [countToken k] ++ ' ' :: ("ROWS".toList ++ x)) := by
    have hsplit : offsetRows (countToken k) = ([.space, .word .OFFSET, .space] : Tokens) ++
        ([countToken k] ++ ([.space, .word .ROWS] : Tokens)) := rfl
    rw [hsplit, chars_append, chars_append, chars_word, chars_word, chars_space]
    simp only [chars_nil, List.append_nil, List.append_assoc, List.cons_append, List.nil_append]
    rfl
  rw [hrows, hrows]
  intro h
  have hcount := chars_count_inj (List.cons.inj (List.append_cancel_left h)).2
  have hpositive := UInt64.lt_iff_toNat_lt.mp hn
  unfold writtenCount greatestCount at hcount
  simp at hcount hpositive
  omega

theorem offsetFetch_ne (unordered : Bool) (hlim : lim'.isSome = true → lim = none)
    (hoff : off'.isSome = true → off = none) (hextra : lim'.isSome = true ∨ off'.isSome = true)
    (hpositive : ∀ n ∈ off', 0 < n) (hr : GoesOn closing r) :
    chars p (offsetFetchTokens unordered (lim'.or lim) (off'.or off)) ++ r' ≠
      chars p (offsetFetchTokens unordered lim off) ++ r := by
  have hsome : ((lim'.or lim).isSome || (off'.or off).isSome) = true := by
    rcases hextra with h | h <;> simp [h]
  rw [offsetFetchTokens, if_pos hsome, offsetFetchTokens]
  cases hwindow : lim.isSome || off.isSome with
  | false =>
    -- Only the one text has a row window here, and the other goes on with another keyword.
    rw [if_neg Bool.false_ne_true, chars_nil, List.nil_append]
    cases unordered with
    | true =>
      rw [if_pos rfl, chars_append, chars_headed _ meaningless_ne_nil, List.append_assoc,
        List.append_assoc]
      exact hr.ne_lead (by decide) _
    | false =>
      rw [if_neg Bool.false_ne_true, headed, List.nil_append, chars_append, List.append_assoc]
      exact offsetRows_opens.some_ne hr (by decide) _ _
  | true =>
    -- Both have one, which begins with an offset: the offsets differ, or there is one more fetch.
    rw [if_pos rfl]
    simp only [chars_append, List.append_assoc]
    refine fun heq => absurd (List.append_cancel_left heq) ?_
    cases off' with
    | some n =>
      rw [hoff rfl]
      exact offsetRows_ne (hpositive n rfl) _ _
    | none =>
      obtain ⟨n, rfl⟩ := Option.isSome_iff_exists.mp (hextra.resolve_right Bool.false_ne_true)
      rw [hlim rfl]
      exact fun heq =>
        fetchNext_opens.some_ne hr (by decide) n _ (List.append_cancel_left heq)

end Window

/-! ## Order and row window -/

namespace Text

/-- The text stands for an ordering of no meaning, or for one and more behind it. -/
def MeansNoOrder (cs : List Char) : Prop :=
  cs = "(SELECT 0)".toList ∨ "(SELECT 0)".toList ++ Keyword.OFFSET.lead <+: cs

instance (cs : List Char) : Decidable (MeansNoOrder cs) := inferInstanceAs (Decidable (_ ∨ _))

theorem prefix_of_prefix_append {a v x : List Char} (h : a <+: v ++ (a ++ x)) : a <+: v ++ a := by
  rw [← List.append_assoc] at h
  refine List.prefix_of_prefix_length_le h (List.prefix_append _ _) ?_
  rw [List.length_append]
  exact Nat.le_add_left _ _

/-- What stands before an offset, where an ordering of no meaning may stand, is one. -/
theorem meansNoOrder_of_append {u x y : List Char}
    (h : u ++ (Keyword.OFFSET.lead ++ x) = "(SELECT 0)".toList ++ (Keyword.OFFSET.lead ++ y)) :
    MeansNoOrder u := by
  rcases List.append_eq_append_iff.mp h with ⟨v, hv, hx⟩ | ⟨v, hu, hy⟩
  · -- `u` ends within the ordering of no meaning, and the keyword begins in no other part of it.
    have hnil : ∀ v ∈ "(SELECT 0)".toList.tails,
        Keyword.OFFSET.lead <+: v ++ Keyword.OFFSET.lead → v = [] := by decide
    have hshift : Keyword.OFFSET.lead <+: v ++ Keyword.OFFSET.lead :=
      prefix_of_prefix_append ⟨x, hx⟩
    rw [hnil v ((List.mem_tails ..).mpr ⟨u, hv.symm⟩) hshift, List.append_nil] at hv
    exact .inl hv.symm
  · -- `u` is the ordering with `v` behind it, and the keyword does not begin within itself.
    have hwhole : ∀ v ∈ Keyword.OFFSET.lead.inits,
        Keyword.OFFSET.lead <+: v ++ Keyword.OFFSET.lead → v = [] ∨ v = Keyword.OFFSET.lead := by
      decide
    have hshift : Keyword.OFFSET.lead <+: v ++ (Keyword.OFFSET.lead ++ x) := ⟨y, hy⟩
    rcases List.prefix_or_prefix_of_prefix hshift (List.prefix_append _ _) with hv | hv
    · exact .inr (hu ▸ (List.prefix_append_right_inj _).mpr hv)
    · rcases hwhole v ((List.mem_inits ..).mpr hv) (prefix_of_prefix_append hshift) with rfl | rfl
      · exact .inl (hu.trans (List.append_nil _))
      · exact .inr (hu ▸ List.prefix_rfl)

end Text

section Order

open PaginationStyle Text

variable {d : Dialect} {p : Spelling} {lim lim' off off' : Option UInt64} {r r' : List Char}

theorem properOffset_idem (off : Option UInt64) :
    properOffset (properOffset off) = properOffset off := by
  unfold properOffset
  rw [Option.filter_filter]
  simp

theorem properOffset_or (h : off'.isSome = true → off = none) :
    properOffset (off'.or off) = (properOffset off').or (properOffset off) := by
  cases off' with
  | none => rfl
  | some n =>
    rw [h rfl]
    exact (Option.or_none).symm

theorem properOffset_pos {n : UInt64} (h : n ∈ properOffset off) : 0 < n := by
  simpa using (Option.mem_filter_iff.mp h).2

namespace Statement

/-- How a row window is written in the dialects that put operands in parentheses. -/
theorem windowClause_cases (h : d.profile.wrapsOperands = true) :
    (d.profile.orderForOffset = false ∧ ∀ unordered lim off,
      windowClause d unordered lim off =
        clause PaginationStyle.limitClause lim ++ clause offsetClause (properOffset off)) ∨
    (d.profile.orderForOffset = false ∧ ∀ unordered lim off,
      windowClause d unordered lim off =
        clause offsetRows (properOffset off) ++ clause fetchNext lim) ∨
    (d.profile.orderForOffset = true ∧ ∀ unordered lim off,
      windowClause d unordered lim off = offsetFetchTokens unordered lim (properOffset off)) := by
  have hwindow {d : Dialect} (hd : d.profile.orderForOffset = false) (unordered : Bool)
      (lim off : Option UInt64) :
      windowClause d unordered lim off = d.window lim (properOffset off) := by
    rw [windowClause, hd, Bool.and_false, if_neg Bool.false_ne_true]
    rfl
  have hlimit (lim off : Option UInt64) :
      PaginationStyle.limitOffset.window lim (properOffset off) =
        clause PaginationStyle.limitClause lim ++ clause offsetClause (properOffset off) := by
    rw [PaginationStyle.window, properOffset_idem]
  have hfetch (lim off : Option UInt64) :
      PaginationStyle.fetchOnly.window lim (properOffset off) =
        clause offsetRows (properOffset off) ++ clause fetchNext lim := by
    rw [PaginationStyle.window, properOffset_idem]
  cases d with
  | mysql => cases h
  | sqlite => cases h
  | oracle =>
    exact .inr (.inl ⟨rfl, fun unordered lim off =>
      (hwindow rfl unordered lim off).trans (hfetch lim off)⟩)
  | mssql =>
    refine .inr (.inr ⟨rfl, fun unordered lim off => ?_⟩)
    unfold windowClause
    dsimp only
    generalize properOffset off = off
    cases unordered <;> cases lim <;> cases off <;> rfl
  | _ =>
    exact .inl ⟨rfl, fun unordered lim off =>
      (hwindow rfl unordered lim off).trans (hlimit lim off)⟩

/-- A row window that keeps fewer rows or passes over more differs from what goes on without. -/
theorem windowClause_ne (h : d.profile.wrapsOperands = true) (unordered : Bool)
    (hlim : lim'.isSome = true → lim = none) (hoff : off'.isSome = true → off = none)
    (hextra : lim'.isSome = true ∨ (properOffset off').isSome = true) (hr : GoesOn closing r) :
    chars p (windowClause d unordered (lim'.or lim) (off'.or off)) ++ r' ≠
      chars p (windowClause d unordered lim off) ++ r := by
  have hproper : (properOffset off').isSome = true → properOffset off = none := by
    intro hsome
    rw [hoff (Option.isSome_of_isSome_filter _ _ hsome)]
    rfl
  rcases windowClause_cases h with ⟨-, heq⟩ | ⟨-, heq⟩ | ⟨-, heq⟩
  · rw [heq, heq, properOffset_or hoff]
    exact limitClause_opens.pair_ne offsetClause_opens (by decide) (by decide) (by decide)
      hlim hproper hextra hr
  · rw [heq, heq, properOffset_or hoff]
    exact offsetRows_opens.pair_ne fetchNext_opens (by decide) (by decide) (by decide)
      hproper hlim hextra.symm hr
  · rw [heq, heq, properOffset_or hoff]
    exact offsetFetch_ne unordered hlim hproper hextra (fun n hn => properOffset_pos hn) hr

/-- A row window goes on with a keyword of its own, unless an ordering of no meaning stands before
it. -/
theorem windowClause_goesOn (h : d.profile.wrapsOperands = true) {unordered : Bool}
    (hd : unordered = true → d.profile.orderForOffset = false) (hr : GoesOn closing r) :
    GoesOn (.LIMIT :: .OFFSET :: .FETCH :: closing)
      (chars p (windowClause d unordered lim off) ++ r) := by
  rcases windowClause_cases h with ⟨-, heq⟩ | ⟨-, heq⟩ | ⟨horder, heq⟩
  · rw [heq, chars_append, List.append_assoc]
    exact (limitClause_opens.goesOn (offsetClause_opens.goesOn hr _) _).mono (by simp [closing])
  · rw [heq, chars_append, List.append_assoc]
    exact (offsetRows_opens.goesOn (fetchNext_opens.goesOn hr _) _).mono (by simp [closing])
  · cases unordered with
    | true =>
      rw [hd rfl] at horder
      cases horder
    | false =>
      rw [heq, offsetFetchTokens]
      split
      · rw [if_neg Bool.false_ne_true, headed, List.nil_append, chars_append, List.append_assoc]
        exact (offsetRows_opens.goesOn (fetchNext_opens.goesOn hr _) (some _)).mono
          (by simp [closing])
      · exact hr.mono (by simp [closing])

/-- An ordering is not taken for the row window that stands in its place. -/
theorem ordering_ne_windowClause (h : d.profile.wrapsOperands = true) {es : Tokens}
    (hmeans : d.profile.orderForOffset = true → ¬MeansNoOrder (chars p es))
    (hoff : off'.isSome = true → off = none) (hr : GoesOn closing r) :
    chars p ([.space, .word .ORDER_BY, .space] ++
        (es ++ windowClause d false (lim'.or lim) (off'.or off))) ++ r' ≠
      chars p (windowClause d true lim off) ++ r := by
  have hlead (ts : Tokens) : chars p ([.space, .word .ORDER_BY, .space] ++ ts) =
      Keyword.ORDER_BY.lead ++ ' ' :: chars p ts := by
    rw [List.cons_append, List.cons_append, chars_word, List.singleton_append, chars_space]
  rw [hlead, List.append_assoc]
  cases horder : d.profile.orderForOffset with
  | false =>
    exact (windowClause_goesOn h (fun _ => horder) hr).ne_lead (by decide) _
  | true =>
    obtain ⟨hplain, -⟩ | ⟨hplain, -⟩ | ⟨-, heq⟩ := windowClause_cases h
    · cases horder.symm.trans hplain
    · cases horder.symm.trans hplain
    rw [heq, heq, properOffset_or hoff, offsetFetchTokens, offsetFetchTokens]
    cases hwindow : lim.isSome || (properOffset off).isSome with
    | false =>
      exact hr.ne_lead (by decide) _
    | true =>
      have hsome : ((lim'.or lim).isSome || ((properOffset off').or (properOffset off)).isSome)
          = true := by
        simp only [Option.isSome_or, Bool.or_eq_true] at hwindow ⊢
        exact hwindow.imp .inr .inr
      obtain ⟨x, hx⟩ := offsetRows_opens.chars_eq (p := p)
        (countToken (((properOffset off').or (properOffset off)).getD 0))
      obtain ⟨y, hy⟩ := offsetRows_opens.chars_eq (p := p) (countToken ((properOffset off).getD 0))
      have hzero : chars p (listed meaningless) = "(SELECT 0)".toList := by
        simp [meaningless, chars, text, Token.text]
      -- Both texts have an ordering and an offset, and orderings before an offset are compared.
      rw [if_pos hsome, if_pos rfl, if_pos rfl, if_neg Bool.false_ne_true, headed, List.nil_append,
        chars_append _ es, chars_append _ (headed _ _), chars_headed _ meaningless_ne_nil,
        chars_append, chars_append, hx, hy, hzero]
      intro heq
      simp only [List.append_assoc, List.cons_append] at heq
      exact hmeans horder (meansNoOrder_of_append
        (List.cons.inj (List.append_cancel_left heq)).2)

end Statement

end Order

end SqlScribe
