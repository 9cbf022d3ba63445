import Mathlib.Data.List.Chain
import SqlScribe.Decimal.Text
import SqlScribe.Proofs.Decimal.Digits
import SqlScribe.Proofs.Decimal.Shortest
/-! # Texts without comments

Two minus signs begin a comment, and so do a slash and a star. A piece of text is calm if none
begins in it, and none can begin at its end whatever stands behind it.

* `Text.HasComment`, `Text.Calm`: texts in which a comment begins, and calm ones.
* `Lead`: what a text begins with, if a comment could begin before it.
* `Text.Calm.append`, `Text.Calm.minus`, `Text.Calm.slash`: calm pieces make a calm text.
* `Text.signed_int`, `Text.signed_float`: numbers are calm, and begin with a sign only if they are
  negative. -/

namespace SqlScribe

/-- What a text begins with, if a comment could begin before it. -/
inductive Lead where
  /-- Nothing: the text is empty. -/
  | nothing
  /-- A minus. -/
  | minus
  /-- A star. -/
  | star
  /-- Another character. -/
  | other
deriving Repr, DecidableEq

namespace Lead

/-- What a text begins with. -/
def of : List Char → Lead
  | [] => .nothing
  | c :: _ => if c = '-' then .minus else if c = '*' then .star else .other

/-- What two texts begin with, one behind the other. -/
def or : Lead → Lead → Lead
  | .nothing, l => l
  | .minus, _ => .minus
  | .star, _ => .star
  | .other, _ => .other

theorem of_append (cs ds : List Char) : of (cs ++ ds) = (of cs).or (of ds) := by
  cases cs with
  | nil => rfl
  | cons c cs =>
    rw [List.cons_append, of, of]
    split
    · rfl
    · split <;> rfl

theorem of_isDigit {c : Char} (h : c.isDigit = true) (cs : List Char) : of (c :: cs) = .other := by
  have hminus : c ≠ '-' := by
    rintro rfl
    exact absurd h (by decide)
  have hstar : c ≠ '*' := by
    rintro rfl
    exact absurd h (by decide)
  rw [of, if_neg hminus, if_neg hstar]

end Lead

namespace Text

/-- A comment begins with the two characters. -/
def Opens (a b : Char) : Prop := a = '-' ∧ b = '-' ∨ a = '/' ∧ b = '*'

instance (a b : Char) : Decidable (Opens a b) := inferInstanceAs (Decidable (_ ∨ _))

/-- A comment begins somewhere in the characters. -/
def HasComment (cs : List Char) : Prop := ['-', '-'] <:+: cs ∨ ['/', '*'] <:+: cs

/-- No comment begins in the characters, nor at their end whatever stands behind them. -/
structure Calm (cs : List Char) : Prop where
  chain : cs.IsChain fun a b => ¬Opens a b
  notMinus : cs.getLast? ≠ some '-'
  notSlash : cs.getLast? ≠ some '/'

instance (cs : List Char) : Decidable (Calm cs) :=
  decidable_of_iff
    ((cs.IsChain fun a b => ¬Opens a b) ∧ cs.getLast? ≠ some '-' ∧ cs.getLast? ≠ some '/')
    ⟨fun h => ⟨h.1, h.2.1, h.2.2⟩, fun h => ⟨h.chain, h.notMinus, h.notSlash⟩⟩

namespace Calm

variable {cs ds : List Char} {c d : Char}

theorem not_hasComment (h : Calm cs) : ¬HasComment cs := by
  rintro (hpart | hpart)
  · have hpair := h.chain.infix hpart
    exact absurd (.inl ⟨rfl, rfl⟩) (List.isChain_cons_cons.mp hpair).1
  · have hpair := h.chain.infix hpart
    exact absurd (.inr ⟨rfl, rfl⟩) (List.isChain_cons_cons.mp hpair).1

theorem nil : Calm [] := by decide

theorem append (hc : Calm cs) (hd : Calm ds) : Calm (cs ++ ds) := by
  refine ⟨hc.chain.append hd.chain ?_, ?_, ?_⟩
  · rintro a ha b - (⟨rfl, -⟩ | ⟨rfl, -⟩)
    · exact hc.notMinus ha
    · exact hc.notSlash ha
  · rw [List.getLast?_append]
    have hlast := hd.notMinus
    cases hds : ds.getLast? with
    | none => exact hc.notMinus
    | some d => rwa [hds] at hlast
  · rw [List.getLast?_append]
    have hlast := hd.notSlash
    cases hds : ds.getLast? with
    | none => exact hc.notSlash
    | some d => rwa [hds] at hlast

/-- A character before calm ones with which it does not begin a comment. -/
theorem cons (h : Calm (d :: ds)) (hcd : ¬Opens c d) : Calm (c :: d :: ds) := by
  refine ⟨List.isChain_cons_cons.mpr ⟨hcd, h.chain⟩, ?_, ?_⟩
  · rw [List.getLast?_cons_cons]
    exact h.notMinus
  · rw [List.getLast?_cons_cons]
    exact h.notSlash

/-- A minus before a text that has a first character and does not begin with a minus. -/
theorem minus (h : Calm cs) (hne : Lead.of cs ≠ .nothing) (hlead : Lead.of cs ≠ .minus) :
    Calm ('-' :: cs) := by
  cases cs with
  | nil => exact absurd rfl hne
  | cons d cs =>
    refine h.cons ?_
    rintro (⟨-, rfl⟩ | ⟨hslash, -⟩)
    · exact hlead rfl
    · exact absurd hslash (by decide)

/-- A slash before a text that has a first character and does not begin with a star. -/
theorem slash (h : Calm cs) (hne : Lead.of cs ≠ .nothing) (hlead : Lead.of cs ≠ .star) :
    Calm ('/' :: cs) := by
  cases cs with
  | nil => exact absurd rfl hne
  | cons d cs =>
    refine h.cons ?_
    rintro (⟨hminus, -⟩ | ⟨-, rfl⟩)
    · exact absurd hminus (by decide)
    · exact hlead rfl

theorem of_forall (h : ∀ c ∈ cs, c ≠ '-' ∧ c ≠ '/') : Calm cs := by
  refine ⟨?_, fun hlast => ?_, fun hlast => ?_⟩
  · induction cs with
    | nil => exact .nil
    | cons c cs ih =>
      refine .cons (ih fun d hd => h d (List.mem_cons_of_mem c hd)) fun d _ hopens => ?_
      rcases hopens with ⟨rfl, -⟩ | ⟨rfl, -⟩
      · exact (h '-' List.mem_cons_self).1 rfl
      · exact (h '/' List.mem_cons_self).2 rfl
  · exact (h '-' (List.mem_of_getLast? hlast)).1 rfl
  · exact (h '/' (List.mem_of_getLast? hlast)).2 rfl

theorem of_isDigit (h : ∀ c ∈ cs, c.isDigit = true) : Calm cs := by
  refine of_forall fun c hc => ⟨?_, ?_⟩
  · rintro rfl
    exact absurd (h '-' hc) (by decide)
  · rintro rfl
    exact absurd (h '/' hc) (by decide)

end Calm

/-! ## Numbers -/

/-- The text is calm and begins with no sign, behind a minus at most if it is of something
negative. -/
def Signed (isNegative : Prop) (cs : List Char) : Prop :=
  ∃ ds, Calm ds ∧ Lead.of ds = .other ∧ (cs = ds ∨ isNegative ∧ cs = '-' :: ds)

namespace Signed

variable {isNegative : Prop} {cs : List Char}

theorem unsigned (h : Calm cs) (hlead : Lead.of cs = .other) : Signed isNegative cs :=
  ⟨cs, h, hlead, .inl rfl⟩

theorem negative (h : Calm cs) (hlead : Lead.of cs = .other) (hn : isNegative) :
    Signed isNegative ('-' :: cs) :=
  ⟨cs, h, hlead, .inr ⟨hn, rfl⟩⟩

theorem calm (h : Signed isNegative cs) : Calm cs := by
  obtain ⟨ds, hcalm, hlead, rfl | ⟨-, rfl⟩⟩ := h
  · exact hcalm
  · exact hcalm.minus (by rw [hlead]; decide) (by rw [hlead]; decide)

theorem lead (h : Signed isNegative cs) :
    isNegative ∧ Lead.of cs = .minus ∨ Lead.of cs = .other := by
  obtain ⟨ds, -, hlead, rfl | ⟨hn, rfl⟩⟩ := h
  · exact .inr hlead
  · exact .inl ⟨hn, rfl⟩

end Signed

/-- The digits of a natural number begin with no sign. -/
theorem lead_toDigits (n : Nat) : Lead.of (Nat.toDigits 10 n) = .other := by
  obtain ⟨c, cs, hcs⟩ := List.exists_cons_of_ne_nil (Nat.toDigits_ne_nil (b := 10) (n := n))
  rw [hcs]
  exact Lead.of_isDigit (isDigit_of_mem_toDigits (hcs ▸ List.mem_cons_self)) cs

theorem calm_toDigits (n : Nat) : Calm (Nat.toDigits 10 n) :=
  .of_isDigit fun _ hc => isDigit_of_mem_toDigits hc

theorem signed_int (n : Int) : Signed (n < 0) (toString n).toList := by
  cases n with
  | ofNat m =>
    show Signed _ (m.repr).toList
    rw [Nat.toList_repr]
    exact .unsigned (calm_toDigits m) (lead_toDigits m)
  | negSucc m =>
    show Signed _ ("-" ++ m.succ.repr).toList
    rw [String.toList_append, Nat.toList_repr]
    exact .negative (calm_toDigits m.succ) (lead_toDigits m.succ) (Int.negSucc_lt_zero m)

theorem chars_isDigit (d : Decimal.Digits) : ∀ c ∈ d.chars, c.isDigit = true := by
  intro c hc
  rw [Decimal.Digits.chars, List.mem_reverse] at hc
  have hmem := (List.dropWhile_sublist _).mem hc
  exact isDigit_of_mem_toDigits (List.mem_reverse.mp hmem)

theorem chars_ne_nil {d : Decimal.Digits} (hd : d.digits ≠ 0) : d.chars ≠ [] := by
  intro hnil
  rw [Decimal.Digits.chars, List.reverse_eq_nil_iff, List.dropWhile_eq_nil_iff] at hnil
  obtain ⟨c, cs, hcs, hne⟩ := toDigits_eq_cons hd
  have hmem : c ∈ Nat.toDigits 10 d.digits := hcs ▸ List.mem_cons_self
  exact hne (by simpa using hnil c (List.mem_reverse.mpr hmem))

/-- The characters of an exponent are calm. -/
theorem calm_exponent (layout : Decimal.Layout) (e : Int) : Calm (layout.exponent e) := by
  rw [Decimal.Layout.exponent]
  refine .append ?_ (signed_int e).calm
  split <;> decide

/-- What a number other than zero is written as without its sign is calm and begins with a digit. -/
theorem calm_write (layout : Decimal.Layout) {digits : List Char} (point : Int)
    (hne : digits ≠ []) (hdigits : ∀ c ∈ digits, c.isDigit = true) :
    ∃ c cs, layout.write digits point = c :: cs ∧ c.isDigit = true ∧ Calm (c :: cs) := by
  have hdot : Calm ['.'] := by decide
  have hmark : Calm ['e'] := by decide
  have hzeros : ∀ k, Calm (List.replicate k '0') := fun k =>
    .of_isDigit fun c hc => by rw [List.eq_of_mem_replicate hc]; rfl
  obtain ⟨d, ds, rfl⟩ := List.exists_cons_of_ne_nil hne
  have hd : d.isDigit = true := hdigits d List.mem_cons_self
  have hwhole : Calm (d :: ds) := .of_isDigit hdigits
  unfold Decimal.Layout.write
  split
  · split
    · refine ⟨'0', _, rfl, rfl, ?_⟩
      exact .append (.append (by decide : Calm ['0', '.']) (hzeros _)) hwhole
    · next hpoint =>
      obtain ⟨k, hk⟩ : ∃ k, point.toNat = k + 1 := ⟨point.toNat - 1, by omega⟩
      rw [hk, List.take_succ_cons]
      have hleft : Calm (d :: ds.take k) := .of_isDigit fun c hc =>
        hdigits c (List.cons_subset_cons d (List.take_subset k ds) hc)
      have hright : Calm (if ((d :: ds).drop (k + 1)).isEmpty then ['0']
          else (d :: ds).drop (k + 1)) := by
        split
        · decide
        · exact .of_isDigit fun c hc => hdigits c (List.drop_subset _ _ hc)
      exact ⟨d, _, rfl, hd, (hleft.append (hzeros _)).append (hdot.append hright)⟩
  · cases ds with
    | nil =>
      refine ⟨d, _, rfl, hd, ?_⟩
      exact (hwhole.append hmark).append (calm_exponent layout _)
    | cons d' ds =>
      have hfirst : Calm [d] := .of_isDigit fun c hc => by rwa [List.mem_singleton.mp hc]
      have hrest : Calm (d' :: ds) := .of_isDigit fun c hc => hdigits c (List.mem_cons_of_mem d hc)
      refine ⟨d, _, rfl, hd, ?_⟩
      exact (hfirst.append (hdot.append hrest)).append (hmark.append (calm_exponent layout _))

theorem signed_float (x : Binary64) : Signed (x.isNegative = true) x.text.toList := by
  have hsigned : ∀ {text : String}, Calm text.toList → Lead.of text.toList = .other →
      Signed (x.isNegative = true) (if x.isNegative then "-" ++ text else text).toList := by
    intro text hcalm hlead
    split
    · next hnegative =>
      rw [String.toList_append]
      exact .negative hcalm hlead hnegative
    · exact .unsigned hcalm hlead
  rw [Binary64.text, Binary64.textIn]
  split
  · exact .unsigned (by decide) (by decide)
  · split
    · exact hsigned (by decide) (by decide)
    · split
      · exact hsigned (by decide) (by decide)
      · next hzero =>
        have hdigits := Decimal.shortest_digits_ne_zero (Bool.eq_false_iff.mpr hzero)
        obtain ⟨c, cs, hwrite, hc, hcalm⟩ := calm_write Decimal.plainLayout
          (Decimal.shortest x).point (chars_ne_nil hdigits) (chars_isDigit _)
        refine hsigned ?_ ?_
        · rwa [String.toList_ofList, hwrite]
        · rw [String.toList_ofList, hwrite]
          exact Lead.of_isDigit hc cs

end Text

end SqlScribe
