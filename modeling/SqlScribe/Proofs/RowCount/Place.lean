import SqlScribe.Proofs.Fragment.Clause
import SqlScribe.Proofs.Occurrence.Syntax
import SqlScribe.Proofs.SetOperation.Window
/-! # Places of counts

A count stands in a statement as a limit or an offset, in the select list, as the limit of a change,
or as the bound of a window frame. Every count but a bound is cut off at the greatest count; a bound
is read as a signed number of the same bits.

* `Tokens.Numbers`: every number in the tokens has a property.
* `CountPlace`, `CountPlace.number`, `CountPlace.clause`: the places, what is written for a count
  there, and the clause it stands in.
* `CountPlace.number_of_le`, `CountPlace.number_of_lt`: what is written for a count up to the
  greatest one, and for a larger one in the bound of a window frame.
* `Dialect.Counts`, `Occurrence.Counts`: the counts of a row window and of a piece of syntax.
* `Dialect.Counts.infix_window`, `Dialect.window_numbers`: a row window has the clauses of its
  counts, and no other number. -/

namespace SqlScribe

open Tokens

/-! ## Numbers in tokens -/

/-- The token is a count. -/
def Token.isCount : Token → Bool
  | .count _ => true
  | _ => false

namespace Tokens

/-- Every number in the tokens has the property. -/
def Numbers (p : Int → Prop) (ts : Tokens) : Prop := ∀ k, Token.count k ∈ ts → p k

namespace Numbers

variable {p : Int → Prop} {t : Token} {ts us : Tokens}

theorem nil : Numbers p [] := fun _ hk => absurd hk List.not_mem_nil

theorem count {k : Int} (h : p k) : Numbers p [.count k] := by
  intro k' hk'
  cases List.mem_singleton.mp hk'
  exact h

theorem append (h : Numbers p ts) (h' : Numbers p us) : Numbers p (ts ++ us) :=
  fun k hk => (List.mem_append.mp hk).elim (h k) (h' k)

theorem cons (ht : t.isCount = false) (h : Numbers p ts) : Numbers p (t :: ts) := by
  intro k hk
  rcases List.mem_cons.mp hk with rfl | hk
  · cases ht
  · exact h k hk

theorem one (ht : t.isCount = false) : Numbers p [t] := nil.cons ht

/-- Of tokens that are made from fragments, the fragments have the numbers. -/
theorem of_made (h : Made (Numbers p) ts) : Numbers p ts :=
  h.elim nil (fun t ht => one (by cases t <;> first | rfl | cases ht)) (fun _ => id)
    fun _ _ => append

theorem space (h : Numbers p ts) : Numbers p (.space :: ts) := h.cons rfl

theorem word (k : Keyword) (h : Numbers p ts) : Numbers p (.word k :: ts) := h.cons rfl

end Numbers

end Tokens

/-! ## Places -/

/-- The dialect fetches rows instead of limiting them. -/
def PaginationStyle.fetches : PaginationStyle → Bool
  | .limitOffset => false
  | .limitRequired _ => false
  | .offsetFetch => true
  | .fetchOnly => true

/-- A place for a count. -/
inductive CountPlace where
  /-- The number of rows kept. -/
  | limit
  /-- The number of rows passed over before them. -/
  | offset
  /-- The number or share of rows in the select list. -/
  | top
  /-- The number of rows that an update or deletion changes. -/
  | changeLimit
  /-- The number of rows from a bound of a window frame to the row. -/
  | preceding
  /-- The number of rows from the row to a bound of a window frame. -/
  | following
deriving Repr, DecidableEq

namespace CountPlace

/-- The place is a bound of a window frame. -/
def isBound : CountPlace → Bool
  | .preceding | .following => true
  | .limit | .offset | .top | .changeLimit => false

/-- The number that is written for a count. -/
def number (p : CountPlace) (n : UInt64) : Int :=
  if p.isBound then n.toInt64.toInt else writtenCount n

/-- The clause of a number in the place. -/
def clause (d : Dialect) (k : Int) : CountPlace → Tokens
  | .limit =>
    if d.profile.pagination.fetches then PaginationStyle.fetchNext (.count k)
    else PaginationStyle.limitClause (.count k)
  | .offset =>
    if d.profile.pagination.fetches then PaginationStyle.offsetRows (.count k)
    else PaginationStyle.offsetClause (.count k)
  | .top => .word .TOP :: .space :: Tokens.parens [.count k]
  | .changeLimit => PaginationStyle.limitClause (.count k)
  | .preceding => [.count k, .space, .word .PRECEDING]
  | .following => [.count k, .space, .word .FOLLOWING]

variable {p : CountPlace} {n : UInt64}

/-- A count is cut off at the greatest one, and a bound up to it needs no cutting off. -/
theorem number_of_le (h : p.isBound = true → n.toNat ≤ greatestCount) :
    p.number n = min (n.toNat : Int) greatestCount := by
  unfold number
  by_cases hp : p.isBound = true
  · have hn := h hp
    have hsigned : n.toInt64.toInt = n.toBitVec.toInt := rfl
    have hnat : n.toBitVec.toNat = n.toNat := rfl
    rw [if_pos hp, hsigned, BitVec.toInt_eq_toNat_cond, hnat]
    unfold greatestCount at hn ⊢
    split <;> omega
  · rw [if_neg hp]
    rfl

/-- A larger bound wraps around. -/
theorem number_of_lt (hp : p.isBound = true) (hn : greatestCount < n.toNat) :
    p.number n = (n.toNat : Int) - 2 ^ 64 := by
  have hsigned : n.toInt64.toInt = n.toBitVec.toInt := rfl
  have hnat : n.toBitVec.toNat = n.toNat := rfl
  rw [number, if_pos hp, hsigned, BitVec.toInt_eq_toNat_cond, hnat]
  unfold greatestCount at hn
  split <;> omega

end CountPlace

/-- The row window of a limit and an offset shows a count in a place: an offset that passes over
some row, and zero where a limit needs an offset and there is none. -/
inductive Dialect.Counts (d : Dialect) (limit offset : Option UInt64) : CountPlace → UInt64 → Prop
  where
  | limit {n : UInt64} (h : limit = some n) : Counts d limit offset .limit n
  | offset {n : UInt64} (h : offset = some n) (hn : 0 < n) : Counts d limit offset .offset n
  | zero (hd : d.profile.pagination = .offsetFetch) (hlimit : limit.isSome = true)
    (hoffset : properOffset offset = none) : Counts d limit offset .offset 0

/-- The count of a bound of a window frame, and the place for it. -/
def FrameBound.count? : FrameBound → Option (CountPlace × UInt64)
  | .preceding n => some (.preceding, n)
  | .following n => some (.following, n)
  | .unboundedPreceding | .currentRow | .unboundedFollowing => none

/-- There is a place for a count in an occurrence directly, and the count in it. -/
inductive Occurrence.Counts : Occurrence → CountPlace → UInt64 → Prop where
  | selected {s : Scope} {q : Query} {p : CountPlace} {n : UInt64} (hblank : q.isBlank = false)
    (hselects : q.selectsRows = true) (h : s.dialect.Counts q.info.limit q.info.offset p n) :
    Counts ⟨s, .query q⟩ p n
  | top {s : Scope} {q : Query} {t : Top} (hblank : q.isBlank = false)
    (hselects : q.selectsRows = true) (h : q.info.top = some t) :
    Counts ⟨s, .query q⟩ .top t.count
  | changed {s : Scope} {q : Query} {n : UInt64} (hblank : q.isBlank = false)
    (hchange : q.info.action.isChange = true) (h : q.info.limit = some n) :
    Counts ⟨s, .query q⟩ .changeLimit n
  | result {s : Scope} {c : Compound} {p : CountPlace} {n : UInt64}
    (h : s.dialect.Counts c.limit c.offset p n) : Counts ⟨s, .compound c⟩ p n
  | start {s : Scope} {w : Window} {f : Frame} {p : CountPlace} {n : UInt64}
    (hf : w.frame = some f) (h : f.start.count? = some (p, n)) : Counts ⟨s, .window w⟩ p n
  | stop {s : Scope} {w : Window} {f : Frame} {b : FrameBound} {p : CountPlace} {n : UInt64}
    (hf : w.frame = some f) (hb : f.stop = some b) (h : b.count? = some (p, n)) :
    Counts ⟨s, .window w⟩ p n

/-! ## Row windows -/

namespace PaginationStyle

variable {p : Int → Prop} {t : Token} {n : UInt64}

theorem limitClause_numbers (h : Numbers p [t]) : Numbers p (limitClause t) :=
  .space (.word _ h.space)

theorem offsetClause_numbers (h : Numbers p [t]) : Numbers p (offsetClause t) :=
  .space (.word _ h.space)

theorem offsetRows_numbers (h : Numbers p [t]) : Numbers p (offsetRows t) :=
  (offsetClause_numbers h).append (.space (.one rfl))

theorem fetchNext_numbers (h : Numbers p [t]) : Numbers p (fetchNext t) :=
  .space (.word _ (.space (.word _ (.space (h.append (.space (.word _ (.space (.one rfl)))))))))

theorem clause_numbers {write : Token → Tokens} {n? : Option UInt64}
    (hwrite : ∀ {t}, Numbers p [t] → Numbers p (write t)) (h : ∀ n ∈ n?, p (writtenCount n)) :
    Numbers p (clause write n?) := by
  cases n? with
  | none => exact .nil
  | some n => exact hwrite (.count (h n rfl))

theorem window_limit (style : PaginationStyle) (n : UInt64) (offset : Option UInt64) :
    (if style.fetches then fetchNext (countToken n) else limitClause (countToken n)) <:+:
      style.window (some n) offset := by
  cases style with
  | limitOffset => exact List.infix_append_left
  | limitRequired unbounded => exact List.infix_append_left
  | offsetFetch => exact List.infix_append_right
  | fetchOnly => exact List.infix_append_right

theorem window_offset (style : PaginationStyle) (limit : Option UInt64) (hn : 0 < n) :
    (if style.fetches then offsetRows (countToken n) else offsetClause (countToken n)) <:+:
      style.window limit (some n) := by
  have hproper : properOffset (some n) = some n := if_pos (decide_eq_true hn)
  cases style with
  | limitOffset =>
    simp only [window, hproper]
    exact List.infix_append_right
  | limitRequired unbounded =>
    simp only [window, hproper]
    cases limit with
    | none => exact List.infix_append_right
    | some m => exact List.infix_append_right
  | offsetFetch =>
    cases limit with
    | none => exact List.infix_append_left
    | some m => exact List.infix_append_left
  | fetchOnly =>
    simp only [window, hproper]
    exact List.infix_append_left

end PaginationStyle

namespace Dialect

open PaginationStyle

variable {d : Dialect} {limit offset : Option UInt64}

/-- A row window has the clause of each of its counts. -/
theorem Counts.infix_window {p : CountPlace} {n : UInt64} (h : d.Counts limit offset p n) :
    p.clause d (p.number n) <:+: d.window limit (properOffset offset) := by
  cases h with
  | limit h =>
    rw [h]
    exact window_limit _ n _
  | offset h hn =>
    have hproper : properOffset (some n) = some n := if_pos (decide_eq_true hn)
    rw [h, hproper]
    exact window_offset _ limit hn
  | zero hd hlimit hoffset =>
    obtain ⟨m, rfl⟩ := Option.isSome_iff_exists.mp hlimit
    simp only [Dialect.window, CountPlace.clause, hd, hoffset]
    exact List.infix_append_left

/-- The numbers in a row window are those of its counts. -/
theorem window_numbers {p : Int → Prop} (d : Dialect) (limit offset : Option UInt64)
    (h : ∀ place n, d.Counts limit offset place n → p (place.number n)) :
    Numbers p (d.window limit (properOffset offset)) := by
  have hlimit (n : UInt64) (hn : n ∈ limit) : p (writtenCount n) := h _ n (.limit hn)
  have hoffset (n : UInt64) (hn : n ∈ properOffset offset) : p (writtenCount n) := by
    obtain ⟨ho, hpos⟩ := Option.mem_filter_iff.mp hn
    exact h _ n (.offset ho (of_decide_eq_true hpos))
  unfold Dialect.window
  cases hstyle : d.profile.pagination with
  | limitOffset =>
    rw [PaginationStyle.window, properOffset_idem]
    exact (clause_numbers limitClause_numbers hlimit).append
      (clause_numbers offsetClause_numbers hoffset)
  | limitRequired unbounded =>
    unfold PaginationStyle.window
    dsimp only
    rw [properOffset_idem]
    split
    · next n ho =>
      exact (limitClause_numbers (.one rfl)).append (offsetClause_numbers (.count (hoffset n ho)))
    · exact (clause_numbers limitClause_numbers hlimit).append
        (clause_numbers offsetClause_numbers hoffset)
  | offsetFetch =>
    cases ho : properOffset offset with
    | some n =>
      have hrows := offsetRows_numbers (.count (hoffset n ho))
      cases limit with
      | none => exact hrows.append .nil
      | some m => exact hrows.append (fetchNext_numbers (.count (hlimit m rfl)))
    | none =>
      cases limit with
      | none => exact .nil
      | some m =>
        -- A limit needs an offset here, and there is none.
        have hzero : p (writtenCount 0) := h _ 0 (.zero hstyle rfl ho)
        exact (offsetRows_numbers (.count hzero)).append
          (fetchNext_numbers (.count (hlimit m rfl)))
  | fetchOnly =>
    rw [PaginationStyle.window, properOffset_idem]
    exact (clause_numbers offsetRows_numbers hoffset).append
      (clause_numbers fetchNext_numbers hlimit)

end Dialect

end SqlScribe
