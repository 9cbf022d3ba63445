import SqlScribe.Proofs.Fragment.Lowering
import SqlScribe.Proofs.RowCount.Statement
/-! # Numbers in terms, conditions and queries

The numbers in the tokens of an occurrence are those of the counts in it: every other token of a
fragment is no number.

* `Occurrence.Adds.numbers`: the numbers in the fragments of an occurrence are those of its own
  counts.
* `Occurrence.lower_numbers`: the numbers in the tokens of an occurrence.
* `Occurrence.Counts.writes`: each count of an occurrence is written in its clause. -/

namespace SqlScribe

open Tokens Relation

variable {p : Int → Prop} {s : Scope}

/-! ## Bounds of window frames -/

/-- The bound of a frame is the clause of its count. -/
theorem FrameBound.tokens_eq (d : Dialect) {b : FrameBound} {place : CountPlace} {n : UInt64}
    (h : b.count? = some (place, n)) :
    Clause.frameBound b = place.clause d (place.number n) := by
  cases b with
  | preceding n | following n =>
    cases h
    rfl
  | unboundedPreceding | currentRow | unboundedFollowing => cases h

/-- A frame shows its bounds. -/
theorem Clause.infix_frame {f : Frame} {b : FrameBound} (h : f.start = b ∨ f.stop = some b) :
    Clause.frameBound b <:+: Clause.frame f := by
  obtain ⟨unit, start, stop⟩ := f
  rcases h with rfl | rfl
  · cases stop with
    | none => exact List.infix_cons (List.infix_cons List.infix_rfl)
    | some stop =>
      refine List.infix_append_of_infix_left (List.infix_append_of_infix_left ?_)
      iterate 4 refine List.infix_cons ?_
      exact List.infix_rfl
  · exact List.infix_append_right

/-- A window shows its frame. -/
theorem Window.lower_frame {w : Window} {f : Frame} (hf : w.frame = some f) :
    Yields (Clause.frame f <:+: ·) (w.lower s) := by
  obtain ⟨partitionBy, orderBy, frame⟩ := w
  cases hf
  rw [lower]
  refine (Yields.self _).bind fun l _ => (Yields.self _).bind fun m _ => .pure ?_
  refine List.infix_cons ((infix_spacedOut ?_).trans (infix_parens _))
  exact List.mem_append_right _ (List.mem_singleton_self _)

theorem FrameBound.tokens_numbers {b : FrameBound}
    (h : ∀ place n, b.count? = some (place, n) → p (place.number n)) :
    Numbers p (Clause.frameBound b) := by
  cases b with
  | preceding n => exact (Numbers.count (h .preceding n rfl)).append (.space (.one rfl))
  | following n => exact (Numbers.count (h .following n rfl)).append (.space (.one rfl))
  | currentRow => exact .one rfl
  | unboundedPreceding | unboundedFollowing => exact .word _ (.space (.one rfl))

/-! ## Occurrences -/

namespace Occurrence

variable {a : Occurrence}

/-- The numbers in a fragment that an occurrence writes itself are those of its own counts. -/
theorem Adds.numbers {ts : Tokens} (h : a.Adds ts)
    (hown : ∀ place n, a.Counts place n → p (place.number n)) : Numbers p ts := by
  cases h with
  | @column s e q tok h =>
    -- A name and its qualifier are no numbers.
    have htok : Numbers p [tok] := .of_made (.one (Expr.standsAlone_column h))
    rcases s.qualification_cases q with ⟨-, hnone⟩ | ⟨t, -, ht, hsome⟩
    · rw [hnone]
      exact htok
    · have hqualifier : Numbers p [t] := .of_made (.one ht)
      rw [hsome]
      exact hqualifier.append (htok.cons rfl)
  | schema part => exact .cons rfl (.one rfl)
  | selected hblank hselects =>
    exact Dialect.window_numbers _ _ _ fun place n hn => hown place n (.selected hblank hselects hn)
  | top hblank hselects h => exact .count (hown .top _ (.top hblank hselects h))
  | changed hblank hchange h =>
    exact PaginationStyle.limitClause_numbers
      (.count (hown .changeLimit _ (.changed hblank hchange h)))
  | result => exact Dialect.window_numbers _ _ _ fun place n hn => hown place n (.result hn)
  | bound hf hb =>
    refine FrameBound.tokens_numbers fun place n hn => ?_
    rcases hb with rfl | hb
    · exact hown place n (.start hf hn)
    · exact hown place n (.stop hf hb hn)

/-- If the numbers for the counts in an occurrence at any depth have a property, then so do the
numbers in its tokens. -/
theorem lower_numbers (a : Occurrence)
    (h : ∀ b, Within a b → ∀ place n, b.Counts place n → p (place.number n)) :
    Yields (Numbers p) a.lower :=
  (a.lower_made fun b hab _ hts => hts.numbers (h b hab)).mono fun _ => .of_made

/-- Each count of an occurrence is written in its clause. -/
theorem Counts.writes {place : CountPlace} {n : UInt64} (h : a.Counts place n) :
    Yields (place.clause a.scope.dialect (place.number n) <:+: ·) a.lower := by
  -- The statement of a query that is not blank shows what it adds.
  have hquery {s : Scope} {q : Query} (hblank : q.isBlank = false) :
      Yields (q.Showing s.dialect) (q.lower s) := by
    rw [Query.lower_eq, if_neg (by rw [hblank]; exact Bool.false_ne_true)]
    exact (Statement.whole_shows (s.inside q) q _).bind fun ts hts =>
      .pure (hts.mono (Statement.infix_placed s q.info.id q.info.alias? ts))
  cases h with
  | selected hblank hselects h =>
    exact (hquery hblank).mono fun _ hts => h.infix_window.trans (hts.window hselects)
  | top hblank hselects h => exact (hquery hblank).mono fun _ hts => hts.top hselects _ h
  | changed hblank hchange h => exact (hquery hblank).mono fun _ hts => hts.limit hchange _ h
  | @result s c _ _ h =>
    obtain ⟨id, base, operands, orderBy, limit, offset, alias?⟩ := c
    rw [lower_compound, Compound.lower, Statement.compound]
    refine Yields.bind (p := (s.dialect.window limit (properOffset offset) <:+: ·)) ?_
      fun ts hts => .pure ?_
    · exact (Yields.self _).bind fun _ _ => (Yields.self _).bind fun _ _ => (Yields.self _).bind
        fun _ _ => .pure (List.infix_append_of_infix_right (Statement.windowClause_shows ..))
    · exact (h.infix_window.trans hts).trans (Statement.infix_placed s id alias? ts)
  | @start s w f _ _ hf h =>
    rw [← FrameBound.tokens_eq s.dialect h]
    exact (Window.lower_frame hf).mono fun _ hts => (Clause.infix_frame (.inl rfl)).trans hts
  | @stop s w f b _ _ hf hb h =>
    rw [← FrameBound.tokens_eq s.dialect h]
    exact (Window.lower_frame hf).mono fun _ hts => (Clause.infix_frame (.inr hb)).trans hts

end Occurrence

end SqlScribe
