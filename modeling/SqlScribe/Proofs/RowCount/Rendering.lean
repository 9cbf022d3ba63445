import SqlScribe.Function.Catalogue
import SqlScribe.Proofs.Fragment.Rendering
import SqlScribe.Proofs.RowCount.Lowering
import SqlScribe.Window
/-! # Counts in what is rendered

A count is rendered as it is, or as the greatest signed number of 64 bits where it is larger. Only
the bound of a window frame is not cut off so, and turns negative.

* `Item.Counts`: there is a place for a count in an item.
* `Item.counts_written`: what is written for each count, and that no other number is written.
* `Item.bound_turns_negative`: a bound of a window frame beyond the greatest count. -/

namespace SqlScribe

open Tokens Relation

variable {p : Int → Prop}

namespace Item

/-- There is a place for a count in an item at some depth, and the count in it. -/
def Counts (s : Scope) (x : Item) (place : CountPlace) (n : UInt64) : Prop :=
  ∃ a ∈ x.occurrences s, ∃ b, a.Within b ∧ b.Counts place n

theorem occurrences_dialect {s : Scope} {x : Item} {a : Occurrence} (h : a ∈ x.occurrences s) :
    a.scope.dialect = s.dialect := by
  cases x with
  | table _ | interval _ | drop _ => cases h
  | term _ | condition _ | call _ | case _ | query _ | compound _ | subquery _ =>
    cases List.mem_singleton.mp h
    rfl
  | create c =>
    simp only [occurrences] at h
    split at h
    · cases List.mem_singleton.mp h
      rfl
    · obtain ⟨column, -, hcolumn⟩ := List.mem_flatMap.mp h
      obtain ⟨t, -, rfl⟩ := List.mem_map.mp hcolumn
      rfl

/-- Each count in an item is written in its clause. -/
theorem Counts.writes {s : Scope} {x : Item} {place : CountPlace} {n : UInt64}
    (h : x.Counts s place n) :
    Yields (place.clause s.dialect (place.number n) <:+: ·) (x.lower s) := by
  obtain ⟨a, ha, b, hab, hcounts⟩ := h
  have hdialect : b.scope.dialect = s.dialect := hab.dialect.trans (occurrences_dialect ha)
  refine (x.lower_contains s).mono fun ts hts => ?_
  obtain ⟨us, hus, hsub⟩ := (hts a ha).yields hab.holds
  obtain ⟨vs, hvs, hin⟩ := hus.yields hcounts.writes
  rw [hdialect] at hvs
  exact hvs.trans (hin.trans hsub)

/-- If the numbers for the counts in an item have a property, then so do the numbers in its
tokens. -/
theorem lower_numbers {s : Scope} (x : Item)
    (h : ∀ place n, x.Counts s place n → p (place.number n)) :
    Yields (Numbers p) (x.lower s) :=
  (x.lower_made (fun _ => .cons rfl (.one rfl)) fun a ha b hab _ hts =>
    hts.numbers fun place n hn => h place n ⟨a, ha, b, hab, hn⟩).mono fun _ => .of_made

/-- **Only far bounds of window frames turn negative.** However an item is written, at each place
for a count in it, at any depth, stands the clause of the place with the count in it: the count
itself, or the greatest signed number of 64 bits where the count is larger. This is so for the
limits and offsets of selections and set operations, for `TOP`, for the limits of updates and
deletions, and for those bounds of window frames that are not larger. A larger bound is written as
the signed number of the same bits, which is negative. No other count is written. -/
theorem counts_written {x : Item} {o : RenderOptions} {ts : Tokens}
    (h : renderTokens x o = .ok ts) :
    let d := renderDialect x o
    let s := Scope.ofOptions d o
    (∀ place n, x.Counts s place n → (place.isBound = true → n.toNat ≤ greatestCount) →
      place.clause d (min (n.toNat : Int) greatestCount) <:+: ts) ∧
    (∀ place n, x.Counts s place n → place.isBound = true → greatestCount < n.toNat →
      place.clause d ((n.toNat : Int) - 2 ^ 64) <:+: ts) ∧
    ∀ k : Int, .count k ∈ ts → ∃ place n, x.Counts s place n ∧
      ((place.isBound = true → n.toNat ≤ greatestCount) ∧ k = min (n.toNat : Int) greatestCount ∨
        (place.isBound = true ∧ greatestCount < n.toNat) ∧ k = (n.toNat : Int) - 2 ^ 64) := by
  intro d s
  refine ⟨fun place n hn hbound => ?_, fun place n hn hplace hfar => ?_, ?_⟩
  · rw [← CountPlace.number_of_le hbound]
    exact hn.writes ts h
  · rw [← CountPlace.number_of_lt hplace hfar]
    exact hn.writes ts h
  · refine x.lower_numbers (fun place n hn => ⟨place, n, hn, ?_⟩) ts h
    by_cases hfar : place.isBound = true ∧ greatestCount < n.toNat
    · exact .inr ⟨hfar, CountPlace.number_of_lt hfar.1 hfar.2⟩
    · have hbound : place.isBound = true → n.toNat ≤ greatestCount := by
        intro hplace
        by_contra hn
        exact hfar ⟨hplace, Nat.lt_of_not_le hn⟩
      exact .inl ⟨hbound, CountPlace.number_of_le hbound⟩

/-- A selection of numbered rows in MySQL, with the greatest limit of 64 bits and an offset, and the
greatest bound that is not cut off. -/
theorem counts_written_greatest :
    let abc : Table := { id := ⟨1⟩, name := "abc" }
    let f : Frame := ⟨.rows, .preceding 9223372036854775807, some (.following 5)⟩
    let w : Window := { orderBy := [⟨Term.field "a", none⟩], frame := some f }
    let c : Call := { name := "ROW_NUMBER", aggregate := true, args := [], window := some w }
    let q : Query :=
      { Query.start ⟨2⟩ .mysql with sources := [.table abc], selects := [⟨.call c, none⟩] }
    let x : Item := .query ((q.limit 18446744073709551615).offset 7)
    let sql := "SELECT ROW_NUMBER() OVER(ORDER BY `a` ROWS BETWEEN 9223372036854775807 " ++
      "PRECEDING AND 5 FOLLOWING) FROM `abc` LIMIT 9223372036854775807 OFFSET 7"
    (render x {}).toOption = some sql ∧ ∃ ts, renderTokens x {} = .ok ts ∧
      CountPlace.limit.clause .mysql 9223372036854775807 <:+: ts ∧
      CountPlace.offset.clause .mysql 7 <:+: ts ∧
      CountPlace.preceding.clause .mysql 9223372036854775807 <:+: ts := by
  intro abc f w c q x sql
  have htext : (render x {}).toOption = some sql := by decide +kernel +revert
  obtain ⟨ts, hts⟩ : ∃ ts, renderTokens x {} = .ok ts := ⟨_, rfl⟩
  let s := Scope.ofOptions .mysql {}
  let limited : Query := (q.limit 18446744073709551615).offset 7
  have hlimit : x.Counts s .limit 18446744073709551615 :=
    ⟨⟨s, .query limited⟩, List.mem_singleton_self _, _, .refl, .selected rfl rfl (.limit rfl)⟩
  have hoffset : x.Counts s .offset 7 :=
    ⟨⟨s, .query limited⟩, List.mem_singleton_self _, _, .refl,
      .selected rfl rfl (.offset rfl (by decide))⟩
  -- The window is that of a call in the select list.
  have hselected : Occurrence.Part ⟨s, .query limited⟩
      ⟨(s.inside limited).labelled, .term ⟨.call c, none⟩⟩ :=
    Occurrence.part_of_clause (c := .selectList) rfl rfl (List.mem_singleton_self _)
  have hwindow : Occurrence.Within ⟨s, .query limited⟩
      ⟨(s.inside limited).labelled.quiet, .window w⟩ :=
    .head hselected (.head rfl (.head (List.mem_singleton_self _)
      (.single (List.mem_singleton_self _))))
  have hstart : x.Counts s .preceding 9223372036854775807 :=
    ⟨⟨s, .query limited⟩, List.mem_singleton_self _, _, hwindow, .start (f := f) rfl rfl⟩
  have hwritten := (counts_written hts).1
  exact ⟨htext, ts, hts, hwritten _ _ hlimit nofun, hwritten _ _ hoffset nofun,
    hwritten _ _ hstart fun _ => by decide⟩

/-- A window frame that starts 2⁶³ rows before the row. -/
theorem bound_turns_negative :
    let n : UInt64 := 9223372036854775808
    let f : Frame := ⟨.rows, .preceding n, none⟩
    let w : Window := { orderBy := [⟨Term.field "a", none⟩], frame := some f }
    let c : Call := { name := "ROW_NUMBER", aggregate := true, args := [], window := some w }
    let x : Item := .term ⟨.call c, none⟩
    let windowed := Function.rowNumber.over.orderBy (Term.field "a") none
    (windowed.frame f >>= Windowed.build) = .ok ⟨.call c, none⟩ ∧
    x.Counts (Scope.ofOptions .ansi {}) .preceding n ∧
    (render x {}).toOption =
      some "ROW_NUMBER() OVER(ORDER BY \"a\" ROWS -9223372036854775808 PRECEDING)" ∧
    ∃ ts, renderTokens x {} = .ok ts ∧
      ¬ CountPlace.preceding.clause .ansi (min (n.toNat : Int) greatestCount) <:+: ts := by
  intro n f w c x windowed
  let s := Scope.ofOptions .ansi {}
  have htext : (render x {}).toOption =
      some "ROW_NUMBER() OVER(ORDER BY \"a\" ROWS -9223372036854775808 PRECEDING)" := by
    decide +kernel +revert
  have hwindow : Occurrence.Within ⟨s, .term ⟨.call c, none⟩⟩ ⟨s.quiet, .window w⟩ :=
    .head rfl (.head (List.mem_singleton_self _) (.single (List.mem_singleton_self _)))
  have hcounts : x.Counts s .preceding n :=
    ⟨_, List.mem_singleton_self _, _, hwindow, .start (f := f) rfl rfl⟩
  let ts : Tokens := [.functionName "ROW_NUMBER", .mark .openParen, .mark .closeParen, .space,
    .word .OVER, .mark .openParen, .word .ORDER_BY, .space, .ident "a", .space, .word .ROWS, .space,
    .count (-9223372036854775808), .space, .word .PRECEDING, .mark .closeParen]
  refine ⟨rfl, hcounts, htext, ts, rfl, fun hclause => ?_⟩
  -- The one count in the tokens is another one.
  have hmem : Token.count (min (n.toNat : Int) greatestCount) ∈ ts :=
    hclause.subset List.mem_cons_self
  have hcount : min (n.toNat : Int) greatestCount = -9223372036854775808 := by
    simpa [ts] using hmem
  exact absurd hcount (by decide)

end Item

end SqlScribe
