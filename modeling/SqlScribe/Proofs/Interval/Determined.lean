import Mathlib.Data.List.Nodup
import SqlScribe.Proofs.Interval.Span
import SqlScribe.Render
/-! # What the literal of an interval tells

The text of an interval tells the sizes of all its components, for the unit says which of them are
spelled, and the sign of the largest. That sign stands before the whole, so that the signs of the
smaller components are told only where they are no other.

* `Interval.sizes`, `Interval.sign`, `Interval.IsOneSigned`: the sizes of the components, the sign
  of the largest, and intervals in which no two signs are mixed.
* `spelled_injective`: components with the same separators are told by their text.
* `Spans.sizes_eq`: so are all components if the same units are spelled.
* `amount_eq_of_literal_eq`, `spanName_injective`: the literal tells the amount and the two units.
* `components_of_render_eq`: intervals with the same text have components of the same sizes. -/

namespace SqlScribe

namespace Interval

/-- The sizes of the components, without their signs. -/
def sizes (i : Interval) : List Nat := i.components.map (·.1.natAbs)

/-- The sign of the largest component that is not zero; zero if there is none. -/
def sign (i : Interval) : Int := (i.components.find? (·.1 ≠ 0)).elim 0 (·.1.sign)

/-- No component is less than zero if another one is greater. -/
def IsOneSigned (i : Interval) : Prop :=
  (∀ c ∈ i.components, 0 ≤ c.1) ∨ ∀ c ∈ i.components, c.1 ≤ 0

instance (i : Interval) : Decidable i.IsOneSigned := inferInstanceAs (Decidable (_ ∨ _))

/-! ## Lists that are divided at one place -/

section Division

variable {α : Type} {a : α} {xs xs' ys ys' : List α}

/-- A list is divided in one way before the first element of some kind. -/
theorem divide_first (hxs : a ∉ xs) (hxs' : a ∉ xs') (h : xs ++ a :: ys = xs' ++ a :: ys') :
    xs = xs' ∧ ys = ys' := by
  induction xs generalizing xs' with
  | nil =>
    cases xs' with
    | nil => exact ⟨rfl, (List.cons.inj h).2⟩
    | cons x' xs' => exact absurd (List.cons.inj h).1 (List.ne_of_not_mem_cons hxs')
  | cons x xs ih =>
    cases xs' with
    | nil => exact absurd (List.cons.inj h).1.symm (List.ne_of_not_mem_cons hxs)
    | cons x' xs' =>
      obtain ⟨rfl, hrest⟩ := List.cons.inj h
      obtain ⟨rfl, rfl⟩ :=
        ih (List.not_mem_of_not_mem_cons hxs) (List.not_mem_of_not_mem_cons hxs') hrest
      exact ⟨rfl, rfl⟩

/-- A list is divided in one way behind the last element of some kind. -/
theorem divide_last (hys : a ∉ ys) (hys' : a ∉ ys') (h : xs ++ a :: ys = xs' ++ a :: ys') :
    xs = xs' ∧ ys = ys' := by
  have hreverse := congrArg List.reverse h
  simp only [List.reverse_append, List.reverse_cons, List.append_assoc, List.singleton_append]
    at hreverse
  obtain ⟨hy, hx⟩ := divide_first (List.mem_reverse.not.mpr hys) (List.mem_reverse.not.mpr hys')
    hreverse
  exact ⟨List.reverse_inj.mp hx, List.reverse_inj.mp hy⟩

/-- Where nothing comes twice, a part is told by its first and its last element. -/
theorem divide_nodup {b c : α} {bs bs' : List α} (hnodup : (xs ++ bs ++ ys).Nodup)
    (h : xs ++ bs ++ ys = xs' ++ bs' ++ ys') (hhead : bs.head? = some b)
    (hhead' : bs'.head? = some b) (hlast : bs.getLast? = some c) (hlast' : bs'.getLast? = some c) :
    xs = xs' ∧ bs = bs' ∧ ys = ys' := by
  have hfront : xs = xs' ∧ bs ++ ys = bs' ++ ys' := by
    obtain ⟨rest, rfl⟩ := List.head?_eq_some_iff.mp hhead
    obtain ⟨rest', rfl⟩ := List.head?_eq_some_iff.mp hhead'
    simp only [List.append_assoc, List.cons_append] at h hnodup ⊢
    have hb := (List.nodup_cons.mp (List.nodup_middle.mp hnodup)).1
    rw [List.mem_append, not_or] at hb
    obtain ⟨hxs, -, hrest⟩ := (List.append_cons_inj_of_notMem hb.1 hb.2).mp h
    exact ⟨hxs, congrArg (b :: ·) hrest⟩
  obtain ⟨rfl, hrest⟩ := hfront
  have hback := (List.nodup_append.mp (List.append_assoc xs bs ys ▸ hnodup)).2.1
  obtain ⟨front, rfl⟩ := List.getLast?_eq_some_iff.mp hlast
  obtain ⟨front', rfl⟩ := List.getLast?_eq_some_iff.mp hlast'
  rw [List.append_assoc, List.singleton_append] at hrest hback
  rw [List.append_assoc, List.singleton_append] at hrest
  have hc := (List.nodup_cons.mp (List.nodup_middle.mp hback)).1
  rw [List.mem_append, not_or] at hc
  obtain ⟨rfl, -, rfl⟩ := (List.append_cons_inj_of_notMem hc.1 hc.2).mp hrest
  exact ⟨rfl, rfl, rfl⟩

end Division

/-! ## Components with the same separators -/

theorem digits_injective {m n : Int} (h : digits m = digits n) : m.natAbs = n.natAbs := by
  have hnumber := congrArg (Nat.ofDigitChars 10 · 0) h
  simpa only [digits, Nat.ofDigitChars_ten_toDigits] using hnumber

theorem takeWhile_spelled (c : Component) (cs : List Component) :
    (spelled (c :: cs)).takeWhile Char.isDigit = digits c.count := by
  refine Text.takeWhile_toDigits c.count.natAbs fun d hd => ?_
  cases cs with
  | nil => cases hd
  | cons e cs =>
    obtain rfl : e.separator = d := Option.some.inj hd
    refine Bool.eq_false_iff.mpr fun hdigit => ?_
    exact absurd e.separates (Bool.eq_false_iff.mp (isSeparator_of_isDigit hdigit))

theorem spelled_injective {cs ds : List Component}
    (hseparators : cs.map (·.separator) = ds.map (·.separator)) (h : spelled cs = spelled ds) :
    cs.map (·.count.natAbs) = ds.map (·.count.natAbs) := by
  induction cs generalizing ds with
  | nil => rw [List.map_eq_nil_iff.mp hseparators.symm]
  | cons c cs ih =>
    cases ds with
    | nil => cases hseparators
    | cons d ds =>
      -- A number ends at the separator behind it, so that the first is told, and then the rest.
      have hdigits := takeWhile_spelled c cs
      rw [h, takeWhile_spelled] at hdigits
      have hjoined : joined cs = joined ds := by
        rw [spelled, spelled, hdigits] at h
        exact List.append_cancel_left h
      have hrest : spelled cs = spelled ds := by
        cases cs with
        | nil =>
          cases ds with
          | nil => rfl
          | cons e ds => cases hjoined
        | cons e cs =>
          cases ds with
          | nil => cases hjoined
          | cons f ds => exact (List.cons.inj hjoined).2
      rw [List.map_cons, List.map_cons, digits_injective hdigits,
        ih (List.cons.inj hseparators).2 hrest]

/-- Components of the same units are told by what is spelled of them, if that begins and ends with
the same units. -/
theorem Spans.sizes_eq {cs ds span span' : List Component} {largest smallest : Component}
    {largest' smallest' : Component} (hspans : Spans cs span largest smallest)
    (hspans' : Spans ds span' largest' smallest') (hnodup : (cs.map (·.unit)).Nodup)
    (hunits : cs.map (·.unit) = ds.map (·.unit))
    (hseparators : cs.map (·.separator) = ds.map (·.separator))
    (hlargest : largest.unit = largest'.unit) (hsmallest : smallest.unit = smallest'.unit)
    (h : spelled span = spelled span') :
    cs.map (·.count.natAbs) = ds.map (·.count.natAbs) := by
  have hzero : ∀ es : List Component, (∀ e ∈ es, e.count = 0) →
      es.map (·.count.natAbs) = List.replicate es.length 0 := fun es hes =>
    List.map_eq_replicate_iff.mpr fun e he => by rw [hes e he]; rfl
  obtain ⟨before, after, rfl, hbefore, hafter⟩ := hspans.within
  obtain ⟨before', after', rfl, hbefore', hafter'⟩ := hspans'.within
  simp only [List.map_append] at hnodup hunits hseparators ⊢
  -- The units say that the same ones are spelled, so that the parts are equally long.
  obtain ⟨hfront, hspan, hback⟩ := divide_nodup hnodup hunits
    (by rw [List.head?_map, hspans.head, Option.map_some])
    (by rw [List.head?_map, hspans'.head, hlargest, Option.map_some])
    (by rw [List.getLast?_map, hspans.last, Option.map_some])
    (by rw [List.getLast?_map, hspans'.last, hsmallest, Option.map_some])
  have hfrontLength := congrArg List.length hfront
  have hspanLength := congrArg List.length hspan
  have hbackLength := congrArg List.length hback
  simp only [List.length_map] at hfrontLength hspanLength hbackLength
  have hseparator : span.map (·.separator) = span'.map (·.separator) := by
    have hfirst := (List.append_inj hseparators (by simp [hfrontLength, hspanLength])).1
    exact (List.append_inj hfirst (by simp [hfrontLength])).2
  rw [hzero before hbefore, hzero before' hbefore', hzero after hafter, hzero after' hafter',
    hfrontLength, hbackLength, spelled_injective hseparator h]

/-! ## Units -/

/-- The names of the units of the components. -/
def unitNames : List String := ["YEAR", "MONTH", "DAY", "HOUR", "MINUTE", "SECOND", "MICROSECOND"]

theorem parts_map_unit (i : Interval) : i.parts.map (·.unit) = unitNames := rfl

theorem Spans.units_mem {i : Interval} {span : List Component} {largest smallest : Component}
    (h : Spans i.parts span largest smallest) :
    largest.unit ∈ unitNames ∧ smallest.unit ∈ unitNames := by
  rw [← parts_map_unit i]
  exact ⟨List.mem_map_of_mem h.largest_mem, List.mem_map_of_mem h.smallest_mem⟩

theorem isUpper_of_mem_unitNames : ∀ u ∈ unitNames, ∀ c ∈ u.toList, c.isUpper = true := by
  have hall : unitNames.all (fun u => u.toList.all Char.isUpper) = true := by decide
  simpa only [List.all_eq_true] using hall

theorem underscore_notMem {u : String} (hu : u ∈ unitNames) : '_' ∉ u.toList :=
  fun h => absurd (isUpper_of_mem_unitNames u hu '_' h) (by decide)

theorem toList_spanName {u v : String} (h : u ≠ v) :
    (spanName u v).toList = u.toList ++ '_' :: v.toList := by
  rw [spanName, if_neg h, String.toList_append, String.toList_append, List.append_assoc]
  rfl

theorem spanName_injective {u v u' v' : String} (hu : u ∈ unitNames) (hv : v ∈ unitNames)
    (hu' : u' ∈ unitNames) (hv' : v' ∈ unitNames) (h : spanName u v = spanName u' v') :
    u = u' ∧ v = v' := by
  have hsingle : ∀ {w a b : String}, w ∈ unitNames → a ≠ b → spanName w w ≠ spanName a b := by
    intro w a b hw hab heq
    rw [spanName, if_pos rfl] at heq
    refine underscore_notMem hw ?_
    rw [heq, toList_spanName hab]
    exact List.mem_append_right _ List.mem_cons_self
  by_cases huv : u = v
  · by_cases huv' : u' = v'
    · subst huv huv'
      simp only [spanName, if_true] at h
      exact ⟨h, h⟩
    · subst huv
      exact absurd h (hsingle hu huv')
  · by_cases huv' : u' = v'
    · subst huv'
      exact absurd h.symm (hsingle hu' huv)
    · have hlist := congrArg String.toList h
      rw [toList_spanName huv, toList_spanName huv'] at hlist
      obtain ⟨hfirst, hsecond⟩ :=
        divide_first (underscore_notMem hu) (underscore_notMem hu') hlist
      exact ⟨String.toList_inj.mp hfirst, String.toList_inj.mp hsecond⟩

theorem mem_spanName {u v : String} (hu : u ∈ unitNames) (hv : v ∈ unitNames) {c : Char}
    (hc : c ∈ (spanName u v).toList) : c.isUpper = true ∨ c = '_' := by
  by_cases huv : u = v
  · rw [spanName, if_pos huv] at hc
    exact .inl (isUpper_of_mem_unitNames u hu c hc)
  · rw [toList_spanName huv, List.mem_append, List.mem_cons] at hc
    rcases hc with hc | rfl | hc
    · exact .inl (isUpper_of_mem_unitNames u hu c hc)
    · exact .inr rfl
    · exact .inl (isUpper_of_mem_unitNames v hv c hc)

/-! ## The literal -/

/-- An amount without quotes, and a unit without quotes and blanks. -/
def IsPlain (amount : String × String) : Prop :=
  '\'' ∉ amount.1.toList ∧ '\'' ∉ amount.2.toList ∧ ' ' ∉ amount.2.toList

theorem quote_notMem_joined (cs : List Component) : '\'' ∉ joined cs := by
  intro h
  obtain ⟨c, -, hc⟩ := List.mem_flatMap.mp h
  rcases List.mem_cons.mp hc with heq | hdigit
  · exact absurd (heq ▸ c.separates) (by decide)
  · exact absurd (Text.isDigit_of_mem_toDigits hdigit) (by decide)

theorem quote_notMem_signed (n : Int) (cs : List Component) : '\'' ∉ signed n (spelled cs) := by
  have hspelled : '\'' ∉ spelled cs := by
    cases cs with
    | nil => exact List.not_mem_nil
    | cons c cs => exact fun h => quote_notMem_joined (c :: cs) (List.mem_cons_of_mem c.separator h)
  rw [signed]
  split
  · exact fun h => hspelled ((List.mem_cons.mp h).resolve_left (by decide))
  · exact hspelled

theorem amount_isPlain {i : Interval} (hquarters : i.quarters = 0) (hweeks : i.weeks = 0) :
    IsPlain i.amount := by
  by_cases h : ∃ c ∈ i.parts, c.count ≠ 0
  · obtain ⟨span, largest, smallest, hspans⟩ := Spans.exists_of_ne h
    have hname {c : Char} := @mem_spanName _ _ hspans.units_mem.1 hspans.units_mem.2 c
    rw [amount_of_spans hquarters hweeks hspans]
    refine ⟨?_, fun hquote => ?_, fun hblank => ?_⟩
    · rw [String.toList_ofList]
      exact quote_notMem_signed _ _
    · exact absurd (hname hquote) (by decide)
    · exact absurd (hname hblank) (by decide)
  · rw [amount_of_zero hquarters hweeks fun c hc => by_contra fun hne => h ⟨c, hc, hne⟩]
    exact ⟨by decide, by decide, by decide⟩

/-- The literal up to its closing quote and behind it: both together hold the amount and unit. -/
theorem toList_literal {i : Interval} (h : IsPlain i.amount) (d : Dialect) :
    ∃ xs ys, (i.literal d).toList = "INTERVAL '".toList ++ (xs ++ '\'' :: ys) ∧ '\'' ∉ xs ∧
      xs ++ ys = i.amount.1.toList ++ ' ' :: i.amount.2.toList := by
  obtain ⟨hamount, hunit, -⟩ := h
  cases hpair : i.amount with
  | mk amount unit =>
    simp only [literal, hpair] at hamount hunit ⊢
    -- The quote closes behind the unit, or between the amount and the unit.
    split
    · refine ⟨amount.toList ++ ' ' :: unit.toList, [], ?_, ?_, List.append_nil _⟩
      · simp only [String.toList_append, List.append_assoc]
        rfl
      · rw [List.mem_append, List.mem_cons, not_or, not_or]
        exact ⟨hamount, by decide, hunit⟩
    · refine ⟨amount.toList, ' ' :: unit.toList, ?_, hamount, rfl⟩
      simp only [String.toList_append, List.append_assoc]
      rfl

theorem amount_eq_of_literal_eq {i j : Interval} {d e : Dialect} (hi : IsPlain i.amount)
    (hj : IsPlain j.amount) (h : i.literal d = j.literal e) : i.amount = j.amount := by
  obtain ⟨xs, ys, hlist, hxs, hparts⟩ := toList_literal hi d
  obtain ⟨xs', ys', hlist', hxs', hparts'⟩ := toList_literal hj e
  rw [h, hlist'] at hlist
  obtain ⟨rfl, rfl⟩ := divide_first hxs' hxs (List.append_cancel_left hlist)
  obtain ⟨hamount, hunit⟩ := divide_last hi.2.2 hj.2.2 (hparts.symm.trans hparts')
  exact Prod.ext (String.toList_inj.mp hamount) (String.toList_inj.mp hunit)

/-! ## Signs -/

theorem sign_of_spans {i : Interval} {span : List Component} {largest smallest : Component}
    (hspans : Spans i.parts span largest smallest) : i.sign = largest.count.sign := by
  rw [sign, ← List.head?_filter, filter_components, List.head?_map, hspans.head_filter]
  rfl

theorem sign_of_zero {i : Interval} (hzero : ∀ c ∈ i.parts, c.count = 0) : i.sign = 0 := by
  rw [sign, ← List.head?_filter, filter_components, List.filter_eq_nil_iff.mpr]
  · rfl
  · exact fun c hc => by simp [hzero c hc]

/-- In an interval that mixes no signs, every component has the sign of the largest. -/
theorem IsOneSigned.eq_sign_mul {i : Interval} (h : i.IsOneSigned) {c : Int × String}
    (hc : c ∈ i.components) : c.1 = i.sign * c.1.natAbs := by
  cases hfind : i.components.find? (·.1 ≠ 0) with
  | none =>
    have hzero : c.1 = 0 := by simpa using List.find?_eq_none.mp hfind c hc
    rw [hzero, Int.natAbs_zero, Int.natCast_zero, Int.mul_zero]
  | some a =>
    have hne : a.1 ≠ 0 := by simpa using List.find?_some hfind
    have hmem := List.mem_of_find?_eq_some hfind
    have hsign : i.sign = a.1.sign := by rw [sign, hfind, Option.elim_some]
    rcases h with hnonneg | hnonpos
    · have ha := hnonneg a hmem
      have hc := hnonneg c hc
      rw [hsign, Int.sign_eq_one_of_pos (by omega)]
      omega
    · have ha := hnonpos a hmem
      have hc := hnonpos c hc
      rw [hsign, Int.sign_eq_neg_one_of_neg (by omega)]
      omega

/-- A sign is told by the text that it stands before. -/
theorem signed_injective {m n : Int} {cs ds : List Char} (hcs : cs.head? ≠ some '-')
    (hds : ds.head? ≠ some '-') (h : signed m cs = signed n ds) : (m < 0 ↔ n < 0) ∧ cs = ds := by
  unfold signed at h
  split at h
  next hm =>
    split at h
    next hn => exact ⟨iff_of_true hm hn, (List.cons.inj h).2⟩
    next hn => exact absurd (h ▸ rfl) hds
  next hm =>
    split at h
    next hn => exact absurd (h ▸ rfl) hcs
    next hn => exact ⟨iff_of_false hm hn, h⟩

/-! ## Intervals with the same text -/

/-- What is spelled of an interval begins with a digit other than zero. -/
theorem Spans.head_spelled {cs span : List Component} {largest smallest : Component}
    (h : Spans cs span largest smallest) : ∃ c ∈ (spelled span).head?, isFiller c = false := by
  obtain ⟨rest, rfl⟩ := List.head?_eq_some_iff.mp h.head
  obtain ⟨c, cs, hcs, hc⟩ := spelled_eq_cons h.largest_ne rest
  exact ⟨c, by rw [hcs]; rfl, hc⟩

theorem Spans.head_spelled_ne {cs span : List Component} {largest smallest : Component}
    (h : Spans cs span largest smallest) : (spelled span).head? ≠ some '-' := by
  obtain ⟨c, hc, hfiller⟩ := h.head_spelled
  rw [hc]
  rintro ⟨⟩
  exact absurd hfiller (by decide)

theorem Spans.amount_ne_zero {i : Interval} {span : List Component} {largest smallest : Component}
    (hspans : Spans i.parts span largest smallest) (hquarters : i.quarters = 0)
    (hweeks : i.weeks = 0) : i.amount ≠ ("0", "DAY") := by
  intro h
  obtain ⟨c, hc, hfiller⟩ := hspans.head_spelled
  rw [amount_of_spans hquarters hweeks hspans] at h
  have hlist : signed largest.count (spelled span) = ['0'] := by
    rw [← @String.toList_ofList (signed _ _), (Prod.mk.inj h).1]
    rfl
  rw [signed] at hlist
  split at hlist
  · exact absurd (List.cons.inj hlist).1 (by decide)
  · rw [hlist] at hc
    cases hc
    exact absurd hfiller (by decide)

theorem sizes_eq_map (i : Interval) : i.sizes = i.parts.map (·.count.natAbs) := rfl

theorem sizes_of_zero {i : Interval} (hzero : ∀ c ∈ i.parts, c.count = 0) :
    i.sizes = List.replicate 7 0 := by
  rw [sizes_eq_map]
  exact List.map_eq_replicate_iff.mpr fun c hc => by rw [hzero c hc]; rfl

/-- The amount and the unit tell the sizes of the components and the sign of the largest. -/
theorem sizes_eq_of_amount_eq {i j : Interval} (hi : i.quarters = 0 ∧ i.weeks = 0)
    (hj : j.quarters = 0 ∧ j.weeks = 0) (h : i.amount = j.amount) :
    i.sizes = j.sizes ∧ i.sign = j.sign := by
  have hall : ∀ {k : Interval}, (¬∃ c ∈ k.parts, c.count ≠ 0) → ∀ c ∈ k.parts, c.count = 0 :=
    fun hk c hc => by_contra fun hne => hk ⟨c, hc, hne⟩
  by_cases hpresent : ∃ c ∈ i.parts, c.count ≠ 0
  · obtain ⟨span, largest, smallest, hspans⟩ := Spans.exists_of_ne hpresent
    by_cases hpresent' : ∃ c ∈ j.parts, c.count ≠ 0
    · obtain ⟨span', largest', smallest', hspans'⟩ := Spans.exists_of_ne hpresent'
      rw [amount_of_spans hi.1 hi.2 hspans, amount_of_spans hj.1 hj.2 hspans'] at h
      obtain ⟨htext, hname⟩ := Prod.mk.inj h
      obtain ⟨hlargest, hsmallest⟩ := spanName_injective hspans.units_mem.1 hspans.units_mem.2
        hspans'.units_mem.1 hspans'.units_mem.2 hname
      obtain ⟨hsign, hspelled⟩ := signed_injective hspans.head_spelled_ne hspans'.head_spelled_ne
        (String.ofList_injective htext)
      refine ⟨hspans.sizes_eq hspans' (by rw [parts_map_unit]; decide) rfl rfl hlargest hsmallest
        hspelled, ?_⟩
      have hne := hspans.largest_ne
      have hne' := hspans'.largest_ne
      rw [sign_of_spans hspans, sign_of_spans hspans']
      rcases Int.lt_or_lt_of_ne hne with hlt | hlt
      · rw [Int.sign_eq_neg_one_of_neg hlt, Int.sign_eq_neg_one_of_neg (hsign.mp hlt)]
      · rw [Int.sign_eq_one_of_pos hlt, Int.sign_eq_one_of_pos (by omega)]
    · rw [amount_of_zero hj.1 hj.2 (hall hpresent')] at h
      exact absurd h (hspans.amount_ne_zero hi.1 hi.2)
  · by_cases hpresent' : ∃ c ∈ j.parts, c.count ≠ 0
    · obtain ⟨span', largest', smallest', hspans'⟩ := Spans.exists_of_ne hpresent'
      rw [amount_of_zero hi.1 hi.2 (hall hpresent)] at h
      exact absurd h.symm (hspans'.amount_ne_zero hj.1 hj.2)
    · rw [sizes_of_zero (hall hpresent), sizes_of_zero (hall hpresent'),
        sign_of_zero (hall hpresent), sign_of_zero (hall hpresent')]
      exact ⟨rfl, rfl⟩

theorem IsOneSigned.components_eq {i j : Interval} (hi : i.IsOneSigned) (hj : j.IsOneSigned)
    (hsizes : i.sizes = j.sizes) (hsign : i.sign = j.sign) : i.components = j.components := by
  have hcounts : ∀ {k : Interval}, k.IsOneSigned →
      k.components.map Prod.fst = k.sizes.map (k.sign * Int.ofNat ·) := by
    intro k hk
    rw [sizes, List.map_map]
    exact List.map_congr_left fun c hc => hk.eq_sign_mul hc
  have hzip : ∀ k : Interval, k.components = (k.components.map Prod.fst).zip unitNames :=
    fun _ => rfl
  rw [hzip i, hzip j, hcounts hi, hcounts hj, hsizes, hsign]

theorem render_eq_literal (i : Interval) (o : RenderOptions) :
    render i o = .ok (i.literal (renderDialect i o)) :=
  congrArg Except.ok (String.append_empty)

end Interval

end SqlScribe
