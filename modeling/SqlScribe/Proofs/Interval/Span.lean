import Mathlib.Data.List.TakeWhile
import SqlScribe.Interval
import SqlScribe.Proofs.Decimal.Digits
/-! # The components that an interval spells

The literal of an interval spells its components from the largest to the smallest one that is not
zero, and no other. They are found in the text of all components, where zeros and separators are
dropped at both ends: a number other than zero begins with a digit other than zero, so that dropping
stops before it, and a zero between two other components is between characters that are kept.

* `Interval.Component`, `Interval.parts`: the components, each with the separator before it.
* `Interval.spelled`: some components one behind the other.
* `Interval.Spans`: a part of some components, from the largest to the smallest that is not zero.
* `Interval.Spans.trimEnd_trimStart`: what is left of the text of all components.
* `Interval.amount_eq_spelled`: the amount is the text of that part with the sign of the largest. -/

namespace SqlScribe

namespace Interval

/-! ## Components -/

/-- A component of an interval as it is spelled. -/
structure Component where
  /-- What separates it from the component before it. -/
  separator : Char
  /-- It is a separator. -/
  separates : isSeparator separator = true
  /-- How many of its unit. -/
  count : Int
  /-- The name of its unit. -/
  unit : String
deriving DecidableEq

/-- The components, the largest unit first, with the separators of a date and time. Nothing stands
before the first, so that its separator is never read. -/
def parts (i : Interval) : List Component :=
  [⟨' ', rfl, i.years, "YEAR"⟩, ⟨'-', rfl, i.months, "MONTH"⟩, ⟨'-', rfl, i.days, "DAY"⟩,
    ⟨' ', rfl, i.hours, "HOUR"⟩, ⟨':', rfl, i.minutes, "MINUTE"⟩, ⟨':', rfl, i.seconds, "SECOND"⟩,
    ⟨'.', rfl, i.microseconds, "MICROSECOND"⟩]

theorem components_eq_map (i : Interval) :
    i.components = i.parts.map fun c => (c.count, c.unit) :=
  rfl

theorem filter_components (i : Interval) :
    i.components.filter (·.1 ≠ 0) =
      (i.parts.filter (·.count ≠ 0)).map fun c => (c.count, c.unit) := by
  rw [components_eq_map, List.filter_map]
  rfl

/-- Components behind others, each after its separator. -/
def joined (cs : List Component) : List Char := cs.flatMap fun c => c.separator :: digits c.count

/-- The sizes of some components with the separators between them. -/
def spelled : List Component → List Char
  | [] => []
  | c :: cs => digits c.count ++ joined cs

@[simp] theorem joined_nil : joined [] = [] := rfl

@[simp] theorem joined_cons (c : Component) (cs : List Component) :
    joined (c :: cs) = c.separator :: spelled (c :: cs) := rfl

theorem joined_append (cs ds : List Component) : joined (cs ++ ds) = joined cs ++ joined ds :=
  List.flatMap_append

theorem spelled_append (c : Component) (cs ds : List Component) :
    spelled (c :: cs ++ ds) = spelled (c :: cs) ++ joined ds := by
  rw [List.cons_append, spelled, spelled, joined_append, List.append_assoc]

theorem fullText_eq_spelled (i : Interval) : i.fullText = spelled i.parts := by
  simp only [fullText, parts, spelled, joined, List.flatMap_cons, List.flatMap_nil,
    List.append_nil, List.append_assoc, List.cons_append]

/-! ## Digits and filler -/

theorem isSeparator_of_isDigit {c : Char} (h : c.isDigit = true) : isSeparator c = false := by
  refine Bool.eq_false_iff.mpr fun hseparator => ?_
  simp only [isSeparator, Bool.or_eq_true, beq_iff_eq] at hseparator
  rcases hseparator with ((rfl | rfl) | rfl) | rfl <;> exact absurd h (by decide)

theorem isFiller_eq (c : Char) : isFiller c = (c == '0' || isSeparator c) := by
  simp only [isFiller, isSeparator]
  grind

theorem isFiller_of_isSeparator {c : Char} (h : isSeparator c = true) : isFiller c = true := by
  rw [isFiller_eq, h, Bool.or_true]

theorem digits_zero : digits 0 = ['0'] := rfl

theorem isSeparator_of_mem_digits {n : Int} {c : Char} (h : c ∈ digits n) :
    isSeparator c = false :=
  isSeparator_of_isDigit (Text.isDigit_of_mem_toDigits h)

/-- A number other than zero begins with no filler. -/
theorem digits_eq_cons {n : Int} (hn : n ≠ 0) :
    ∃ c cs, digits n = c :: cs ∧ isFiller c = false := by
  obtain ⟨c, cs, hcs, hc⟩ := Text.toDigits_eq_cons (Int.natAbs_ne_zero.mpr hn)
  have hmem : c ∈ digits n := by
    rw [digits, hcs]
    exact List.mem_cons_self
  refine ⟨c, cs, hcs, ?_⟩
  rw [isFiller_eq, isSeparator_of_mem_digits hmem, Bool.or_false]
  exact beq_false_of_ne hc

theorem spelled_eq_cons {c : Component} (hc : c.count ≠ 0) (cs : List Component) :
    ∃ d ds, spelled (c :: cs) = d :: ds ∧ isFiller d = false := by
  obtain ⟨d, ds, hds, hd⟩ := digits_eq_cons hc
  exact ⟨d, ds ++ joined cs, by rw [spelled, hds, List.cons_append], hd⟩

/-- Zero components are spelled with filler only. -/
theorem isFiller_of_mem_joined {cs : List Component} (hzero : ∀ c ∈ cs, c.count = 0) {d : Char}
    (hd : d ∈ joined cs) : isFiller d = true := by
  obtain ⟨c, hc, hdc⟩ := List.mem_flatMap.mp hd
  rw [hzero c hc, digits_zero] at hdc
  rcases List.mem_cons.mp hdc with rfl | hdc
  · exact isFiller_of_isSeparator c.separates
  · rw [List.mem_singleton.mp hdc]
    rfl

theorem isFiller_of_mem_spelled {cs : List Component} (hzero : ∀ c ∈ cs, c.count = 0) {d : Char}
    (hd : d ∈ spelled cs) : isFiller d = true := by
  cases cs with
  | nil => cases hd
  | cons c cs => exact isFiller_of_mem_joined hzero (List.mem_cons_of_mem c.separator hd)

/-- Components of which the last is not zero are not spelled with filler only. -/
theorem spelled_not_all_isFiller {c : Component} {cs : List Component}
    (hlast : ∀ e ∈ (c :: cs).getLast?, e.count ≠ 0) (ds : List Component) :
    (spelled (c :: (cs ++ ds))).all isFiller = false := by
  induction cs generalizing c with
  | nil =>
    obtain ⟨d, rest, hrest, hd⟩ := spelled_eq_cons (hlast c rfl) ds
    rw [List.nil_append, hrest, List.all_cons, hd, Bool.false_and]
  | cons e cs ih =>
    have hrest := @ih e fun a ha => hlast a (by rwa [List.getLast?_cons_cons])
    rw [spelled, List.cons_append, joined_cons, List.all_append, List.all_cons, hrest,
      Bool.and_false, Bool.and_false]

/-! ## Trimming -/

theorem trimStart_eq_self {c : Char} (hc : isFiller c = false) (cs : List Char) :
    trimStart (c :: cs) = c :: cs := by
  have hkeep : ¬isFiller c = true := by rw [hc]; decide
  rw [trimStart, List.takeWhile_cons_of_neg hkeep, List.dropWhile_cons_of_neg hkeep]
  rfl

/-- Filler whose last character ends a component is dropped before anything else. -/
theorem trimStart_filler {filler : List Char} {e c : Char} (hfiller : ∀ d ∈ filler, isFiller d)
    (he : endsComponent e = true) (hc : isFiller c = false) (cs : List Char) :
    trimStart (filler ++ e :: c :: cs) = c :: cs := by
  have hkeep : ¬isFiller c = true := by rw [hc]; decide
  have hdrop : ∀ d ∈ filler ++ [e], isFiller d = true := by
    intro d hd
    rcases List.mem_append.mp hd with hd | hd
    · exact hfiller d hd
    · rw [List.mem_singleton.mp hd]
      simp only [endsComponent, Bool.or_eq_true, beq_iff_eq] at he
      rcases he with (rfl | rfl) | rfl <;> rfl
  rw [trimStart, List.append_cons, List.takeWhile_append_of_pos hdrop,
    List.dropWhile_append_of_pos hdrop, List.takeWhile_cons_of_neg hkeep,
    List.dropWhile_cons_of_neg hkeep, List.append_nil, List.reverse_append, List.reverse_singleton,
    List.singleton_append, List.takeWhile_cons_of_neg (by rw [he]; decide)]
  rfl

theorem trimEnd_filler {c : Char} {cs : List Char} (hc : isSeparator c = true) (hne : cs ≠ [])
    (hcs : cs.all isFiller = true) : trimEnd (c :: cs) = [] := by
  have hempty : cs.isEmpty = false := by rwa [List.isEmpty_eq_false_iff]
  rw [trimEnd, hc, hempty, hcs]
  rfl

theorem trimEnd_cons {c : Char} {cs : List Char} (hcs : cs.all isFiller = false) :
    trimEnd (c :: cs) = c :: trimEnd cs := by
  rw [trimEnd, hcs, Bool.and_false]
  rfl

theorem trimEnd_append {cs : List Char} (hcs : ∀ c ∈ cs, isSeparator c = false) (ds : List Char) :
    trimEnd (cs ++ ds) = cs ++ trimEnd ds := by
  induction cs with
  | nil => rfl
  | cons c cs ih =>
    rw [List.cons_append, trimEnd, hcs c List.mem_cons_self, Bool.false_and, Bool.false_and,
      ih fun d hd => hcs d (List.mem_cons_of_mem c hd)]
    rfl

/-- Behind a component that is not zero, the zero components at the end are dropped. -/
theorem trimEnd_joined {cs ds : List Component} (hlast : ∀ c ∈ cs.getLast?, c.count ≠ 0)
    (hzero : ∀ c ∈ ds, c.count = 0) : trimEnd (joined (cs ++ ds)) = joined cs := by
  -- Up to the last component that is not zero, more than filler follows each separator.
  induction cs with
  | nil =>
    cases ds with
    | nil => rfl
    | cons d ds =>
      rw [List.nil_append, joined_cons, joined_nil]
      refine trimEnd_filler d.separates ?_ (List.all_eq_true.mpr fun _ hc =>
        isFiller_of_mem_spelled hzero hc)
      rw [spelled, hzero d List.mem_cons_self, digits_zero]
      exact List.cons_ne_nil _ _
  | cons c cs ih =>
    have hrest : ∀ e ∈ cs.getLast?, e.count ≠ 0 := by
      cases cs with
      | nil => exact fun e he => absurd he (by simp)
      | cons e cs => rwa [List.getLast?_cons_cons] at hlast
    rw [List.cons_append, joined_cons, trimEnd_cons (spelled_not_all_isFiller hlast ds), spelled,
      trimEnd_append (fun _ hd => isSeparator_of_mem_digits hd), ih hrest]
    rfl

theorem trimEnd_spelled {c : Component} {cs ds : List Component}
    (hlast : ∀ e ∈ (c :: cs).getLast?, e.count ≠ 0) (hzero : ∀ e ∈ ds, e.count = 0) :
    trimEnd (spelled (c :: (cs ++ ds))) = spelled (c :: cs) := by
  have hjoined := trimEnd_joined hlast hzero
  rw [List.cons_append, joined_cons, trimEnd_cons (spelled_not_all_isFiller hlast ds)] at hjoined
  exact (List.cons.inj hjoined).2

/-- Zero components at the start are dropped, unless the first behind them follows a point. -/
theorem trimStart_spelled {c : Component} {cs ds : List Component} (hzero : ∀ e ∈ ds, e.count = 0)
    (hc : c.count ≠ 0) (hends : ds ≠ [] → endsComponent c.separator = true) :
    trimStart (spelled (ds ++ c :: cs)) = spelled (c :: cs) := by
  obtain ⟨d, rest, hrest, hd⟩ := spelled_eq_cons hc cs
  cases ds with
  | nil => rw [List.nil_append, hrest, trimStart_eq_self hd]
  | cons e ds =>
    rw [spelled_append, joined_cons, hrest]
    exact trimStart_filler (fun _ => isFiller_of_mem_spelled hzero)
      (hends (List.cons_ne_nil e ds)) hd rest

/-! ## The part that is spelled -/

/-- A part of some components goes from the largest to the smallest that is not zero. -/
structure Spans (cs span : List Component) (largest smallest : Component) : Prop where
  /-- The other components, before it and behind it, are zero. -/
  within : ∃ before after, cs = before ++ span ++ after ∧
    (∀ c ∈ before, c.count = 0) ∧ ∀ c ∈ after, c.count = 0
  /-- It begins with the largest. -/
  head : span.head? = some largest
  /-- It ends with the smallest. -/
  last : span.getLast? = some smallest
  /-- The largest is not zero. -/
  largest_ne : largest.count ≠ 0
  /-- The smallest is not zero. -/
  smallest_ne : smallest.count ≠ 0

/-- The name of the units from the largest to the smallest. -/
def spanName (largest smallest : String) : String :=
  if largest = smallest then largest else largest ++ "_" ++ smallest

namespace Spans

variable {cs span : List Component} {largest smallest : Component}

/-- Components that are not all zero have such a part. -/
theorem exists_of_ne {cs : List Component} (h : ∃ c ∈ cs, c.count ≠ 0) :
    ∃ span largest smallest, Spans cs span largest smallest := by
  induction cs with
  | nil =>
    obtain ⟨c, hc, -⟩ := h
    cases hc
  | cons c cs ih =>
    -- The part of the components behind it is kept, and begins with it if it is not zero.
    by_cases hrest : ∃ e ∈ cs, e.count ≠ 0
    · obtain ⟨span, largest, smallest, ⟨before, after, rfl, hbefore, hafter⟩, hhead, hlast, hl,
        hs⟩ := ih hrest
      by_cases hc : c.count = 0
      · refine ⟨span, largest, smallest, ⟨c :: before, after, rfl, ?_, hafter⟩, hhead, hlast, hl,
          hs⟩
        exact List.forall_mem_cons.mpr ⟨hc, hbefore⟩
      · refine ⟨c :: (before ++ span), c, smallest, ⟨[], after, rfl, ?_, hafter⟩, rfl, ?_, hc, hs⟩
        · exact fun _ he => by cases he
        · rw [← List.cons_append, List.getLast?_append, hlast]
          rfl
    · have hzero : ∀ e ∈ cs, e.count = 0 := fun e he => by_contra fun hne => hrest ⟨e, he, hne⟩
      have hc : c.count ≠ 0 := by
        obtain ⟨e, he, hne⟩ := h
        rcases List.mem_cons.mp he with rfl | he
        · exact hne
        · exact absurd (hzero e he) hne
      refine ⟨[c], c, c, ⟨[], cs, rfl, ?_, hzero⟩, rfl, rfl, hc, hc⟩
      exact fun _ he => by cases he

theorem filter_eq (h : Spans cs span largest smallest) :
    cs.filter (·.count ≠ 0) = span.filter (·.count ≠ 0) := by
  obtain ⟨before, after, rfl, hbefore, hafter⟩ := h.within
  have hnone : ∀ ds : List Component, (∀ c ∈ ds, c.count = 0) → ds.filter (·.count ≠ 0) = [] :=
    fun ds hds => List.filter_eq_nil_iff.mpr fun c hc => by simp [hds c hc]
  rw [List.filter_append, List.filter_append, hnone before hbefore, hnone after hafter,
    List.nil_append, List.append_nil]

theorem head_filter (h : Spans cs span largest smallest) :
    (cs.filter (·.count ≠ 0)).head? = some largest := by
  obtain ⟨rest, rfl⟩ := List.head?_eq_some_iff.mp h.head
  rw [h.filter_eq, List.filter_cons_of_pos (by simpa using h.largest_ne), List.head?_cons]

theorem getLast_filter (h : Spans cs span largest smallest) :
    (cs.filter (·.count ≠ 0)).getLast? = some smallest := by
  obtain ⟨rest, rfl⟩ := List.getLast?_eq_some_iff.mp h.last
  rw [h.filter_eq, List.filter_append, List.filter_cons_of_pos (by simpa using h.smallest_ne),
    List.filter_nil, List.getLast?_append, List.getLast?_singleton]
  rfl

theorem largest_mem (h : Spans cs span largest smallest) : largest ∈ cs :=
  (List.mem_filter.mp (List.mem_of_head? h.head_filter)).1

theorem smallest_mem (h : Spans cs span largest smallest) : smallest ∈ cs :=
  (List.mem_filter.mp (List.mem_of_getLast? h.getLast_filter)).1

/-- Only the part is left of the text of all components if the largest is not behind a point. -/
theorem trimEnd_trimStart (h : Spans cs span largest smallest)
    (hends : endsComponent largest.separator = true) :
    trimEnd (trimStart (spelled cs)) = spelled span := by
  obtain ⟨before, after, rfl, hbefore, hafter⟩ := h.within
  obtain ⟨rest, rfl⟩ := List.head?_eq_some_iff.mp h.head
  have hlast : ∀ c ∈ (largest :: rest).getLast?, c.count ≠ 0 := by
    intro c hc
    rw [h.last, Option.mem_some_iff] at hc
    exact hc ▸ h.smallest_ne
  rw [List.append_assoc, List.cons_append,
    trimStart_spelled hbefore h.largest_ne fun _ => hends, trimEnd_spelled hlast hafter]

end Spans

/-! ## The amount -/

/-- Some digits with the sign of a number. -/
def signed (n : Int) (cs : List Char) : List Char := if n < 0 then '-' :: cs else cs

theorem toList_toString (n : Int) : (toString n).toList = signed n (digits n) := by
  cases n with
  | ofNat m =>
    show m.repr.toList = _
    rw [Nat.toList_repr]
    rfl
  | negSucc m =>
    show ("-" ++ m.succ.repr).toList = _
    rw [String.toList_append, Nat.toList_repr, signed, if_pos (Int.negSucc_lt_zero m)]
    rfl

/-- Only the microseconds are behind a point. -/
theorem endsComponent_of_mem_parts {i : Interval} {c : Component} (hc : c ∈ i.parts)
    (hunit : c.unit ≠ "MICROSECOND") : endsComponent c.separator = true := by
  simp only [parts, List.mem_cons, List.not_mem_nil, or_false] at hc
  rcases hc with rfl | rfl | rfl | rfl | rfl | rfl | rfl
  all_goals first | rfl | exact absurd rfl hunit

/-- The microseconds are the last component. -/
theorem eq_nil_of_microseconds {i : Interval} {before after : List Component} {c : Component}
    (hparts : i.parts = before ++ c :: after) (hunit : c.unit = "MICROSECOND") :
    after = [] ∧ c.count = i.microseconds := by
  have hpairwise : i.parts.Pairwise fun a _ => a.unit ≠ "MICROSECOND" := by simp [parts]
  have hlast : i.parts.getLast? = some ⟨'.', rfl, i.microseconds, "MICROSECOND"⟩ := rfl
  rw [hparts] at hpairwise hlast
  cases after with
  | nil =>
    rw [List.getLast?_append, List.getLast?_singleton, Option.some_or] at hlast
    exact ⟨rfl, congrArg Component.count (Option.some.inj hlast)⟩
  | cons d after =>
    have hbehind := (List.pairwise_append.mp hpairwise).2.1
    exact absurd hunit (List.rel_of_pairwise_cons hbehind List.mem_cons_self)

section

variable {i : Interval} (hquarters : i.quarters = 0) (hweeks : i.weeks = 0)
include hquarters hweeks

/-- What is computed from the first and the last component that are not zero. -/
theorem amount_eq_ite {span : List Component} {largest smallest : Component}
    (hspans : Spans i.parts span largest smallest) :
    i.amount =
      if largest.unit = "MICROSECOND" then (toString i.microseconds, "MICROSECOND")
      else
        (String.ofList (signed largest.count (trimEnd (trimStart i.fullText))),
          spanName largest.unit smallest.unit) := by
  have hhead : (i.components.filter (·.1 ≠ 0)).head? = some (largest.count, largest.unit) := by
    rw [filter_components, List.head?_map, hspans.head_filter]
    rfl
  have hlast : (i.components.filter (·.1 ≠ 0)).getLast? = some (smallest.count, smallest.unit) := by
    rw [filter_components, List.getLast?_map, hspans.getLast_filter]
    rfl
  rw [amount, if_neg (not_not.mpr hquarters), if_neg (not_not.mpr hweeks)]
  simp only [hhead, hlast]
  rfl

theorem amount_of_spans {span : List Component} {largest smallest : Component}
    (hspans : Spans i.parts span largest smallest) :
    i.amount =
      (String.ofList (signed largest.count (spelled span)),
        spanName largest.unit smallest.unit) := by
  rw [amount_eq_ite hquarters hweeks hspans]
  split
  next hunit =>
    -- Nothing is behind the microseconds, so that they are all of the part.
    obtain ⟨before, after, hparts, -, -⟩ := hspans.within
    obtain ⟨rest, rfl⟩ := List.head?_eq_some_iff.mp hspans.head
    rw [List.append_assoc, List.cons_append] at hparts
    obtain ⟨hnil, hcount⟩ := eq_nil_of_microseconds hparts hunit
    obtain ⟨rfl, -⟩ := List.append_eq_nil_iff.mp hnil
    obtain rfl : largest = smallest := Option.some.inj hspans.last
    rw [spanName, if_pos rfl, hunit, spelled, joined_nil, List.append_nil, ← toList_toString,
      String.ofList_toList, hcount]
  next hunit =>
    rw [fullText_eq_spelled,
      hspans.trimEnd_trimStart (endsComponent_of_mem_parts hspans.largest_mem hunit)]

theorem amount_of_zero (hzero : ∀ c ∈ i.parts, c.count = 0) : i.amount = ("0", "DAY") := by
  have hnone : i.components.filter (·.1 ≠ 0) = [] := by
    rw [filter_components, List.map_eq_nil_iff, List.filter_eq_nil_iff]
    exact fun c hc => by simp [hzero c hc]
  rw [amount, if_neg (not_not.mpr hquarters), if_neg (not_not.mpr hweeks)]
  simp only [hnone]
  rfl

end

/-- **The amount of an interval** with neither quarters nor weeks spells its components from the
largest to the smallest that is not zero, and no other, if they are not all zero. Its sign is that
of the largest, and its unit names the two. -/
theorem amount_eq_spelled (i : Interval) (hquarters : i.quarters = 0) (hweeks : i.weeks = 0)
    (h : ∃ c ∈ i.parts, c.count ≠ 0) :
    ∃ span largest smallest, Spans i.parts span largest smallest ∧
      i.amount =
        (String.ofList (signed largest.count (spelled span)),
          spanName largest.unit smallest.unit) := by
  obtain ⟨span, largest, smallest, hspans⟩ := Spans.exists_of_ne h
  exact ⟨span, largest, smallest, hspans, amount_of_spans hquarters hweeks hspans⟩

/-- A zero between two components is spelled, and the zeros outside are not. -/
theorem amount_eq_spelled_days_to_seconds :
    let i : Interval := { days := -10, seconds := 300 }
    (i.quarters = 0 ∧ i.weeks = 0 ∧ ∃ c ∈ i.parts, c.count ≠ 0) ∧
      ∃ span largest smallest, Spans i.parts span largest smallest ∧
        i.amount =
          (String.ofList (signed largest.count (spelled span)),
            spanName largest.unit smallest.unit) := by
  have hdays : ∃ c ∈ parts { days := -10, seconds := 300 }, c.count ≠ 0 := by decide
  exact ⟨⟨rfl, rfl, hdays⟩, amount_eq_spelled _ rfl rfl hdays⟩

example : amount { days := -10, seconds := 300 } = ("-10 0:0:300", "DAY_SECOND") := by decide

end Interval

end SqlScribe
