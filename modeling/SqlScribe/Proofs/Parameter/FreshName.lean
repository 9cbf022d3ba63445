import Mathlib.Order.Bounds.Basic
import Mathlib.Order.Nat
import SqlScribe.Parameter
/-! # Made-up names are free

The search for a made-up name goes up from a number, one by one, to the first name that is not
taken. Different numbers make different names, so no more of them in a row are taken than there are
names taken, and the search ends.

* `Bindings.le_length_of_generatedName_mem`: how many names in a row can be taken.
* `Bindings.NameSearch`: the search with nothing that bounds it, and how often it fails.
* `Bindings.nameSearch_firstFree`: the search with as much fuel as there are names taken is the same
  search.
* `Bindings.search_ends`: it ends, after no more failed attempts than there are entries, at the
  least number whose name is free. -/

namespace SqlScribe

namespace Bindings

/-! ## Names in a row -/

/-- Different numbers make different names. -/
theorem generatedName_inj {m n : Nat} : generatedName m = generatedName n ↔ m = n := by
  constructor
  · intro h
    have hdigits : Nat.toDigits 10 m = Nat.toDigits 10 n := by
      have hlist := congrArg String.toList h
      simpa [generatedName] using hlist
    rw [← Nat.ofDigitChars_ten_toDigits (n := m), hdigits, Nat.ofDigitChars_ten_toDigits]
  · rintro rfl
    rfl

variable {taken : List String}

/-- The names of no more numbers in a row are taken than there are names taken, each number having
a name of its own. -/
theorem le_length_of_generatedName_mem {n count : Nat}
    (h : ∀ k, n ≤ k → k < n + count → generatedName k ∈ taken) : count ≤ taken.length := by
  have hnodup : ((List.range' n count).map generatedName).Nodup :=
    List.pairwise_map.mpr ((List.nodup_range' (s := n) (n := count)).imp
      fun hne heq => hne (generatedName_inj.mp heq))
  have hsub : (List.range' n count).map generatedName ⊆ taken := by
    intro name hname
    obtain ⟨k, hk, rfl⟩ := List.mem_map.mp hname
    rw [List.mem_range'_1] at hk
    exact h k hk.1 hk.2
  have hlen := hnodup.length_le_of_subset hsub
  rwa [List.length_map, List.length_range'] at hlen

/-! ## The search without fuel -/

/-- The search for a name from a number on, with nothing that bounds it. `NameSearch taken n failed
name` holds where the search from `n` ends with `name` after `failed` failed attempts, and for no
`failed` and `name` where it goes on for ever. -/
inductive NameSearch (taken : List String) : Nat → Nat → String → Prop where
  /-- The name of the number is free and ends the search. -/
  | found {n : Nat} (hfree : generatedName n ∉ taken) : NameSearch taken n 0 (generatedName n)
  /-- The name is taken: the attempt has failed, and the search goes on from the next number. -/
  | next {n failed : Nat} {name : String} (htaken : generatedName n ∈ taken)
    (hrest : NameSearch taken (n + 1) failed name) : NameSearch taken n (failed + 1) name

/-- A number whose name is taken is passed over: the least number with a free name is the same from
the next number on. -/
theorem isLeast_of_generatedName_mem {n k : Nat} (htaken : generatedName n ∈ taken)
    (h : IsLeast {m | n + 1 ≤ m ∧ generatedName m ∉ taken} k) :
    IsLeast {m | n ≤ m ∧ generatedName m ∉ taken} k := by
  obtain ⟨⟨hle, hfree⟩, hleast⟩ := h
  refine ⟨⟨by omega, hfree⟩, ?_⟩
  rintro m ⟨hm, hmfree⟩
  have hne : m ≠ n := by
    rintro rfl
    exact hmfree htaken
  exact hleast ⟨by omega, hmfree⟩

namespace NameSearch

variable {n failed failed' : Nat} {name name' : String}

/-- The failed attempts lead from the start to the number of the name. -/
theorem name_eq (h : NameSearch taken n failed name) : name = generatedName (n + failed) := by
  induction h with
  | found => rfl
  | next _ _ ih => rw [ih, Nat.add_right_comm, Nat.add_assoc]

/-- The search ends at the least number from the start on whose name is free. -/
theorem isLeast (h : NameSearch taken n failed name) :
    IsLeast {m | n ≤ m ∧ generatedName m ∉ taken} (n + failed) := by
  induction h with
  | found hfree => exact ⟨⟨Nat.le_refl _, hfree⟩, fun _ hm => hm.1⟩
  | @next n failed _ htaken _ ih =>
    rw [Nat.add_right_comm, Nat.add_assoc] at ih
    exact isLeast_of_generatedName_mem htaken ih

theorem not_mem (h : NameSearch taken n failed name) : name ∉ taken := by
  rw [h.name_eq]
  exact h.isLeast.1.2

/-- The search fails no more often than there are names taken, as it fails at numbers in a row. -/
theorem failed_le (h : NameSearch taken n failed name) : failed ≤ taken.length := by
  refine le_length_of_generatedName_mem (n := n) fun k hn hk => ?_
  by_contra hfree
  have hle := h.isLeast.2 ⟨hn, hfree⟩
  omega

/-- The search ends in one way only. -/
theorem unique (h : NameSearch taken n failed name) (h' : NameSearch taken n failed' name') :
    failed = failed' ∧ name = name' := by
  have hfailed : failed = failed' := Nat.add_left_cancel (h.isLeast.unique h'.isLeast)
  exact ⟨hfailed, by rw [h.name_eq, h'.name_eq, hfailed]⟩

end NameSearch

/-! ## The search with fuel -/

/-- With some fuel the search ends as it does without, or it runs out of fuel, and one more name in
a row than it has fuel is taken. -/
theorem nameSearch_or_taken (taken : List String) (fuel n : Nat) :
    (∃ failed, NameSearch taken n failed (generatedName (firstFree taken fuel n))) ∨
      ∀ k, n ≤ k → k < n + (fuel + 1) → generatedName k ∈ taken := by
  induction fuel generalizing n with
  | zero =>
    by_cases htaken : generatedName n ∈ taken
    · refine .inr fun k hn hk => ?_
      have hkn : k = n := by omega
      rwa [hkn]
    · exact .inl ⟨0, .found htaken⟩
  | succ fuel ih =>
    by_cases htaken : generatedName n ∈ taken
    · -- A name that is taken costs one unit of fuel and moves the search one number up.
      rw [firstFree, if_pos (by simpa using htaken)]
      rcases ih (n + 1) with ⟨failed, hrest⟩ | hrow
      · exact .inl ⟨failed + 1, .next htaken hrest⟩
      · refine .inr fun k hn hk => ?_
        rcases Nat.eq_or_lt_of_le hn with rfl | hlt
        · exact htaken
        · exact hrow k hlt (by omega)
    · rw [firstFree, if_neg (by simpa using htaken)]
      exact .inl ⟨0, .found htaken⟩

/-- **With as much fuel as there are names taken the search ends as it does without**: otherwise the
names of one number more than there are names taken would all be among them. -/
theorem nameSearch_firstFree (taken : List String) (n : Nat) :
    ∃ failed, NameSearch taken n failed (generatedName (firstFree taken taken.length n)) := by
  refine (nameSearch_or_taken taken taken.length n).resolve_right fun hrow => ?_
  have hlen := le_length_of_generatedName_mem hrow
  omega

theorem length_names (b : Bindings) : b.names.length = b.size := by
  rw [names, List.length_map, size]

/-- The name made up for the next value is not taken. -/
theorem freshName_not_mem (b : Bindings) : b.freshName ∉ b.names := by
  rw [freshName, ← length_names]
  obtain ⟨failed, hsearch⟩ := nameSearch_firstFree b.names (b.names.length + 1)
  exact hsearch.not_mem

/-- **The search for a made-up name ends, at the least free one.** Whatever the entries are, with
any names and with one name under several of them, and from whatever number the search starts: it
ends without anything that bounds it, in one way only, after no more failed attempts than there are
entries. Its name is `param` before the decimal digits of the least number from the start on for
which that is the name of no entry. No number is tried beyond the start and the count of entries
together, and the search that has this count as its fuel, as `freshName` has, finds the same
name. -/
theorem search_ends (b : Bindings) (n : Nat) :
    ∃ failed ≤ b.size,
      IsLeast {k | n ≤ k ∧ "param" ++ toString k ∉ b.names} (n + failed) ∧
      (∀ attempts name, NameSearch b.names n attempts name ↔
        attempts = failed ∧ name = "param" ++ toString (n + failed)) ∧
      generatedName (firstFree b.names b.size n) = "param" ++ toString (n + failed) := by
  rw [← length_names]
  obtain ⟨failed, hsearch⟩ := nameSearch_firstFree b.names n
  refine ⟨failed, hsearch.failed_le, hsearch.isLeast, fun attempts name => ?_, hsearch.name_eq⟩
  constructor
  · intro h
    obtain ⟨rfl, rfl⟩ := h.unique hsearch
    exact ⟨rfl, h.name_eq⟩
  · rintro ⟨rfl, rfl⟩
    rw [hsearch.name_eq] at hsearch
    exact hsearch

/-- Behind three entries the search starts at 4, and fails once at each of the two names they have
among them. -/
example : (Bindings.mk .qmark
    [("param5", .int 1), ("param4", .int 2), ("param5", .int 3)]).freshName = "param6" := by
  decide

end Bindings

end SqlScribe
