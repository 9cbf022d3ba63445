import Mathlib.Data.List.TakeWhile
/-! # Digits of a number

* `Text.toDigits_eq_cons`: a number other than zero begins with a digit other than zero.
* `Text.takeWhile_toDigits`: the digits of a number end where no digit follows. -/

namespace SqlScribe

namespace Text

theorem isDigit_of_mem_toDigits {n : Nat} {c : Char} (h : c ∈ Nat.toDigits 10 n) :
    c.isDigit = true :=
  Nat.isDigit_of_mem_toDigits (by decide) (by decide) h

/-- A number other than zero begins with a digit other than zero. -/
theorem toDigits_eq_cons {n : Nat} (hn : n ≠ 0) :
    ∃ c cs, Nat.toDigits 10 n = c :: cs ∧ c ≠ '0' := by
  have hdigit : ∀ m < 10, m ≠ 0 → m.digitChar ≠ '0' := by decide
  induction n using Nat.strongRecOn with
  | ind n ih =>
    by_cases hlt : n < 10
    · rw [Nat.toDigits_of_lt_base hlt]
      exact ⟨n.digitChar, [], rfl, hdigit n hlt hn⟩
    · rw [Nat.toDigits_of_base_le (by decide) (by omega)]
      obtain ⟨c, cs, hcs, hne⟩ := ih (n / 10) (by omega) (by omega)
      rw [hcs]
      exact ⟨c, _, List.cons_append, hne⟩

/-- The characters of a number are those of its digits, if no digit follows it. -/
theorem takeWhile_toDigits (n : Nat) {cs : List Char} (h : ∀ c ∈ cs.head?, c.isDigit = false) :
    (Nat.toDigits 10 n ++ cs).takeWhile Char.isDigit = Nat.toDigits 10 n := by
  rw [List.takeWhile_append_of_pos fun c hc => isDigit_of_mem_toDigits hc]
  cases cs with
  | nil => rw [List.takeWhile_nil, List.append_nil]
  | cons c cs =>
    rw [List.takeWhile_cons_of_neg (by simp [h c rfl]), List.append_nil]

end Text

end SqlScribe
