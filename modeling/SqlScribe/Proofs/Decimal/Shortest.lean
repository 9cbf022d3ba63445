import Mathlib.Tactic.Ring
import SqlScribe.Decimal.Shortest
/-! # Seventeen digits suffice

The search for the shortest digits of a number ends with digits that read back as the number: on the
grid of seventeen digits the points lie closer together than the ends of the number's neighbourhood,
so that one of the two points next to the number lies in it.

* `Neighbourhood.onGrid_isSome`: a grid that is fine enough has a point in the neighbourhood.
* `Neighbourhood.pow_place_le`: the place of the decimal point is not too high.
* `Neighbourhood.onGrid_seventeen`: the grid of seventeen digits is fine enough.
* `shortest_digits_ne_zero`: a number other than zero has a digit other than zero. -/

namespace SqlScribe.Decimal

namespace Neighbourhood

variable {n : Neighbourhood}

/-- The number lies inside its neighbourhood. -/
structure Inside (n : Neighbourhood) : Prop where
  low : n.low < n.value
  high : n.value < n.high
  unit : 0 < n.unit

/-- A point that the grid gives lies in the neighbourhood. -/
theorem contains_of_onGrid {place : Int} {count d : Nat} (h : n.onGrid place count = some d) :
    n.contains d (place - count) = true := by
  unfold onGrid at h
  dsimp only at h
  split at h
  · next hbelow habove =>
    split at h
    · cases h
      exact hbelow
    · cases h
      exact habove
  · next hbelow _ =>
    cases h
    exact hbelow
  · next _ habove =>
    cases h
    exact habove
  · cases h

/-- What lies in the neighbourhood lies between its ends. -/
theorem contains_iff (n : Neighbourhood) (d : Nat) (e : Int) :
    n.contains d e = true ↔
      if n.closed = true then
        n.low * Nat.pow 10 (-e).toNat ≤ d * Nat.pow 10 e.toNat * n.unit ∧
          d * Nat.pow 10 e.toNat * n.unit ≤ n.high * Nat.pow 10 (-e).toNat
      else
        n.low * Nat.pow 10 (-e).toNat < d * Nat.pow 10 e.toNat * n.unit ∧
          d * Nat.pow 10 e.toNat * n.unit < n.high * Nat.pow 10 (-e).toNat := by
  unfold contains
  split <;> simp only [Bool.and_eq_true, decide_eq_true_eq]

/-- Zero lies in no neighbourhood of a positive number. -/
theorem ne_zero_of_contains {d : Nat} {e : Int} (hlow : 0 < n.low) (h : n.contains d e = true) :
    d ≠ 0 := by
  rintro rfl
  have hpos : 0 < n.low * Nat.pow 10 (-e).toNat := Nat.mul_pos hlow (Nat.pow_pos (by decide))
  rw [contains_iff, Nat.zero_mul, Nat.zero_mul] at h
  split at h <;> omega

/-- A grid whose points lie closer together than the ends of the neighbourhood has a point in it:
one of the two points next to the number. -/
theorem onGrid_isSome (hn : n.Inside) {place : Int} {count : Nat}
    (hgap : Nat.pow 10 (place - count).toNat * n.unit <
      (n.high - n.low) * Nat.pow 10 (-(place - count)).toNat) :
    (n.onGrid place count).isSome = true := by
  have hgrid : 0 < Nat.pow 10 (-(place - count)).toNat := Nat.pow_pos (by decide)
  have hlow := Nat.mul_lt_mul_of_pos_right hn.low hgrid
  have hhigh := Nat.mul_lt_mul_of_pos_right hn.high hgrid
  have hstep : 0 < Nat.pow 10 (place - count).toNat * n.unit :=
    Nat.mul_pos (Nat.pow_pos (by decide)) hn.unit
  rw [Nat.sub_mul] at hgap
  unfold onGrid
  dsimp only
  generalize hbelow : n.value * Nat.pow 10 (-(place - count)).toNat /
    (Nat.pow 10 (place - count).toNat * n.unit) = below
  have hle : below * (Nat.pow 10 (place - count).toNat * n.unit) ≤
      n.value * Nat.pow 10 (-(place - count)).toNat := by
    rw [← hbelow]
    exact Nat.div_mul_le_self ..
  have hlt : n.value * Nat.pow 10 (-(place - count)).toNat <
      (below + 1) * (Nat.pow 10 (place - count).toNat * n.unit) := by
    rw [← hbelow]
    exact (Nat.div_lt_iff_lt_mul hstep).mp (Nat.lt_succ_self _)
  split
  · split <;> rfl
  · rfl
  · rfl
  · next hno hno' =>
    -- Both points next to the number lie outside, so the neighbourhood lies between them.
    rw [Bool.eq_false_iff, ne_eq, contains_iff, Nat.mul_assoc] at hno hno'
    rw [Nat.add_mul, Nat.one_mul] at hlt hno'
    generalize Nat.pow 10 (place - count).toNat * n.unit = step at *
    generalize n.low * Nat.pow 10 (-(place - count)).toNat = low at *
    generalize n.high * Nat.pow 10 (-(place - count)).toNat = high at *
    by_cases hclosed : n.closed = true
    · rw [if_pos hclosed] at hno hno'
      omega
    · rw [if_neg hclosed] at hno hno'
      omega

/-! ## The place of the point -/

/-- A number is not less than the power of ten below as many digits as it has. -/
theorem pow_length_toDigits_le {m : Nat} (hm : 0 < m) :
    10 ^ ((Nat.toDigits 10 m).length - 1) ≤ m := by
  by_cases hone : (Nat.toDigits 10 m).length - 1 = 0
  · rw [hone]
    exact hm
  · refine Nat.le_of_not_lt fun hlt => ?_
    have hlen := (Nat.length_toDigits_le_iff (by decide) (Nat.pos_of_ne_zero hone)).mpr hlt
    omega

/-- A number is less than the power of ten with as many zeros as it has digits. -/
theorem lt_pow_length_toDigits (m : Nat) : m < 10 ^ (Nat.toDigits 10 m).length :=
  (Nat.length_toDigits_le_iff (by decide) (List.length_pos_iff.mpr Nat.toDigits_ne_nil)).mp
    (Nat.le_refl _)

/-- The power of ten below the place of the point is not above the number. -/
theorem pow_place_le (hn : n.Inside) :
    n.unit * 10 ^ (n.place - 1).toNat ≤ n.value * 10 ^ (1 - n.place).toNat := by
  have hvalue : 0 < n.value := Nat.zero_lt_of_lt hn.low
  unfold place
  dsimp only
  split
  · next hle =>
    have hdigits := pow_length_toDigits_le (Nat.div_pos hle hn.unit)
    have hlen : 0 < (Nat.toDigits 10 (n.value / n.unit)).length :=
      List.length_pos_iff.mpr Nat.toDigits_ne_nil
    generalize (Nat.toDigits 10 (n.value / n.unit)).length = count at *
    have hup : ((count : Int) - 1).toNat = count - 1 := by omega
    have hdown : (1 - (count : Int)).toNat = 0 := by omega
    rw [hup, hdown, Nat.pow_zero, Nat.mul_one, Nat.mul_comm]
    exact (Nat.le_div_iff_mul_le hn.unit).mp hdigits
  · have hzeros := lt_pow_length_toDigits (n.unit / n.value)
    have hlen : 0 < (Nat.toDigits 10 (n.unit / n.value)).length :=
      List.length_pos_iff.mpr Nat.toDigits_ne_nil
    generalize (Nat.toDigits 10 (n.unit / n.value)).length = zeros at *
    split
    · next hle =>
      have hup : (2 - (zeros : Int) - 1).toNat = 0 := by omega
      have hdown : (1 - (2 - (zeros : Int))).toNat = zeros - 1 := by omega
      rw [hup, hdown, Nat.pow_zero, Nat.mul_one]
      exact hle
    · have hup : (1 - (zeros : Int) - 1).toNat = 0 := by omega
      have hdown : (1 - (1 - (zeros : Int))).toNat = zeros := by omega
      rw [hup, hdown, Nat.pow_zero, Nat.mul_one, Nat.mul_comm]
      exact Nat.le_of_lt ((Nat.div_lt_iff_lt_mul hvalue).mp hzeros)

/-- The points of the grid of seventeen digits lie closer together than the ends of a neighbourhood
that is wider than one part in `10 ^ 16` of the number. -/
theorem onGrid_seventeen (hn : n.Inside) (hwidth : n.value < (n.high - n.low) * 10 ^ 16) :
    (n.onGrid n.place 17).isSome = true := by
  refine onGrid_isSome hn ?_
  have hplace := pow_place_le hn
  generalize n.place = place at *
  have hexponents : (place - 1).toNat + (-(place - (17 : Nat))).toNat =
      (place - (17 : Nat)).toNat + ((1 - place).toNat + 16) := by omega
  show 10 ^ (place - (17 : Nat)).toNat * n.unit <
    (n.high - n.low) * 10 ^ (-(place - (17 : Nat))).toNat
  generalize (place - (17 : Nat)).toNat = coarse at *
  generalize (-(place - (17 : Nat))).toNat = fine at *
  generalize (1 - place).toNat = down at *
  generalize (place - 1).toNat = up at *
  have hpos : 0 < 10 ^ (down + fine) := Nat.pow_pos (by decide)
  refine Nat.lt_of_mul_lt_mul_right (a := 10 ^ (down + 16)) ?_
  calc 10 ^ coarse * n.unit * 10 ^ (down + 16)
      = n.unit * 10 ^ (coarse + (down + 16)) := by ring
    _ = n.unit * 10 ^ up * 10 ^ fine := by rw [← hexponents]; ring
    _ ≤ n.value * 10 ^ down * 10 ^ fine := Nat.mul_le_mul_right _ hplace
    _ = n.value * 10 ^ (down + fine) := by ring
    _ < (n.high - n.low) * 10 ^ 16 * 10 ^ (down + fine) := Nat.mul_lt_mul_of_pos_right hwidth hpos
    _ = (n.high - n.low) * 10 ^ fine * 10 ^ (down + 16) := by ring

end Neighbourhood

end SqlScribe.Decimal

/-! ## The neighbourhood of a number -/

namespace SqlScribe.Binary64

variable {x : Binary64}

theorem fractionBits_lt (x : Binary64) : x.fractionBits < 2 ^ 52 := by
  rw [fractionBits, UInt64.toNat_and]
  exact Nat.and_lt_two_pow _ (by decide)

theorem hiddenBit_eq : hiddenBit = 2 ^ 52 := rfl

theorem mantissa_lt (x : Binary64) : x.mantissa < 2 ^ 53 := by
  have hfraction := x.fractionBits_lt
  rw [mantissa, hiddenBit_eq]
  split <;> omega

theorem mantissa_pos (hx : x.isZero = false) : 0 < x.mantissa := by
  rw [mantissa, hiddenBit_eq]
  split
  · next hexponent =>
    simp [isZero, hexponent] at hx
    omega
  · omega

/-- Where numbers become twice as dense, the significand is the least one. -/
theorem mantissa_of_fractionBits (hfraction : x.fractionBits = 0) (hexponent : 1 < x.exponentBits) :
    x.mantissa = 2 ^ 52 := by
  rw [mantissa, if_neg (by omega), hfraction, hiddenBit_eq, Nat.zero_add]

end SqlScribe.Binary64

namespace SqlScribe.Decimal

namespace Neighbourhood

variable {x : Binary64}

theorem low_pos (hx : x.isZero = false) : 0 < (of x).low := by
  have hmantissa := Binary64.mantissa_pos hx
  rw [of, Nat.shiftLeft_eq]
  refine Nat.mul_pos ?_ (Nat.pow_pos (by decide))
  split <;> omega

theorem of_inside (hx : x.isZero = false) : (of x).Inside := by
  have hmantissa := Binary64.mantissa_pos hx
  have hscale : 0 < 2 ^ (x.exponent - 2).toNat := Nat.pow_pos (by decide)
  refine ⟨?_, ?_, ?_⟩
  · simp only [of, Nat.shiftLeft_eq]
    refine Nat.mul_lt_mul_of_pos_right ?_ hscale
    split <;> omega
  · simp only [of, Nat.shiftLeft_eq]
    exact Nat.mul_lt_mul_of_pos_right (by omega) hscale
  · simp only [of, Nat.shiftLeft_eq]
    exact Nat.mul_pos (by decide) (Nat.pow_pos (by decide))

/-- The ends of a neighbourhood are more than one part in `10 ^ 16` of the number apart. -/
theorem of_width (hx : x.isZero = false) :
    (of x).value < ((of x).high - (of x).low) * 10 ^ 16 := by
  have hmantissa := Binary64.mantissa_pos hx
  have hlt := x.mantissa_lt
  have hscale : 0 < 2 ^ (x.exponent - 2).toNat := Nat.pow_pos (by decide)
  simp only [of, Nat.shiftLeft_eq, ← Nat.sub_mul]
  rw [Nat.mul_right_comm _ (2 ^ (x.exponent - 2).toNat) (10 ^ 16)]
  refine Nat.mul_lt_mul_of_pos_right ?_ hscale
  split
  · next hdense =>
    rw [Binary64.mantissa_of_fractionBits hdense.1 hdense.2]
    decide
  · omega

end Neighbourhood

/-- The shortest digits of a number other than zero are not zero: the search ends on a grid, at the
latest on that of seventeen digits, with a point in the neighbourhood. -/
theorem shortest_digits_ne_zero {x : Binary64} (hx : x.isZero = false) :
    (shortest x).digits ≠ 0 := by
  have hlow := Neighbourhood.low_pos hx
  obtain ⟨d, hd⟩ := Option.isSome_iff_exists.mp
    (Neighbourhood.onGrid_seventeen (Neighbourhood.of_inside hx) (Neighbourhood.of_width hx))
  unfold shortest
  dsimp only
  generalize hfound : (List.range' 1 17).findSome? _ = found
  cases found with
  | none =>
    have hnone := List.findSome?_eq_none_iff.mp hfound 17 (by decide)
    rw [hd] at hnone
    cases hnone
  | some digits =>
    obtain ⟨count, -, hcount⟩ := List.exists_of_findSome?_eq_some hfound
    obtain ⟨point, hpoint, rfl⟩ := Option.map_eq_some_iff.mp hcount
    exact Neighbourhood.ne_zero_of_contains hlow (Neighbourhood.contains_of_onGrid hpoint)

end SqlScribe.Decimal
