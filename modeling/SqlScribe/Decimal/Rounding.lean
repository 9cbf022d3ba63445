import SqlScribe.Binary64
/-! # Rounding

The floating-point number nearest to a fraction of two integers; of two that are equally near, the
one with an even significand. Products and quotients of finite numbers are the exact ones,
rounded. -/

namespace SqlScribe

/-- The integer nearest to a fraction; of two that are equally near, the even one. -/
def nearestEven (num den : Nat) : Nat :=
  let below := num / den
  let rest := 2 * (num % den)
  if den < rest ∨ (rest = den ∧ below % 2 = 1) then below + 1 else below

namespace Binary64

/-- Infinity. -/
def infinity (negative : Bool) : Binary64 := ofFields negative 2047 0

/-- The number nearest to a significand of at most 53 bits times a power of two that is not below
the smallest one. -/
def ofScaled (negative : Bool) (m : Nat) (exponent : Int) : Binary64 :=
  let (m, exponent) := if m = 2 * hiddenBit then (hiddenBit, exponent + 1) else (m, exponent)
  if m < hiddenBit then ofFields negative 0 m
  else if 971 < exponent then infinity negative
  else ofFields negative (exponent + 1075).toNat (m - hiddenBit)

/-- The power of two for the last bit of the number nearest to a fraction: the significand gets 53
bits, or fewer where the numbers lie no closer. -/
def lastBit (num den : Nat) : Int :=
  let guess : Int := (Nat.log2 num : Int) - Nat.log2 den - 53
  let wide := (2 * hiddenBit * den) <<< guess.toNat ≤ num <<< (-guess).toNat
  max (if wide then guess + 1 else guess) (-1074)

/-- The number nearest to a fraction. -/
def ofRatio (negative : Bool) (num den : Nat) : Binary64 :=
  if num = 0 then ofFields negative 0 0
  else
    let e := lastBit num den
    ofScaled negative (nearestEven (num <<< (-e).toNat) (den <<< e.toNat)) e

/-- The number nearest to an integer. -/
def ofNat (n : Nat) : Binary64 := ofRatio false n 1

/-- The least integer that rounds to infinity: it lies half a step above the greatest number. -/
def overflowBound : Nat := (4 * hiddenBit - 1) <<< 970

/-- The decimal number `digits · 10 ^ exponent` rounds to infinity. Only numbers with as many
integer digits as the bound have to be compared with it. -/
def decimalOverflows (digits : Nat) (exponent : Int) : Bool :=
  let place : Int := (Nat.toDigits 10 digits).length + exponent
  if digits = 0 ∨ place < 309 then false
  else if 309 < place then true
  else overflowBound * Nat.pow 10 (-exponent).toNat ≤ digits * Nat.pow 10 exponent.toNat

/-- The opposite number. -/
def opposite (x : Binary64) : Binary64 := ⟨x.bits ^^^ 0x8000000000000000⟩

/-- The product of two finite numbers. -/
def product (x y : Binary64) : Binary64 :=
  let e := x.exponent + y.exponent
  ofRatio (x.isNegative != y.isNegative) ((x.mantissa * y.mantissa) <<< e.toNat) (1 <<< (-e).toNat)

/-- The quotient of two finite numbers, the second not zero. -/
def quotient (x y : Binary64) : Binary64 :=
  let e := x.exponent - y.exponent
  ofRatio (x.isNegative != y.isNegative) (x.mantissa <<< e.toNat)
    (y.mantissa <<< (-e).toNat)

end Binary64

end SqlScribe
