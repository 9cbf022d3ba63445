/-! # Binary floating-point numbers

A floating-point number is kept as the 64 bits that encode it, so that every bit pattern (signed
zeros, infinities, each not-a-number) is a value of its own. Comparison is the numeric one: the two
zeros are equal, and not-a-number equals nothing. A finite number is `mantissa · 2 ^ exponent` up
to its sign. -/

namespace SqlScribe

/-- A floating-point number of 64 bits. -/
structure Binary64 where
  /-- The sign bit, eleven bits of exponent and fifty-two of fraction. -/
  bits : UInt64
deriving Repr, Inhabited

namespace Binary64

/-- The sign bit is set. -/
def isNegative (x : Binary64) : Bool := x.bits >>> 63 == 1

/-- The eleven exponent bits. -/
def exponentBits (x : Binary64) : Nat := ((x.bits >>> 52) &&& 0x7ff).toNat

/-- The fifty-two fraction bits. -/
def fractionBits (x : Binary64) : Nat := (x.bits &&& 0xfffffffffffff).toNat

/-- The number is neither infinite nor not-a-number. -/
def isFinite (x : Binary64) : Bool := x.exponentBits != 2047

/-- The bit pattern stands for no number. -/
def isNaN (x : Binary64) : Bool := x.exponentBits == 2047 && x.fractionBits != 0

/-- The number is positive or negative zero. -/
def isZero (x : Binary64) : Bool := x.exponentBits == 0 && x.fractionBits == 0

/-- The bit above the fraction, which is not stored. -/
def hiddenBit : Nat := 1 <<< 52

/-- The integer significand of a finite number: the hidden bit is set unless the exponent bits are
all zero. -/
def mantissa (x : Binary64) : Nat :=
  if x.exponentBits = 0 then x.fractionBits else x.fractionBits + hiddenBit

/-- The power of two that scales the significand of a finite number. -/
def exponent (x : Binary64) : Int :=
  if x.exponentBits = 0 then -1074 else (x.exponentBits : Int) - 1075

/-- Numeric equality: zeros are equal whatever their signs, not-a-number equals nothing, and any
other two numbers are equal if their bits are. -/
def sameNumber (x y : Binary64) : Bool :=
  !x.isNaN && !y.isNaN && (x.bits == y.bits || (x.isZero && y.isZero))

instance : BEq Binary64 := ⟨sameNumber⟩

/-- The 64-bit pattern with the given sign, exponent bits and fraction bits. -/
def ofFields (negative : Bool) (exponentBits fractionBits : Nat) : Binary64 :=
  ⟨UInt64.ofNat ((if negative then 1 <<< 63 else 0) + exponentBits <<< 52 + fractionBits)⟩

/-- The 64-bit number of the same value as a 32-bit one. A not-a-number keeps its sign and payload
and becomes quiet; a subnormal number becomes a normal one. -/
def ofBinary32 (bits : UInt32) : Binary64 :=
  let negative := bits >>> 31 == 1
  let exponentBits := ((bits >>> 23) &&& 0xff).toNat
  let fraction := (bits &&& 0x7fffff).toNat
  if exponentBits = 255 then
    if fraction = 0 then ofFields negative 2047 0
    else ofFields negative 2047 (fraction <<< 29 ||| 1 <<< 51)
  else if exponentBits = 0 then
    if fraction = 0 then ofFields negative 0 0
    else
      let width := Nat.log2 fraction
      ofFields negative (874 + width) ((fraction - 1 <<< width) <<< (52 - width))
  else ofFields negative (exponentBits + 896) (fraction <<< 29)

end Binary64

end SqlScribe
