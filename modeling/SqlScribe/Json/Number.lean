import SqlScribe.Decimal.Rounding
import SqlScribe.Json
/-! # Reading JSON numbers

A number without a fraction and an exponent is an integer if 64 bits can hold it, with or without a
sign; negative zero is not one. Any other number is a floating-point number: as many of its digits
as 64 bits can hold, rounded and then scaled by a power of ten. -/

namespace SqlScribe.Json

/-- The number of some digits behind others, as far as 64 bits can hold it, and the number of digits
that are left out. -/
def significand (start : Nat) : List Char → Nat × Nat
  | [] => (start, 0)
  | c :: cs =>
    let next := start * 10 + (c.toNat - '0'.toNat)
    if next < UInt64.size then significand next cs else (start, cs.length + 1)

/-- The greatest power of ten that is a floating-point number. -/
def greatestPower : Nat := 308

/-- The nearest number to a power of ten. -/
def powerOfTen (n : Nat) : Binary64 := Binary64.ofNat (Nat.pow 10 n)

/-- A number scaled by a power of ten, divided in steps if the power is small; a number that is too
great is none. -/
def scaled (x : Binary64) (exponent : Int) : Option Binary64 :=
  if exponent.natAbs ≤ greatestPower then
    if 0 ≤ exponent then
      let y := x.product (powerOfTen exponent.natAbs)
      if y.isFinite then some y else none
    else some (x.quotient (powerOfTen exponent.natAbs))
  else if x.isZero then some x
  else if 0 ≤ exponent then none
  else scaled (x.quotient (powerOfTen greatestPower)) (exponent + greatestPower)
termination_by exponent.natAbs
decreasing_by all_goals simp only [greatestPower] at *; omega

/-- The floating-point number of a significand and a power of ten. -/
def floatOf (negative : Bool) (digits : Nat) (exponent : Int) : Option Json :=
  (scaled (Binary64.ofNat digits) exponent).map fun x =>
    .float (if negative then x.opposite else x)

/-- An integer, as one if 64 bits can hold it. -/
def integerOf (negative : Bool) (digits : Nat) : Option Json :=
  if !negative then some (.int digits)
  else if 0 < digits ∧ digits ≤ 1 <<< 63 then some (.int (-digits))
  else floatOf negative digits 0

/-- Digits, at least one, and what follows them. -/
def readDigits (cs : List Char) : Option (List Char × List Char) :=
  match cs.takeWhile Char.isDigit with
  | [] => none
  | digits => some (digits, cs.dropWhile Char.isDigit)

/-- The digits of an integer, without a zero before others. -/
def readWhole (cs : List Char) : Option (List Char × List Char) :=
  match readDigits cs with
  | some ('0' :: _ :: _, _) => none
  | other => other

/-- The digits of a fraction, none without a point. -/
def readFraction (cs : List Char) : Option (List Char × List Char) :=
  match cs with
  | '.' :: cs => readDigits cs
  | cs => some ([], cs)

/-- The exponent of a number, if it has one. -/
def readExponent (cs : List Char) : Option (Option Int × List Char) :=
  let signed (sign : Int) (cs : List Char) : Option (Option Int × List Char) :=
    (readDigits cs).map fun (digits, cs) => (some (sign * Text.numberOf 10 digits), cs)
  let afterMark (cs : List Char) : Option (Option Int × List Char) :=
    match cs with
    | '-' :: cs => signed (-1) cs
    | '+' :: cs => signed 1 cs
    | cs => signed 1 cs
  match cs with
  | 'e' :: cs => afterMark cs
  | 'E' :: cs => afterMark cs
  | cs => some (none, cs)

/-- A number without its sign. -/
def readMagnitude (negative : Bool) (cs : List Char) : Option (Json × List Char) :=
  (readWhole cs).bind fun (whole, cs) =>
  (readFraction cs).bind fun (fraction, cs) =>
  (readExponent cs).bind fun (exponent, cs) =>
    let (digits, leftOut) := significand 0 whole
    let number :=
      if fraction.isEmpty && exponent.isNone && leftOut = 0 then integerOf negative digits
      else
        let (digits, unread) := significand digits fraction
        floatOf negative digits
          ((leftOut : Int) - (fraction.length - unread : Nat) + exponent.getD 0)
    number.map (·, cs)

/-- A number and what follows it. -/
def readNumber (cs : List Char) : Option (Json × List Char) :=
  match cs with
  | '-' :: cs => readMagnitude true cs
  | cs => readMagnitude false cs

end SqlScribe.Json
