/-! # Digits

Numbers written in digits of a base, and read back from them. -/

namespace SqlScribe.Text

/-- The value of a hexadecimal digit in upper or lower case. -/
def digitValue? (c : Char) : Option Nat :=
  if c.isDigit then some (c.toNat - 48)
  else if 'a' ≤ c ∧ c ≤ 'f' then some (c.toNat - 87)
  else if 'A' ≤ c ∧ c ≤ 'F' then some (c.toNat - 55)
  else none

/-- A hexadecimal digit. -/
def isHexDigit (c : Char) : Bool := (digitValue? c).isSome

/-- The number that some digits stand for in a base. -/
def numberOf (base : Nat) (digits : List Char) : Nat :=
  digits.foldl (fun n c => n * base + (digitValue? c).getD 0) 0

/-- The digits of a number in a base, with zeros before them up to a width. -/
def paddedDigits (base width n : Nat) : List Char :=
  let digits := Nat.toDigits base n
  List.replicate (width - digits.length) '0' ++ digits

/-- The character of a code point in hexadecimal digits, unless the code is one of half a
character. -/
def codePoint? (digits : List Char) : Option Char :=
  let code := numberOf 16 digits
  if digits.all isHexDigit ∧ code.isValidChar then some (Char.ofNat code) else none

end SqlScribe.Text
