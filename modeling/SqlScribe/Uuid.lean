import SqlScribe.Text.Digits
/-! # Universally unique identifiers -/

namespace SqlScribe

/-- An identifier of 128 bits. -/
structure Uuid where
  /-- The bits as a number. -/
  value : BitVec 128
deriving Repr, DecidableEq, Inhabited

namespace Uuid

/-- The lengths of the groups of digits between hyphens. -/
def groupLengths : List Nat := [8, 4, 4, 4, 12]

/-- Digits in groups of some lengths, hyphens between them. -/
def hyphenated : List Nat → List Char → List Char
  | [], _ => []
  | [n], digits => digits.take n
  | n :: rest, digits => digits.take n ++ '-' :: hyphenated rest (digits.drop n)

/-- The identifier in lower-case hexadecimal, hyphens between groups of digits. -/
def text (u : Uuid) : String :=
  String.ofList (hyphenated groupLengths (Text.paddedDigits 16 32 u.value.toNat))

/-- The identifier of 32 hexadecimal digits. -/
def ofDigits? (digits : List Char) : Option Uuid :=
  if digits.length = 32 ∧ digits.all Text.isHexDigit then
    some ⟨BitVec.ofNat 128 (Text.numberOf 16 digits)⟩
  else none

/-- The identifier of a text with hyphens between its groups of digits. -/
def ofHyphenated? (cs : List Char) : Option Uuid :=
  let digits := cs.filter (· != '-')
  if cs = hyphenated groupLengths digits then ofDigits? digits else none

/-- The identifier of a text: 32 digits, or groups of digits with hyphens between them, which may
stand in braces or behind the name of the scheme, in upper or lower case. -/
def parse? (text : String) : Option Uuid :=
  let cs := text.toList
  if (cs.take 9).map Char.toLower = "urn:uuid:".toList then ofHyphenated? (cs.drop 9)
  else if cs.head? = some '\x7b' ∧ cs.getLast? = some '\x7d' then
    ofHyphenated? (cs.drop 1).dropLast
  else if cs.contains '-' then ofHyphenated? cs
  else ofDigits? cs

end Uuid

end SqlScribe
