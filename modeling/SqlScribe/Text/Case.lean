import SqlScribe.Text.CaseTable
import SqlScribe.Text.Ranges
/-! # Upper and lower case

Lower-casing is complete: it knows every letter with a lower-case form, and writes a capital sigma
at the end of a word as a final sigma. Upper-casing serves to look up names that are spelt in
ASCII: it changes a character exactly when its upper-case form lies in ASCII. -/

namespace SqlScribe.Text

/-- The lower-case form of a character on its own. -/
def lowerChar (c : Char) : List Char :=
  if c = 'İ' then ['i', Char.ofNat 0x307]
  else
    match lowerRuns.find? (·.covers c.toNat) with
    | some r => [Char.ofNat (c.toNat + r.shift).toNat]
    | none => [c]

/-- The nearest character that is not passed over is a letter of a case. -/
def nextIsCased (cs : List Char) : Bool :=
  match cs.dropWhile fun c => inRanges passedOver c.toNat with
  | [] => false
  | c :: _ => inRanges casedLetters c.toNat

/-- The lower-case form of the characters `cs` that follow `before`, which is in reverse order. -/
def lowerChars (before : List Char) : List Char → List Char
  | [] => []
  | c :: cs =>
    let form :=
      if c = 'Σ' then (if nextIsCased before && !nextIsCased cs then ['ς'] else ['σ'])
      else lowerChar c
    form ++ lowerChars (c :: before) cs

/-- A text in lower case. -/
def lower (s : String) : String := String.ofList (lowerChars [] s.toList)

/-- The upper-case form of a character where it lies in ASCII, otherwise the character itself. -/
def upperChar (c : Char) : List Char :=
  if c.isLower then [c.toUpper]
  else if c = 'ı' then ['I']
  else if c = 'ſ' then ['S']
  else if c = 'ß' then ['S', 'S']
  else if c = 'ﬀ' then ['F', 'F']
  else if c = 'ﬁ' then ['F', 'I']
  else if c = 'ﬂ' then ['F', 'L']
  else if c = 'ﬃ' then ['F', 'F', 'I']
  else if c = 'ﬄ' then ['F', 'F', 'L']
  else if c = 'ﬅ' then ['S', 'T']
  else if c = 'ﬆ' then ['S', 'T']
  else [c]

/-- A text in upper case as far as upper-case forms lie in ASCII. It spells an ASCII name exactly
when the complete upper-case form does. -/
def upper (s : String) : String := String.ofList (s.toList.flatMap upperChar)

end SqlScribe.Text
