import SqlScribe.Json.Number
/-! # Reading JSON

A reader takes the characters that are left and gives what it read with the characters behind it, or
nothing if the text is not well formed. -/

namespace SqlScribe.Json

/-- A blank between the parts of a document. -/
def isBlank (c : Char) : Bool := c == ' ' || c == '\n' || c == '\t' || c == '\r'

/-- Drops blanks. -/
def dropBlanks (cs : List Char) : List Char := cs.dropWhile isBlank

/-- The character that a letter behind a backslash stands for. -/
def escaped? (c : Char) : Option Char :=
  match c with
  | '"' => some '"'
  | '\\' => some '\\'
  | '/' => some '/'
  | 'b' => some (Char.ofNat 8)
  | 'f' => some (Char.ofNat 12)
  | 'n' => some '\n'
  | 'r' => some '\r'
  | 't' => some '\t'
  | _ => none

/-- The character of two halves in hexadecimal. -/
def joined? (high low : List Char) : Option Char :=
  let h := Text.numberOf 16 high
  let l := Text.numberOf 16 low
  if high.all Text.isHexDigit ∧ low.all Text.isHexDigit ∧ 0xD800 ≤ h ∧ h < 0xDC00
      ∧ 0xDC00 ≤ l ∧ l < 0xE000 then
    some (Char.ofNat (0x10000 + (h - 0xD800) * 1024 + (l - 0xDC00)))
  else none

/-- The rest of a string; `acc` holds what was read, in reverse. -/
def readString (acc : List Char) : List Char → Option (String × List Char)
  | [] => none
  | '"' :: cs => some (String.ofList acc.reverse, cs)
  | '\\' :: 'u' :: a :: b :: c :: d :: '\\' :: 'u' :: e :: f :: g :: h :: cs =>
    match joined? [a, b, c, d] [e, f, g, h] with
    | some x => readString (x :: acc) cs
    | none =>
      match Text.codePoint? [a, b, c, d] with
      | some x => readString (x :: acc) ('\\' :: 'u' :: e :: f :: g :: h :: cs)
      | none => none
  | '\\' :: 'u' :: a :: b :: c :: d :: cs =>
    match Text.codePoint? [a, b, c, d] with
    | some x => readString (x :: acc) cs
    | none => none
  | '\\' :: c :: cs =>
    match escaped? c with
    | some x => readString (x :: acc) cs
    | none => none
  | c :: cs => if c.toNat < 32 || c == '\\' then none else readString (c :: acc) cs

/-- A word and what follows it. -/
def readWord (word : String) (meaning : Json) (cs : List Char) : Option (Json × List Char) :=
  if word.toList.isPrefixOf cs then some (meaning, cs.drop word.length) else none

mutual

/-- A document. -/
def read : Nat → List Char → Option (Json × List Char)
  | 0, _ => none
  | fuel + 1, cs =>
    match dropBlanks cs with
    | '"' :: cs => (readString [] cs).map fun (s, cs) => (.text s, cs)
    | '[' :: cs =>
      match dropBlanks cs with
      | ']' :: cs => some (.array [], cs)
      | cs => (readItems fuel cs).map fun (items, cs) => (.array items, cs)
    | '\x7b' :: cs =>
      match dropBlanks cs with
      | '\x7d' :: cs => some (.object [], cs)
      | cs => (readMembers fuel cs).map fun (members, cs) => (ofMembers members, cs)
    | 'n' :: cs => readWord "ull" .null cs
    | 't' :: cs => readWord "rue" (.bool true) cs
    | 'f' :: cs => readWord "alse" (.bool false) cs
    | cs => readNumber cs

/-- The items of an array, up to its closing bracket. -/
def readItems : Nat → List Char → Option (List Json × List Char)
  | 0, _ => none
  | fuel + 1, cs =>
    match read fuel cs with
    | none => none
    | some (item, cs) =>
      match dropBlanks cs with
      | ',' :: cs => (readItems fuel cs).map fun (items, cs) => (item :: items, cs)
      | ']' :: cs => some ([item], cs)
      | _ => none

/-- The members of an object, up to its closing brace. -/
def readMembers : Nat → List Char → Option (List (String × Json) × List Char)
  | 0, _ => none
  | fuel + 1, cs =>
    match dropBlanks cs with
    | '"' :: cs =>
      match readString [] cs with
      | none => none
      | some (key, cs) =>
        match dropBlanks cs with
        | ':' :: cs =>
          match read fuel cs with
          | none => none
          | some (value, cs) =>
            match dropBlanks cs with
            | ',' :: cs => (readMembers fuel cs).map fun (rest, cs) => ((key, value) :: rest, cs)
            | '\x7d' :: cs => some ([(key, value)], cs)
            | _ => none
        | _ => none
    | _ => none

end

/-- The document that a text holds, if it is well formed. -/
def parse? (text : String) : Option Json :=
  let cs := text.toList
  match read (cs.length + 1) cs with
  | some (j, rest) => if (dropBlanks rest).isEmpty then some j else none
  | none => none

/-- The member of an object under a key. -/
def member? (key : String) : Json → Option Json
  | .object members => members.lookup key
  | _ => none

end SqlScribe.Json
