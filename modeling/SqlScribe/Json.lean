import SqlScribe.Decimal.Text
import SqlScribe.Text.Digits
/-! # JSON documents

A JSON document tells integers from floating-point numbers and keeps the members of an object in
the order of their keys, each key once. Its text has no blanks, leaves characters outside ASCII as
they are and escapes control characters, quotes and backslashes. -/

namespace SqlScribe

/-- A JSON document. -/
inductive Json where
  /-- The null document. -/
  | null
  /-- A truth value. -/
  | bool (b : Bool)
  /-- An integer. -/
  | int (n : Int)
  /-- A number with a fraction or an exponent. -/
  | float (x : Binary64)
  /-- A string. -/
  | text (s : String)
  /-- An array. -/
  | array (items : List Json)
  /-- An object, its members ordered by key. -/
  | object (members : List (String × Json))
deriving Inhabited

namespace Json

/-- Puts a member in its place among ordered members, instead of an earlier one of the same key. -/
def insertMember (key : String) (value : Json) : List (String × Json) → List (String × Json)
  | [] => [(key, value)]
  | (k, v) :: rest =>
    if key < k then (key, value) :: (k, v) :: rest
    else if key = k then (key, value) :: rest
    else (k, v) :: insertMember key value rest

/-- The object of some members; of several with one key the last counts. -/
def ofMembers (members : List (String × Json)) : Json :=
  .object (members.foldl (fun acc m => insertMember m.1 m.2 acc) [])

/-- A character of a string in its escaped form. -/
def escapedChar (c : Char) : List Char :=
  if c = '"' then ['\\', '"']
  else if c = '\\' then ['\\', '\\']
  else if c = '\n' then ['\\', 'n']
  else if c = '\r' then ['\\', 'r']
  else if c = '\t' then ['\\', 't']
  else if c = Char.ofNat 8 then ['\\', 'b']
  else if c = Char.ofNat 12 then ['\\', 'f']
  else if c.toNat < 32 then '\\' :: 'u' :: Text.paddedDigits 16 4 c.toNat
  else [c]

/-- A string between quotes. -/
def stringText (s : String) : List Char :=
  '"' :: s.toList.flatMap escapedChar ++ ['"']

/-- Numbers in a document are written without an exponent from `0.00001` up to sixteen integer
digits, and an exponent always has a sign. -/
def numberLayout : Decimal.Layout := ⟨-4, 16, true⟩

mutual

/-- The characters of a document's text. -/
def chars : Json → List Char
  | .null => "null".toList
  | .bool b => (if b then "true" else "false").toList
  | .int n => (toString n).toList
  | .float x => (x.textIn numberLayout).toList
  | .text s => stringText s
  | .array items => '[' :: arrayChars items ++ [']']
  | .object members => '\x7b' :: objectChars members ++ ['\x7d']

/-- The items of an array, commas between them. -/
def arrayChars : List Json → List Char
  | [] => []
  | [item] => chars item
  | item :: rest => chars item ++ ',' :: arrayChars rest

/-- The members of an object, commas between them. -/
def objectChars : List (String × Json) → List Char
  | [] => []
  | [(key, value)] => stringText key ++ ':' :: chars value
  | (key, value) :: rest => stringText key ++ ':' :: chars value ++ ',' :: objectChars rest

end

/-- The text of a document, without blanks. -/
def compact (j : Json) : String := String.ofList j.chars

mutual

/-- Two documents are equal when they have the same shape and equal numbers; an integer never
equals a floating-point number. -/
def same : Json → Json → Bool
  | .null, .null => true
  | .bool a, .bool b => a == b
  | .int a, .int b => a == b
  | .float a, .float b => a == b
  | .text a, .text b => a == b
  | .array as, .array bs => sameItems as bs
  | .object as, .object bs => sameMembers as bs
  | _, _ => false

/-- Equality of the items of two arrays. -/
def sameItems : List Json → List Json → Bool
  | [], [] => true
  | a :: as, b :: bs => same a b && sameItems as bs
  | _, _ => false

/-- Equality of the members of two objects. -/
def sameMembers : List (String × Json) → List (String × Json) → Bool
  | [], [] => true
  | (k, a) :: as, (l, b) :: bs => k == l && same a b && sameMembers as bs
  | _, _ => false

end

instance : BEq Json := ⟨same⟩

end Json

end SqlScribe
