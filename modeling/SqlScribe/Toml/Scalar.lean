import SqlScribe.Decimal.Rounding
import SqlScribe.Text.Digits
import SqlScribe.Toml.Document
/-! # TOML scalars

Reading strings, numbers, truth values, dates and keys. A reader takes the characters that are left
and gives what it read with the characters behind it, or nothing if the text is not well formed. -/

namespace SqlScribe.Toml

/-- A blank within a line. -/
def isBlank (c : Char) : Bool := c == ' ' || c == '\t'

/-- A character that may stand in a comment or string. -/
def isText (c : Char) : Bool := c == '\t' || (32 ≤ c.toNat && c.toNat != 127)

/-- A character of a key without quotes. -/
def isBare (c : Char) : Bool := c.isAlphanum || c == '_' || c == '-'

/-- The character that a letter behind a backslash stands for. -/
def escaped? (c : Char) : Option Char :=
  match c with
  | 'b' => some (Char.ofNat 8)
  | 't' => some '\t'
  | 'n' => some '\n'
  | 'f' => some (Char.ofNat 12)
  | 'r' => some '\r'
  | 'e' => some (Char.ofNat 27)
  | '"' => some '"'
  | '\\' => some '\\'
  | _ => none

/-- The rest of a string between double quotes; `acc` holds what was read, in reverse. -/
def basicString (acc : List Char) : List Char → Option (String × List Char)
  | [] => none
  | '"' :: cs => some (String.ofList acc.reverse, cs)
  | '\\' :: 'x' :: a :: b :: cs => do basicString ((← Text.codePoint? [a, b]) :: acc) cs
  | '\\' :: 'u' :: a :: b :: c :: d :: cs => do
    basicString ((← Text.codePoint? [a, b, c, d]) :: acc) cs
  | '\\' :: 'U' :: a :: b :: c :: d :: e :: f :: g :: h :: cs => do
    basicString ((← Text.codePoint? [a, b, c, d, e, f, g, h]) :: acc) cs
  | '\\' :: c :: cs => do basicString ((← escaped? c) :: acc) cs
  | c :: cs => if isText c && c != '\\' then basicString (c :: acc) cs else none

/-- The rest of a string between single quotes. -/
def literalString (acc : List Char) : List Char → Option (String × List Char)
  | [] => none
  | '\'' :: cs => some (String.ofList acc.reverse, cs)
  | c :: cs => if isText c then literalString (c :: acc) cs else none

/-- The line ends and blanks that a backslash at the end of a line passes over, if a line ends
there. -/
def foldedLines (ended : Bool) : List Char → Option (Unit × List Char)
  | '\n' :: cs => foldedLines true cs
  | '\r' :: '\n' :: cs => foldedLines true cs
  | ' ' :: cs => foldedLines ended cs
  | '\t' :: cs => foldedLines ended cs
  | cs => if ended then some ((), cs) else none

/-- The end of a string of several lines: its quotes, up to two of them belonging to the string. -/
def closingQuotes (quote : Char) (cs : List Char) : Option (Nat × List Char) :=
  let count := (cs.takeWhile (· == quote)).length
  if count < 3 then none
  else
    let own := min (count - 3) 2
    some (own, cs.drop (own + 3))

/-- The rest of a string of several lines between double quotes. Its line ends stay as they are
written. -/
def basicLines : Nat → List Char → List Char → Option (String × List Char)
  | 0, _, _ => none
  | fuel + 1, acc, cs =>
    match closingQuotes '"' cs with
    | some (own, rest) => some (String.ofList (acc.reverse ++ List.replicate own '"'), rest)
    | none =>
      match cs with
      | [] => none
      | '\\' :: 'x' :: a :: b :: cs => do basicLines fuel ((← Text.codePoint? [a, b]) :: acc) cs
      | '\\' :: 'u' :: a :: b :: c :: d :: cs => do
        basicLines fuel ((← Text.codePoint? [a, b, c, d]) :: acc) cs
      | '\\' :: 'U' :: a :: b :: c :: d :: e :: f :: g :: h :: cs => do
        basicLines fuel ((← Text.codePoint? [a, b, c, d, e, f, g, h]) :: acc) cs
      | '\\' :: cs =>
        match cs with
        | [] => none
        | c :: rest =>
          match escaped? c with
          | some c => basicLines fuel (c :: acc) rest
          | none => do
            let (_, rest) ← foldedLines false cs
            basicLines fuel acc rest
      | '\n' :: cs => basicLines fuel ('\n' :: acc) cs
      | '\r' :: '\n' :: cs => basicLines fuel ('\n' :: '\r' :: acc) cs
      | c :: cs => if isText c then basicLines fuel (c :: acc) cs else none

/-- The rest of a string of several lines between single quotes. Its line ends stay as they are
written. -/
def literalLines : Nat → List Char → List Char → Option (String × List Char)
  | 0, _, _ => none
  | fuel + 1, acc, cs =>
    match closingQuotes '\'' cs with
    | some (own, rest) => some (String.ofList (acc.reverse ++ List.replicate own '\''), rest)
    | none =>
      match cs with
      | [] => none
      | '\n' :: cs => literalLines fuel ('\n' :: acc) cs
      | '\r' :: '\n' :: cs => literalLines fuel ('\n' :: '\r' :: acc) cs
      | c :: cs => if isText c then literalLines fuel (c :: acc) cs else none

/-- Drops a line end at the start of a string of several lines. -/
def dropLineEnd : List Char → List Char
  | '\n' :: cs => cs
  | '\r' :: '\n' :: cs => cs
  | cs => cs

/-- A string in any of its four forms. -/
def string : List Char → Option (String × List Char)
  | '"' :: '"' :: '"' :: cs => basicLines (cs.length + 1) [] (dropLineEnd cs)
  | '"' :: cs => basicString [] cs
  | '\'' :: '\'' :: '\'' :: cs => literalLines (cs.length + 1) [] (dropLineEnd cs)
  | '\'' :: cs => literalString [] cs
  | _ => none

/-- A part of a key: a bare word or a string of one line. -/
def keyPart (cs : List Char) : Option (String × List Char) :=
  match cs with
  | '"' :: cs => basicString [] cs
  | '\'' :: cs => literalString [] cs
  | cs =>
    match cs.takeWhile isBare with
    | [] => none
    | word => some (String.ofList word, cs.dropWhile isBare)

/-- A key of at most so many parts, with dots between them. -/
def key : Nat → List Char → Option (List String × List Char)
  | 0, _ => none
  | fuel + 1, cs => do
    let (part, cs) ← keyPart (cs.dropWhile isBlank)
    match cs.dropWhile isBlank with
    | '.' :: cs => do
      let (parts, cs) ← key fuel cs
      return (part :: parts, cs)
    | cs => return ([part], cs)

/-! ## Numbers -/

/-- The digits of a number, without the underscores between them. An underscore stands between two
digits. -/
def digitGroups (isDigit : Char → Bool) : List Char → Option (List Char)
  | [] => none
  | [c] => if isDigit c then some [c] else none
  | c :: '_' :: cs =>
    if isDigit c then (digitGroups isDigit cs).map (c :: ·) else none
  | c :: cs => if isDigit c then (digitGroups isDigit cs).map (c :: ·) else none

/-- A sign, if there is one, and what follows it. -/
def splitSign : List Char → Bool × List Char
  | '+' :: cs => (false, cs)
  | '-' :: cs => (true, cs)
  | cs => (false, cs)

/-- The digits of a decimal integer: no zero stands before others. -/
def decimalDigits (cs : List Char) : Option (List Char) := do
  let digits ← digitGroups Char.isDigit cs
  match digits with
  | '0' :: _ :: _ => none
  | digits => some digits

/-- An integer, which can be read if some number of at most 128 bits can hold it. -/
def integerOf : Int → Value
  | .ofNat n => if n < 1 <<< 128 then .integer n else .outOfRange
  | .negSucc n => if n < 1 <<< 127 then .integer (.negSucc n) else .outOfRange

/-- The integer of some digits of a base. -/
def basedInteger? (base : Nat) (isDigit : Char → Bool) (cs : List Char) : Option Value :=
  (digitGroups isDigit cs).map fun digits => integerOf (Text.numberOf base digits)

/-- An integer. -/
def integer? (cs : List Char) : Option Value :=
  match cs with
  | '0' :: 'x' :: cs => basedInteger? 16 Text.isHexDigit cs
  | '0' :: 'o' :: cs => basedInteger? 8 (fun c => '0' ≤ c && c ≤ '7') cs
  | '0' :: 'b' :: cs => basedInteger? 2 (fun c => c == '0' || c == '1') cs
  | cs =>
    let (negative, cs) := splitSign cs
    (decimalDigits cs).map fun digits =>
      let n := Text.numberOf 10 digits
      integerOf (if negative then -n else n)

/-- The characters before and behind the first one that a predicate selects. -/
def splitAt? (p : Char → Bool) (cs : List Char) : Option (List Char × List Char) :=
  match cs.dropWhile (fun c => !p c) with
  | [] => none
  | _ :: rest => some (cs.takeWhile (fun c => !p c), rest)

/-- The digits of a number before and behind its point, none behind it if there is no point. -/
def pointDigits? (cs : List Char) : Option (List Char × List Char) :=
  match splitAt? (· == '.') cs with
  | some (whole, fraction) => do
    return (← decimalDigits whole, ← digitGroups Char.isDigit fraction)
  | none => (decimalDigits cs).map (·, [])

/-- An exponent. -/
def exponent? (cs : List Char) : Option Int :=
  let (negative, cs) := splitSign cs
  (digitGroups Char.isDigit cs).map fun digits =>
    let n := Text.numberOf 10 digits
    if negative then -n else n

/-- The floating-point number of a text with these digits and this exponent, which can be read if it
does not round to infinity. -/
def floatOf (text whole fraction : List Char) (exponent : Int) : Value :=
  let digits := Text.numberOf 10 (whole ++ fraction)
  if Binary64.decimalOverflows digits (exponent - fraction.length) then .outOfRange
  else .float (String.ofList text)

/-- A floating-point number: it has a point, an exponent or a name. -/
def float? (text : List Char) : Option Value :=
  let cs := (splitSign text).2
  if cs = "inf".toList ∨ cs = "nan".toList then some (.float (String.ofList text))
  else
    match splitAt? (fun c => c == 'e' || c == 'E') cs with
    | some (head, tail) => do
      let (whole, fraction) ← pointDigits? head
      return floatOf text whole fraction (← exponent? tail)
    | none =>
      match pointDigits? cs with
      | some (whole, c :: fraction) => some (floatOf text whole (c :: fraction) 0)
      | _ => none

/-! ## Dates -/

/-- The value of so many digits and no others. -/
def fixedDigits? (count : Nat) (cs : List Char) : Option Nat :=
  if cs.length = count ∧ cs.all Char.isDigit then some (Text.numberOf 10 cs) else none

/-- The number of days of a month. -/
def daysIn (year month : Nat) : Nat :=
  if month = 2 then
    if year % 4 = 0 ∧ (year % 100 ≠ 0 ∨ year % 400 = 0) then 29 else 28
  else if month = 4 ∨ month = 6 ∨ month = 9 ∨ month = 11 then 30
  else 31

/-- The characters are a date. -/
def isDate : List Char → Bool
  | [a, b, c, d, '-', e, f, '-', g, h] =>
    match fixedDigits? 4 [a, b, c, d], fixedDigits? 2 [e, f], fixedDigits? 2 [g, h] with
    | some year, some month, some day =>
      1 ≤ month && month ≤ 12 && 1 ≤ day && day ≤ daysIn year month
    | _, _, _ => false
  | _ => false

/-- The characters are an hour and a minute. -/
def isHourMinute : List Char → Bool
  | [a, b, ':', c, d] =>
    match fixedDigits? 2 [a, b], fixedDigits? 2 [c, d] with
    | some hour, some minute => hour ≤ 23 && minute ≤ 59
    | _, _ => false
  | _ => false

/-- The characters are a time of day, perhaps without seconds. -/
def isTime (cs : List Char) : Bool :=
  isHourMinute (cs.take 5) &&
    match cs.drop 5 with
    | [] => true
    | ':' :: a :: b :: rest =>
      ((fixedDigits? 2 [a, b]).any (· ≤ 60)) &&
        match rest with
        | [] => true
        | '.' :: digits => !digits.isEmpty && digits.all Char.isDigit
        | _ => false
    | _ => false

/-- The characters are a time of day, perhaps with an offset. -/
def isTimeWithOffset (cs : List Char) : Bool :=
  isTime cs ||
    match cs.getLast? with
    | some 'Z' => isTime cs.dropLast
    | some 'z' => isTime cs.dropLast
    | _ =>
      let offset := cs.drop (cs.length - 6)
      isTime (cs.take (cs.length - 6)) &&
        match offset with
        | '+' :: rest => isHourMinute rest
        | '-' :: rest => isHourMinute rest
        | _ => false

/-- A date, a time, or a date with a time. -/
def dateTime? (cs : List Char) : Option Value :=
  let valid :=
    isDate cs || isTime cs ||
      (isDate (cs.take 10) &&
        match cs.drop 10 with
        | 'T' :: time => isTimeWithOffset time
        | 't' :: time => isTimeWithOffset time
        | ' ' :: time => isTimeWithOffset time
        | _ => false)
  if valid then some (.dateTime (String.ofList cs)) else none

/-- A character of a value without quotes. -/
def isUnquoted (c : Char) : Bool :=
  c.isAlphanum || c == '_' || c == '-' || c == '+' || c == '.' || c == ':'

/-- The characters of a value without quotes; a date and a time may have a blank between them. -/
def unquoted (cs : List Char) : List Char × List Char :=
  let word := cs.takeWhile isUnquoted
  match cs.dropWhile isUnquoted with
  | ' ' :: c :: rest =>
    if isDate word && c.isDigit then
      (word ++ ' ' :: (c :: rest).takeWhile isUnquoted, (c :: rest).dropWhile isUnquoted)
    else (word, ' ' :: c :: rest)
  | rest => (word, rest)

/-- A value without quotes: a truth value, a number or a date. -/
def plain (cs : List Char) : Option (Value × List Char) :=
  let (word, rest) := unquoted cs
  let value? : Option Value :=
    if word = "true".toList then some (.boolean true)
    else if word = "false".toList then some (.boolean false)
    else (dateTime? word).orElse fun _ => (integer? word).orElse fun _ => float? word
  value?.map (·, rest)

end SqlScribe.Toml
