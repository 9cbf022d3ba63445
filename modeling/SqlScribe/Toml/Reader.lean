import SqlScribe.Toml.Scalar
/-! # Reading TOML

A document is read line by line: a line holds a key and its value, a header that opens a table, or
nothing but a comment. Arrays and tables in braces may go on over several lines. -/

namespace SqlScribe.Toml

/-- Drops a comment. -/
def dropComment : List Char → List Char
  | '#' :: cs => cs.dropWhile isText
  | cs => cs

/-- The characters behind the end of a line, if nothing but blanks and a comment stand before it. -/
def lineEnd (cs : List Char) : Option (List Char) :=
  match dropComment (cs.dropWhile isBlank) with
  | [] => some []
  | '\n' :: cs => some cs
  | '\r' :: '\n' :: cs => some cs
  | _ => none

/-- Drops blanks, comments and line ends. -/
def dropLines : Nat → List Char → List Char
  | 0, cs => cs
  | fuel + 1, cs =>
    match dropComment (cs.dropWhile isBlank) with
    | '\n' :: cs => dropLines fuel cs
    | '\r' :: '\n' :: cs => dropLines fuel cs
    | cs => cs

mutual

/-- A value in which brackets and braces are nested at most `depth` deep. -/
def value : Nat → Nat → List Char → Option (Value × List Char)
  | 0, _, _ => none
  | fuel + 1, depth, cs =>
    match cs with
    | '[' :: cs =>
      match depth with
      | 0 => none
      | depth + 1 => do
        let (items, cs) ← items fuel depth (dropLines cs.length cs)
        return (.array items, cs)
    | '\x7b' :: cs =>
      match depth with
      | 0 => none
      | depth + 1 => do
        let (t, cs) ← entries fuel depth .empty (dropLines cs.length cs)
        match t with
        | .table _ es => return (.table .inline es, cs)
        | _ => none
    | '"' :: _ => (string cs).map fun (s, cs) => (.string s, cs)
    | '\'' :: _ => (string cs).map fun (s, cs) => (.string s, cs)
    | cs => plain cs

/-- The items of an array, up to its closing bracket. -/
def items : Nat → Nat → List Char → Option (List Value × List Char)
  | 0, _, _ => none
  | fuel + 1, depth, cs =>
    match cs with
    | ']' :: cs => some ([], cs)
    | cs => do
      let (item, cs) ← value fuel depth cs
      match dropLines cs.length cs with
      | ',' :: cs => do
        let (rest, cs) ← items fuel depth (dropLines cs.length cs)
        return (item :: rest, cs)
      | ']' :: cs => return ([item], cs)
      | _ => none

/-- The entries of a table in braces, added to what was read before, up to its closing brace. -/
def entries : Nat → Nat → Value → List Char → Option (Value × List Char)
  | 0, _, _, _ => none
  | fuel + 1, depth, t, cs =>
    match cs with
    | '\x7d' :: cs => some (t, cs)
    | cs => do
      let (path, cs) ← key depthLimit cs
      match dropLines cs.length cs with
      | '=' :: cs => do
        let (v, cs) ← value fuel depth (dropLines cs.length cs)
        let t ← Value.addPath path v t
        match dropLines cs.length cs with
        | ',' :: cs => entries fuel depth t (dropLines cs.length cs)
        | '\x7d' :: cs => return (t, cs)
        | _ => none
      | _ => none

end

/-- The lines of a document, added to what was read before; `path` leads to the table that the last
header opened. -/
def lines : Nat → List String → Value → List Char → Option Value
  | 0, _, _, _ => none
  | fuel + 1, path, document, cs =>
    match dropLines cs.length cs with
    | [] => some document
    | '[' :: '[' :: cs => do
      let (path, cs) ← key depthLimit cs
      match cs with
      | ']' :: ']' :: cs => do
        let document ← document.openRepeated path
        lines fuel path document (← lineEnd cs)
      | _ => none
    | '[' :: cs => do
      let (path, cs) ← key depthLimit cs
      match cs with
      | ']' :: cs => do
        let document ← document.openTable path
        lines fuel path document (← lineEnd cs)
      | _ => none
    | cs => do
      let (name, cs) ← key depthLimit cs
      match cs with
      | '=' :: cs => do
        let (v, cs) ← value cs.length depthLimit (cs.dropWhile isBlank)
        let document ← document.descend false (Value.addPath name v) path
        lines fuel path document (← lineEnd cs)
      | _ => none

/-- Drops the mark that may stand before a document. -/
def dropMark : List Char → List Char
  | c :: cs => if c.toNat = 0xFEFF then cs else c :: cs
  | [] => []

/-- The document of a text, if it is well formed. -/
def parse? (text : String) : Option Value :=
  let cs := dropMark text.toList
  lines (cs.length + 1) [] .empty cs

end SqlScribe.Toml
