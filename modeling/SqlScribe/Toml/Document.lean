/-! # TOML documents

A document is a table of values. Tables are opened by headers, by dotted keys or in braces, and each
way restricts how the table may be added to later: no table is opened twice by a header, dotted keys
do not reach into tables that a header opened, and a table in braces is complete. -/

namespace SqlScribe.Toml

/-- How a table came to be. -/
inductive Origin where
  /-- By a header of its own, or as the whole document. -/
  | header
  /-- As a table on the way to that of a header. -/
  | implied
  /-- By a dotted key. -/
  | dotted
  /-- In braces. -/
  | inline
deriving Repr, DecidableEq

/-- A value of a document. -/
inductive Value where
  /-- A string. -/
  | string (s : String)
  /-- An integer. -/
  | integer (n : Int)
  /-- A floating-point number, by its text. -/
  | float (text : String)
  /-- A number that is too great to be read. -/
  | outOfRange
  /-- A truth value. -/
  | boolean (b : Bool)
  /-- A date, a time or both, by its text. -/
  | dateTime (text : String)
  /-- An array in brackets. -/
  | array (items : List Value)
  /-- Tables that headers of one name opened, in order. -/
  | tables (items : List Value)
  /-- A table. -/
  | table (origin : Origin) (entries : List (String × Value))
deriving Inhabited

/-- How deep brackets and braces may be nested, and how many parts a key may have. -/
def depthLimit : Nat := 80

/-- The entries of a table. -/
abbrev Entries := List (String × Value)

/-- Gives a key another value, or adds it. -/
def Entries.set (key : String) (value : Value) : Entries → Entries
  | [] => [(key, value)]
  | (k, v) :: rest => if k = key then (key, value) :: rest else (k, v) :: Entries.set key value rest

namespace Value

mutual

/-- A value can be read: no number in it is too great. -/
def isReadable : Value → Bool
  | .string _ => true
  | .integer _ => true
  | .float _ => true
  | .outOfRange => false
  | .boolean _ => true
  | .dateTime _ => true
  | .array items => areReadable items
  | .tables items => areReadable items
  | .table _ entries => entriesReadable entries

/-- All values of a list can be read. -/
def areReadable : List Value → Bool
  | [] => true
  | item :: items => item.isReadable && areReadable items

/-- The values of all entries can be read. -/
def entriesReadable : List (String × Value) → Bool
  | [] => true
  | (_, value) :: entries => value.isReadable && entriesReadable entries

end

/-- An empty document. -/
def empty : Value := .table .header []

/-- Changes the table that a path leads to, and opens the tables on the way that are not there.
With `dotted` the path is that of a dotted key. -/
def descend (dotted : Bool) (change : Value → Option Value) : List String → Value → Option Value
  | [], t => change t
  | key :: path, .table origin entries =>
    match entries.lookup key with
    | none => do
      let opened ← descend dotted change path (.table (if dotted then .dotted else .implied) [])
      return .table origin (Entries.set key opened entries)
    | some (.table .inline _) => none
    | some (.table inner es) =>
      if dotted && inner == .header then none
      else do
        let changed ← descend dotted change path (.table inner es)
        return .table origin (Entries.set key changed entries)
    | some (.tables items) =>
      match items.getLast? with
      | none => none
      | some last => do
        let changed ← descend dotted change path last
        return .table origin (Entries.set key (.tables (items.dropLast ++ [changed])) entries)
    | some _ => none
  | _ :: _, _ => none

/-- Adds a key that is not there yet. A dotted key ends in a table that dotted keys opened, any
other key in one that they did not. -/
def addKey (isDotted : Bool) (key : String) (value : Value) : Value → Option Value
  | .table origin entries =>
    if (origin == .dotted) != isDotted then none
    else
      match entries.lookup key with
      | some _ => none
      | none => some (.table origin (entries ++ [(key, value)]))
  | _ => none

/-- Adds the value of a possibly dotted key to a table. -/
def addPath (path : List String) (value : Value) (t : Value) : Option Value :=
  match path.getLast? with
  | none => none
  | some key =>
    let lead := path.dropLast
    descend true (addKey (!lead.isEmpty) key value) lead t

/-- Opens the table of a header. -/
def openTable (path : List String) (document : Value) : Option Value :=
  match path.getLast? with
  | none => none
  | some key =>
    descend false (fun
      | .table origin entries =>
        match entries.lookup key with
        | none => some (.table origin (entries ++ [(key, .table .header [])]))
        | some (.table .implied es) =>
          some (.table origin (Entries.set key (.table .header es) entries))
        | some _ => none
      | _ => none) path.dropLast document

/-- Opens one more table of a repeated header. -/
def openRepeated (path : List String) (document : Value) : Option Value :=
  match path.getLast? with
  | none => none
  | some key =>
    descend false (fun
      | .table origin entries =>
        match entries.lookup key with
        | none => some (.table origin (entries ++ [(key, .tables [.table .header []])]))
        | some (.tables items) =>
          some (.table origin (Entries.set key (.tables (items ++ [.table .header []])) entries))
        | some _ => none
      | _ => none) path.dropLast document

end Value

end SqlScribe.Toml
