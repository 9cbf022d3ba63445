import SqlScribe.Settings
import SqlScribe.Toml.Reader
/-! # Reading settings

Settings are read from a document with two tables, `render` and `builder`. What is not given keeps
its default and what is not known is passed over, but a value of the wrong type and a number that is
too great are refused. The options of a table may also be given as an array, in their order; nothing
behind them is looked at. -/

namespace SqlScribe

namespace Toml.Value

/-- A truth value. -/
def boolean? : Value → Option Bool
  | .boolean b => some b
  | _ => none

/-- A string. -/
def string? : Value → Option String
  | .string s => some s
  | _ => none

/-- The values of some keys, each if it is given: by name in a table, by position in an array. All
other values of a table must be readable. A date has none of the keys, and nothing else has keys. -/
def fields? (names : List String) : Value → Option (List (String × Value))
  | .table _ entries =>
    if entries.all fun entry => names.contains entry.1 || entry.2.isReadable then
      some (entries.filter fun entry => names.contains entry.1)
    else none
  | .array items => some (names.zip items)
  | .tables items => some (names.zip items)
  | .dateTime _ => some []
  | .string _ => none
  | .integer _ => none
  | .float _ => none
  | .outOfRange => none
  | .boolean _ => none

end Toml.Value

namespace RenderSettings

/-- The keys of the options in their order. -/
def keys : List String :=
  ["dialect", "quote_char", "alias_quote_char", "as_keyword", "with_namespace", "groupby_alias",
    "orderby_alias", "parameter_style"]

/-- The settings with one option changed. -/
def set? (r : RenderSettings) (key : String) (v : Toml.Value) : Option RenderSettings :=
  match key with
  | "dialect" => v.string?.map fun s => { r with dialect := s }
  | "quote_char" => v.string?.map fun s => { r with quote := some s }
  | "alias_quote_char" => v.string?.map fun s => { r with aliasQuote := some s }
  | "as_keyword" => v.boolean?.map fun b => { r with asKeyword := b }
  | "with_namespace" => v.boolean?.map fun b => { r with qualify := b }
  | "groupby_alias" => v.boolean?.map fun b => { r with groupByAlias := b }
  | "orderby_alias" => v.boolean?.map fun b => { r with orderByAlias := b }
  | "parameter_style" => v.string?.map fun s => { r with parameterStyle := some s }
  | _ => some r

/-- The settings that a value holds. -/
def ofValue? (v : Toml.Value) : Option RenderSettings := do
  (← v.fields? keys).foldlM (fun r (key, v) => r.set? key v) {}

end RenderSettings

namespace BuilderSettings

/-- The keys of the options in their order. -/
def keys : List String := ["immutable"]

/-- The settings with one option changed. -/
def set? (b : BuilderSettings) (key : String) (v : Toml.Value) : Option BuilderSettings :=
  match key with
  | "immutable" => v.boolean?.map fun x => { b with immutable := x }
  | _ => some b

/-- The settings that a value holds. -/
def ofValue? (v : Toml.Value) : Option BuilderSettings := do
  (← v.fields? keys).foldlM (fun b (key, v) => b.set? key v) {}

end BuilderSettings

/-- What stands at the path of a file. -/
inductive FileContent where
  /-- There is no file. -/
  | absent
  /-- There is something that cannot be read as text. -/
  | unreadable
  /-- There is a text. -/
  | text (content : String)

namespace Settings

/-- The keys of the tables in their order. -/
def keys : List String := ["render", "builder"]

/-- The settings with one table changed. -/
def set? (s : Settings) (key : String) (v : Toml.Value) : Option Settings :=
  match key with
  | "render" => (RenderSettings.ofValue? v).map fun render => { s with render }
  | "builder" => (BuilderSettings.ofValue? v).map fun builder => { s with builder }
  | _ => some s

/-- The settings that a document holds. -/
def ofValue? (v : Toml.Value) : Option Settings := do
  (← v.fields? keys).foldlM (fun s (key, v) => s.set? key v) {}

/-- Reads and checks the settings of a text. -/
def parse (text : String) : Except SettingsError Settings :=
  match (Toml.parse? text).bind ofValue? with
  | none => .error .malformed
  | some s => (s.check.mapError .invalid).map fun _ => s

/-- Reads and checks the settings of a file, given what stands at each path. -/
def load (contentOf : String → FileContent) (path : String) : Except SettingsError Settings :=
  match contentOf path with
  | .absent => .error (.fileNotFound path)
  | .unreadable => .error .unreadable
  | .text content => parse content

end Settings

end SqlScribe
