import SqlScribe.Parameter
import SqlScribe.Render
import SqlScribe.Query.Basic
import SqlScribe.Text.Escaped
/-! # Settings

Settings say how queries are built and written. Names stand in them as they were given, so settings
are checked before they are used: each option of a name either is valid or is reported. -/

namespace SqlScribe

/-- How statements are written. -/
structure RenderSettings where
  /-- The name of the dialect. -/
  dialect : String := "ansi"
  /-- The character around identifiers, nothing for bare ones. -/
  quote : Option String := none
  /-- The character around aliases, nothing for bare ones. -/
  aliasQuote : Option String := none
  /-- Aliases are introduced by `AS`. -/
  asKeyword : Bool := false
  /-- Fields of tables are always qualified. -/
  qualify : Bool := false
  /-- `GROUP BY` names aliases of the select list. -/
  groupByAlias : Bool := true
  /-- `ORDER BY` names aliases of the select list. -/
  orderByAlias : Bool := true
  /-- The name of the style of placeholders. -/
  parameterStyle : Option String := none
deriving Repr, DecidableEq

/-- How queries are built. -/
structure BuilderSettings where
  /-- A call on a query gives a query of a new identity. -/
  immutable : Bool := true
deriving Repr, DecidableEq

/-- How queries are built and written. -/
structure Settings where
  /-- How statements are written. -/
  render : RenderSettings := {}
  /-- How queries are built. -/
  builder : BuilderSettings := {}
deriving Repr, DecidableEq

/-- Why an option is not valid. -/
inductive InvalidSetting where
  /-- It names no dialect or style. -/
  | unknownName (name : UnknownName)
  /-- It should be one character or none. -/
  | notOneCharacter (key value : String)
deriving Repr, DecidableEq

/-- Why there are no settings. -/
inductive SettingsError where
  /-- There is no file at the path. -/
  | fileNotFound (path : String)
  /-- The file cannot be read. -/
  | unreadable
  /-- The text is not a well-formed document, or a value in it has the wrong type. -/
  | malformed
  /-- An option is not valid. -/
  | invalid (reason : InvalidSetting)
deriving Repr, DecidableEq

/-- What is wrong with an option. -/
def InvalidSetting.message : InvalidSetting → String
  | .unknownName name => name.message
  | .notOneCharacter key value =>
    key ++ " must be a single character, got " ++ Text.shown value

/-- The message that reports an error. -/
def SettingsError.message : SettingsError → String
  | .fileNotFound path => "Config file not found: " ++ path
  | .unreadable => "Failed to read config file"
  | .malformed => "Failed to parse config file"
  | .invalid reason => "Invalid configuration: " ++ reason.message

/-- The character around names that a text stands for: none if it is empty. -/
def quoteSetting (key value : String) : Except InvalidSetting (Option Char) :=
  match value.toList with
  | [] => .ok none
  | [c] => .ok (some c)
  | _ => .error (.notOneCharacter key value)

namespace RenderSettings

/-- The dialect that is named. -/
def dialect? (r : RenderSettings) : Except InvalidSetting Dialect :=
  (Dialect.ofName r.dialect).mapError .unknownName

/-- The style of placeholders that is named, if one is. -/
def parameterStyle? (r : RenderSettings) : Except InvalidSetting (Option ParameterStyle) :=
  match r.parameterStyle with
  | none => .ok none
  | some name => ((ParameterStyle.ofName name).mapError .unknownName).map some

/-- The character around identifiers that is asked for, if one is. -/
def quote? (r : RenderSettings) : Except InvalidSetting (Option (Option Char)) :=
  match r.quote with
  | none => .ok none
  | some value => (quoteSetting "quote_char" value).map some

/-- The character around aliases that is asked for, if one is. -/
def aliasQuote? (r : RenderSettings) : Except InvalidSetting (Option (Option Char)) :=
  match r.aliasQuote with
  | none => .ok none
  | some value => (quoteSetting "alias_quote_char" value).map some

/-- The options of a rendering. -/
def options? (r : RenderSettings) : Except InvalidSetting RenderOptions := do
  let dialect ← r.dialect?
  let quote ← r.quote?
  let aliasQuote ← r.aliasQuote?
  return {
    dialect := some dialect
    quote
    aliasQuote
    asKeyword := r.asKeyword
    qualify := r.qualify
    groupByAlias := r.groupByAlias
    orderByAlias := r.orderByAlias }

end RenderSettings

namespace Settings

/-- The first option that is not valid: the dialect is looked at first, then the style of
placeholders, then the characters around names. -/
def check (s : Settings) : Except InvalidSetting Unit := do
  let _ ← s.render.dialect?
  let _ ← s.render.parameterStyle?
  let _ ← s.render.options?

/-- A query without any clause, for the dialect of the settings. -/
def query? (s : Settings) (id : SourceId) : Except InvalidSetting Query := do
  let dialect ← s.render.dialect?
  return (Query.start id dialect).setImmutable s.builder.immutable

/-- Bindings without a value, if a style of placeholders is named. -/
def bindings? (s : Settings) : Except InvalidSetting (Option Bindings) :=
  s.render.parameterStyle?.map fun style? => style?.map fun style => { style }

end Settings

end SqlScribe
