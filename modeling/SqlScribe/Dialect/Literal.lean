import SqlScribe.Dialect.Profile
import SqlScribe.Text.Quoted
import SqlScribe.Value
/-! # Literals in each dialect

The text of a value as a literal. Strings, identifiers, documents and dates are written between
single quotes; what is doubled inside depends on the dialect. -/

namespace SqlScribe

/-- A string literal in a given style. -/
def StringStyle.literal : StringStyle → String → String
  | .plain, s => Text.quoted '\'' s
  | .backslashes, s => Text.quotedWithBackslashes '\'' s
  | .national, s =>
    if s.toList.all (fun c => c.toNat < 128) then Text.quoted '\'' s
    else "N" ++ Text.quoted '\'' s

/-- A truth value in a given style. -/
def BooleanStyle.literal : BooleanStyle → Bool → String
  | .words, true => "true"
  | .words, false => "false"
  | .digits, true => "1"
  | .digits, false => "0"

namespace Dialect

/-- A string literal. -/
def stringLiteral (d : Dialect) (s : String) : String := d.profile.strings.literal s

/-- A truth value. -/
def booleanLiteral (d : Dialect) (b : Bool) : String := d.profile.booleans.literal b

/-- The literal of a value. -/
def literal (d : Dialect) : Value → String
  | .int n => toString n
  | .float x => x.text
  | .text s => d.stringLiteral s
  | .bool b => d.booleanLiteral b
  | .uuid u => d.stringLiteral u.text
  | .json j => d.stringLiteral j.compact
  | .date x => d.stringLiteral x.text
  | .time x => d.stringLiteral x.text
  | .dateTime x => d.stringLiteral x.text
  | .timestamp x => d.stringLiteral x.text

end Dialect

end SqlScribe
