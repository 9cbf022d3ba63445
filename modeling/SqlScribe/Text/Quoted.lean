/-! # Quoted text

A quoted text stands between two quote characters, and a quote character inside it is written
twice. Identifiers and string literals of SQL are both written this way; some dialects also write
a backslash twice. -/

namespace SqlScribe.Text

/-- The characters of a text with each character that `twice` selects written twice. -/
def doubled (twice : Char → Bool) : List Char → List Char
  | [] => []
  | c :: cs => if twice c then c :: c :: doubled twice cs else c :: doubled twice cs

@[simp] theorem doubled_nil (twice : Char → Bool) : doubled twice [] = [] := rfl

theorem doubled_cons (twice : Char → Bool) (c : Char) (cs : List Char) :
    doubled twice (c :: cs) =
      if twice c then c :: c :: doubled twice cs else c :: doubled twice cs := rfl

theorem doubled_append (twice : Char → Bool) (xs ys : List Char) :
    doubled twice (xs ++ ys) = doubled twice xs ++ doubled twice ys := by
  induction xs with
  | nil => rfl
  | cons c cs ih => by_cases h : twice c <;> simp [doubled, h, ih]

/-- A text between two quote characters, each quote character inside it written twice. -/
def quoted (quote : Char) (text : String) : String :=
  String.ofList (quote :: doubled (· == quote) text.toList ++ [quote])

/-- A text between two quote characters, with quote characters and backslashes inside it written
twice. -/
def quotedWithBackslashes (quote : Char) (text : String) : String :=
  String.ofList (quote :: doubled (fun c => c == quote || c == '\\') text.toList ++ [quote])

/-- An identifier between its quote characters, or as it stands where the dialect has none. -/
def identifier (quote : Option Char) (name : String) : String :=
  match quote with
  | some q => quoted q name
  | none => name

@[simp] theorem identifier_none (name : String) : identifier none name = name := rfl

@[simp] theorem identifier_some (q : Char) (name : String) :
    identifier (some q) name = quoted q name := rfl

end SqlScribe.Text
