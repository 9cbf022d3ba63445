import Mathlib.Data.Prod.Basic
import Mathlib.Logic.Function.Basic
import SqlScribe.Dialect.Literal
/-! # Reading quoted texts

A quoted text ends at the first quote that no second one follows; two quotes inside it stand for
one. In string literals of MySQL a backslash takes the character behind it along.

* `Text.readBody`: what is read behind an opening quote, and what is left behind the closing one.
* `Text.readBody_doubled`: a text with its quotes and backslashes written twice is read as it was.
* `Text.readQuoted_identifier`: identifiers are read as they were, for every quote.
* `Text.quotedWithBackslashes_eq`: quotes and backslashes can be doubled one after the other.
* `Dialect.readString_stringLiteral`: so are string literals, in every dialect, and the texts of
  documents, identifiers and moments in them. -/

namespace SqlScribe

namespace Text

/-! ## Behind an opening quote -/

/-- What a backslash and the character behind it stand for in a string literal of MySQL. -/
def escape : Char → List Char
  | '0' => ['\x00']
  | 'b' => ['\x08']
  | 't' => ['\t']
  | 'n' => ['\n']
  | 'r' => ['\r']
  | 'Z' => ['\x1a']
  | '%' => ['\\', '%']
  | '_' => ['\\', '_']
  | c => [c]

/-- What is read behind an opening quote up to the closing one, and the characters behind that. -/
def readBody (quote : Char) (escapes : Bool) : List Char → Option (List Char × List Char)
  | [] => none
  | [c] => if c = quote then some ([], []) else none
  | c :: d :: rest =>
    if c = quote then
      if d = quote then (readBody quote escapes rest).map (Prod.map (quote :: ·) id)
      else some ([], d :: rest)
    else if escapes && c == '\\' then
      (readBody quote escapes rest).map (Prod.map (escape d ++ ·) id)
    else (readBody quote escapes (d :: rest)).map (Prod.map (c :: ·) id)

section Body

variable {quote : Char} {escapes : Bool}

/-- A quote that no second one follows is the closing one. -/
theorem readBody_quote {following : List Char} (h : following.head? ≠ some quote) :
    readBody quote escapes (quote :: following) = some ([], following) := by
  cases following with
  | nil => rw [readBody, if_pos rfl]
  | cons d rest =>
    have hd : d ≠ quote := fun heq => h (congrArg some heq)
    rw [readBody, if_pos rfl, if_neg hd]

/-- Two quotes stand for one. -/
theorem readBody_quote_quote (cs : List Char) :
    readBody quote escapes (quote :: quote :: cs) =
      (readBody quote escapes cs).map (Prod.map (quote :: ·) id) := by
  rw [readBody, if_pos rfl, if_pos rfl]

/-- Where backslashes escape, two of them stand for one. -/
theorem readBody_backslash_backslash (hquote : quote ≠ '\\') (cs : List Char) :
    readBody quote true ('\\' :: '\\' :: cs) =
      (readBody quote true cs).map (Prod.map ('\\' :: ·) id) := by
  rw [readBody, if_neg hquote.symm]
  rfl

/-- Any other character stands for itself, if some character is behind it. -/
theorem readBody_plain {c : Char} (hquote : c ≠ quote) (hescape : (escapes && c == '\\') = false)
    {cs : List Char} (hcs : cs ≠ []) :
    readBody quote escapes (c :: cs) = (readBody quote escapes cs).map (Prod.map (c :: ·) id) := by
  obtain ⟨d, rest, rfl⟩ := List.exists_cons_of_ne_nil hcs
  rw [readBody, if_neg hquote, hescape, if_neg Bool.false_ne_true]

/-- A text in which the quotes, and the backslashes where these escape, are written twice is read as
it was, and reading stops behind the closing quote. -/
theorem readBody_doubled {twice : Char → Bool}
    (htwice : ∀ c, twice c = true ↔ c = quote ∨ (escapes && c == '\\') = true)
    (hquote : escapes = true → quote ≠ '\\') {following : List Char}
    (h : following.head? ≠ some quote) (cs : List Char) :
    readBody quote escapes (doubled twice cs ++ quote :: following) = some (cs, following) := by
  induction cs with
  | nil => exact readBody_quote h
  | cons c cs ih =>
    rw [doubled_cons]
    by_cases hc : c = quote
    · rw [if_pos ((htwice c).mpr (.inl hc)), hc, List.cons_append, List.cons_append,
        readBody_quote_quote, ih]
      rfl
    · by_cases hescape : (escapes && c == '\\') = true
      · obtain ⟨rfl, hbackslash⟩ := Bool.and_eq_true_iff.mp hescape
        rw [if_pos ((htwice c).mpr (.inr hescape)), beq_iff_eq.mp hbackslash, List.cons_append,
          List.cons_append, readBody_backslash_backslash (hquote rfl), ih]
        rfl
      · have honce : ¬twice c = true := fun htrue => ((htwice c).mp htrue).elim hc hescape
        rw [if_neg honce, List.cons_append,
          readBody_plain hc (Bool.eq_false_iff.mpr hescape)
            (List.append_ne_nil_of_right_ne_nil _ (List.cons_ne_nil _ _)), ih]
        rfl

end Body

/-! ## Between quotes -/

/-- A text between two quotes at the beginning of characters, and the text behind it. -/
def readQuoted (quote : Char) (escapes : Bool) : List Char → Option (String × String)
  | [] => none
  | c :: rest =>
    if c = quote then (readBody quote escapes rest).map (Prod.map String.ofList String.ofList)
    else none

/-- A quoted text with more behind it is read as it was. -/
theorem readQuoted_doubled {quote : Char} {escapes : Bool} {twice : Char → Bool}
    (htwice : ∀ c, twice c = true ↔ c = quote ∨ (escapes && c == '\\') = true)
    (hquote : escapes = true → quote ≠ '\\') {following : String}
    (h : following.toList.head? ≠ some quote) (s : String) :
    readQuoted quote escapes
      (String.ofList (quote :: doubled twice s.toList ++ [quote]) ++ following).toList =
        some (s, following) := by
  have hchars : (String.ofList (quote :: doubled twice s.toList ++ [quote]) ++ following).toList =
      quote :: (doubled twice s.toList ++ quote :: following.toList) := by
    rw [String.toList_append, String.toList_ofList, List.append_assoc]
    rfl
  rw [hchars, readQuoted, if_pos rfl, readBody_doubled htwice hquote h, Option.map_some,
    Prod.map_apply, String.ofList_toList, String.ofList_toList]

/-- Where nothing escapes, a text in which its quotes are doubled is read as it was. -/
theorem readQuoted_quoted {quote : Char} {following : String}
    (h : following.toList.head? ≠ some quote) (s : String) :
    readQuoted quote false (quoted quote s ++ following).toList = some (s, following) :=
  readQuoted_doubled (fun c => by simp) (fun hescapes => absurd hescapes Bool.false_ne_true) h s

/-- Where backslashes escape, a text in which these and its quotes are doubled is read as it was. -/
theorem readQuoted_quotedWithBackslashes {quote : Char} (hquote : quote ≠ '\\')
    {following : String} (h : following.toList.head? ≠ some quote) (s : String) :
    readQuoted quote true (quotedWithBackslashes quote s ++ following).toList =
      some (s, following) :=
  readQuoted_doubled (fun c => by simp) (fun _ => hquote) h s

/-- Quotes and backslashes can be doubled one after the other: backslashes behind the quotes find no
quote that they double again. -/
theorem quotedWithBackslashes_eq {quote : Char} (hquote : quote ≠ '\\') (s : String) :
    quotedWithBackslashes quote s =
      String.ofList
        (quote :: doubled (· == '\\') (doubled (· == quote) s.toList) ++ [quote]) := by
  have hdoubled : ∀ cs : List Char,
      doubled (fun c => c == quote || c == '\\') cs =
        doubled (· == '\\') (doubled (· == quote) cs) := by
    intro cs
    induction cs with
    | nil => rfl
    | cons c cs ih =>
      by_cases hc : c = quote
      · simp [doubled_cons, hc, hquote, ih]
      · simp [doubled_cons, hc, ih]
  rw [quotedWithBackslashes, hdoubled]

/-- **Identifiers are read as they were.** Whatever characters are in an identifier and whichever
character quotes it, a reader that takes two quotes inside for one reads the identifier, and stops
where the text behind it begins, unless that begins with a quote. So different identifiers are
written differently. -/
theorem readQuoted_identifier (quote : Char) :
    (∀ name following : String, following.toList.head? ≠ some quote →
      readQuoted quote false (identifier (some quote) name ++ following).toList =
        some (name, following)) ∧
    Function.Injective (identifier (some quote)) := by
  refine ⟨fun name following h => readQuoted_quoted h name, fun name name' heq => ?_⟩
  have hnone : "".toList.head? ≠ some quote := by simp
  have hname := readQuoted_quoted hnone name
  rw [← identifier_some, heq, identifier_some, readQuoted_quoted hnone name'] at hname
  exact (congrArg Prod.fst (Option.some.inj hname)).symm

/-- An identifier with quotes at both ends, two of them next to each other, and a keyword behind
it. -/
theorem readQuoted_identifier_quotes :
    readQuoted '"' false (identifier (some '"') "\"a\"\"" ++ " AS").toList =
      some ("\"a\"\"", " AS") :=
  (readQuoted_identifier '"').1 "\"a\"\"" " AS" (by decide)

end Text

/-! ## String literals -/

namespace Dialect

/-- A string literal at the beginning of a text, and the text behind it. SQL Server marks literals
of national characters by an `N`, and MySQL has escapes. -/
def readString (d : Dialect) (text : String) : Option (String × String) :=
  match text.toList with
  | 'N' :: cs => if d = .mssql then Text.readQuoted '\'' false cs else none
  | cs => Text.readQuoted '\'' (d == .mysql) cs

section Literal

variable {d : Dialect} {following : String}

/-- A text that begins with a quote is read without looking for a mark. -/
theorem readString_of_quote {text : String} (h : text.toList.head? = some '\'') :
    d.readString text = Text.readQuoted '\'' (d == .mysql) text.toList := by
  obtain ⟨cs, hcs⟩ := List.head?_eq_some_iff.mp h
  rw [readString, hcs]
  rfl

/-- Where backslashes do not escape, a text with its quotes doubled is read as it was. -/
theorem readString_quoted (hd : d ≠ .mysql) (h : following.toList.head? ≠ some '\'')
    (s : String) : d.readString (Text.quoted '\'' s ++ following) = some (s, following) := by
  have hhead : (Text.quoted '\'' s ++ following).toList.head? = some '\'' := by
    simp [Text.quoted]
  have hplain : (d == .mysql) = false := beq_eq_false_iff_ne.mpr hd
  rw [readString_of_quote hhead, hplain, Text.readQuoted_quoted h]

/-- In MySQL, a text with its quotes and backslashes doubled is read as it was. -/
theorem readString_quotedWithBackslashes (h : following.toList.head? ≠ some '\'') (s : String) :
    readString .mysql (Text.quotedWithBackslashes '\'' s ++ following) = some (s, following) := by
  have hhead : (Text.quotedWithBackslashes '\'' s ++ following).toList.head? = some '\'' := by
    simp [Text.quotedWithBackslashes]
  rw [readString_of_quote hhead]
  exact Text.readQuoted_quotedWithBackslashes (by decide) h s

/-- In SQL Server, the mark of national characters is passed over. -/
theorem readString_national (h : following.toList.head? ≠ some '\'') (s : String) :
    readString .mssql ("N" ++ Text.quoted '\'' s ++ following) = some (s, following) := by
  have hchars : ("N" ++ Text.quoted '\'' s ++ following).toList =
      'N' :: (Text.quoted '\'' s ++ following).toList := by
    simp [String.toList_append]
  rw [readString, hchars]
  exact Text.readQuoted_quoted h s

/-- A string literal is read as the string that it was written for. -/
theorem readString_literal (d : Dialect) (h : following.toList.head? ≠ some '\'') (s : String) :
    d.readString (d.stringLiteral s ++ following) = some (s, following) := by
  cases d with
  | mysql => exact readString_quotedWithBackslashes h s
  | mssql =>
    rw [stringLiteral, profile, StringStyle.literal]
    split
    · exact readString_quoted (by decide) h s
    · exact readString_national h s
  | ansi | postgres | sqlite | oracle | redshift => exact readString_quoted (by decide) h s

end Literal

/-- **String literals are read as they were.** In every dialect, whatever characters are in a
string, a reader of the dialect's literals reads the string, and stops where the text behind the
literal begins, unless that begins with a quote. So of the literals of documents, of universally
unique identifiers, and of dates and times it reads their texts. -/
theorem readString_stringLiteral (d : Dialect) (following : String)
    (h : following.toList.head? ≠ some '\'') :
    (∀ s : String, d.readString (d.stringLiteral s ++ following) = some (s, following)) ∧
    (∀ j : Json, d.readString (d.literal (.json j) ++ following) = some (j.compact, following)) ∧
    (∀ u : Uuid, d.readString (d.literal (.uuid u) ++ following) = some (u.text, following)) ∧
    ∀ (v : Value) (iso : String), v.isoText? = some iso →
      d.readString (d.literal v ++ following) = some (iso, following) := by
  have hread := readString_literal d h
  refine ⟨hread, fun j => hread j.compact, fun u => hread u.text, fun v iso hiso => ?_⟩
  cases v with
  | date x | time x | dateTime x | timestamp x =>
    obtain rfl := Option.some.inj hiso
    exact hread _
  | int n | float x | text s | bool b | uuid u | json j => cases hiso

/-- A string of a backslash, two quotes and a backslash, with a bracket behind its literal. -/
theorem readString_stringLiteral_backslashes :
    readString .mysql (stringLiteral .mysql "\\''\\" ++ ")") = some ("\\''\\", ")") :=
  (readString_stringLiteral .mysql ")" (by decide)).1 "\\''\\"

end Dialect

end SqlScribe
