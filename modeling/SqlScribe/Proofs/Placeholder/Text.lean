import SqlScribe.Proofs.Decimal.Digits
import SqlScribe.Proofs.Parameter.Positional
/-! # Looking for placeholders in a text

A text is looked through as by a driver that has to find its placeholders: what stands between
quotes is passed over, and elsewhere a placeholder is told by its sign and what follows it.

* `Text.outside`: a text outside its quotes.
* `ParameterStyle.occurrences`: the placeholders in a text, in their order.
* `Scan`: what is looked for, and which quotes there are.
* `Scan.Silent`: texts that leave no quote open and show no sign of a placeholder. -/

namespace SqlScribe

namespace Text

/-- A text outside its quotes, from a place where it is outside them or behind an opening one. A
quote ends where its character comes again, and a blank stands for what it holds; a character that
is written twice inside ends one quote and begins the next. -/
def outside (isQuote : Char → Bool) : Option Char → List Char → List Char
  | _, [] => []
  | none, c :: cs =>
    if isQuote c then outside isQuote (some c) cs else c :: outside isQuote none cs
  | some q, c :: cs =>
    if c = q then ' ' :: outside isQuote none cs else outside isQuote (some q) cs

variable {isQuote : Char → Bool}

theorem outside_append_of_forall {cs : List Char} (h : ∀ c ∈ cs, isQuote c = false)
    (rest : List Char) : outside isQuote none (cs ++ rest) = cs ++ outside isQuote none rest := by
  induction cs with
  | nil => rfl
  | cons c cs ih =>
    obtain ⟨hc, hcs⟩ := List.forall_mem_cons.mp h
    rw [List.cons_append, outside, hc, if_neg Bool.false_ne_true, ih hcs, List.cons_append]

/-- The rest of a quoted text, with its quotes written twice: for each of them, and for the closing
one, there is a blank. -/
theorem outside_doubled {q : Char} (hq : isQuote q = true) (twice : Char → Bool)
    (htwice : twice q = true) (cs : List Char) : ∃ n : Nat, ∀ rest,
      outside isQuote (some q) (doubled twice cs ++ q :: rest) =
        ' ' :: List.replicate n ' ' ++ outside isQuote none rest := by
  induction cs with
  | nil =>
    refine ⟨0, fun rest => ?_⟩
    rw [doubled_nil, List.nil_append, outside, if_pos rfl]
    rfl
  | cons c cs ih =>
    obtain ⟨n, hn⟩ := ih
    by_cases hc : c = q
    -- The first of the two ends the quote, and the second begins it anew.
    · refine ⟨n + 1, fun rest => ?_⟩
      rw [hc, doubled_cons, if_pos htwice, List.cons_append, List.cons_append, outside, if_pos rfl,
        outside, if_pos hq, hn, List.replicate_succ]
      rfl
    · refine ⟨n, fun rest => ?_⟩
      have hpass : ∀ ds, outside isQuote (some q) (c :: ds) = outside isQuote (some q) ds :=
        fun ds => by rw [outside, if_neg hc]
      rw [doubled_cons]
      split
      · rw [List.cons_append, List.cons_append, hpass, hpass, hn]
      · rw [List.cons_append, hpass, hn]

/-! ## Characters -/

/-- A character by which a placeholder is told in some style. -/
def isSign (c : Char) : Bool := "?:$%".toList.contains c

/-- A character of keywords, marks, operators, numbers and names of types and functions that tells
of no placeholder. -/
def isInert (c : Char) : Bool := c.isAlphanum || " ,.*()[]=<>+-/_~!@#|&".toList.contains c

/-- A character that stands outside quotes. -/
def isSyntax (c : Char) : Bool := isInert c || isSign c

theorem isInert_of_isDigit {c : Char} (h : c.isDigit = true) : isInert c = true := by
  simp [isInert, Char.isAlphanum, h]

theorem not_isSign_of_isInert {c : Char} (h : isInert c = true) : isSign c = false := by
  have hsign : "?:$%".toList.all (!isInert ·) = true := by decide
  by_cases hc : c ∈ "?:$%".toList
  · have hnot := List.all_eq_true.mp hsign c hc
    rw [h] at hnot
    cases hnot
  · simpa [isSign] using hc

theorem isInert_of_mem_repr {n : Nat} {c : Char} (h : c ∈ n.repr.toList) : isInert c = true := by
  rw [Nat.toList_repr] at h
  exact isInert_of_isDigit (isDigit_of_mem_toDigits h)

/-- All characters of the text are inert. -/
def isFixed (text : String) : Bool := text.toList.all isInert

/-- All characters of the text are inert, and it begins with one that is no digit. -/
def isWord (text : String) : Bool := isFixed text && text.toList.head?.any (!·.isDigit)

theorem isFixed_iff {text : String} : isFixed text = true ↔ ∀ c ∈ text.toList, isInert c = true :=
  List.all_eq_true

theorem isFixed_append {text more : String} (h : isFixed text = true) (h' : isFixed more = true) :
    isFixed (text ++ more) = true := by
  rw [isFixed, String.toList_append, List.all_append]
  exact Bool.and_eq_true_iff.mpr ⟨h, h'⟩

theorem isFixed_nat (n : Nat) : isFixed (toString n) = true :=
  isFixed_iff.mpr fun _ hc => isInert_of_mem_repr (n := n) hc

theorem isFixed_int (n : Int) : isFixed (toString n) = true := by
  cases n with
  | ofNat m => exact isFixed_nat m
  | negSucc m =>
    have hsign : isFixed "-" = true := by decide
    exact isFixed_append hsign (isFixed_nat m.succ)

end Text

namespace ParameterStyle

/-! ## Placeholders -/

/-- The character that a placeholder of the style begins with. -/
def sign : ParameterStyle → Char
  | .qmark => '?'
  | .numeric => ':'
  | .dollar => '$'
  | .named => ':'
  | .format => '%'
  | .pyformat => '%'

/-- What belongs to a placeholder behind its sign, if there is one with these characters behind the
sign. In styles whose placeholders carry names none is looked for. -/
def tail? : ParameterStyle → List Char → Option (List Char)
  | .qmark, _ => some []
  | .numeric, cs => if (cs.takeWhile Char.isDigit).isEmpty then none else cs.takeWhile Char.isDigit
  | .dollar, cs => if (cs.takeWhile Char.isDigit).isEmpty then none else cs.takeWhile Char.isDigit
  | .named, _ => none
  | .format, cs => if cs.head? = some 's' then some ['s'] else none
  | .pyformat, _ => none

/-- The placeholders of a style in a text, in their order. -/
def occurrences (style : ParameterStyle) : List Char → List String
  | [] => []
  | c :: cs =>
    if c = style.sign then
      ((style.tail? cs).map fun tail => String.ofList (c :: tail)).toList ++ style.occurrences cs
    else style.occurrences cs

variable {style : ParameterStyle}

theorem isSign_sign (style : ParameterStyle) : Text.isSign style.sign = true := by
  cases style <;> decide

theorem isSyntax_sign (style : ParameterStyle) : Text.isSyntax style.sign = true := by
  rw [Text.isSyntax, style.isSign_sign, Bool.or_true]

/-- What shows no sign has no part in a placeholder. -/
theorem occurrences_append {cs : List Char} (h : style.sign ∉ cs) (ds : List Char) :
    style.occurrences (cs ++ ds) = style.occurrences ds := by
  induction cs with
  | nil => rfl
  | cons c cs ih =>
    obtain ⟨hc, hcs⟩ := List.ne_and_not_mem_of_not_mem_cons h
    rw [List.cons_append, occurrences, if_neg hc.symm, ih hcs]

/-- The characters of a placeholder: its sign, and what belongs to it whatever follows, if that is
no digit. -/
theorem toList_numbered (hstyle : style.isNamed = false) (n : Nat) :
    ∃ tail : List Char, (style.numbered n).toList = style.sign :: tail ∧
      (∀ c ∈ tail, Text.isInert c = true) ∧
      ∀ cs : List Char, (∀ c ∈ cs.head?, c.isDigit = false) →
        style.tail? (tail ++ cs) = some tail := by
  have hnumber : ∀ sign : Char,
      (String.singleton sign ++ toString n).toList = sign :: Nat.toDigits 10 n := by
    intro sign
    rw [String.toList_append, String.toList_singleton]
    exact congrArg (sign :: ·) Nat.toList_repr
  have hinert : ∀ c ∈ Nat.toDigits 10 n, Text.isInert c = true := fun c hc =>
    Text.isInert_of_isDigit (Text.isDigit_of_mem_toDigits hc)
  have hdigits : (Nat.toDigits 10 n).isEmpty = false :=
    Bool.eq_false_iff.mpr fun h => Nat.toDigits_ne_nil (List.isEmpty_iff.mp h)
  cases style with
  | qmark => exact ⟨[], (by decide : "?".toList = ['?']), nofun, fun _ _ => rfl⟩
  | format =>
    have hinert : ∀ c ∈ ['s'], Text.isInert c = true := List.all_eq_true.mp (by decide)
    exact ⟨['s'], (by decide : "%s".toList = ['%', 's']), hinert, fun _ _ => rfl⟩
  | numeric =>
    refine ⟨Nat.toDigits 10 n, hnumber ':', hinert, fun cs hcs => ?_⟩
    simp only [tail?, Text.takeWhile_toDigits n hcs, hdigits, Bool.false_eq_true, if_false]
  | dollar =>
    refine ⟨Nat.toDigits 10 n, hnumber '$', hinert, fun cs hcs => ?_⟩
    simp only [tail?, Text.takeWhile_toDigits n hcs, hdigits, Bool.false_eq_true, if_false]
  | named => cases hstyle
  | pyformat => cases hstyle

/-- A placeholder is found where it stands, unless a digit behind it makes another of it. -/
theorem occurrences_numbered (hstyle : style.isNamed = false) (n : Nat) {cs : List Char}
    (h : ∀ c ∈ cs.head?, c.isDigit = false) :
    style.occurrences ((style.numbered n).toList ++ cs) =
      style.numbered n :: style.occurrences cs := by
  obtain ⟨tail, hchars, hinert, htail⟩ := toList_numbered hstyle n
  -- Nothing is found behind the sign of the placeholder itself.
  have hsign : style.sign ∉ tail := by
    intro hmem
    have hinert := Text.not_isSign_of_isInert (hinert _ hmem)
    rw [style.isSign_sign] at hinert
    cases hinert
  have hplaceholder : String.ofList (style.sign :: tail) = style.numbered n := by
    rw [← hchars, String.ofList_toList]
  rw [hchars, List.cons_append, occurrences, if_pos rfl, htail cs h, occurrences_append hsign,
    Option.map_some, hplaceholder, Option.toList_some, List.singleton_append]

end ParameterStyle

/-! ## What is looked for -/

/-- What a text is looked through for: placeholders of a style whose placeholders carry no names,
outside string literals and the quotes of identifiers and aliases. Those quotes are not of a
character that is used outside quotes. -/
structure Scan where
  /-- The style of the placeholders. -/
  style : ParameterStyle
  /-- The character around identifiers. -/
  quote : Char
  /-- The character around aliases. -/
  aliasQuote : Char
  /-- Placeholders carry no names. -/
  positional : style.isNamed = false
  /-- The character around identifiers is used for nothing else. -/
  quote_reserved : Text.isSyntax quote = false
  /-- The character around aliases is used for nothing else. -/
  aliasQuote_reserved : Text.isSyntax aliasQuote = false

namespace Scan

variable (c : Scan)

/-- The character opens a quote. -/
def isQuote (ch : Char) : Bool := ch == '\'' || ch == c.quote || ch == c.aliasQuote

/-- A text outside its quotes. -/
def bare (cs : List Char) : List Char := Text.outside c.isQuote none cs

/-- The placeholders that are found in a text. -/
def found (text : String) : List String := c.style.occurrences (c.bare text.toList)

/-- A text that is given by the caller leaves quotes and placeholders alone. -/
def admits (text : String) : Bool :=
  text.toList.all fun ch => !c.isQuote ch && ch != c.style.sign

theorem not_isQuote_of_isSyntax {ch : Char} (h : Text.isSyntax ch = true) :
    c.isQuote ch = false := by
  have hne : ∀ q : Char, Text.isSyntax q = false → (ch == q) = false := by
    intro q hq
    refine beq_eq_false_iff_ne.mpr fun heq => ?_
    rw [heq, hq] at h
    cases h
  rw [isQuote, hne '\'' (by decide), hne _ c.quote_reserved, hne _ c.aliasQuote_reserved]
  rfl

theorem bare_eq_self {cs : List Char} (h : ∀ ch ∈ cs, c.isQuote ch = false) : c.bare cs = cs := by
  have happend := Text.outside_append_of_forall h []
  rwa [List.append_nil, Text.outside, List.append_nil] at happend

theorem bare_fixed {text : String} (h : Text.isFixed text = true) :
    c.bare text.toList = text.toList :=
  c.bare_eq_self fun ch hch => c.not_isQuote_of_isSyntax (by
    rw [Text.isSyntax, Text.isFixed_iff.mp h ch hch, Bool.true_or])

/-- Inert characters leave quotes and placeholders alone. -/
theorem admits_of_isFixed {text : String} (h : Text.isFixed text = true) :
    c.admits text = true := by
  refine List.all_eq_true.mpr fun ch hch => ?_
  have hinert := Text.isFixed_iff.mp h ch hch
  have hquote : c.isQuote ch = false :=
    c.not_isQuote_of_isSyntax (by rw [Text.isSyntax, hinert, Bool.true_or])
  have hsign : ch ≠ c.style.sign := by
    rintro rfl
    have hnot := Text.not_isSign_of_isInert hinert
    rw [c.style.isSign_sign] at hnot
    cases hnot
  simp [hquote, hsign]

/-- A placeholder stands outside quotes. -/
theorem bare_numbered (n : Nat) (rest : List Char) :
    c.bare ((c.style.numbered n).toList ++ rest) = (c.style.numbered n).toList ++ c.bare rest := by
  obtain ⟨tail, hchars, hinert, -⟩ := ParameterStyle.toList_numbered c.positional n
  refine Text.outside_append_of_forall (fun ch hch => c.not_isQuote_of_isSyntax ?_) rest
  rw [hchars] at hch
  rcases List.mem_cons.mp hch with rfl | hch
  · exact c.style.isSyntax_sign
  · rw [Text.isSyntax, hinert ch hch, Bool.true_or]

/-- A placeholder begins with no digit. -/
theorem head_numbered (n : Nat) (rest : List Char) :
    ∀ ch ∈ ((c.style.numbered n).toList ++ rest).head?, ch.isDigit = false := by
  obtain ⟨tail, hchars, -, -⟩ := ParameterStyle.toList_numbered c.positional n
  rw [hchars]
  rintro ch hch
  cases hch
  cases c.style <;> decide

/-- The text leaves no quote open, whatever follows it, and outside its quotes it shows no sign of a
placeholder. -/
structure Silent (cs : List Char) : Prop where
  closed : ∀ rest, c.bare (cs ++ rest) = c.bare cs ++ c.bare rest
  unsigned : c.style.sign ∉ c.bare cs

variable {c} {cs ds : List Char}

namespace Silent

/-- A text without quotes and signs. -/
theorem of_forall (h : ∀ ch ∈ cs, c.isQuote ch = false ∧ ch ≠ c.style.sign) : c.Silent cs := by
  have hbare := c.bare_eq_self fun ch hch => (h ch hch).1
  refine ⟨fun rest => ?_, fun hmem => ?_⟩
  · rw [hbare]
    exact Text.outside_append_of_forall (fun ch hch => (h ch hch).1) rest
  · rw [hbare] at hmem
    exact (h _ hmem).2 rfl

/-- What the caller gives and leaves quotes and placeholders alone. -/
theorem admitted {text : String} (h : c.admits text = true) : c.Silent text.toList := by
  refine of_forall fun ch hch => ?_
  simpa using List.all_eq_true.mp h ch hch

theorem fixed {text : String} (h : Text.isFixed text = true) : c.Silent text.toList :=
  admitted (c.admits_of_isFixed h)

theorem append (hc : c.Silent cs) (hd : c.Silent ds) : c.Silent (cs ++ ds) := by
  refine ⟨fun rest => ?_, fun hmem => ?_⟩
  · rw [List.append_assoc, hc.closed, hd.closed, hc.closed, List.append_assoc]
  · rw [hc.closed] at hmem
    exact (List.mem_append.mp hmem).elim hc.unsigned hd.unsigned

/-- A quoted text, with its quotes written twice. -/
theorem doubled {q : Char} (hq : c.isQuote q = true) (twice : Char → Bool)
    (htwice : twice q = true) (cs : List Char) :
    c.Silent (q :: Text.doubled twice cs ++ [q]) ∧
      (c.bare (q :: Text.doubled twice cs ++ [q])).head? = some ' ' := by
  obtain ⟨n, hn⟩ := Text.outside_doubled hq twice htwice cs
  have hall : ∀ rest, c.bare (q :: Text.doubled twice cs ++ [q] ++ rest) =
      ' ' :: List.replicate n ' ' ++ c.bare rest := by
    intro rest
    rw [List.append_assoc, List.cons_append, bare, Text.outside, if_pos hq]
    exact hn rest
  have hbare : c.bare (q :: Text.doubled twice cs ++ [q]) = ' ' :: List.replicate n ' ' := by
    have hnil := hall []
    rwa [List.append_nil, bare, bare, Text.outside, List.append_nil] at hnil
  refine ⟨⟨fun rest => ?_, fun hmem => ?_⟩, ?_⟩
  · rw [hall, hbare]
  · rw [hbare, ← List.replicate_succ] at hmem
    have hblank := List.eq_of_mem_replicate hmem
    exact absurd (hblank ▸ c.style.isSign_sign) (by decide)
  · rw [hbare]
    rfl

/-- An identifier between its quotes. -/
theorem identifier {q : Char} (hq : c.isQuote q = true) (name : String) :
    c.Silent (Text.identifier (some q) name).toList ∧
      (c.bare (Text.identifier (some q) name).toList).head? = some ' ' := by
  rw [Text.identifier_some, Text.quoted, String.toList_ofList]
  exact doubled hq (· == q) (beq_self_eq_true q) _

/-- Quotes around a text that has none in it. -/
theorem single (h : '\'' ∉ cs) : c.Silent ('\'' :: cs ++ ['\'']) := by
  have hsame : Text.doubled (· == '\'') cs = cs := by
    induction cs with
    | nil => rfl
    | cons ch cs ih =>
      obtain ⟨hne, hcs⟩ := List.ne_and_not_mem_of_not_mem_cons h
      rw [Text.doubled_cons, if_neg (by simpa using hne.symm), ih hcs]
  rw [← hsame]
  exact (doubled (c := c) (q := '\'') (by simp [isQuote]) _ rfl cs).1

end Silent

end Scan

end SqlScribe
