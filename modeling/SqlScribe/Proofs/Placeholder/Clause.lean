import SqlScribe.Proofs.Nesting.Clause
import SqlScribe.Proofs.Placeholder.Token
/-! # Clauses between placeholders

Clauses whose parts are tame are tame: between two parts there always stands a token that is no
number, so that none of them goes on with the number of a placeholder. What a clause writes of its
own accord is silent, with one exception: some operators on JSON documents are spelt with the sign
of a placeholder.

* `Scan.admitsOperator`: the operators on JSON documents that are spelt without it.
* One law for each clause of terms and conditions, in the order of the definitions. -/

namespace SqlScribe

open Tokens

variable {c : Scan} {d : Dialect}

/-! ## Texts of types and parts -/

theorem DatePart.isFixed_name (part : DatePart) : Text.isFixed part.name = true := by
  cases part <;> decide

namespace DataType

theorem isFixed_sized {name : String} (h : Text.isFixed name = true) (length : Option UInt16) :
    Text.isFixed (sized name length) = true := by
  cases length with
  | none => exact h
  | some n =>
    have hopen : Text.isFixed "(" = true := by decide
    have hclose : Text.isFixed ")" = true := by decide
    exact Text.isFixed_append (Text.isFixed_append (Text.isFixed_append h hopen)
      (Text.isFixed_nat _)) hclose

theorem isFixed_scaled {name : String} (h : Text.isFixed name = true) (precision scale : UInt8) :
    Text.isFixed (scaled name precision scale) = true := by
  have hopen : Text.isFixed "(" = true := by decide
  have hcomma : Text.isFixed "," = true := by decide
  have hclose : Text.isFixed ")" = true := by decide
  exact Text.isFixed_append (Text.isFixed_append (Text.isFixed_append (Text.isFixed_append
    (Text.isFixed_append h hopen) (Text.isFixed_nat _)) hcomma) (Text.isFixed_nat _)) hclose

theorem isFixed_standardName (type : DataType) : Text.isFixed type.standardName = true := by
  have hdecimal : Text.isFixed "DECIMAL" = true := by decide
  have hchar : Text.isFixed "CHAR" = true := by decide
  have hvarchar : Text.isFixed "VARCHAR" = true := by decide
  cases type with
  | decimal precision scale => exact isFixed_scaled hdecimal precision scale
  | char length => exact isFixed_sized hchar length
  | varchar length => exact isFixed_sized hvarchar length
  | _ => decide

end DataType

/-- The text that the caller gives a form of a call leaves quotes and placeholders alone. -/
def Scan.admitsForm (c : Scan) : CallForm → Bool
  | .convert charset => c.admits charset
  | _ => true

/-! ## What dialects write -/

/-- What a match of a regular expression is written with is made of inert characters. -/
def RegexStyle.isWord : RegexStyle → Bool
  | .operator isMatch isNoMatch => Text.isWord isMatch && Text.isWord isNoMatch
  | .function name => Text.isWord name
  | .unsupported => true

/-- What a search is written with is made of inert characters. -/
def SearchStyle.isWord : SearchStyle → Bool
  | .operator symbol => Text.isWord symbol
  | .function name _ => Text.isWord name
  | .matchAgainst => true
  | .textVectors => true
  | .regex => true

namespace Dialect

theorem isWord_regex (d : Dialect) : d.profile.regex.isWord = true := by cases d <;> decide

theorem isWord_search (d : Dialect) (op : Search) :
    ∀ style ∈ d.profile.search op, style.isWord = true := by
  cases d <;> cases op <;> decide

theorem isFixed_textType (d : Dialect) : Text.isFixed d.profile.textType = true := by
  cases d <;> decide

theorem isWord_arrayWord (d : Dialect) : ∀ w ∈ d.profile.arrayWord, Text.isWord w = true := by
  cases d <;> decide

/-- A string literal is silent: what would end its quote is written twice. -/
theorem silent_stringLiteral (d : Dialect) (s : String) :
    c.Silent (d.stringLiteral s).toList := by
  have hopens : c.isQuote '\'' = true := by simp [Scan.isQuote]
  have hplain : c.Silent (Text.quoted '\'' s).toList :=
    (Scan.Silent.identifier (c := c) hopens s).1
  rw [stringLiteral]
  cases d.profile.strings with
  | plain => exact hplain
  | backslashes =>
    rw [StringStyle.literal, Text.quotedWithBackslashes, String.toList_ofList]
    exact (Scan.Silent.doubled hopens (fun ch => ch == '\'' || ch == '\\') rfl _).1
  | national =>
    -- The mark of a national literal stands before its quote.
    rw [StringStyle.literal]
    split
    · exact hplain
    · have hmark : Text.isFixed "N" = true := by decide
      rw [String.toList_append]
      exact (Scan.Silent.fixed hmark).append hplain

end Dialect

/-- An operator on JSON documents is not spelt with the sign of a placeholder. -/
def Scan.admitsOperator (c : Scan) (op : JsonOp) : Bool :=
  !op.symbol.toList.contains c.style.sign

theorem JsonOp.isSyntax_symbol (op : JsonOp) :
    ∀ ch ∈ op.symbol.toList, Text.isSyntax ch = true := by
  have hall : op.symbol.toList.all Text.isSyntax = true := by cases op <;> decide
  exact List.all_eq_true.mp hall

theorem JsonOp.head_symbol (op : JsonOp) :
    ∃ ch, op.symbol.toList.head? = some ch ∧ ch.isDigit = false := by
  cases op <;> exact ⟨_, rfl, by decide⟩

namespace Token

theorem Separates.json {op : JsonOp} (h : c.admitsOperator op = true) :
    (Token.operator op.symbol).Separates c d := by
  have hquote : ∀ ch ∈ op.symbol.toList, c.isQuote ch = false := fun ch hch =>
    c.not_isQuote_of_isSyntax (op.isSyntax_symbol ch hch)
  have hsign : c.style.sign ∉ op.symbol.toList := by
    simpa [Scan.admitsOperator] using h
  have hplain : ∀ ch ∈ op.symbol.toList, c.isQuote ch = false ∧ ch ≠ c.style.sign := by
    intro ch hch
    exact ⟨hquote ch hch, fun heq => hsign (heq ▸ hch)⟩
  refine ⟨⟨rfl, .of_forall hplain⟩, fun _ => ?_⟩
  show ∃ ch, (c.bare op.symbol.toList).head? = some ch ∧ ch.isDigit = false
  rw [c.bare_eq_self hquote]
  exact op.head_symbol

end Token

namespace Tokens

variable {ts : Tokens}

theorem Tame.raw {text : String} (h : c.Silent text.toList) : Tame c d [.raw text] :=
  .one (.raw h)

theorem Tame.raw_cons {text : String} (h : c.Silent text.toList) (h' : Tame c d ts) :
    Tame c d (.raw text :: ts) :=
  .cons (.raw h) h'

/-- A word that is no keyword. -/
theorem Apart.raw {text : String} (hw : Text.isWord text = true) (h : Tame c d ts) :
    Apart c d (.raw text :: ts) :=
  .cons (.raw hw) h

/-- A function and its arguments between parentheses. -/
theorem Tame.invocation {name : String} (hn : c.admits name = true) (h : Tame c d ts) :
    Tame c d (Clause.invocation name ts) :=
  .cons (.functionName hn) (Apart.parens h).tame

/-- A function of the dialect's own. -/
theorem Tame.builtin {name : String} (hn : Text.isFixed name = true) (h : Tame c d ts) :
    Tame c d (Clause.invocation name ts) :=
  .invocation (c.admits_of_isFixed hn) h

theorem Apart.direction (order : Option SortOrder) : Apart c d (direction order) := by
  cases order with
  | none => exact .nil
  | some order => exact .space (Apart.word _ .nil).tame

theorem Apart.negation (negated : Bool) : Apart c d (Clause.negation negated) := by
  cases negated with
  | false => exact .nil
  | true => exact .head .NOT .nil

theorem Tame.negated (negated : Bool) (h : Tame c d ts) :
    Tame c d (Clause.negation negated ++ ts) := by
  cases negated with
  | false => exact h
  | true => exact (Apart.head _ h).tame

/-- A keyword between blanks. -/
theorem Apart.between (k : Keyword) : Apart c d (Tokens.spaced (.word k)) :=
  .space (Apart.word k (Apart.space .nil).tame).tame

end Tokens

namespace Clause

variable {left right term : Lowered} {items args : LoweredList}

/-! ## Terms -/

theorem value_tame {t : Token} (v : Value) (ht : t.value? ≠ none) :
    Yields (Tame c d) (value v t) := by
  unfold value
  split
  · split
    · exact .ok (.value ht)
    · exact .error _
  · exact .ok (.value ht)

theorem array_tame {word : Option String} (isEmpty : Bool)
    (hw : ∀ w ∈ word, Text.isWord w = true) (h : Yields (AllTame c d) items) :
    Yields (Tame c d) (array word isEmpty items) := by
  have hbrackets : ∀ l, AllTame c d l →
      Tame c d (.mark .openBracket :: listed l ++ [.mark .closeBracket]) := fun l hl =>
    (Apart.mark _ ((Tame.listed hl).append (.mark _ .nil))).tame
  cases word with
  | none => exact h.bind fun l hl => .pure (hbrackets l hl)
  | some w =>
    cases isEmpty with
    | true =>
      -- The empty array is a string literal.
      have hinner : '\'' ∉ ['\x7b', '\x7d'] := by decide
      have hchars : "'\x7b\x7d'".toList = '\'' :: ['\x7b', '\x7d'] ++ ['\''] := by decide
      exact .ok (.raw (hchars ▸ Scan.Silent.single hinner))
    | false => exact h.bind fun l hl => .pure (Apart.raw (hw w rfl) (hbrackets l hl)).tame

theorem arithmetic_tame (op : ArithmeticOp) (leftOp rightOp : Option ArithmeticOp)
    (hl : Yields (Tame c d) left) (hr : Yields (Tame c d) right) :
    Yields (Tame c d) (arithmetic op leftOp rightOp left right) :=
  hl.bind fun _ hl => hr.bind fun _ hr =>
    .pure ((hl.parensIf _).append (.mark _ (hr.parensIf _)))

theorem negative_tame (isOperation : Bool) (h : Yields (Tame c d) term) :
    Yields (Tame c d) (negative isOperation term) :=
  h.bind fun _ h => .pure (Apart.mark _ (h.parensIf _)).tame

/-- A part that may be missing: what it is dressed in sets it apart. -/
theorem optional_apart {dress : Tokens → Tokens} {part : Option Lowered}
    (h : ∀ x ∈ part, Yields (Tame c d) x) (hd : ∀ ts, Tame c d ts → Apart c d (dress ts)) :
    Yields (Apart c d) (optional dress part) := by
  cases part with
  | none => exact .ok .nil
  | some x => exact (h x rfl).map hd

theorem choice_tame {branches : LoweredList} {otherwise : Option Lowered}
    (hb : Yields (∀ ts ∈ ·, Apart c d ts) branches) (ho : ∀ x ∈ otherwise, Yields (Tame c d) x) :
    Yields (Tame c d) (choice branches otherwise) := by
  have helse : Yields (Apart c d) (optional (spaced (.word .ELSE) ++ ·) otherwise) :=
    optional_apart ho fun _ h => .keyword _ h
  refine hb.bind fun l hl => helse.bind fun rest hrest => .pure ?_
  have hbody : Apart c d (.word .CASE :: l.flatten) := .word _ (Apart.flatten hl).tame
  have hend : Apart c d [.space, .word .END] := .space (Apart.word _ .nil).tame
  exact ((hbody.append hrest).append hend).tame

theorem branch_apart {condition result : Lowered} (hc : Yields (Tame c d) condition)
    (hr : Yields (Tame c d) result) : Yields (Apart c d) (branch condition result) := by
  refine hc.bind fun t ht => hr.bind fun r hr => .pure ?_
  have hwhen : Apart c d (.space :: .word .WHEN :: .space :: t) := .space (Apart.head _ ht).tame
  rw [List.append_assoc]
  exact hwhen.append (.keyword _ hr)

theorem firstArgument_tame (name : String) (h : Yields (AllTame c d) args) :
    Yields (Tame c d) (firstArgument name args) := by
  refine h.bind fun l hl => ?_
  cases l with
  | nil => exact .error _
  | cons arg rest => exact .ok (hl arg List.mem_cons_self)

theorem invoked_tame {name : String} {form : CallForm} (distinct ignoreNulls : Bool)
    (hn : c.admits name = true) (hf : c.admitsForm form = true) (h : Yields (AllTame c d) args) :
    Yields (Tame c d) (invoked name form distinct ignoreNulls args) := by
  cases form with
  | bare => exact .ok (.one (.functionName hn))
  | plain =>
    refine h.bind fun l hl => .pure (.invocation hn ?_)
    have hnulls : Apart c d
        (if ignoreNulls then [.space, .word .IGNORE, .space, .raw "NULLS"] else []) :=
      .choose (.space (Apart.head _ (Apart.raw (by decide) .nil).tame).tame) .nil
    have hrest := (Tame.listed hl).append hnulls
    rw [List.append_assoc]
    cases distinct with
    | false => exact hrest
    | true => exact (Apart.head _ hrest).tame
  | cast type =>
    refine (firstArgument_tame name h).bind fun arg harg => .pure (.invocation hn ?_)
    rw [List.append_assoc]
    exact harg.append (.keyword _ (.raw (.fixed type.isFixed_standardName)))
  | convert charset =>
    refine (firstArgument_tame name h).bind fun arg harg => .pure (.invocation hn ?_)
    rw [List.append_assoc]
    exact harg.append (.keyword _ (.raw (.admitted hf)))
  | extract part =>
    refine (firstArgument_tame name h).bind fun arg harg => .pure (.invocation hn ?_)
    exact Tame.raw_cons (.fixed part.isFixed_name) (Apart.keyword _ harg).tame

theorem call_tame {head : Lowered} {filter window : Option Lowered}
    (hh : Yields (Tame c d) head) (hf : ∀ x ∈ filter, Yields (Tame c d) x)
    (hw : ∀ x ∈ window, Yields (Tame c d) x) : Yields (Tame c d) (call head filter window) := by
  have hfilter : ∀ ts, Tame c d ts → Apart c d
      (.space :: .word .FILTER :: parens (.word .WHERE :: .space :: ts)) := fun ts hts =>
    .space (Apart.word _ (Apart.parens (Apart.head _ hts).tame).tame).tame
  exact hh.bind fun h hh => (optional_apart hf hfilter).bind fun f hf =>
    (optional_apart hw fun _ h => .space h).bind fun w hw => .pure ((hh.append hf).append hw)

theorem frameBound_tame (b : FrameBound) : Tame c d (frameBound b) := by
  have hword : ∀ k : Keyword, Tame c d [.space, .word k] := fun k =>
    (Apart.space (Apart.word k .nil).tame).tame
  cases b with
  | unboundedPreceding => exact (Apart.word _ (hword _)).tame
  | preceding n => exact .cons (.count _) (hword _)
  | currentRow => exact (Apart.word _ .nil).tame
  | following n => exact .cons (.count _) (hword _)
  | unboundedFollowing => exact (Apart.word _ (hword _)).tame

theorem frame_tame (f : Frame) : Tame c d (frame f) := by
  obtain ⟨unit, start, stop⟩ := f
  have hrange : ∀ stop : FrameBound, Apart c d (.word .BETWEEN :: .space :: frameBound start
      ++ spaced (.word .AND) ++ frameBound stop) := by
    intro stop
    rw [List.append_assoc]
    exact (Apart.head _ (frameBound_tame start)).append (.keyword _ (frameBound_tame stop))
  cases stop with
  | none => cases unit <;> exact (Apart.head _ (frameBound_tame start)).tame
  | some stop => cases unit <;> exact (Apart.head _ (hrange stop).tame).tame

theorem items_tame {k : Keyword} {l : List Tokens} (hl : AllTame c d l) :
    AllTame c d (Clause.items [.word k] l) := by
  intro ts hts
  cases l with
  | nil => cases hts
  | cons t l =>
    cases List.mem_singleton.mp hts
    exact (Apart.head _ (Tame.listed hl)).tame

theorem window_tame {partitionBy orderBy : LoweredList} (frame? : Option Frame)
    (hpart : Yields (AllTame c d) partitionBy) (hord : Yields (AllTame c d) orderBy) :
    Yields (Tame c d) (window partitionBy orderBy frame?) := by
  refine hpart.bind fun l hl => hord.bind fun m hm =>
    .pure (Apart.word _ (Apart.parens (Tame.spacedOut ?_)).tame).tame
  intro ts hts
  rcases List.mem_append.mp hts with hts | hts
  · rcases List.mem_append.mp hts with hts | hts
    · exact items_tame hl ts hts
    · exact items_tame hm ts hts
  · cases frame? with
    | none => cases hts
    | some f =>
      rw [List.mem_singleton.mp hts]
      exact frame_tame f

/-! ## Conditions -/

theorem comparison_tame (op : Comparison) (withNull : Bool) (hl : Yields (Tame c d) left)
    (hr : Yields (Tame c d) right) : Yields (Tame c d) (comparison op withNull left right) := by
  cases withNull with
  | true => exact .error _
  | false => exact hl.bind fun l hl => hr.bind fun r hr => .pure (hl.append (.mark _ hr))

theorem infixed_tame {l r : Tokens} {op : Token} (negated : Bool) (hl : Tame c d l)
    (hr : Apart c d (op :: .space :: r)) : Tame c d (infixed l negated op r) :=
  (hl.append (.space (Apart.negation negated).tame)).append hr

theorem regex_tame (e : Dialect) {t r : Tokens} (negated : Bool) (ht : Tame c d t)
    (hr : Tame c d r) : Yields (Tame c d) (regex e negated t r) := by
  have hword := e.isWord_regex
  unfold regex
  split
  · next isMatch isNoMatch hregex =>
    rw [hregex] at hword
    obtain ⟨hmatch, hno⟩ := Bool.and_eq_true_iff.mp hword
    have hsymbol : Text.isWord (if negated then isNoMatch else isMatch) = true := by
      cases negated with
      | false => exact hmatch
      | true => exact hno
    rw [List.append_assoc]
    exact .ok (ht.append (.spaced (Token.Separates.operator hsymbol).mute hr))
  · next name hregex =>
    rw [hregex] at hword
    have hname : Text.isFixed name = true := (Bool.and_eq_true_iff.mp hword).1
    have hlisted : Tame c d (listed [t, r]) := .listed (.pair ht hr)
    exact .ok (.negated negated (.builtin hname hlisted))
  · exact .error _

/-- Functions by which case is set aside. -/
theorem caseless_tame (e : Dialect) {t r : Tokens} (negated : Bool) (ht : Tame c d t)
    (hr : Tame c d r) : Tame c d (caseless e negated t r) := by
  have hupper : Text.isFixed "UPPER" = true := by decide
  have hcast : Text.isFixed "CAST" = true := by decide
  have htype : Tame c d (t ++ spaced (.word .AS) ++ [.raw e.profile.textType]) := by
    rw [List.append_assoc]
    exact ht.append (.keyword _ (.raw (.fixed e.isFixed_textType)))
  exact infixed_tame negated (.builtin hupper (.builtin hcast htype))
    (.head _ (.builtin hupper hr))

theorem matching_tame (e : Dialect) (op : MatchOp) (negated : Bool) (escape : Option Char)
    (ht : Yields (Tame c d) term) (hr : Yields (Tame c d) right) :
    Yields (Tame c d) (matching e op negated term right escape) := by
  -- Without an escape character nothing is added, but something is appended all the same.
  have hend : ∀ {body : Lowered}, Yields (Tame c d) body →
      Yields (Tame c d) (body.bind fun b => .ok (b ++ [])) :=
    fun h => h.bind fun b hb => .ok (hb.append .nil)
  have hplain : Yields (Tame c d) (matching e op negated term right none) := by
    refine ht.bind fun t ht => hr.bind fun r hr => ?_
    have hoperator : ∀ {symbol}, Text.isWord symbol = true →
        Yields (Tame c d) (.ok (infixed t negated (.operator symbol) r)) := fun h =>
      .ok (infixed_tame negated ht (.cons (.operator h) (Apart.space hr).tame))
    cases op with
    | like => exact hend (.ok (infixed_tame negated ht (.head _ hr)))
    | ilike =>
      refine iteInduction (fun _ => ?_) fun _ => hend (.ok (caseless_tame e negated ht hr))
      exact hend (hoperator (by decide))
    | regexp => exact hend (regex_tame e negated ht hr)
    | glob =>
      refine iteInduction (fun _ => ?_) fun _ => hend (.error _)
      exact hend (hoperator (by decide))
  cases escape with
  | none => exact hplain
  | some ch =>
    rw [matching_some]
    exact hplain.map fun _ h => h.append (.keyword _ (.raw (e.silent_stringLiteral _)))

theorem json_tame (e : Dialect) {op : JsonOp} (h : c.admitsOperator op = true)
    (hl : Yields (Tame c d) left) (hr : Yields (Tame c d) right) :
    Yields (Tame c d) (json e op left right) := by
  refine iteInduction (fun _ => ?_) fun _ => .error _
  exact hl.bind fun l hl => hr.bind fun r hr => .pure (hl.append (.cons (.json h) hr))

theorem search_tame (e : Dialect) (op : Search) (ht : Yields (Tame c d) term)
    (hv : Yields (Tame c d) right) : Yields (Tame c d) (search e op term right) := by
  unfold search
  split
  · exact .error _
  · next style hstyle =>
    have hword := e.isWord_search op style hstyle
    refine ht.bind fun t ht => hv.bind fun v hv => ?_
    cases style with
    | operator symbol => exact .ok (ht.append (.cons (.operator hword) hv))
    | function name valueFirst =>
      have hname : Text.isFixed name = true := (Bool.and_eq_true_iff.mp hword).1
      refine .ok (.builtin hname (.listed ?_))
      cases valueFirst with
      | true => exact .pair hv ht
      | false => exact .pair ht hv
    | matchAgainst =>
      have hmatch : Text.isFixed "MATCH" = true := by decide
      refine .ok ((Tame.builtin hmatch ht).append (.space ?_))
      exact (Apart.raw (by decide) (Apart.space (Apart.parens hv).tame).tame).tame
    | textVectors =>
      have hvector : Text.isFixed "TO_TSVECTOR" = true := by decide
      have hquery : Text.isFixed "PLAINTO_TSQUERY" = true := by decide
      have hmatch : (Token.operator "@@").Separates c d := .operator (by decide)
      refine .ok ?_
      rw [List.append_assoc]
      exact (Tame.builtin hvector ht).append (.spaced hmatch.mute (.builtin hquery hv))
    | regex => exact regex_tame e false ht hv

theorem isNull_tame (negated : Bool) (h : Yields (Tame c d) term) :
    Yields (Tame c d) (isNull negated term) :=
  h.bind fun _ h => .pure (((h.append (.between _)).append (.negation negated)).append
    (.word _ .nil))

/-- Nothing is a member of an empty list: that is written with two numbers, but nothing stands right
before them. -/
theorem isIn_tame (negated isEmpty : Bool) (ht : Yields (Tame c d) term)
    (hi : Yields (AllTame c d) items) : Yields (Tame c d) (isIn negated isEmpty term items) := by
  cases isEmpty with
  | true => cases negated <;> exact .ok (.raw (.fixed (by decide)))
  | false =>
    exact ht.bind fun t ht => hi.bind fun l hl => .pure (infixed_tame negated ht
      (.head _ (Apart.parens (Tame.listed hl)).tame))

theorem isInRows_tame (negated : Bool) (ht : Yields (Tame c d) term)
    (hr : Yields (Tame c d) right) : Yields (Tame c d) (isInRows negated term right) :=
  ht.bind fun _ ht => hr.bind fun _ hr => .pure (infixed_tame negated ht (.head _ hr))

theorem between_tame (negated : Bool) {low high : Lowered} (ht : Yields (Tame c d) term)
    (hl : Yields (Tame c d) low) (hh : Yields (Tame c d) high) :
    Yields (Tame c d) (between negated term low high) := by
  refine ht.bind fun t ht => hl.bind fun l hl => hh.bind fun h hh => .pure ?_
  have hrange : Tame c d (l ++ spaced (.word .AND) ++ h) := by
    rw [List.append_assoc]
    exact hl.append (.keyword _ hh)
  exact infixed_tame negated ht (.head _ hrange)

theorem hasRows_tame (negated : Bool) (h : Yields (Tame c d) right) :
    Yields (Tame c d) (hasRows negated right) :=
  h.bind fun _ h => .pure (.negated negated (Apart.head _ h).tame)

theorem combined_tame (op : Connective) (leftOp rightOp : Option Connective)
    (hl : Yields (Tame c d) left) (hr : Yields (Tame c d) right) :
    Yields (Tame c d) (combined op leftOp rightOp left right) := by
  refine hl.bind fun l hl => hr.bind fun r hr => .pure ?_
  rw [List.append_assoc]
  exact (hl.parensIf _).append (.keyword _ (hr.parensIf _))

theorem negated_tame (isCombined : Bool) (h : Yields (Tame c d) term) :
    Yields (Tame c d) (negated isCombined term) :=
  h.bind fun _ h => .pure (Apart.head _ (h.parensIf _)).tame

end Clause

end SqlScribe
