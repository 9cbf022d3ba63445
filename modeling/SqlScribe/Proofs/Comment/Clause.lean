import SqlScribe.Proofs.Comment.Token
import SqlScribe.Proofs.Nesting.Clause
/-! # Clauses without comments

Clauses whose parts are calm are calm, and begin as their first part does. Only an arithmetic
operator asks for more: that it admits what its right operand begins with.

* One law for each clause of terms and conditions, in the order of the definitions. -/

namespace SqlScribe

open Tokens

variable {p : Spelling} {l : Lead}

/-- All tokens of a list are calm. -/
abbrev Tokens.AllCalm (p : Spelling) (l : List Tokens) : Prop := ∀ ts ∈ l, IsCalm p ts

/-- The tokens are clean and begin as is said, unless there are none: then a character follows
before which no comment can begin. -/
abbrev Tokens.Continued (p : Spelling) (l : Lead) : Tokens → Prop := Clean p (l.or .other)

theorem Tokens.Clean.continued {ts us : Tokens} (h : Clean p l ts) (h' : Clean p .other us) :
    Continued p l (ts ++ us) :=
  h.append h'

theorem Tokens.Clean.continued_append {ts us : Tokens} (h : Continued p l ts)
    (h' : IsCalm p us) : Continued p l (ts ++ us) :=
  h.append_of_ne (by cases l <;> nofun) h'

theorem Tokens.AllCalm.pair {ts us : Tokens} (hts : IsCalm p ts) (hus : IsCalm p us) :
    AllCalm p [ts, us] := by
  intro vs hvs
  rcases List.mem_cons.mp hvs with rfl | hvs
  · exact hts
  · cases List.mem_singleton.mp hvs
    exact hus

theorem Tokens.IsCalm.parensIf {wrap : Bool} {ts : Tokens} (h : IsCalm p ts) :
    IsCalm p (parensIf wrap ts) := by
  cases wrap with
  | false => exact h
  | true => exact (Clean.parens h).calm

theorem Tokens.invocation_clean {name : String} {inner : Tokens} (hn : Text.isPlain name = true)
    (h : IsCalm p inner) : Clean p .other (Clause.invocation name inner) :=
  (Clean.functionName hn).cons_calm (Clean.parens h).calm

theorem Tokens.direction_calm (order : Option SortOrder) : IsCalm p (direction order) := by
  cases order with
  | none => exact .nil
  | some order => exact (Clean.space_cons (Clean.word order.keyword).calm).calm

theorem Tokens.spaced_append {k : Keyword} {ts : Tokens} (h : IsCalm p ts) :
    Clean p .other (spaced (.word k) ++ ts) :=
  (Clean.spaced (Clean.word k).calm).append_calm h

/-! ## Texts of types and parts -/

theorem Text.calm_nat (n : Nat) : Text.Calm (toString n).toList := by
  show Text.Calm n.repr.toList
  rw [Nat.toList_repr]
  exact Text.calm_toDigits n

theorem DatePart.calm_name (part : DatePart) : Text.Calm part.name.toList := by
  cases part <;> decide

namespace DataType

theorem calm_sized {name : String} (h : Text.Calm name.toList) (length : Option UInt16) :
    Text.Calm (sized name length).toList := by
  cases length with
  | none => exact h
  | some n =>
    simp only [sized, String.toList_append]
    exact ((h.append (by decide)).append (Text.calm_nat _)).append (by decide)

theorem calm_scaled {name : String} (h : Text.Calm name.toList) (precision scale : UInt8) :
    Text.Calm (scaled name precision scale).toList := by
  simp only [scaled, String.toList_append]
  exact ((((h.append (by decide)).append (Text.calm_nat _)).append (by decide)).append
    (Text.calm_nat _)).append (by decide)

theorem calm_standardName (type : DataType) : Text.Calm type.standardName.toList := by
  have hdecimal : Text.Calm "DECIMAL".toList := by decide
  have hchar : Text.Calm "CHAR".toList := by decide
  have hvarchar : Text.Calm "VARCHAR".toList := by decide
  cases type with
  | decimal precision scale => exact calm_scaled hdecimal precision scale
  | char length => exact calm_sized hchar length
  | varchar length => exact calm_sized hvarchar length
  | _ => decide

end DataType

/-- The text that a form of a call adds to its argument is calm. -/
def CallForm.isCalm : CallForm → Bool
  | .convert charset => decide (Text.Calm charset.toList)
  | _ => true

/-! ## What dialects write -/

/-- What a match of a regular expression is written with is plain. -/
def RegexStyle.isPlain : RegexStyle → Bool
  | .operator isMatch isNoMatch => Text.isPlain isMatch && Text.isPlain isNoMatch
  | .function name => Text.isPlain name
  | .unsupported => true

/-- What a search is written with is plain. -/
def SearchStyle.isPlain : SearchStyle → Bool
  | .operator symbol => Text.isPlain symbol
  | .function name _ => Text.isPlain name
  | .matchAgainst => true
  | .textVectors => true
  | .regex => true

namespace Dialect

theorem isPlain_regex (d : Dialect) : d.profile.regex.isPlain = true := by cases d <;> decide

theorem isPlain_search (d : Dialect) (op : Search) :
    ∀ style ∈ d.profile.search op, style.isPlain = true := by
  cases d <;> cases op <;> decide

theorem isPlain_textType (d : Dialect) : Text.isPlain d.profile.textType = true := by
  cases d <;> decide

theorem isPlain_arrayWord (d : Dialect) : ∀ w ∈ d.profile.arrayWord, Text.isPlain w = true := by
  cases d <;> decide

/-- The literal of a single character is calm. -/
theorem calm_charLiteral (d : Dialect) (c : Char) :
    Text.Calm (d.stringLiteral (String.singleton c)).toList := by
  have hquoted : ∀ twice : Char → Bool, twice '-' = false → twice '/' = false →
      Text.Calm ('\'' :: Text.doubled twice [c] ++ ['\'']) := by
    intro twice hminus hslash
    by_cases hm : c = '-'
    · rw [hm, Text.doubled_cons, hminus]
      exact (by decide : Text.Calm ['\'', '-', '\''])
    · by_cases hs : c = '/'
      · rw [hs, Text.doubled_cons, hslash]
        exact (by decide : Text.Calm ['\'', '/', '\''])
      · refine .of_forall fun b hb => ?_
        have hmem : b = '\'' ∨ b = c := by
          rw [Text.doubled_cons] at hb
          split at hb <;> grind [Text.doubled_nil]
        rcases hmem with rfl | rfl
        · decide
        · exact ⟨hm, hs⟩
  have hplain : Text.Calm (Text.quoted '\'' (String.singleton c)).toList := by
    rw [Text.quoted, String.toList_ofList, String.toList_singleton]
    exact hquoted _ (by decide) (by decide)
  rw [stringLiteral]
  cases d.profile.strings with
  | plain => exact hplain
  | backslashes =>
    rw [StringStyle.literal, Text.quotedWithBackslashes, String.toList_ofList,
      String.toList_singleton]
    exact hquoted _ (by decide) (by decide)
  | national =>
    rw [StringStyle.literal]
    split
    · exact hplain
    · rw [String.toList_append]
      exact Text.Calm.append (by decide) hplain

end Dialect

namespace Clause

variable {left right term : Lowered} {items args : LoweredList}

/-! ## Terms -/

theorem value_clean {v : Value} {t : Token} (h : Clean p l [t]) :
    Yields (Clean p l) (value v t) := by
  unfold value
  split
  · split
    · exact .ok h
    · exact .error _
  · exact .ok h

theorem array_clean {word : Option String} {isEmpty : Bool}
    (hw : ∀ w ∈ word, Text.isPlain w = true) (h : Yields (AllCalm p) items) :
    Yields (Clean p .other) (array word isEmpty items) := by
  have hbrackets : ∀ l, AllCalm p l →
      Clean p .other (.mark .openBracket :: listed l ++ [.mark .closeBracket]) := fun l hl =>
    (Clean.mark (by decide)).cons_calm ((IsCalm.listed hl).append (Clean.mark (by decide)).calm)
  cases word with
  | none => exact h.bind fun l hl => .pure (hbrackets l hl)
  | some w =>
    cases isEmpty with
    | true => exact .ok (.raw (by decide))
    | false =>
      have hword : Clean p .other [.raw w] := .plain rfl (hw w rfl)
      exact h.bind fun l hl => .pure (hword.append_calm (hbrackets l hl).calm)

/-- What an operation begins with: with its left operand, if that has tokens and stands there
without parentheses. -/
theorem arithmetic_clean {l' : Lead} {op : ArithmeticOp} {leftOp rightOp : Option ArithmeticOp}
    (ha : op.admits (if rightOp.any op.parenthesizesRight then .other else l') = true)
    (hl : Yields (Clean p l) left) (hr : Yields (Clean p l') right) :
    Yields (Clean p ((if leftOp.any op.parenthesizesLeft then .other else l).or op.lead))
      (arithmetic op leftOp rightOp left right) :=
  hl.bind fun _ hl => hr.bind fun _ hr => .pure (hl.parensIf.append (.operation op hr.parensIf ha))

theorem negative_clean {isOperation : Bool}
    (ha : ArithmeticOp.sub.admits (if isOperation then .other else l) = true)
    (h : Yields (Clean p l) term) : Yields (Clean p .minus) (negative isOperation term) :=
  h.bind fun _ h => .pure (.operation .sub h.parensIf ha)

theorem optional_calm {dress : Tokens → Tokens} {part : Option Lowered}
    (h : ∀ x ∈ part, Yields (IsCalm p) x) (hd : ∀ ts, IsCalm p ts → IsCalm p (dress ts)) :
    Yields (IsCalm p) (optional dress part) := by
  cases part with
  | none => exact .ok .nil
  | some x => exact (h x rfl).map hd

theorem choice_clean {branches : LoweredList} {otherwise : Option Lowered}
    (hb : Yields (AllCalm p) branches) (ho : ∀ x ∈ otherwise, Yields (IsCalm p) x) :
    Yields (Clean p .other) (choice branches otherwise) := by
  have helse : Yields (IsCalm p) (optional (spaced (.word .ELSE) ++ ·) otherwise) :=
    optional_calm ho fun _ h => (spaced_append h).calm
  refine hb.bind fun l hl => helse.bind fun rest hrest => .pure ?_
  have hcase : Clean p .other (.word .CASE :: l.flatten) := (Clean.word _).cons_calm (.flatten hl)
  exact (hcase.append_calm hrest).append_calm (Clean.space_cons (Clean.word _).calm).calm

theorem branch_calm {condition result : Lowered} (hc : Yields (IsCalm p) condition)
    (hr : Yields (IsCalm p) result) : Yields (IsCalm p) (branch condition result) := by
  refine hc.bind fun c hc => hr.bind fun r hr => .pure ?_
  have hwhen : IsCalm p (.space :: .word .WHEN :: .space :: c) :=
    (Clean.space_cons ((Clean.word _).calm.cons (Clean.space_cons hc).calm)).calm
  rw [List.append_assoc]
  exact hwhen.append (spaced_append hr).calm

theorem firstArgument_calm (name : String) (h : Yields (AllCalm p) args) :
    Yields (IsCalm p) (firstArgument name args) := by
  refine h.bind fun l hl => ?_
  cases l with
  | nil => exact .error _
  | cons arg rest => exact .ok (hl arg List.mem_cons_self)

theorem invoked_clean {name : String} {form : CallForm} (distinct ignoreNulls : Bool)
    (hn : Text.isPlain name = true) (hf : form.isCalm = true) (h : Yields (AllCalm p) args) :
    Yields (Clean p .other) (invoked name form distinct ignoreNulls args) := by
  have hword : ∀ k : Keyword, IsCalm p (spaced (.word k)) :=
    fun k => (Clean.spaced (Clean.word k).calm).calm
  cases form with
  | bare => exact .ok (.functionName hn)
  | plain =>
    refine h.bind fun l hl => .pure (invocation_clean hn ?_)
    refine .append (.append ?_ (.listed hl)) ?_
    · cases distinct with
      | false => exact .nil
      | true => exact (Clean.word _).calm.cons Clean.space.calm
    · cases ignoreNulls with
      | false => exact .nil
      | true =>
        have hnulls : IsCalm p [.raw "NULLS"] := .raw (by decide)
        exact (Clean.space_cons ((Clean.word _).calm.cons (Clean.space_cons hnulls).calm)).calm
  | cast type =>
    exact (firstArgument_calm name h).bind fun arg harg =>
      .pure (invocation_clean hn ((harg.append (hword .AS)).append (.raw type.calm_standardName)))
  | convert charset =>
    exact (firstArgument_calm name h).bind fun arg harg =>
      .pure (invocation_clean hn
        ((harg.append (hword .USING)).append (.raw (of_decide_eq_true hf))))
  | extract part =>
    exact (firstArgument_calm name h).bind fun arg harg =>
      .pure (invocation_clean hn (((IsCalm.raw part.calm_name).append (hword .FROM)).append harg))

theorem call_clean {head : Lowered} {filter window : Option Lowered}
    (hh : Yields (Clean p .other) head) (hf : ∀ x ∈ filter, Yields (IsCalm p) x)
    (hw : ∀ x ∈ window, Yields (IsCalm p) x) :
    Yields (Clean p .other) (call head filter window) := by
  have hfilter : ∀ c, IsCalm p c →
      IsCalm p (.space :: .word .FILTER :: parens (.word .WHERE :: .space :: c)) := by
    intro c hc
    have hwhere : IsCalm p (.word .WHERE :: .space :: c) :=
      (Clean.word _).calm.cons (Clean.space_cons hc).calm
    exact (Clean.space_cons ((Clean.word _).calm.cons (Clean.parens hwhere).calm)).calm
  have hwindow : ∀ w, IsCalm p w → IsCalm p (.space :: w) := fun _ h => (Clean.space_cons h).calm
  exact hh.bind fun h hh => (optional_calm hf hfilter).bind fun f hf =>
    (optional_calm hw hwindow).bind fun w hw => .pure ((hh.append_calm hf).append_calm hw)

theorem frameBound_calm (b : FrameBound) : IsCalm p (frameBound b) := by
  have hpair : ∀ {t : Token} (k : Keyword), IsCalm p [t] → IsCalm p [t, .space, .word k] :=
    fun k ht => ht.cons (Clean.space_cons (Clean.word k).calm).calm
  cases b with
  | unboundedPreceding => exact hpair _ (Clean.word _).calm
  | preceding n => exact hpair _ (.count _)
  | currentRow => exact (Clean.word _).calm
  | following n => exact hpair _ (.count _)
  | unboundedFollowing => exact hpair _ (Clean.word _).calm

theorem frame_calm (f : Frame) : IsCalm p (frame f) := by
  obtain ⟨unit, start, stop⟩ := f
  have hextent : ∀ k : Keyword, IsCalm p (.word k :: .space :: frameBound start) :=
    fun k => (Clean.word k).calm.cons (Clean.space_cons (frameBound_calm start)).calm
  have hrange : ∀ (k : Keyword) (stop : FrameBound), IsCalm p
      (.word k :: .space :: .word .BETWEEN :: .space :: frameBound start ++ spaced (.word .AND)
        ++ frameBound stop) := by
    intro k stop
    have hbetween : IsCalm p (.word .BETWEEN :: .space :: frameBound start) :=
      (Clean.word _).calm.cons (Clean.space_cons (frameBound_calm start)).calm
    have hstart : IsCalm p (.word k :: .space :: .word .BETWEEN :: .space :: frameBound start) :=
      (Clean.word k).calm.cons (Clean.space_cons hbetween).calm
    rw [List.append_assoc]
    exact hstart.append (spaced_append (frameBound_calm stop)).calm
  cases stop with
  | none => cases unit <;> exact hextent _
  | some stop => cases unit <;> exact hrange _ stop

theorem items_calm {k : Keyword} {l : List Tokens} (hl : AllCalm p l) :
    AllCalm p (Clause.items [.word k] l) := by
  intro ts hts
  cases l with
  | nil => cases hts
  | cons t l =>
    cases List.mem_singleton.mp hts
    exact (Clean.word k).calm.cons (Clean.space_cons (IsCalm.listed hl)).calm

theorem window_calm {partitionBy orderBy : LoweredList} (frame? : Option Frame)
    (hpart : Yields (AllCalm p) partitionBy) (hord : Yields (AllCalm p) orderBy) :
    Yields (IsCalm p) (window partitionBy orderBy frame?) := by
  refine hpart.bind fun l hl => hord.bind fun m hm =>
    .pure ((Clean.word _).calm.cons (Clean.parens (IsCalm.spacedOut ?_)).calm)
  intro ts hts
  rcases List.mem_append.mp hts with hts | hts
  · rcases List.mem_append.mp hts with hts | hts
    · exact items_calm hl ts hts
    · exact items_calm hm ts hts
  · cases frame? with
    | none => cases hts
    | some f =>
      rw [List.mem_singleton.mp hts]
      exact frame_calm f

/-! ## Conditions -/

theorem comparison_clean (op : Comparison) (withNull : Bool) (hl : Yields (Clean p l) left)
    (hr : Yields (IsCalm p) right) :
    Yields (Continued p l) (comparison op withNull left right) := by
  have hop : Clean p .other [.mark op.mark] := .mark (by cases op <;> decide)
  cases withNull with
  | true => exact .error _
  | false =>
    exact hl.bind fun l hl => hr.bind fun r hr => .pure (hl.continued (hop.cons_calm hr))

theorem negation_calm (negated : Bool) : IsCalm p (negation negated) := by
  cases negated with
  | false => exact .nil
  | true => exact (Clean.word _).calm.cons Clean.space.calm

theorem infixed_clean {t r : Tokens} {op : Token} (negated : Bool) (ho : IsCalm p [op])
    (ht : Clean p l t) (hr : IsCalm p r) : Continued p l (infixed t negated op r) := by
  have hop : IsCalm p (op :: .space :: r) := ho.cons (Clean.space_cons hr).calm
  simpa only [infixed, List.append_assoc, List.cons_append] using
    ht.continued (Clean.space_cons ((negation_calm negated).append hop))

theorem regex_clean {t r : Tokens} (d : Dialect) (negated : Bool) (ht : Clean p l t)
    (hr : IsCalm p r) : Yields (Continued p l) (regex d negated t r) := by
  have hstyle := d.isPlain_regex
  unfold regex
  cases hregex : d.profile.regex with
  | operator isMatch isNoMatch =>
    rw [hregex] at hstyle
    obtain ⟨hmatch, hnoMatch⟩ := Bool.and_eq_true_iff.mp hstyle
    have hop : IsCalm p [.operator (if negated then isNoMatch else isMatch)] := by
      cases negated with
      | false => exact (Clean.operator hmatch).calm
      | true => exact (Clean.operator hnoMatch).calm
    refine .ok ?_
    rw [List.append_assoc]
    exact ht.continued ((Clean.spaced hop).append_calm hr)
  | function name =>
    rw [hregex] at hstyle
    have hcall : Clean p .other (invocation name (listed [t, r])) :=
      invocation_clean hstyle (.listed (AllCalm.pair ht.calm hr))
    refine .ok (.of_other ?_)
    cases negated with
    | false => exact hcall
    | true => exact (Clean.word .NOT).cons_calm (Clean.space_cons hcall.calm).calm
  | unsupported => exact .error _

theorem caseless_clean {t r : Tokens} (d : Dialect) (negated : Bool) (ht : IsCalm p t)
    (hr : IsCalm p r) : Clean p .other (caseless d negated t r) := by
  have htype : IsCalm p [.raw d.profile.textType] := (Clean.raw d.isPlain_textType).calm
  have hcast : IsCalm p (t ++ spaced (.word .AS) ++ [.raw d.profile.textType]) :=
    (ht.append (Clean.spaced (Clean.word _).calm).calm).append htype
  have hupper : ∀ {inner : Tokens}, IsCalm p inner → Clean p .other (invocation "UPPER" inner) :=
    fun h => invocation_clean (by decide) h
  exact infixed_clean negated (Clean.word _).calm
    (hupper (invocation_clean (by decide) hcast).calm) (hupper hr).calm

theorem matching_clean (d : Dialect) (op : MatchOp) (negated : Bool) (escape : Option Char)
    (ht : Yields (Clean p l) term) (hr : Yields (IsCalm p) right) :
    Yields (Continued p l) (matching d op negated term right escape) := by
  have hend : ∀ {body : Lowered}, Yields (Continued p l) body →
      Yields (Continued p l) (body.bind fun b => .ok (b ++ [])) := by
    intro body h
    refine h.bind fun b hb => .ok ?_
    rwa [List.append_nil]
  have hword : ∀ {symbol : String}, Text.isPlain symbol = true → IsCalm p [.operator symbol] :=
    fun h => (Clean.operator h).calm
  have hplain : Yields (Continued p l) (matching d op negated term right none) := by
    refine ht.bind fun t ht => hr.bind fun r hr => ?_
    cases op with
    | like => exact hend (.ok (infixed_clean negated (Clean.word _).calm ht hr))
    | ilike =>
      refine iteInduction (fun _ => ?_) fun _ => ?_
      · exact hend (.ok (infixed_clean negated (hword (by decide)) ht hr))
      · exact hend (.ok (caseless_clean d negated ht.calm hr).of_other)
    | regexp => exact hend (regex_clean d negated ht hr)
    | glob =>
      refine iteInduction (fun _ => ?_) fun _ => hend (.error _)
      exact hend (.ok (infixed_clean negated (hword (by decide)) ht hr))
  cases escape with
  | none => exact hplain
  | some c =>
    rw [matching_some]
    have hescape : IsCalm p (spaced (.word .ESCAPE)
        ++ [.raw (d.stringLiteral (String.singleton c))]) :=
      (spaced_append (.raw (d.calm_charLiteral c))).calm
    exact hplain.map fun _ h => h.continued_append hescape

theorem json_clean (d : Dialect) (op : JsonOp) (hl : Yields (Clean p l) left)
    (hr : Yields (IsCalm p) right) :
    Yields (Clean p (l.or (Lead.of op.symbol.toList))) (json d op left right) := by
  have hsymbol : Text.Calm op.symbol.toList := by cases op <;> decide
  have hop : Clean p (Lead.of op.symbol.toList) [.operator op.symbol] :=
    .written (t := .operator op.symbol) rfl hsymbol
  have hlead : Lead.of op.symbol.toList ≠ .nothing := by cases op <;> decide
  unfold json
  split
  · exact hl.bind fun l hl => hr.bind fun r hr => .pure (hl.append (hop.append_of_ne hlead hr))
  · exact .error _

theorem search_clean (d : Dialect) (op : Search) (ht : Yields (Clean p l) term)
    (hv : Yields (IsCalm p) right) : Yields (Continued p l) (search d op term right) := by
  have hstyle := d.isPlain_search op
  unfold search
  cases hsearch : d.profile.search op with
  | none => exact .error _
  | some style =>
    have hplain : style.isPlain = true := hstyle style hsearch
    refine ht.bind fun t ht => hv.bind fun v hv => ?_
    cases style with
    | operator symbol => exact .ok (ht.continued ((Clean.operator hplain).cons_calm hv))
    | function name valueFirst =>
      refine .ok (Clean.of_other (invocation_clean hplain (.listed ?_)))
      split
      · exact AllCalm.pair hv ht.calm
      · exact AllCalm.pair ht.calm hv
    | matchAgainst =>
      have hmatch : Clean p .other (invocation "MATCH" t) := invocation_clean (by decide) ht.calm
      have hagainst : Clean p .other [.raw "AGAINST"] :=
        .raw (by decide)
      exact .ok (hmatch.append_calm (Clean.space_cons (hagainst.calm.cons
        (Clean.space_cons (Clean.parens hv).calm).calm)).calm).of_other
    | textVectors =>
      have hvector : Clean p .other (invocation "TO_TSVECTOR" t) :=
        invocation_clean (by decide) ht.calm
      have hquery : Clean p .other (invocation "PLAINTO_TSQUERY" v) :=
        invocation_clean (by decide) hv
      have hop : IsCalm p [.operator "@@"] :=
        (Clean.operator (by decide)).calm
      exact .ok ((hvector.append_calm (Clean.spaced hop).calm).append_calm hquery.calm).of_other
    | regex => exact regex_clean d false ht hv

theorem isNull_clean (negated : Bool) (h : Yields (Clean p l) term) :
    Yields (Continued p l) (isNull negated term) := by
  refine h.bind fun t ht => .pure ?_
  rw [List.append_assoc, List.append_assoc]
  have hnull : IsCalm p (negation negated ++ [.word .NULL]) :=
    (negation_calm negated).append (Clean.word _).calm
  exact ht.continued (spaced_append hnull)

theorem isIn_clean (negated isEmpty : Bool) (ht : Yields (Clean p l) term)
    (hi : Yields (AllCalm p) items) : Yields (Continued p l) (isIn negated isEmpty term items) := by
  cases isEmpty with
  | true =>
    have htruth : Text.isPlain (if negated then "1=1" else "1=0") = true := by
      cases negated <;> decide
    exact .ok (Clean.of_other (.raw htruth))
  | false =>
    exact ht.bind fun t ht => hi.bind fun l hl => .pure
      (infixed_clean negated (Clean.word _).calm ht (Clean.parens (IsCalm.listed hl)).calm)

theorem between_clean (negated : Bool) {low high : Lowered} (ht : Yields (Clean p l) term)
    (hl : Yields (IsCalm p) low) (hh : Yields (IsCalm p) high) :
    Yields (Continued p l) (between negated term low high) := by
  refine ht.bind fun t ht => hl.bind fun low hl => hh.bind fun high hh => .pure ?_
  refine infixed_clean negated (Clean.word _).calm ht ?_
  rw [List.append_assoc]
  exact hl.append (spaced_append hh).calm

theorem combined_clean {op : Connective} {leftOp rightOp : Option Connective}
    (hl : Yields (Clean p l) left) (hr : Yields (IsCalm p) right) :
    Yields (Continued p (if leftOp.any (· != op) then .other else l))
      (combined op leftOp rightOp left right) := by
  refine hl.bind fun _ hl => hr.bind fun _ hr => .pure ?_
  rw [List.append_assoc]
  exact hl.parensIf.continued (spaced_append (IsCalm.parensIf hr))

theorem negated_clean (isCombined : Bool) (h : Yields (IsCalm p) term) :
    Yields (Clean p .other) (negated isCombined term) :=
  h.bind fun _ h => .pure ((Clean.word _).cons_calm (Clean.space_cons (IsCalm.parensIf h)).calm)

end Clause

end SqlScribe
