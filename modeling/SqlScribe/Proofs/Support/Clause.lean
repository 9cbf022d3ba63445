import SqlScribe.Proofs.Nesting.Clause
import SqlScribe.Proofs.Support.Token
/-! # Constructs in clauses

Clauses whose parts show only what the dialect has do so too, and they may stand behind other
tokens if their parts may. An operator that only some dialects have is looked up in the profile
before it is written.

* `Construct.spelling_eq_operator`: the constructs that are told by an operator.
* `Token.fits_regex`, `Token.fits_search`: what a profile writes matches and searches with is there.
* One law for each clause of terms and conditions, in the order of the definitions. -/

namespace SqlScribe

open Tokens

variable {d : Dialect} {symbol : String} {after : Tokens}

/-! ## Operators -/

theorem Construct.spelling_eq_operator {f : Construct} (h : f.spelling = [.operator symbol]) :
    f = .ilike ∧ symbol = "ILIKE" ∨ f = .glob ∧ symbol = "GLOB" ∨
      ∃ op : JsonOp, f = .json op ∧ symbol = op.symbol := by
  cases f with
  | ilike =>
    cases h
    exact .inl ⟨rfl, rfl⟩
  | glob =>
    cases h
    exact .inr (.inl ⟨rfl, rfl⟩)
  | json op =>
    cases h
    exact .inr (.inr ⟨op, rfl, rfl⟩)
  | _ => cases h

namespace Token

theorem fits_ilike (h : d.profile.ilike = true) : (operator "ILIKE").Fits d after := by
  intro f hf
  rcases Construct.spelling_eq_operator hf with ⟨rfl, -⟩ | ⟨-, hsymbol⟩ | ⟨op, -, hsymbol⟩
  · exact h
  · exact absurd hsymbol (by decide)
  · cases op <;> exact absurd hsymbol (by decide)

theorem fits_glob (h : d.profile.glob = true) : (operator "GLOB").Fits d after := by
  intro f hf
  rcases Construct.spelling_eq_operator hf with ⟨-, hsymbol⟩ | ⟨rfl, -⟩ | ⟨op, -, hsymbol⟩
  · exact absurd hsymbol (by decide)
  · exact h
  · cases op <;> exact absurd hsymbol (by decide)

theorem fits_json (h : d.profile.jsonOperators = true) (op : JsonOp) :
    (operator op.symbol).Fits d after := by
  intro f hf
  rcases Construct.spelling_eq_operator hf with ⟨-, hsymbol⟩ | ⟨-, hsymbol⟩ | ⟨op', rfl, -⟩
  · cases op <;> exact absurd hsymbol (by decide)
  · cases op <;> exact absurd hsymbol (by decide)
  · exact h

/-- The operators of regular expressions and text search tell of nothing. -/
theorem fits_plain (h : symbol ∈ ["REGEXP", "NOT REGEXP", "~", "!~", "@@"]) :
    (operator symbol).Fits d after := by
  intro f hf
  rcases Construct.spelling_eq_operator hf with ⟨-, rfl⟩ | ⟨-, rfl⟩ | ⟨op, -, rfl⟩
  · exact absurd h (by decide)
  · exact absurd h (by decide)
  · cases op <;> exact absurd h (by decide)

theorem fits_regex {isMatch isNoMatch : String} (negated : Bool)
    (h : d.profile.regex = .operator isMatch isNoMatch) :
    (operator (if negated then isNoMatch else isMatch)).Fits d after := by
  have hplain : isMatch ∈ ["REGEXP", "NOT REGEXP", "~", "!~", "@@"] ∧
      isNoMatch ∈ ["REGEXP", "NOT REGEXP", "~", "!~", "@@"] := by
    cases d <;> cases h <;> decide
  cases negated with
  | false => exact fits_plain hplain.1
  | true => exact fits_plain hplain.2

/-- A search is written with a JSON operator only where there are JSON operators. -/
theorem fits_search {op : Search} (h : d.profile.search op = some (.operator symbol)) :
    (operator symbol).Fits d after := by
  have hjson : d.profile.jsonOperators = true ∧ ∃ op : JsonOp, symbol = op.symbol := by
    cases d <;> cases op <;> cases h
    · exact ⟨rfl, .contains, rfl⟩
    · exact ⟨rfl, .containedBy, rfl⟩
  obtain ⟨hd, op, rfl⟩ := hjson
  exact fits_json hd op

end Token

namespace Tokens

variable {ts : Tokens}

theorem Trails.operator (h : (Token.operator symbol).Fits d ts) (hts : Fits d ts) :
    Trails d (.operator symbol :: ts) :=
  .cons' nofun nofun nofun h hts

theorem Trails.negation (negated : Bool) : Trails d (Clause.negation negated) := by
  cases negated with
  | false => exact .nil
  | true => exact .word rfl .nil

theorem Trails.invocation (name : String) (h : Fits d ts) :
    Trails d (Clause.invocation name ts) :=
  .cons rfl (Trails.parens h).fits

theorem Trails.direction (order : Option SortOrder) : Trails d (direction order) := by
  cases order with
  | none => exact .nil
  | some order => cases order <;> exact .blank (.one rfl)

/-- A keyword between blanks, and what it introduces. -/
theorem Trails.keyword {k : Keyword} (hk : (Token.word k).isNeutral = true) (h : Trails d ts) :
    Trails d (Tokens.spaced (.word k) ++ ts) :=
  (spaced hk).append h

end Tokens

namespace Clause

variable {left right term : Lowered} {items args : LoweredList}

/-! ## Terms -/

theorem value_trails {t : Token} (v : Value) (ht : t.isNeutral = true) :
    Yields (Trails d) (value v t) := by
  unfold value
  split
  · split
    · exact .ok (.one ht)
    · exact .error _
  · exact .ok (.one ht)

theorem array_trails (word : Option String) (isEmpty : Bool) (h : Yields (AllTrail d) items) :
    Yields (Trails d) (array word isEmpty items) := by
  have hbrackets : ∀ l, AllTrail d l →
      Trails d (.mark .openBracket :: listed l ++ [.mark .closeBracket]) :=
    fun l hl => .cons rfl ((Trails.listed hl).append (.one rfl)).fits
  cases word with
  | none => exact h.bind fun l hl => .pure (hbrackets l hl)
  | some w =>
    cases isEmpty with
    | true => exact .ok (.raw _)
    | false => exact h.bind fun l hl => .pure (.raw_cons w (hbrackets l hl))

theorem arithmetic_trails (op : ArithmeticOp) (leftOp rightOp : Option ArithmeticOp)
    (hl : Yields (Trails d) left) (hr : Yields (Trails d) right) :
    Yields (Trails d) (arithmetic op leftOp rightOp left right) :=
  hl.bind fun _ hl => hr.bind fun _ hr =>
    .pure ((hl.parensIf _).append (.cons rfl (hr.parensIf _).fits))

theorem negative_trails (isOperation : Bool) (h : Yields (Trails d) term) :
    Yields (Trails d) (negative isOperation term) :=
  h.bind fun _ h => .pure (.cons rfl (h.parensIf _).fits)

/-- A part that may be missing. -/
theorem optional_trails {dress : Tokens → Tokens} {part : Option Lowered}
    (h : ∀ x ∈ part, Yields (Trails d) x) (hd : ∀ ts, Trails d ts → Trails d (dress ts)) :
    Yields (Trails d) (optional dress part) := by
  cases part with
  | none => exact .ok .nil
  | some x => exact (h x rfl).map hd

theorem choice_trails {branches : LoweredList} {otherwise : Option Lowered}
    (hb : Yields (AllTrail d) branches) (ho : ∀ x ∈ otherwise, Yields (Trails d) x) :
    Yields (Trails d) (choice branches otherwise) := by
  have helse : Yields (Trails d) (optional (spaced (.word .ELSE) ++ ·) otherwise) :=
    optional_trails ho fun _ h => .keyword rfl h
  refine hb.bind fun l hl => helse.bind fun rest hrest => .pure ?_
  have hbody : Trails d (.word .CASE :: l.flatten) := .cons rfl (Trails.flatten hl).fits
  exact (hbody.append hrest).append (.blank (.one rfl))

theorem branch_trails {condition result : Lowered} (hc : Yields (Trails d) condition)
    (hr : Yields (Trails d) result) : Yields (Trails d) (branch condition result) := by
  refine hc.bind fun c hc => hr.bind fun r hr => .pure ?_
  exact (((Trails.word rfl hc.fits).blank).append (.spaced rfl)).append hr

theorem firstArgument_trails (name : String) (h : Yields (AllTrail d) args) :
    Yields (Trails d) (firstArgument name args) := by
  refine h.bind fun l hl => ?_
  cases l with
  | nil => exact .error _
  | cons arg rest => exact .ok (hl arg List.mem_cons_self)

/-- A mark of distinct arguments stands before what may stand behind other tokens, so that no `ON`
follows it. -/
theorem distinct_fits {ts : Tokens} (h : Trails d ts) : Fits d (.word .DISTINCT :: .space :: ts) :=
  .cons ⟨ts, rfl, fun hon => absurd hon h.not_on⟩ h.blank.fits

theorem invoked_trails (name : String) (form : CallForm) (distinct ignoreNulls : Bool)
    (h : Yields (AllTrail d) args) :
    Yields (Trails d) (invoked name form distinct ignoreNulls args) := by
  cases form with
  | bare => exact .ok (.one rfl)
  | plain =>
    refine h.bind fun l hl => .pure (.invocation name ?_)
    have hnulls : Trails d (if ignoreNulls then [.space, .word .IGNORE, .space, .raw "NULLS"]
        else []) := by
      cases ignoreNulls with
      | false => exact .nil
      | true => exact .blank (.word rfl (Trails.raw _).fits)
    have hrest := (Trails.listed hl).append hnulls
    rw [List.append_assoc]
    cases distinct with
    | false => exact hrest.fits
    | true => exact distinct_fits hrest
  | cast type =>
    exact (firstArgument_trails name h).bind fun arg harg =>
      .pure (.invocation name ((harg.append (.spaced rfl)).append (.raw _)).fits)
  | convert charset =>
    exact (firstArgument_trails name h).bind fun arg harg =>
      .pure (.invocation name ((harg.append (.spaced rfl)).append (.raw _)).fits)
  | extract part =>
    exact (firstArgument_trails name h).bind fun arg harg =>
      .pure (.invocation name ((Trails.raw_cons _ (.spaced rfl)).append harg).fits)

theorem call_trails {head : Lowered} {filter window : Option Lowered}
    (hh : Yields (Trails d) head) (hf : ∀ x ∈ filter, Yields (Trails d) x)
    (hw : ∀ x ∈ window, Yields (Trails d) x) : Yields (Trails d) (call head filter window) := by
  have hfilter : ∀ c, Trails d c → Trails d
      (.space :: .word .FILTER :: parens (.word .WHERE :: .space :: c)) :=
    fun c hc => .blank (.cons rfl (Trails.parens (Trails.word rfl hc.fits).fits).fits)
  exact hh.bind fun h hh => (optional_trails hf hfilter).bind fun f hf =>
    (optional_trails hw fun _ h => h.blank).bind fun w hw => .pure ((hh.append hf).append hw)

theorem frameBound_trails (b : FrameBound) : Trails d (frameBound b) := by
  cases b with
  | currentRow => exact .one rfl
  | _ => exact .cons rfl (.space (Trails.one rfl).fits)

theorem frame_trails (f : Frame) : Trails d (frame f) := by
  obtain ⟨unit, start, stop⟩ := f
  have hrange : ∀ stop : FrameBound, Trails d (.word .BETWEEN :: .space :: frameBound start
      ++ spaced (.word .AND) ++ frameBound stop) := fun stop =>
    ((Trails.word rfl (frameBound_trails start).fits).append (.spaced rfl)).append
      (frameBound_trails stop)
  cases stop with
  | none => cases unit <;> exact .word rfl (frameBound_trails start).fits
  | some stop => cases unit <;> exact .word rfl (hrange stop).fits

theorem items_trail {k : Keyword} {l : List Tokens} (hk : (Token.word k).isNeutral = true)
    (hl : AllTrail d l) : AllTrail d (Clause.items [.word k] l) := by
  intro ts hts
  cases l with
  | nil => cases hts
  | cons t l =>
    cases List.mem_singleton.mp hts
    exact .word hk (Trails.listed hl).fits

theorem window_trails {partitionBy orderBy : LoweredList} (frame? : Option Frame)
    (hpart : Yields (AllTrail d) partitionBy) (hord : Yields (AllTrail d) orderBy) :
    Yields (Trails d) (window partitionBy orderBy frame?) := by
  refine hpart.bind fun l hl => hord.bind fun m hm =>
    .pure (.cons rfl (Trails.parens (Trails.spacedOut ?_).fits).fits)
  intro ts hts
  rcases List.mem_append.mp hts with hts | hts
  · rcases List.mem_append.mp hts with hts | hts
    · exact items_trail rfl hl ts hts
    · exact items_trail rfl hm ts hts
  · cases frame? with
    | none => cases hts
    | some f =>
      rw [List.mem_singleton.mp hts]
      exact frame_trails f

/-! ## Conditions -/

theorem comparison_trails (op : Comparison) (withNull : Bool) (hl : Yields (Trails d) left)
    (hr : Yields (Trails d) right) : Yields (Trails d) (comparison op withNull left right) := by
  cases withNull with
  | true => exact .error _
  | false => exact hl.bind fun l hl => hr.bind fun r hr => .pure (hl.append (.cons rfl hr.fits))

theorem infixed_trails {l r : Tokens} {op : Token} (negated : Bool) (hl : Trails d l)
    (hr : Trails d (op :: .space :: r)) : Trails d (infixed l negated op r) :=
  (hl.append (Trails.negation negated).blank).append hr

theorem regex_trails {t r : Tokens} (negated : Bool) (ht : Trails d t) (hr : Trails d r) :
    Yields (Trails d) (regex d negated t r) := by
  unfold regex
  split
  · next isMatch isNoMatch hregex =>
    refine .ok ((ht.append (.blank (.operator ?_ (.space .nil)))).append hr)
    exact Token.fits_regex negated hregex
  · exact .ok ((Trails.negation negated).append
      (.invocation _ (Trails.listed (AllTrail.pair ht hr)).fits))
  · exact .error _

theorem caseless_trails {t r : Tokens} (negated : Bool) (ht : Trails d t) (hr : Trails d r) :
    Trails d (caseless d negated t r) := by
  have hcast : Trails d (t ++ spaced (.word .AS) ++ [.raw d.profile.textType]) :=
    (ht.append (.spaced rfl)).append (.raw _)
  exact infixed_trails negated (.invocation _ (Trails.invocation _ hcast.fits).fits)
    (.word rfl (Trails.invocation _ hr.fits).fits)

theorem matching_trails (op : MatchOp) (negated : Bool) (escape : Option Char)
    (ht : Yields (Trails d) term) (hr : Yields (Trails d) right) :
    Yields (Trails d) (matching d op negated term right escape) := by
  have hend : ∀ {body : Lowered}, Yields (Trails d) body →
      Yields (Trails d) (body.bind fun b => .ok (b ++ [])) :=
    fun h => h.bind fun b hb => .ok (hb.append .nil)
  have hplain : Yields (Trails d) (matching d op negated term right none) := by
    refine ht.bind fun t ht => hr.bind fun r hr => ?_
    have hoperator : ∀ {symbol}, (∀ ts, (Token.operator symbol).Fits d ts) →
        Yields (Trails d) (.ok (infixed t negated (.operator symbol) r)) :=
      fun h => .ok (infixed_trails negated ht (.operator (h _) (.space hr.fits)))
    cases op with
    | like => exact hend (.ok (infixed_trails negated ht (.word rfl hr.fits)))
    | ilike =>
      refine iteInduction (fun h => ?_) fun _ => hend (.ok (caseless_trails negated ht hr))
      exact hend (hoperator fun _ => Token.fits_ilike h)
    | regexp => exact hend (regex_trails negated ht hr)
    | glob =>
      refine iteInduction (fun h => ?_) fun _ => hend (.error _)
      exact hend (hoperator fun _ => Token.fits_glob h)
  cases escape with
  | none => exact hplain
  | some c =>
    rw [matching_some]
    exact hplain.map fun _ h => h.append (.keyword rfl (.raw _))

theorem json_trails (op : JsonOp) (hl : Yields (Trails d) left) (hr : Yields (Trails d) right) :
    Yields (Trails d) (json d op left right) := by
  refine iteInduction (fun h => ?_) fun _ => .error _
  exact hl.bind fun l hl => hr.bind fun r hr =>
    .pure (hl.append (.operator (Token.fits_json h op) hr.fits))

theorem search_trails (op : Search) (ht : Yields (Trails d) term)
    (hv : Yields (Trails d) right) : Yields (Trails d) (search d op term right) := by
  unfold search
  split
  · exact .error _
  · next style hstyle =>
    refine ht.bind fun t ht => hv.bind fun v hv => ?_
    cases style with
    | operator symbol =>
      exact .ok (ht.append (.operator (Token.fits_search hstyle) hv.fits))
    | function name valueFirst =>
      refine .ok (.invocation _ (Trails.listed ?_).fits)
      cases valueFirst with
      | true => exact AllTrail.pair hv ht
      | false => exact AllTrail.pair ht hv
    | matchAgainst =>
      exact .ok ((Trails.invocation _ ht.fits).append
        (.blank (.raw_cons _ (.blank (.parens hv.fits)))))
    | textVectors =>
      refine .ok (((Trails.invocation _ ht.fits).append ?_).append (.invocation _ hv.fits))
      exact .blank (.operator (Token.fits_plain (by decide)) (.space .nil))
    | regex => exact regex_trails false ht hv

theorem isNull_trails (negated : Bool) (h : Yields (Trails d) term) :
    Yields (Trails d) (isNull negated term) :=
  h.bind fun _ h => .pure (((h.append (.spaced rfl)).append (.negation negated)).append (.one rfl))

theorem isIn_trails (negated isEmpty : Bool) (ht : Yields (Trails d) term)
    (hi : Yields (AllTrail d) items) : Yields (Trails d) (isIn negated isEmpty term items) := by
  cases isEmpty with
  | true => exact .ok (.raw _)
  | false =>
    exact ht.bind fun t ht => hi.bind fun l hl => .pure (infixed_trails negated ht
      (.word rfl (Trails.parens (Trails.listed hl).fits).fits))

theorem isInRows_trails (negated : Bool) (ht : Yields (Trails d) term)
    (hr : Yields (Trails d) right) : Yields (Trails d) (isInRows negated term right) :=
  ht.bind fun _ ht => hr.bind fun _ hr =>
    .pure (infixed_trails negated ht (.word rfl hr.fits))

theorem between_trails (negated : Bool) {low high : Lowered} (ht : Yields (Trails d) term)
    (hl : Yields (Trails d) low) (hh : Yields (Trails d) high) :
    Yields (Trails d) (between negated term low high) :=
  ht.bind fun _ ht => hl.bind fun _ hl => hh.bind fun _ hh =>
    .pure (infixed_trails negated ht (.word rfl ((hl.append (.spaced rfl)).append hh).fits))

theorem hasRows_trails (negated : Bool) (h : Yields (Trails d) right) :
    Yields (Trails d) (hasRows negated right) :=
  h.bind fun _ h => .pure ((Trails.negation negated).append (.word rfl h.fits))

theorem combined_trails (op : Connective) (leftOp rightOp : Option Connective)
    (hl : Yields (Trails d) left) (hr : Yields (Trails d) right) :
    Yields (Trails d) (combined op leftOp rightOp left right) := by
  have hop : (Token.word op.keyword).isNeutral = true := by cases op <;> rfl
  exact hl.bind fun _ hl => hr.bind fun _ hr =>
    .pure (((hl.parensIf _).append (.spaced hop)).append (hr.parensIf _))

theorem negated_trails (isCombined : Bool) (h : Yields (Trails d) term) :
    Yields (Trails d) (negated isCombined term) :=
  h.bind fun _ h => .pure (.word rfl (h.parensIf _).fits)

end Clause

end SqlScribe
