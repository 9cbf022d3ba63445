import SqlScribe.Proofs.Nesting.Clause
import SqlScribe.Proofs.Presence.Token
/-! # Keywords in clauses

Clauses of terms and conditions leave no keyword without its condition if their parts do not: one
law for each clause, in the order of the definitions. The tokens of a term may be missing; those of
a predicate begin with its keyword then, or with its operator. -/

namespace SqlScribe

open Tokens

namespace Clause

variable {v a b c : Bool} {left right term : Lowered} {items args : LoweredList}

/-! ## Terms -/

theorem value_fills (x : Value) {t : Token} (ht : t.startsCondition = true)
    (hplain : t.isPlain = true) : Yields (Fills v) (value x t) := by
  unfold value
  split
  · split
    · exact .ok (.one ht hplain)
    · exact .error _
  · exact .ok (.one ht hplain)

theorem array_fills (word : Option String) (isEmpty : Bool) (h : Yields AllBacked items) :
    Yields (Fills v) (array word isEmpty items) := by
  have hbrackets : ∀ l, AllBacked l →
      Fills v (.mark .openBracket :: listed l ++ [.mark .closeBracket]) :=
    fun l hl => .cons rfl rfl ((Backed.listed hl).append (.one rfl))
  cases word with
  | none => exact h.bind fun l hl => .pure (hbrackets l hl)
  | some w =>
    cases isEmpty with
    | true => exact .ok (.one rfl rfl)
    | false => exact h.bind fun l hl => .pure (.cons rfl rfl (hbrackets l hl).backed)

theorem arithmetic_fills (op : ArithmeticOp) (leftOp rightOp : Option ArithmeticOp)
    (hl : Yields (Fills a) left) (hr : Yields (Fills b) right) :
    Yields (Fills v) (arithmetic op leftOp rightOp left right) := by
  refine hl.bind fun l hl => hr.bind fun r hr => .pure ?_
  refine (hl.parensIf _).append ?_ (.cons rfl (hr.parensIf _).backed)
  cases op <;> rfl

theorem negative_fills (isOperation : Bool) (h : Yields (Fills a) term) :
    Yields (Fills v) (negative isOperation term) :=
  h.bind fun _ h => .pure (.cons rfl rfl (h.parensIf _).backed)

/-- A part that may be missing. -/
theorem optional_backed {p : Tokens → Prop} {dress : Tokens → Tokens} {part : Option Lowered}
    (h : ∀ x ∈ part, Yields p x) (hd : ∀ ts, p ts → Backed (dress ts)) :
    Yields Backed (optional dress part) := by
  cases part with
  | none => exact .ok .nil
  | some x => exact (h x rfl).map hd

theorem choice_fills {branches : LoweredList} {otherwise : Option Lowered}
    (hb : Yields AllBacked branches) (ho : ∀ x ∈ otherwise, Yields Backed x) :
    Yields (Fills v) (choice branches otherwise) := by
  refine hb.bind fun l hl => (optional_backed ho fun _ h => Backed.behind rfl h).bind
    fun rest hrest => .pure ?_
  rw [List.append_assoc]
  exact .cons rfl rfl ((Backed.flatten hl).append (hrest.append (Backed.one rfl).space))

theorem branch_backed {condition result : Lowered} (hc : Yields (Fills false) condition)
    (hr : Yields Backed result) : Yields Backed (branch condition result) := by
  refine hc.bind fun c hc => hr.bind fun r hr => .pure ?_
  exact ((Backed.space (hc.keyword .WHEN)).append (.spaced rfl)).append hr

theorem firstArgument_backed (name : String) (h : Yields AllBacked args) :
    Yields Backed (firstArgument name args) := by
  refine h.bind fun l hl => ?_
  cases l with
  | nil => exact .error _
  | cons arg rest => exact .ok (hl arg List.mem_cons_self)

theorem invocation_fills (name : String) {ts : Tokens} (h : Backed ts) :
    Fills v (invocation name ts) :=
  .cons rfl rfl h.parens

theorem invoked_fills (name : String) (form : CallForm) (distinct ignoreNulls : Bool)
    (h : Yields AllBacked args) :
    Yields (Fills v) (invoked name form distinct ignoreNulls args) := by
  cases form with
  | bare => exact .ok (.one rfl rfl)
  | plain =>
    refine h.bind fun l hl => .pure (invocation_fills name ?_)
    refine (Backed.append ?_ (.listed hl)).append ?_
    · split
      · exact .cons rfl (Backed.nil.space)
      · exact .nil
    · split
      · exact .cons rfl (.cons rfl (.cons rfl (.one rfl)))
      · exact .nil
  | cast type =>
    exact (firstArgument_backed name h).bind fun arg harg =>
      .pure (invocation_fills name ((harg.append (.spaced rfl)).append (.one rfl)))
  | convert charset =>
    exact (firstArgument_backed name h).bind fun arg harg =>
      .pure (invocation_fills name ((harg.append (.spaced rfl)).append (.one rfl)))
  | extract part =>
    exact (firstArgument_backed name h).bind fun arg harg =>
      .pure (invocation_fills name ((Backed.cons rfl (.spaced rfl)).append harg))

theorem call_fills {head : Lowered} {filter window : Option Lowered}
    (hh : Yields (Fills false) head) (hf : ∀ x ∈ filter, Yields (Fills false) x)
    (hw : ∀ x ∈ window, Yields Backed x) : Yields (Fills v) (call head filter window) := by
  have hfilter : ∀ c, Fills false c →
      Backed (.space :: .word .FILTER :: Tokens.parens (.word .WHERE :: .space :: c)) :=
    fun c hc => .space (.cons rfl (hc.keyword .WHERE).parens)
  exact hh.bind fun h hh => (optional_backed hf hfilter).bind fun f hf =>
    (optional_backed hw fun _ h => h.space).bind fun w hw => .pure
      (.followed (.followed hh hf) hw)

theorem frameBound_backed (b : FrameBound) : Backed (frameBound b) := by
  cases b <;> first
    | exact .one rfl
    | exact .cons rfl (.cons rfl (.one rfl))

/-- The end of a range may stand behind `AND`. -/
theorem frameBound_faces (b : FrameBound) : Faces Keyword.AND.admits (frameBound b) := by
  cases b <;> rfl

theorem frame_backed (f : Frame) : Backed (frame f) := by
  obtain ⟨unit, start, stop⟩ := f
  have hrange : ∀ stop : FrameBound, Backed (.word .BETWEEN :: .space :: frameBound start
      ++ spaced (.word .AND) ++ frameBound stop) := by
    intro stop
    rw [List.append_assoc]
    refine .cons rfl (.space ((frameBound_backed start).append ?_))
    exact .space (.keyword (frameBound_faces stop) (frameBound_backed stop).space)
  cases stop with
  | none => cases unit <;> exact .cons rfl (frameBound_backed start).space
  | some stop => cases unit <;> exact .cons rfl (hrange stop).space

theorem items_backed {k : Keyword} {l : List Tokens} (hk : (Token.word k).isPlain = true)
    (hl : AllBacked l) : AllBacked (Clause.items [.word k] l) := by
  intro ts hts
  cases l with
  | nil => cases hts
  | cons t l =>
    cases List.mem_singleton.mp hts
    exact .cons hk (Backed.listed hl).space

theorem window_backed {partitionBy orderBy : LoweredList} (frame? : Option Frame)
    (hpart : Yields AllBacked partitionBy) (hord : Yields AllBacked orderBy) :
    Yields Backed (window partitionBy orderBy frame?) := by
  refine hpart.bind fun l hl => hord.bind fun m hm =>
    .pure (.cons rfl (Backed.parens (.spacedOut ?_)))
  intro ts hts
  rcases List.mem_append.mp hts with hts | hts
  · rcases List.mem_append.mp hts with hts | hts
    · exact items_backed rfl hl ts hts
    · exact items_backed rfl hm ts hts
  · cases frame? with
    | none => cases hts
    | some f =>
      rw [List.mem_singleton.mp hts]
      exact frame_backed f

/-! ## Conditions -/

theorem comparison_fills (op : Comparison) (withNull : Bool) (hl : Yields (Fills a) left)
    (hr : Yields (Fills b) right) : Yields (Fills v) (comparison op withNull left right) := by
  cases withNull with
  | true => exact .error _
  | false =>
    refine hl.bind fun l hl => hr.bind fun r hr => .pure (hl.append ?_ (.cons rfl hr.backed))
    cases op <;> rfl

/-- An operator that may be negated stands behind its operand, and `NOT` stands before it. -/
theorem infixed_fills {l r : Tokens} {op : Token} (negated : Bool) (hl : Fills a l)
    (ho : op.startsCondition = true) (hplain : op.isPlain = true) (hr : Backed r) :
    Fills v (infixed l negated op r) := by
  have hop : Fills false (op :: .space :: r) := .cons ho hplain hr.space
  rw [infixed, List.append_assoc]
  cases negated with
  | false => exact hl.append hop.faces hop.backed.space
  | true => exact hl.append rfl (hop.keyword .NOT).space

/-- A test that is written as a call. -/
theorem negation_invocation_fills (negated : Bool) (name : String) {ts : Tokens} (h : Backed ts) :
    Fills v (negation negated ++ invocation name ts) := by
  cases negated with
  | false => exact invocation_fills name h
  | true => exact .of_opens rfl ((invocation_fills name h).keyword .NOT)

theorem regex_fills {t r : Tokens} (d : Dialect) (negated : Bool) (ht : Fills a t)
    (hr : Fills b r) : Yields (Fills v) (regex d negated t r) := by
  unfold regex
  split
  · refine .ok ?_
    rw [List.append_assoc]
    exact ht.append rfl ((Backed.spaced rfl).append hr.backed)
  · exact .ok (negation_invocation_fills negated _ (.listed (.pair ht.backed hr.backed)))
  · exact .error _

theorem caseless_fills {t r : Tokens} (d : Dialect) (negated : Bool) (ht : Backed t)
    (hr : Backed r) : Fills v (caseless d negated t r) := by
  have hcast : Backed (t ++ spaced (.word .AS) ++ [.raw d.profile.textType]) :=
    (ht.append (.spaced rfl)).append (.one rfl)
  have hupper : Fills false (invocation "UPPER" (invocation "CAST" (t ++ spaced (.word .AS) ++
      [.raw d.profile.textType]))) := invocation_fills _ (Backed.cons rfl hcast.parens)
  exact infixed_fills negated hupper rfl rfl (Backed.cons rfl hr.parens)

theorem matching_fills (d : Dialect) (op : MatchOp) (negated : Bool) (escape : Option Char)
    (ht : Yields (Fills a) term) (hr : Yields (Fills b) right) :
    Yields (Fills v) (matching d op negated term right escape) := by
  have hend : ∀ {body : Lowered}, Yields (Fills false) body →
      Yields (Fills false) (body.bind fun b => .ok (b ++ [])) :=
    fun h => h.bind fun b hb => .ok (.followed hb .nil)
  have hplain : Yields (Fills false) (matching d op negated term right none) := by
    refine ht.bind fun t ht => hr.bind fun r hr => ?_
    cases op with
    | like => exact hend (.ok (infixed_fills negated ht rfl rfl hr.backed))
    | ilike =>
      refine iteInduction (fun _ => ?_) fun _ => ?_
      · exact hend (.ok (infixed_fills negated ht rfl rfl hr.backed))
      · exact hend (.ok (caseless_fills d negated ht.backed hr.backed))
    | regexp => exact hend (regex_fills d negated ht hr)
    | glob =>
      refine iteInduction (fun _ => ?_) fun _ => hend (.error _)
      exact hend (.ok (infixed_fills negated ht rfl rfl hr.backed))
  cases escape with
  | none => exact hplain.mono fun _ h => .of_opens h.faces h.backed
  | some c =>
    rw [matching_some]
    exact hplain.map fun _ h => .followed h (.behind rfl (.one rfl))

theorem json_fills (d : Dialect) (op : JsonOp) (hl : Yields (Fills a) left)
    (hr : Yields (Fills b) right) : Yields (Fills v) (json d op left right) :=
  iteInduction (fun _ => hl.bind fun _ hl => hr.bind fun _ hr => .pure
    (hl.append rfl (.cons rfl hr.backed))) fun _ => .error _

theorem search_fills (d : Dialect) (op : Search) (ht : Yields (Fills a) term)
    (hr : Yields (Fills b) right) : Yields (Fills v) (search d op term right) := by
  unfold search
  split
  · exact .error _
  · next style _ =>
    refine ht.bind fun t ht => hr.bind fun r hr => ?_
    cases style with
    | operator symbol => exact .ok (ht.append rfl (.cons rfl hr.backed))
    | function name valueFirst =>
      refine .ok (invocation_fills name (.listed ?_))
      cases valueFirst with
      | true => exact .pair hr.backed ht.backed
      | false => exact .pair ht.backed hr.backed
    | matchAgainst =>
      exact .ok (.followed (invocation_fills _ ht.backed)
        (.cons rfl (.cons rfl (.cons rfl hr.backed.parens))))
    | textVectors =>
      exact .ok (.followed (.followed (invocation_fills _ ht.backed) (.spaced rfl))
        (Backed.cons rfl hr.backed.parens))
    | regex => exact regex_fills d false ht hr

theorem isNull_fills (negated : Bool) (h : Yields (Fills a) term) :
    Yields (Fills v) (isNull negated term) := by
  refine h.bind fun t ht => .pure ?_
  have hnull : Backed (negation negated ++ [.word .NULL]) := by
    cases negated with
    | false => exact .one rfl
    | true =>
      have hopens : Faces (Keyword.admits .NOT) [.space, .word .NULL] := rfl
      exact .keyword hopens (Backed.one rfl).space
  rw [List.append_assoc, List.append_assoc]
  exact ht.append rfl ((Backed.spaced rfl).append hnull)

theorem isIn_fills (negated isEmpty : Bool) (ht : Yields (Fills a) term)
    (hi : Yields AllBacked items) : Yields (Fills v) (isIn negated isEmpty term items) := by
  cases isEmpty with
  | true => exact .ok (.one rfl rfl)
  | false =>
    exact ht.bind fun t ht => hi.bind fun l hl => .pure
      (infixed_fills negated ht rfl rfl (Backed.listed hl).parens)

theorem isInRows_fills (negated : Bool) (ht : Yields (Fills a) term) (hr : Yields Backed right) :
    Yields (Fills v) (isInRows negated term right) :=
  ht.bind fun _ ht => hr.bind fun _ hr => .pure (infixed_fills negated ht rfl rfl hr)

theorem between_fills (negated : Bool) {low high : Lowered} (ht : Yields (Fills a) term)
    (hl : Yields (Fills b) low) (hh : Yields (Fills false) high) :
    Yields (Fills v) (between negated term low high) := by
  refine ht.bind fun t ht => hl.bind fun l hl => hh.bind fun h hh => .pure ?_
  refine infixed_fills negated ht rfl rfl ?_
  rw [List.append_assoc]
  exact hl.backed.append (.space (hh.keyword .AND))

theorem hasRows_fills (negated : Bool) (h : Yields Backed right) :
    Yields (Fills v) (hasRows negated right) := by
  refine h.bind fun r hr => .pure ?_
  have hrows : Fills false (.word .EXISTS :: .space :: r) := .cons rfl rfl hr.space
  cases negated with
  | false => exact .of_opens hrows.faces hrows.backed
  | true => exact .of_opens rfl (hrows.keyword .NOT)

theorem combined_fills (op : Connective) (leftOp rightOp : Option Connective)
    (hl : Yields (Fills false) left) (hr : Yields (Fills false) right) :
    Yields (Fills v) (combined op leftOp rightOp left right) := by
  refine hl.bind fun l hl => hr.bind fun r hr => .pure ?_
  rw [List.append_assoc]
  exact .followed (hl.parensIf _) (.space ((hr.parensIf _).keyword op.keyword))

theorem negated_fills (isCombined : Bool) (h : Yields (Fills false) term) :
    Yields (Fills v) (negated isCombined term) :=
  h.bind fun _ h => .pure (.of_opens rfl ((h.parensIf _).keyword .NOT))

end Clause

end SqlScribe
