import SqlScribe.Lowering.Clause
import SqlScribe.Proofs.Nesting.TokenTree
/-! # Brackets of clauses

Clauses whose parts have fitting brackets have fitting brackets, and what stands outside their
brackets is known. Parts come as results, so each law speaks of the tokens that a result yields.

* `Yields`: a property of what a result is, if it is there.
* `Tokens.Asserts`: tokens that say something, for outside their brackets stands more than `NOT`.
* One law for each clause; that of a predicate is for any property that the tokens of predicates
  have. -/

namespace SqlScribe

/-- What a result is, if there is one, has a property. -/
def Yields {α : Type} (p : α → Prop) (x : Except QueryError α) : Prop := ∀ a, x = .ok a → p a

namespace Yields

variable {α β : Type} {p p' : α → Prop} {q : β → Prop} {x : Except QueryError α}

theorem ok {a : α} (h : p a) : Yields p (.ok a) := by
  intro b hb
  cases hb
  exact h

theorem pure {a : α} (h : p a) : Yields p (Pure.pure a) := Yields.ok h

theorem error (e : QueryError) : Yields p (.error e) := by
  intro a ha
  cases ha

theorem bind {f : α → Except QueryError β} (h : Yields p x)
    (hf : ∀ a, p a → Yields q (f a)) : Yields q (x >>= f) := by
  intro b hb
  cases x with
  | error e => cases hb
  | ok a => exact hf a (h a rfl) b hb

theorem map {f : α → β} (h : Yields p x) (hf : ∀ a, p a → q (f a)) : Yields q (x.map f) := by
  intro b hb
  cases x with
  | error e => cases hb
  | ok a =>
    cases hb
    exact hf a (h a rfl)

theorem and (h : Yields p x) (h' : Yields p' x) : Yields (fun a => p a ∧ p' a) x :=
  fun a ha => ⟨h a ha, h' a ha⟩

theorem mono (h : Yields p x) (hp : ∀ a, p a → p' a) : Yields p' x :=
  fun a ha => hp a (h a ha)

end Yields

/-- The token stands between the operands of a predicate or before them, except that the words of
a range do not count. -/
def Token.inPredicate : Token → Bool
  | .mark .eq => true
  | .mark .ne => true
  | .mark .lt => true
  | .mark .gt => true
  | .mark .le => true
  | .mark .ge => true
  | .operator _ => true
  | .functionName _ => true
  | .raw _ => true
  | .word .NOT => true
  | .word .LIKE => true
  | .word .ESCAPE => true
  | .word .IS => true
  | .word .NULL => true
  | .word .IN => true
  | .word .EXISTS => true
  | _ => false

/-- The token negates a condition. -/
def Token.negates : Token → Bool
  | .word .NOT => true
  | _ => false

theorem ArithmeticOp.role_mark (op : ArithmeticOp) : (Token.mark op.mark).role = .plain := by
  cases op <;> rfl

theorem Comparison.role_mark (op : Comparison) : (Token.mark op.mark).role = .plain := by
  cases op <;> rfl

theorem Connective.role_keyword (op : Connective) : (Token.word op.keyword).role = .plain := by
  cases op <;> rfl

namespace Tokens

/-- The brackets of all tokens of a list fit. -/
abbrev AllNest (l : List Tokens) : Prop := ∀ ts ∈ l, Nests ts

theorem AllNest.pair {ts us : Tokens} (hts : Nests ts) (hus : Nests us) : AllNest [ts, us] := by
  intro vs hvs
  rcases List.mem_cons.mp hvs with rfl | hvs
  · exact hts
  · cases List.mem_singleton.mp hvs
    exact hus

/-- The brackets of the tokens fit, outside them stand only tokens with a property, and one of these
is not `NOT`. -/
abbrev Asserts (p : Token → Prop) (ts : Tokens) : Prop := Bears p (fun t => t.negates = false) ts

/-- A name and its arguments between parentheses. -/
theorem invocation_asserts {p : Token → Prop} {inner : Tokens} (name : String)
    (hp : p (.functionName name)) (h : Nests inner) : Asserts p (Clause.invocation name inner) :=
  .head rfl hp rfl h.parens

theorem Shows.negation {p : Token → Prop} (negated : Bool) (hp : p (.word .NOT)) :
    Shows p (Clause.negation negated) := by
  cases negated with
  | false => exact .nil
  | true => exact .cons rfl hp (.blank .nil)

end Tokens

open Tokens

namespace Clause

variable {p : Token → Prop} {left right term : Lowered} {items args : LoweredList}

/-! ## Terms -/

theorem value_bears {q : Token → Prop} {t : Token} (v : Value) (ht : t.role = .plain) (hp : p t)
    (hq : q t) : Yields (Bears p q) (value v t) := by
  have hone : Bears p q [t] := .head ht hp hq .nil
  unfold value
  split
  · split
    · exact .ok hone
    · exact .error _
  · exact .ok hone

/-- An array stands in brackets, or shows the word before them. -/
theorem array_bears {q : Token → Prop} (word : Option String) (isEmpty : Bool)
    (hp : ∀ text, p (.raw text)) (hq : ∀ text, q (.raw text)) (h : Yields AllNest items) :
    Yields (fun ts => Bears p q ts ∨ Encloses .square ts) (array word isEmpty items) := by
  have hsquare : ∀ l, AllNest l →
      Encloses .square (.mark .openBracket :: listed l ++ [.mark .closeBracket]) :=
    fun l hl => (Shows.listed hl trivial).group rfl rfl
  cases word with
  | none => exact h.bind fun l hl => .pure (.inr (hsquare l hl))
  | some w =>
    cases isEmpty with
    | true => exact .ok (.inl (.head rfl (hp _) (hq _) .nil))
    | false =>
      exact h.bind fun l hl => .pure (.inl (.head rfl (hp w) (hq w) (hsquare l hl).shows))

theorem arithmetic_shows (op : ArithmeticOp) (leftOp rightOp : Option ArithmeticOp)
    (hp : p (.mark op.mark)) (hl : Yields (Shows p) left) (hr : Yields (Shows p) right) :
    Yields (Shows p) (arithmetic op leftOp rightOp left right) :=
  hl.bind fun _ hl => hr.bind fun _ hr =>
    .pure ((hl.parensIf _).append ((hr.parensIf _).cons op.role_mark hp))

theorem negative_shows (isOperation : Bool) (hp : p (.mark .minus)) (h : Yields (Shows p) term) :
    Yields (Shows p) (negative isOperation term) :=
  h.bind fun _ h => .pure ((h.parensIf _).cons rfl hp)

/-- A part that may be missing. -/
theorem optional_shows {dress : Tokens → Tokens} {part : Option Lowered}
    (h : ∀ x ∈ part, Yields Nests x) (hd : ∀ ts, Nests ts → Shows p (dress ts)) :
    Yields (Shows p) (optional dress part) := by
  cases part with
  | none => exact .ok .nil
  | some x => exact (h x rfl).map hd

theorem choice_encloses {branches : LoweredList} {otherwise : Option Lowered}
    (hb : Yields AllNest branches) (ho : ∀ x ∈ otherwise, Yields Nests x) :
    Yields (Encloses .choice) (choice branches otherwise) := by
  have helse : Yields Nests (optional (spaced (.word .ELSE) ++ ·) otherwise) :=
    optional_shows ho fun _ h => (Shows.spaced rfl trivial).append h
  refine hb.bind fun l hl => helse.bind fun rest hrest => .pure ?_
  -- The law for brackets takes what stands between them in one piece.
  have hinner : Nests (l.flatten ++ (rest ++ [.space])) :=
    (Shows.flatten hl).append (hrest.append (.blank .nil))
  have hgroup : Encloses .choice
      (.word .CASE :: (l.flatten ++ (rest ++ [.space])) ++ [.word .END]) := hinner.group rfl rfl
  simpa only [List.append_assoc, List.cons_append, List.nil_append] using hgroup

theorem branch_nests {condition result : Lowered} (hc : Yields Nests condition)
    (hr : Yields Nests result) : Yields Nests (branch condition result) := by
  refine hc.bind fun c hc => hr.bind fun r hr => .pure ?_
  have hthen : Nests (c ++ (spaced (.word .THEN) ++ r)) :=
    hc.append ((Shows.spaced rfl trivial).append hr)
  simpa only [List.append_assoc, List.cons_append] using
    (hthen.blank.cons (t := .word .WHEN) rfl trivial).blank

theorem firstArgument_nests (name : String) (h : Yields AllNest args) :
    Yields Nests (firstArgument name args) := by
  refine h.bind fun l hl => ?_
  cases l with
  | nil => exact .error _
  | cons arg rest => exact .ok (hl arg (List.mem_cons_self ..))

theorem invoked_asserts (name : String) (form : CallForm) (distinct ignoreNulls : Bool)
    (hp : ∀ name, p (.functionName name)) (h : Yields AllNest args) :
    Yields (Asserts p) (invoked name form distinct ignoreNulls args) := by
  have hword : ∀ (k : Keyword), (Token.word k).role = .plain → Nests (spaced (.word k)) :=
    fun k hk => .spaced hk trivial
  have hraw : ∀ text, Nests [.raw text] := fun text => .cons rfl trivial .nil
  cases form with
  | bare => exact .ok (.head rfl (hp name) rfl .nil)
  | plain =>
    refine h.bind fun l hl => .pure (invocation_asserts name (hp name) ?_)
    refine .append (.append ?_ (.listed hl trivial)) ?_
    · cases distinct with
      | false => exact .nil
      | true => exact .cons rfl trivial (.blank .nil)
    · cases ignoreNulls with
      | false => exact .nil
      | true => exact .blank (.cons rfl trivial (.blank (hraw _)))
  | cast type =>
    exact (firstArgument_nests name h).bind fun arg harg =>
      .pure (invocation_asserts name (hp name) ((harg.append (hword .AS rfl)).append (hraw _)))
  | convert charset =>
    exact (firstArgument_nests name h).bind fun arg harg =>
      .pure (invocation_asserts name (hp name) ((harg.append (hword .USING rfl)).append (hraw _)))
  | extract part =>
    exact (firstArgument_nests name h).bind fun arg harg =>
      .pure (invocation_asserts name (hp name)
        (((hraw part.name).append (hword .FROM rfl)).append harg))

theorem call_asserts {head : Lowered} {filter window : Option Lowered}
    (hp : p (.word .FILTER)) (hh : Yields (Asserts p) head)
    (hf : ∀ x ∈ filter, Yields Nests x) (hw : ∀ x ∈ window, Yields (Shows p) x) :
    Yields (Asserts p) (call head filter window) := by
  have hfilter : ∀ c, Nests c → Shows p
      (.space :: .word .FILTER :: parens (.word .WHERE :: .space :: c)) :=
    fun c hc => .blank (.cons rfl hp (hc.blank.cons rfl trivial).parens)
  have hwindow : Yields (Shows p) (optional (.space :: ·) window) := by
    cases window with
    | none => exact .ok .nil
    | some x => exact (hw x rfl).map fun _ h => h.blank
  exact hh.bind fun h hh => (optional_shows hf hfilter).bind fun f hf => hwindow.bind fun w hw =>
    .pure ((hh.append_right hf).append_right hw)

theorem frameBound_nests (b : FrameBound) : Nests (frameBound b) := by
  have hpair : ∀ t u : Token, t.role = .plain → u.role = .plain → Nests [t, .space, u] :=
    fun t u ht hu => .cons ht trivial (.blank (.cons hu trivial .nil))
  cases b with
  | unboundedPreceding => exact hpair _ _ rfl rfl
  | preceding n => exact hpair _ _ rfl rfl
  | currentRow => exact .cons rfl trivial .nil
  | following n => exact hpair _ _ rfl rfl
  | unboundedFollowing => exact hpair _ _ rfl rfl

theorem frame_nests (f : Frame) : Nests (frame f) := by
  obtain ⟨unit, start, stop⟩ := f
  have hextent : ∀ t : Token, t.role = .plain → Nests (t :: .space :: frameBound start) :=
    fun t ht => .cons ht trivial (frameBound_nests start).blank
  have hrange : ∀ (t : Token) (stop : FrameBound), t.role = .plain →
      Nests (t :: .space :: .word .BETWEEN :: .space :: frameBound start ++ spaced (.word .AND)
        ++ frameBound stop) := by
    intro t stop ht
    have hbounds : Nests (frameBound start ++ spaced (.word .AND) ++ frameBound stop) :=
      ((frameBound_nests start).append (.spaced rfl trivial)).append (frameBound_nests stop)
    exact .cons ht trivial (.blank (.cons rfl trivial hbounds.blank))
  cases stop with
  | none => cases unit <;> exact hextent _ rfl
  | some stop => cases unit <;> exact hrange _ stop rfl

theorem items_nest {k : Keyword} {l : List Tokens} (hk : (Token.word k).role = .plain)
    (hl : AllNest l) : AllNest (Clause.items [.word k] l) := by
  intro ts hts
  cases l with
  | nil => cases hts
  | cons t l =>
    cases List.mem_singleton.mp hts
    exact .cons hk trivial (.blank (.listed hl trivial))

theorem window_shows {partitionBy orderBy : LoweredList} (frame? : Option Frame)
    (hp : p (.word .OVER)) (hpart : Yields AllNest partitionBy) (hord : Yields AllNest orderBy) :
    Yields (Shows p) (window partitionBy orderBy frame?) := by
  refine hpart.bind fun l hl => hord.bind fun m hm => .pure (.cons rfl hp (.parens (.spacedOut ?_)))
  intro ts hts
  rcases List.mem_append.mp hts with hts | hts
  · rcases List.mem_append.mp hts with hts | hts
    · exact items_nest rfl hl ts hts
    · exact items_nest rfl hm ts hts
  · cases frame? with
    | none => cases hts
    | some f =>
      rw [List.mem_singleton.mp hts]
      exact frame_nests f

/-! ## Conditions -/

/-- The escape character stands behind the match, whatever the operator is. -/
theorem matching_some (d : Dialect) (op : MatchOp) (negated : Bool) (c : Char) :
    matching d op negated term right (some c) = (matching d op negated term right none).map
      (· ++ (spaced (.word .ESCAPE) ++
        ([.raw (d.stringLiteral (String.singleton c))] : Tokens))) := by
  have hend : ∀ (body : Lowered) (tail : Tokens), (body.bind fun b => .ok (b ++ tail)) =
      (body.bind fun b => .ok (b ++ [])).map (· ++ tail) := by
    intro body tail
    cases body with
    | error e => rfl
    | ok b => exact congrArg (fun b => Except.ok (b ++ tail)) (List.append_nil b).symm
  unfold matching
  cases term with
  | error e => rfl
  | ok t =>
    cases right with
    | error e => rfl
    | ok r =>
      cases op with
      | like => exact hend (.ok (infixed t negated (.word .LIKE) r)) _
      | ilike =>
        cases d.profile.ilike with
        | true => exact hend (.ok (infixed t negated (.operator "ILIKE") r)) _
        | false => exact hend (.ok (caseless d negated t r)) _
      | regexp => exact hend (regex d negated t r) _
      | glob =>
        cases d.profile.glob with
        | true => exact hend (.ok (infixed t negated (.operator "GLOB") r)) _
        | false => rfl

/-! ### Predicates

In this section the tokens of predicates have the property `p`, and so do the tokens outside the
brackets of the operands. -/

section Predicate

variable (hp : ∀ t : Token, t.inPredicate = true → p t)

include hp

theorem comparison_asserts (op : Comparison) (withNull : Bool) (hl : Yields (Shows p) left)
    (hr : Yields (Shows p) right) : Yields (Asserts p) (comparison op withNull left right) := by
  have hop : p (.mark op.mark) := hp _ (by cases op <;> rfl)
  cases withNull with
  | true => exact .error _
  | false =>
    exact hl.bind fun l hl => hr.bind fun r hr =>
      .pure (.append_left hl (.head op.role_mark hop rfl hr))

theorem infixed_asserts {l r : Tokens} {op : Token} (negated : Bool) (ho : op.role = .plain)
    (hop : p op) (hn : op.negates = false) (hl : Shows p l) (hr : Shows p r) :
    Asserts p (infixed l negated op r) := by
  have hbody : Asserts p (negation negated ++ op :: .space :: r) :=
    .append_left (.negation negated (hp _ rfl)) (.head ho hop hn hr.blank)
  simpa only [infixed, List.append_assoc, List.cons_append] using
    Bears.append_left hl hbody.blank

theorem regex_asserts {t r : Tokens} (d : Dialect) (negated : Bool) (ht : Shows p t)
    (hr : Shows p r) : Yields (Asserts p) (regex d negated t r) := by
  unfold regex
  split
  · refine .ok (.append_right (.append_left ht ?_) hr)
    exact .blank (.head rfl (hp _ rfl) rfl (.blank .nil))
  · refine .ok (.append_left (.negation negated (hp _ rfl)) ?_)
    exact invocation_asserts _ (hp _ rfl) (.listed (AllNest.pair ht.nests hr.nests) trivial)
  · exact .error _

theorem caseless_asserts {t r : Tokens} (d : Dialect) (negated : Bool) (ht : Shows p t)
    (hr : Shows p r) : Asserts p (caseless d negated t r) := by
  have hcast : Nests (t ++ spaced (.word .AS) ++ [.raw d.profile.textType]) :=
    (ht.nests.append (.spaced rfl trivial)).append (.cons rfl trivial .nil)
  have hupper : Shows p (invocation "UPPER"
      (invocation "CAST" (t ++ spaced (.word .AS) ++ [.raw d.profile.textType]))) :=
    (invocation_asserts _ (hp _ rfl) (invocation_asserts _ trivial hcast).shows).shows
  exact infixed_asserts hp negated rfl (hp _ rfl) rfl hupper
    (invocation_asserts _ (hp _ rfl) hr.nests).shows

theorem matching_asserts (d : Dialect) (op : MatchOp) (negated : Bool) (escape : Option Char)
    (ht : Yields (Shows p) term) (hr : Yields (Shows p) right) :
    Yields (Asserts p) (matching d op negated term right escape) := by
  have hinfixed : ∀ {t r : Tokens} (o : Token), o.role = .plain → p o → o.negates = false →
      Shows p t → Shows p r → Yields (Asserts p) (.ok (infixed t negated o r)) :=
    fun o ho hop hn ht hr => .ok (infixed_asserts hp negated ho hop hn ht hr)
  have hend : ∀ {body : Lowered}, Yields (Asserts p) body →
      Yields (Asserts p) (body.bind fun b => .ok (b ++ [])) :=
    fun h => h.bind fun b hb => .ok (hb.append_right .nil)
  have hplain : Yields (Asserts p) (matching d op negated term right none) := by
    refine ht.bind fun t ht => hr.bind fun r hr => ?_
    cases op with
    | like => exact hend (hinfixed (.word .LIKE) rfl (hp _ rfl) rfl ht hr)
    | ilike =>
      refine iteInduction (fun _ => ?_) fun _ => hend (.ok (caseless_asserts hp d negated ht hr))
      exact hend (hinfixed (.operator "ILIKE") rfl (hp _ rfl) rfl ht hr)
    | regexp => exact hend (regex_asserts hp d negated ht hr)
    | glob =>
      refine iteInduction (fun _ => ?_) fun _ => hend (.error _)
      exact hend (hinfixed (.operator "GLOB") rfl (hp _ rfl) rfl ht hr)
  cases escape with
  | none => exact hplain
  | some c =>
    rw [matching_some]
    exact hplain.map fun _ h =>
      h.append_right ((Shows.spaced rfl (hp _ rfl)).append (.cons rfl (hp _ rfl) .nil))

theorem json_asserts (d : Dialect) (op : JsonOp) (hl : Yields (Shows p) left)
    (hr : Yields (Shows p) right) : Yields (Asserts p) (json d op left right) := by
  unfold json
  split
  · exact hl.bind fun l hl => hr.bind fun r hr =>
      .pure (.append_left hl (.head rfl (hp _ rfl) rfl hr))
  · exact .error _

theorem search_asserts (d : Dialect) (op : Search) (ht : Yields (Shows p) term)
    (hv : Yields (Shows p) right) : Yields (Asserts p) (search d op term right) := by
  unfold search
  split
  · exact .error _
  · refine ht.bind fun t ht => hv.bind fun v hv => ?_
    split
    · exact .ok (.append_left ht (.head rfl (hp _ rfl) rfl hv))
    · refine .ok (invocation_asserts _ (hp _ rfl) (.listed ?_ trivial))
      split
      · exact AllNest.pair hv.nests ht.nests
      · exact AllNest.pair ht.nests hv.nests
    · refine .ok (.append_right (invocation_asserts _ (hp _ rfl) ht.nests) ?_)
      exact .blank (.cons rfl (hp _ rfl) (.blank hv.nests.parens))
    · refine .ok (.append_right (.append_right (invocation_asserts _ (hp _ rfl) ht.nests) ?_) ?_)
      · exact .spaced rfl (hp _ rfl)
      · exact (invocation_asserts _ (hp _ rfl) hv.nests).shows
    · exact regex_asserts hp d false ht hv

theorem isNull_asserts (negated : Bool) (h : Yields (Shows p) term) :
    Yields (Asserts p) (isNull negated term) := by
  refine h.bind fun t ht => .pure (.append_right (.append_right (.append_left ht ?_) ?_) ?_)
  · exact .blank (.head rfl (hp _ rfl) rfl (.blank .nil))
  · exact .negation negated (hp _ rfl)
  · exact .cons rfl (hp _ rfl) .nil

theorem isIn_asserts (negated isEmpty : Bool) (ht : Yields (Shows p) term)
    (hi : Yields AllNest items) : Yields (Asserts p) (isIn negated isEmpty term items) := by
  cases isEmpty with
  | true => exact .ok (.head rfl (hp _ rfl) rfl .nil)
  | false =>
    exact ht.bind fun t ht => hi.bind fun l hl =>
      .pure (infixed_asserts hp negated rfl (hp _ rfl) rfl ht (Shows.listed hl trivial).parens)

theorem isInRows_asserts (negated : Bool) (ht : Yields (Shows p) term)
    (hr : Yields (Shows p) right) : Yields (Asserts p) (isInRows negated term right) :=
  ht.bind fun _ ht => hr.bind fun _ hr =>
    .pure (infixed_asserts hp negated rfl (hp _ rfl) rfl ht hr)

theorem hasRows_asserts (negated : Bool) (h : Yields (Shows p) right) :
    Yields (Asserts p) (hasRows negated right) :=
  h.bind fun _ h => .pure (.append_left (.negation negated (hp _ rfl))
    (.head rfl (hp _ rfl) rfl h.blank))

theorem between_shows (negated : Bool) {low high : Lowered} (hand : p (.word .AND))
    (hbetween : p (.word .BETWEEN)) (ht : Yields (Shows p) term) (hl : Yields (Shows p) low)
    (hh : Yields (Shows p) high) : Yields (Shows p) (between negated term low high) :=
  ht.bind fun _ ht => hl.bind fun _ hl => hh.bind fun _ hh =>
    .pure (infixed_asserts hp negated rfl hbetween rfl ht
      ((hl.append (.spaced rfl hand)).append hh)).shows

end Predicate

theorem combined_shows (op : Connective) (leftOp rightOp : Option Connective)
    (hp : p (.word op.keyword)) (hl : Yields (Shows p) left) (hr : Yields (Shows p) right) :
    Yields (Shows p) (combined op leftOp rightOp left right) :=
  hl.bind fun _ hl => hr.bind fun _ hr =>
    .pure (((hl.parensIf _).append (.spaced op.role_keyword hp)).append (hr.parensIf _))

theorem negated_shows (isCombined : Bool) (hp : p (.word .NOT)) (h : Yields (Shows p) term) :
    Yields (Shows p) (negated isCombined term) :=
  h.bind fun _ h => .pure (.cons rfl hp (h.parensIf _).blank)

theorem between_nests (negated : Bool) {low high : Lowered} (ht : Yields Nests term)
    (hl : Yields Nests low) (hh : Yields Nests high) :
    Yields Nests (between negated term low high) :=
  between_shows (fun _ _ => trivial) negated trivial trivial ht hl hh

theorem combined_nests (op : Connective) (leftOp rightOp : Option Connective)
    (hl : Yields Nests left) (hr : Yields Nests right) :
    Yields Nests (combined op leftOp rightOp left right) :=
  combined_shows op leftOp rightOp trivial hl hr

theorem negated_nests (isCombined : Bool) (h : Yields Nests term) :
    Yields Nests (negated isCombined term) :=
  negated_shows isCombined trivial h

end Clause

end SqlScribe
