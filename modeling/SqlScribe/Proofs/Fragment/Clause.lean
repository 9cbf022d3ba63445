import SqlScribe.Proofs.Occurrence.Clause
/-! # Fragments in clauses

Most tokens may stand anywhere. Counts, the dot behind a qualifier and the word `LIMIT` come in
fragments of a few tokens, of which more can be said than of the tokens one by one. Clauses put
their parts together and add plain tokens only, but for the bounds of a window frame.

* `Token.standsAlone`: the token is none of those that come in fragments.
* `Tokens.Made`: the tokens are put together from plain ones and fragments.
* One law for each clause of terms and conditions, in the order of the definitions: if its parts are
  made from fragments, and so is a frame, then so is the clause. -/

namespace SqlScribe

/-- The token may stand anywhere: it is no count, not the dot behind a qualifier, and not the word
that limits rows. -/
def Token.standsAlone : Token → Bool
  | .count _ => false
  | .mark .dot => false
  | .word .LIMIT => false
  | _ => true

namespace Tokens

/-- The tokens are put together from plain ones and from fragments. -/
inductive Made (F : Tokens → Prop) : Tokens → Prop where
  /-- No tokens. -/
  | nil : Made F []
  /-- A plain token. -/
  | one {t : Token} (ht : t.standsAlone = true) : Made F [t]
  /-- A fragment. -/
  | fragment {ts : Tokens} (h : F ts) : Made F ts
  /-- Tokens behind others. -/
  | append {ts us : Tokens} (h : Made F ts) (h' : Made F us) : Made F (ts ++ us)

/-- All tokens of a list are made from fragments. -/
abbrev AllMade (F : Tokens → Prop) (l : List Tokens) : Prop := ∀ ts ∈ l, Made F ts

namespace Made

variable {F G : Tokens → Prop} {t : Token} {ts us : Tokens} {l : List Tokens}

/-- What holds of all fragments and of plain tokens, and is kept when tokens are put together, holds
of all that is made from them. -/
theorem elim {p : Tokens → Prop} (h : Made F ts) (nil : p [])
    (one : ∀ t : Token, t.standsAlone = true → p [t]) (fragment : ∀ ts, F ts → p ts)
    (append : ∀ ts us, p ts → p us → p (ts ++ us)) : p ts := by
  induction h with
  | nil => exact nil
  | one ht => exact one _ ht
  | fragment h => exact fragment _ h
  | append _ _ ih ih' => exact append _ _ ih ih'

theorem cons (ht : t.standsAlone = true) (h : Made F ts) : Made F (t :: ts) := (one ht).append h

theorem space (h : Made F ts) : Made F (.space :: ts) := h.cons rfl

theorem word (k : Keyword) (h : Made F ts) (hk : (Token.word k).standsAlone = true) :
    Made F (.word k :: ts) :=
  h.cons hk

theorem parens (h : Made F ts) : Made F (parens ts) := (h.append (one rfl)).cons rfl

theorem parensIf (wrap : Bool) (h : Made F ts) : Made F (parensIf wrap ts) := by
  cases wrap with
  | false => exact h
  | true => exact h.parens

theorem spaced (ht : t.standsAlone = true) : Made F (spaced t) := ((one rfl).cons ht).space

theorem direction (order : Option SortOrder) : Made F (direction order) := by
  cases order with
  | none => exact nil
  | some order => cases order <;> exact space (one rfl)

theorem ite {c : Bool} (h : Made F ts) (h' : Made F us) : Made F (if c then ts else us) := by
  cases c with
  | false => exact h'
  | true => exact h

/-! ## Lists -/

theorem flatten (hl : AllMade F l) : Made F l.flatten := by
  induction l with
  | nil => exact nil
  | cons ts l ih =>
    obtain ⟨hts, hl⟩ := List.forall_mem_cons.mp hl
    exact hts.append (ih hl)

theorem flatMap {α : Type} {l : List α} {g : α → Tokens} (h : ∀ a ∈ l, Made F (g a)) :
    Made F (l.flatMap g) := by
  rw [List.flatMap_def]
  exact flatten (List.forall_mem_map.mpr h)

theorem listed (hl : AllMade F l) : Made F (listed l) := by
  induction l with
  | nil => exact nil
  | cons ts l ih =>
    obtain ⟨hts, hl⟩ := List.forall_mem_cons.mp hl
    cases l with
    | nil => exact hts
    | cons us l => exact hts.append ((ih hl).cons rfl)

theorem spacedOut (hl : AllMade F l) : Made F (spacedOut l) := by
  induction l with
  | nil => exact nil
  | cons ts l ih =>
    obtain ⟨hts, hl⟩ := List.forall_mem_cons.mp hl
    cases l with
    | nil => exact hts
    | cons us l => exact hts.append (ih hl).space

theorem idents (names : List String) : Made F (idents names) :=
  listed (List.forall_mem_map.mpr fun _ _ => one rfl)

theorem pair (hts : Made F ts) (hus : Made F us) : AllMade F [ts, us] :=
  List.forall_mem_cons.mpr ⟨hts, List.forall_mem_singleton.mpr hus⟩

end Made

end Tokens

namespace Clause

open Tokens

variable {F : Tokens → Prop} {left right term : Lowered} {items args : LoweredList}

/-! ## Terms -/

theorem value_made {t : Token} (v : Value) (ht : t.standsAlone = true) :
    Yields (Made F) (value v t) := by
  unfold value
  split
  · exact iteInduction (fun _ => .ok (.one ht)) fun _ => .error _
  · exact .ok (.one ht)

theorem array_made (word : Option String) (isEmpty : Bool) (h : Yields (AllMade F) items) :
    Yields (Made F) (array word isEmpty items) := by
  have hbrackets (l : List Tokens) (hl : AllMade F l) :
      Made F (.mark .openBracket :: listed l ++ [.mark .closeBracket]) :=
    ((Made.listed hl).cons rfl).append (.one rfl)
  cases word with
  | none => exact h.bind fun l hl => .pure (hbrackets l hl)
  | some w =>
    cases isEmpty with
    | true => exact .ok (.one rfl)
    | false => exact h.bind fun l hl => .pure ((hbrackets l hl).cons rfl)

theorem arithmetic_made (op : ArithmeticOp) (leftOp rightOp : Option ArithmeticOp)
    (hl : Yields (Made F) left) (hr : Yields (Made F) right) :
    Yields (Made F) (arithmetic op leftOp rightOp left right) :=
  hl.bind fun _ hl => hr.bind fun _ hr =>
    .pure ((hl.parensIf _).append ((hr.parensIf _).cons (by cases op <;> rfl)))

theorem negative_made (isOperation : Bool) (h : Yields (Made F) term) :
    Yields (Made F) (negative isOperation term) :=
  h.bind fun _ h => .pure ((h.parensIf _).cons rfl)

theorem optional_made {dress : Tokens → Tokens} {part : Option Lowered}
    (h : ∀ x ∈ part, Yields (Made F) x) (hd : ∀ ts, Made F ts → Made F (dress ts)) :
    Yields (Made F) (optional dress part) := by
  cases part with
  | none => exact .ok .nil
  | some x => exact (h x rfl).map hd

theorem choice_made {branches : LoweredList} {otherwise : Option Lowered}
    (hb : Yields (AllMade F) branches) (ho : ∀ x ∈ otherwise, Yields (Made F) x) :
    Yields (Made F) (choice branches otherwise) := by
  refine hb.bind fun l hl => ?_
  refine (optional_made ho fun ts hts => (Made.spaced rfl).append hts).bind
    fun rest hrest => .pure ?_
  exact (((Made.flatten hl).word .CASE rfl).append hrest).append (.space (.one rfl))

theorem branch_made {condition result : Lowered} (hc : Yields (Made F) condition)
    (hr : Yields (Made F) result) : Yields (Made F) (branch condition result) :=
  hc.bind fun _ hc => hr.bind fun _ hr =>
    .pure (((hc.space.word .WHEN rfl).space.append (.spaced rfl)).append hr)

theorem invocation_made (name : String) {ts : Tokens} (h : Made F ts) :
    Made F (invocation name ts) :=
  h.parens.cons rfl

theorem firstArgument_made (name : String)
    (h : Yields (fun l => AllMade F (l.take 1)) args) :
    Yields (Made F) (firstArgument name args) := by
  refine h.bind fun l hl => ?_
  cases l with
  | nil => exact .error _
  | cons arg rest => exact .ok (hl arg List.mem_cons_self)

/-- Only the arguments that the form of a call takes are looked at. -/
theorem invoked_made (name : String) (form : CallForm) (distinct ignoreNulls : Bool)
    (h : Yields (fun l => AllMade F (form.taken l)) args) :
    Yields (Made F) (invoked name form distinct ignoreNulls args) := by
  cases form with
  | bare => exact .ok (.one rfl)
  | plain =>
    refine h.bind fun l hl => .pure (invocation_made name ?_)
    refine (Made.append (.ite ?_ .nil) (.listed hl)).append (.ite ?_ .nil)
    · exact .word _ (.one rfl) rfl
    · exact .space (.word _ (.space (.one rfl)) rfl)
  | cast type =>
    exact (firstArgument_made name h).bind fun _ harg =>
      .pure (invocation_made name ((harg.append (.spaced rfl)).append (.one rfl)))
  | convert charset =>
    exact (firstArgument_made name h).bind fun _ harg =>
      .pure (invocation_made name ((harg.append (.spaced rfl)).append (.one rfl)))
  | extract part =>
    exact (firstArgument_made name h).bind fun _ harg =>
      .pure (invocation_made name (((Made.spaced rfl).cons rfl).append harg))

theorem call_made {head : Lowered} {filter window : Option Lowered}
    (hh : Yields (Made F) head) (hf : ∀ x ∈ filter, Yields (Made F) x)
    (hw : ∀ x ∈ window, Yields (Made F) x) : Yields (Made F) (call head filter window) := by
  refine hh.bind fun head hh => ?_
  refine (optional_made hf fun c hc => ?_).bind fun filter hf => ?_
  · exact (hc.space.word .WHERE rfl).parens.word .FILTER rfl |>.space
  · exact (optional_made hw fun _ h => h.space).bind fun window hw =>
      .pure ((hh.append hf).append hw)

theorem frame_made {f : Frame} (hstart : Made F (frameBound f.start))
    (hstop : ∀ b ∈ f.stop, Made F (frameBound b)) : Made F (frame f) := by
  obtain ⟨unit, start, stop⟩ := f
  cases stop with
  | none => cases unit <;> exact hstart.space.word _ rfl
  | some stop =>
    have hrange : Made F (.word .BETWEEN :: .space :: frameBound start
        ++ spaced (.word .AND) ++ frameBound stop) :=
      ((hstart.space.word .BETWEEN rfl).append (.spaced rfl)).append (hstop stop rfl)
    cases unit <;> exact hrange.space.word _ rfl

theorem items_made {head : Tokens} {l : List Tokens} (hhead : Made F head)
    (hl : AllMade F l) : AllMade F (Clause.items head l) := by
  cases l with
  | nil => exact List.forall_mem_nil _
  | cons t l => exact List.forall_mem_singleton.mpr (hhead.append (Made.listed hl).space)

theorem window_made {partitionBy orderBy : LoweredList} {frame? : Option Frame}
    (hpart : Yields (AllMade F) partitionBy) (hord : Yields (AllMade F) orderBy)
    (hframe : ∀ f ∈ frame?, Made F (frame f)) :
    Yields (Made F) (window partitionBy orderBy frame?) := by
  refine hpart.bind fun l hl => hord.bind fun m hm =>
    .pure ((Made.parens (.spacedOut ?_)).word .OVER rfl)
  refine List.forall_mem_append.mpr ⟨List.forall_mem_append.mpr ⟨?_, ?_⟩, ?_⟩
  · exact items_made (.one rfl) hl
  · exact items_made (.one rfl) hm
  · cases frame? with
    | none => exact List.forall_mem_nil _
    | some f => exact List.forall_mem_singleton.mpr (hframe f rfl)

/-! ## Conditions -/

theorem negation_made (negated : Bool) : Made F (negation negated) :=
  .ite (.word _ (.one rfl) rfl) .nil

theorem comparison_made (op : Comparison) (withNull : Bool) (hl : Yields (Made F) left)
    (hr : Yields (Made F) right) : Yields (Made F) (comparison op withNull left right) := by
  cases withNull with
  | true => exact .error _
  | false =>
    exact hl.bind fun _ hl => hr.bind fun _ hr =>
      .pure (hl.append (hr.cons (by cases op <;> rfl)))

theorem infixed_made {l r : Tokens} {op : Token} (negated : Bool) (hop : op.standsAlone = true)
    (hl : Made F l) (hr : Made F r) : Made F (infixed l negated op r) :=
  (hl.append (negation_made negated).space).append (hr.space.cons hop)

theorem regex_made (d : Dialect) (negated : Bool) {t r : Tokens} (ht : Made F t)
    (hr : Made F r) : Yields (Made F) (regex d negated t r) := by
  unfold regex
  split
  · exact .ok ((ht.append (.spaced rfl)).append hr)
  · exact .ok ((negation_made negated).append
      (invocation_made _ (.listed (.pair ht hr))))
  · exact .error _

theorem caseless_made (d : Dialect) (negated : Bool) {t r : Tokens} (ht : Made F t)
    (hr : Made F r) : Made F (caseless d negated t r) := by
  have hcast : Made F (t ++ spaced (.word .AS) ++ [.raw d.profile.textType]) :=
    (ht.append (.spaced rfl)).append (.one rfl)
  exact infixed_made negated rfl
    (invocation_made _ (invocation_made _ hcast)) (invocation_made _ hr)

theorem matching_made (d : Dialect) (op : MatchOp) (negated : Bool) (escape : Option Char)
    (ht : Yields (Made F) term) (hr : Yields (Made F) right) :
    Yields (Made F) (matching d op negated term right escape) := by
  have hend {body : Lowered} (h : Yields (Made F) body) :
      Yields (Made F) (body.bind fun b => .ok (b ++ [])) :=
    h.bind fun _ hb => .ok (hb.append .nil)
  have hplain : Yields (Made F) (matching d op negated term right none) := by
    refine ht.bind fun t ht => hr.bind fun r hr => ?_
    have hinfixed (symbol : String) :
        Yields (Made F) (.ok (infixed t negated (.operator symbol) r)) :=
      .ok (infixed_made negated rfl ht hr)
    cases op with
    | like => exact hend (.ok (infixed_made negated rfl ht hr))
    | ilike =>
      exact iteInduction (fun _ => hend (hinfixed "ILIKE"))
        fun _ => hend (.ok (caseless_made d negated ht hr))
    | regexp => exact hend (regex_made d negated ht hr)
    | glob => exact iteInduction (fun _ => hend (hinfixed "GLOB")) fun _ => hend (.error _)
  cases escape with
  | none => exact hplain
  | some c =>
    rw [matching_some]
    exact hplain.map fun _ h => h.append ((Made.spaced rfl).append (.one rfl))

theorem json_made (d : Dialect) (op : JsonOp) (hl : Yields (Made F) left)
    (hr : Yields (Made F) right) : Yields (Made F) (json d op left right) := by
  refine iteInduction (fun _ => ?_) fun _ => .error _
  exact hl.bind fun _ hl => hr.bind fun _ hr => .pure (hl.append (hr.cons rfl))

theorem search_made (d : Dialect) (op : Search) (ht : Yields (Made F) term)
    (hv : Yields (Made F) right) : Yields (Made F) (search d op term right) := by
  unfold search
  split
  · exact .error _
  · next style _ =>
    refine ht.bind fun t ht => hv.bind fun v hv => ?_
    cases style with
    | operator symbol => exact .ok (ht.append (hv.cons rfl))
    | function name valueFirst =>
      refine .ok (invocation_made name (.listed ?_))
      cases valueFirst with
      | true => exact .pair hv ht
      | false => exact .pair ht hv
    | matchAgainst =>
      exact .ok ((invocation_made _ ht).append (hv.parens.space.cons rfl).space)
    | textVectors =>
      exact .ok (((invocation_made _ ht).append (.spaced rfl)).append
        (invocation_made _ hv))
    | regex => exact regex_made d false ht hv

theorem isNull_made (negated : Bool) (h : Yields (Made F) term) :
    Yields (Made F) (isNull negated term) :=
  h.bind fun _ h => .pure
    (((h.append (.spaced rfl)).append (negation_made negated)).append (.one rfl))

theorem isIn_made (negated isEmpty : Bool)
    (ht : isEmpty = false → Yields (Made F) term)
    (hi : isEmpty = false → Yields (AllMade F) items) :
    Yields (Made F) (isIn negated isEmpty term items) := by
  cases isEmpty with
  | true => exact .ok (.one rfl)
  | false =>
    exact (ht rfl).bind fun _ ht => (hi rfl).bind fun _ hl =>
      .pure (infixed_made negated rfl ht (Made.listed hl).parens)

theorem isInRows_made (negated : Bool) (ht : Yields (Made F) term)
    (hr : Yields (Made F) right) : Yields (Made F) (isInRows negated term right) :=
  ht.bind fun _ ht => hr.bind fun _ hr => .pure (infixed_made negated rfl ht hr)

theorem between_made (negated : Bool) {low high : Lowered} (ht : Yields (Made F) term)
    (hl : Yields (Made F) low) (hh : Yields (Made F) high) :
    Yields (Made F) (between negated term low high) :=
  ht.bind fun _ ht => hl.bind fun _ hl => hh.bind fun _ hh =>
    .pure (infixed_made negated rfl ht ((hl.append (.spaced rfl)).append hh))

theorem hasRows_made (negated : Bool) (h : Yields (Made F) right) :
    Yields (Made F) (hasRows negated right) :=
  h.bind fun _ h => .pure ((negation_made negated).append (h.space.word .EXISTS rfl))

theorem combined_made (op : Connective) (leftOp rightOp : Option Connective)
    (hl : Yields (Made F) left) (hr : Yields (Made F) right) :
    Yields (Made F) (combined op leftOp rightOp left right) :=
  hl.bind fun _ hl => hr.bind fun _ hr =>
    .pure (((hl.parensIf _).append (.spaced (by cases op <;> rfl))).append (hr.parensIf _))

theorem negated_made (isCombined : Bool) (h : Yields (Made F) term) :
    Yields (Made F) (negated isCombined term) :=
  h.bind fun _ h => .pure ((h.parensIf _).space.word .NOT rfl)

end Clause

end SqlScribe
