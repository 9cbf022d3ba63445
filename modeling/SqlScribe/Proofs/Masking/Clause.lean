import SqlScribe.Lowering.Clause
import SqlScribe.Proofs.Masking.Syntax
/-! # Clauses without values

Tokens can be masked as syntax can. A clause looks at its parts, but never at the values in them:
masking its parts masks its tokens and changes nothing else, above all not the error it ends with.

* `Tokens.masked`, `Lowered.masked`: tokens, and results with tokens, behind the mask.
* `Lowered.masked_bind`, `LoweredList.masked_bind`: what comes after a part only has to keep to the
  mask for tokens that are there.
* One law for each clause. -/

namespace SqlScribe

/-- The token with its value masked. -/
@[simp] def Token.masked : Token → Token
  | .literal v => .literal v.masked
  | .named name v => .named name v.masked
  | t => t

namespace Tokens

/-- The tokens with their values masked. -/
def masked (ts : Tokens) : Tokens := ts.map Token.masked

@[simp] theorem masked_nil : masked [] = [] := rfl

@[simp] theorem masked_cons (t : Token) (ts : Tokens) :
    masked (t :: ts) = t.masked :: masked ts := rfl

@[simp] theorem masked_append (ts us : Tokens) : masked (ts ++ us) = masked ts ++ masked us :=
  List.map_append

@[simp] theorem masked_flatMap {α : Type} (l : List α) (f : α → Tokens) :
    masked (l.flatMap f) = l.flatMap fun a => masked (f a) :=
  List.map_flatMap

@[simp] theorem masked_flatten (l : List Tokens) : masked l.flatten = (l.map masked).flatten :=
  List.map_flatten

@[simp] theorem masked_parens (ts : Tokens) : masked (parens ts) = parens (masked ts) := by
  simp [parens]

@[simp] theorem masked_parensIf (wrap : Bool) (ts : Tokens) :
    masked (parensIf wrap ts) = parensIf wrap (masked ts) := by
  cases wrap <;> simp [parensIf]

@[simp] theorem masked_spaced (k : Keyword) : masked (spaced (.word k)) = spaced (.word k) := rfl

@[simp] theorem masked_spaced_operator (symbol : String) :
    masked (spaced (.operator symbol)) = spaced (.operator symbol) := rfl

@[simp] theorem masked_listed (l : List Tokens) : masked (listed l) = listed (l.map masked) := by
  induction l with
  | nil => rfl
  | cons ts l ih =>
    cases l with
    | nil => rfl
    | cons us l =>
      rw [listed_cons_cons, masked_append, masked_cons, ih]
      rfl

@[simp] theorem masked_spacedOut (l : List Tokens) :
    masked (spacedOut l) = spacedOut (l.map masked) := by
  induction l with
  | nil => rfl
  | cons ts l ih =>
    cases l with
    | nil => rfl
    | cons us l =>
      rw [spacedOut_cons_cons, masked_append, masked_cons, ih]
      rfl

@[simp] theorem masked_idents (names : List String) : masked (idents names) = idents names := by
  simp [idents, Function.comp_def]

@[simp] theorem masked_direction (order : Option SortOrder) :
    masked (direction order) = direction order := by
  cases order <;> rfl

end Tokens

open Tokens

/-! ## Results -/

/-- The result with the values of its tokens masked. -/
def Lowered.masked (x : Lowered) : Lowered := x.map Tokens.masked

/-- The results with the values of their tokens masked. -/
def LoweredList.masked (x : LoweredList) : LoweredList := x.map (List.map Tokens.masked)

namespace Lowered

@[simp] theorem masked_ok (ts : Tokens) : masked (.ok ts) = .ok ts.masked := rfl

@[simp] theorem masked_pure (ts : Tokens) : masked (pure ts) = pure ts.masked := rfl

@[simp] theorem masked_error (e : QueryError) : masked (.error e) = .error e := rfl

/-- What follows a part keeps to the mask if it does so for the tokens of the part. -/
theorem masked_bind {x : Lowered} {f g : Tokens → Lowered}
    (h : ∀ ts, g ts.masked = (f ts).masked) : x.masked >>= g = masked (x >>= f) := by
  cases x with
  | error e => rfl
  | ok ts => exact h ts

/-- What follows a part without values. -/
theorem masked_bind_of_eq {x : Lowered} {f g : Tokens → Lowered} (hx : x.masked = x)
    (h : ∀ ts, g ts.masked = (f ts).masked) : x >>= g = masked (x >>= f) := by
  rw [← masked_bind h, hx]

/-- What stands behind a part keeps to the mask if it holds no value. -/
theorem masked_bind_append {x x' : Lowered} {tail : Tokens} (htail : tail.masked = tail)
    (h : x' = x.masked) :
    (x' >>= fun ts => pure (ts ++ tail)) = masked (x >>= fun ts => pure (ts ++ tail)) := by
  subst h
  exact masked_bind fun ts => by simp [htail]

theorem masked_ite (c : Prop) [Decidable c] {x y x' y' : Lowered} (h : x' = x.masked)
    (h' : y' = y.masked) : (if c then x' else y') = masked (if c then x else y) := by
  split
  · exact h
  · exact h'

end Lowered

namespace LoweredList

@[simp] theorem masked_ok (l : List Tokens) : masked (.ok l) = .ok (l.map Tokens.masked) := rfl

@[simp] theorem masked_error (e : QueryError) : masked (.error e) = .error e := rfl

/-- What follows parts keeps to the mask if it does so for the tokens of the parts. -/
theorem masked_bind {x : LoweredList} {f g : List Tokens → Lowered}
    (h : ∀ l, g (l.map Tokens.masked) = (f l).masked) :
    x.masked >>= g = Lowered.masked (x >>= f) := by
  cases x with
  | error e => rfl
  | ok l => exact h l

/-- A part, dressed in tokens without values, and the parts after it. -/
theorem masked_cons (x : Lowered) (l : LoweredList) {dress : Tokens → Tokens}
    (h : ∀ ts, dress ts.masked = (dress ts).masked) :
    (do
      let ts ← x.masked
      let us ← l.masked
      return dress ts :: us : LoweredList) =
    masked (do
      let ts ← x
      let us ← l
      return dress ts :: us) := by
  cases x with
  | error e => rfl
  | ok ts =>
    cases l with
    | error e => rfl
    | ok us => exact congrArg (fun ts => Except.ok (ts :: us.map Tokens.masked)) (h ts)

end LoweredList

namespace Clause

open Lowered

variable (left right term : Lowered) (items args branches : LoweredList)

/-! ## Terms -/

/-- Whether a value can be written is all that shows of it. -/
theorem value_masked (v : Value) (t : Token) : value v.masked t.masked = (value v t).masked := by
  cases v with
  | float x =>
    cases hx : x.isFinite with
    | true => simp [Value.masked, Value.hasLiteral, value, hx]
    | false => simp [Value.masked, Value.hasLiteral, value, hx]
  | _ => rfl

theorem array_masked (word : Option String) (isEmpty : Bool) :
    array word isEmpty items.masked = (array word isEmpty items).masked := by
  cases word with
  | none => exact LoweredList.masked_bind fun l => by simp
  | some w =>
    refine masked_ite _ rfl ?_
    exact LoweredList.masked_bind fun l => by simp

theorem arithmetic_masked (op : ArithmeticOp) (leftOp rightOp : Option ArithmeticOp) :
    arithmetic op leftOp rightOp left.masked right.masked =
      (arithmetic op leftOp rightOp left right).masked :=
  masked_bind fun l => masked_bind fun r => by simp

theorem negative_masked (isOperation : Bool) :
    negative isOperation term.masked = (negative isOperation term).masked :=
  masked_bind fun t => by simp

/-- A part that may be missing keeps to the mask if its dress does. -/
theorem optional_masked {dress : Tokens → Tokens} (h : ∀ ts, dress ts.masked = (dress ts).masked)
    (part : Option Lowered) :
    optional dress (part.map Lowered.masked) = (optional dress part).masked := by
  cases part with
  | none => rfl
  | some x =>
    cases x with
    | error e => rfl
    | ok ts => exact congrArg Except.ok (h ts)

theorem choice_masked (otherwise : Option Lowered) :
    choice branches.masked (otherwise.map Lowered.masked) = (choice branches otherwise).masked := by
  refine LoweredList.masked_bind fun l => ?_
  rw [optional_masked (fun ts => by simp)]
  exact masked_bind fun rest => by simp

theorem branch_masked : branch left.masked right.masked = (branch left right).masked :=
  masked_bind fun c => masked_bind fun r => by simp

@[simp] theorem masked_invocation (name : String) (inner : Tokens) :
    (invocation name inner).masked = invocation name inner.masked := by
  simp [invocation]

theorem firstArgument_masked (name : String) :
    firstArgument name args.masked = (firstArgument name args).masked := by
  refine LoweredList.masked_bind fun l => ?_
  cases l <;> rfl

theorem invoked_masked (name : String) (form : CallForm) (distinct ignoreNulls : Bool) :
    invoked name form distinct ignoreNulls args.masked =
      (invoked name form distinct ignoreNulls args).masked := by
  cases form with
  | bare => rfl
  | plain =>
    refine LoweredList.masked_bind fun l => ?_
    cases distinct <;> cases ignoreNulls <;> simp
  | cast type =>
    rw [invoked, firstArgument_masked]
    exact masked_bind fun arg => by simp
  | convert charset =>
    rw [invoked, firstArgument_masked]
    exact masked_bind fun arg => by simp
  | extract part =>
    rw [invoked, firstArgument_masked]
    exact masked_bind fun arg => by simp

theorem call_masked (head : Lowered) (filter window : Option Lowered) :
    call head.masked (filter.map Lowered.masked) (window.map Lowered.masked) =
      (call head filter window).masked := by
  refine masked_bind fun h => ?_
  rw [optional_masked (fun ts => by simp), optional_masked (fun ts => by simp)]
  exact masked_bind fun f => masked_bind fun w => by simp

@[simp] theorem masked_frameBound (b : FrameBound) : (frameBound b).masked = frameBound b := by
  cases b <;> rfl

@[simp] theorem masked_frame (f : Frame) : (frame f).masked = frame f := by
  obtain ⟨unit, start, stop⟩ := f
  cases stop <;> cases unit <;> simp [frame]

@[simp] theorem map_masked_items (k : Keyword) (l : List Tokens) :
    (Clause.items [.word k] l).map Tokens.masked =
      Clause.items [.word k] (l.map Tokens.masked) := by
  cases l <;> simp [Clause.items]

theorem window_masked (partitionBy orderBy : LoweredList) (frame? : Option Frame) :
    window partitionBy.masked orderBy.masked frame? =
      (window partitionBy orderBy frame?).masked := by
  refine LoweredList.masked_bind fun l => LoweredList.masked_bind fun m => ?_
  cases frame? <;> simp

/-! ## Conditions -/

@[simp] theorem masked_negation (negated : Bool) :
    (negation negated).masked = negation negated := by
  cases negated <;> rfl

@[simp] theorem masked_infixed (left right : Tokens) (negated : Bool) (op : Token) :
    (infixed left negated op right).masked =
      infixed left.masked negated op.masked right.masked := by
  simp [infixed]

theorem comparison_masked (op : Comparison) (withNull : Bool) :
    comparison op withNull left.masked right.masked =
      (comparison op withNull left right).masked :=
  masked_ite _ rfl (masked_bind fun l => masked_bind fun r => by simp)

theorem regex_masked (d : Dialect) (negated : Bool) (term pattern : Tokens) :
    regex d negated term.masked pattern.masked = (regex d negated term pattern).masked := by
  unfold regex
  split <;> simp

@[simp] theorem masked_caseless (d : Dialect) (negated : Bool) (term pattern : Tokens) :
    (caseless d negated term pattern).masked = caseless d negated term.masked pattern.masked := by
  simp [caseless]

theorem matching_masked (d : Dialect) (op : MatchOp) (negated : Bool) (pattern : Lowered)
    (escape : Option Char) :
    matching d op negated term.masked pattern.masked escape =
      (matching d op negated term pattern escape).masked := by
  refine masked_bind fun t => masked_bind fun p => ?_
  -- What stands behind the match holds no value, be there an escape character or not.
  cases escape
  all_goals
    cases op with
    | like => exact masked_bind_append (by simp) (by simp)
    | ilike =>
      cases d.profile.ilike with
      | true => exact masked_bind_append (by simp) (by simp)
      | false => exact masked_bind_append (by simp) (by simp)
    | regexp => exact masked_bind_append (by simp) (regex_masked d negated t p)
    | glob =>
      cases d.profile.glob with
      | true => exact masked_bind_append (by simp) (by simp)
      | false => rfl

theorem json_masked (d : Dialect) (op : JsonOp) :
    json d op left.masked right.masked = (json d op left right).masked :=
  masked_ite _ (masked_bind fun l => masked_bind fun r => by simp) rfl

theorem search_masked (d : Dialect) (op : Search) (value : Lowered) :
    search d op term.masked value.masked = (search d op term value).masked := by
  unfold search
  split
  · rfl
  · next style _ =>
    refine masked_bind fun t => masked_bind fun v => ?_
    cases style with
    | operator symbol => simp
    | function name valueFirst => cases valueFirst <;> simp
    | matchAgainst => simp
    | textVectors => simp
    | regex => exact regex_masked d false t v

theorem isNull_masked (negated : Bool) :
    isNull negated term.masked = (isNull negated term).masked :=
  masked_bind fun t => by simp

theorem isIn_masked (negated isEmpty : Bool) :
    isIn negated isEmpty term.masked items.masked = (isIn negated isEmpty term items).masked :=
  masked_ite _ rfl (masked_bind fun t => LoweredList.masked_bind fun l => by simp)

theorem isInRows_masked (negated : Bool) (rows : Lowered) :
    isInRows negated term.masked rows.masked = (isInRows negated term rows).masked :=
  masked_bind fun t => masked_bind fun r => by simp

theorem between_masked (negated : Bool) (low high : Lowered) :
    between negated term.masked low.masked high.masked = (between negated term low high).masked :=
  masked_bind fun t => masked_bind fun l => masked_bind fun h => by simp

theorem hasRows_masked (negated : Bool) (rows : Lowered) :
    hasRows negated rows.masked = (hasRows negated rows).masked :=
  masked_bind fun r => by simp

theorem combined_masked (op : Connective) (leftOp rightOp : Option Connective) :
    combined op leftOp rightOp left.masked right.masked =
      (combined op leftOp rightOp left right).masked :=
  masked_bind fun l => masked_bind fun r => by simp

theorem negated_masked (isCombined : Bool) :
    negated isCombined term.masked = (negated isCombined term).masked :=
  masked_bind fun c => by simp

end Clause

end SqlScribe
