import SqlScribe.Proofs.Nesting.Clause
/-! # Parts within clauses

A clause writes the tokens of its parts as they are, each in one piece.

* `Tokens.Holds`, `Tokens.HoldsAll`: the tokens of a part, or of each item of a list, stand within
  tokens in one piece.
* `CallForm.taken`: the arguments that a form of a call writes.
* One law for each clause: its parts are there and stand within what it yields. -/

namespace SqlScribe

namespace Tokens

/-- The part has tokens, and they stand within others in one piece. -/
def Holds (part : Lowered) (ts : Tokens) : Prop := ∃ us, part = .ok us ∧ us <:+: ts

/-- The items have tokens, and those of each stand within others in one piece. -/
def HoldsAll (items : LoweredList) (ts : Tokens) : Prop :=
  ∃ l, items = .ok l ∧ ∀ us ∈ l, us <:+: ts

variable {part : Lowered} {items : LoweredList} {ts us : Tokens}

theorem Holds.mono (h : Holds part ts) (hts : ts <:+: us) : Holds part us := by
  obtain ⟨vs, hpart, hvs⟩ := h
  exact ⟨vs, hpart, hvs.trans hts⟩

theorem HoldsAll.mono (h : HoldsAll items ts) (hts : ts <:+: us) : HoldsAll items us := by
  obtain ⟨l, hitems, hl⟩ := h
  exact ⟨l, hitems, fun vs hvs => (hl vs hvs).trans hts⟩

theorem infix_parens (ts : Tokens) : ts <:+: parens ts :=
  List.infix_append [Token.mark .openParen] ts [.mark .closeParen]

theorem infix_parensIf (wrap : Bool) (ts : Tokens) : ts <:+: parensIf wrap ts := by
  cases wrap with
  | false => exact List.infix_refl ts
  | true => exact infix_parens ts

theorem infix_listed {l : List Tokens} (h : ts ∈ l) : ts <:+: listed l := by
  induction l with
  | nil => cases h
  | cons us l ih =>
    cases l with
    | nil =>
      cases List.mem_singleton.mp h
      exact List.infix_refl ts
    | cons vs l =>
      rw [listed_cons_cons]
      rcases List.mem_cons.mp h with rfl | h
      · exact List.infix_append_left
      · exact List.infix_append_of_infix_right (List.infix_cons (ih h))

theorem infix_spacedOut {l : List Tokens} (h : ts ∈ l) : ts <:+: spacedOut l := by
  induction l with
  | nil => cases h
  | cons us l ih =>
    cases l with
    | nil =>
      cases List.mem_singleton.mp h
      exact List.infix_refl ts
    | cons vs l =>
      rw [spacedOut_cons_cons]
      rcases List.mem_cons.mp h with rfl | h
      · exact List.infix_append_left
      · exact List.infix_append_of_infix_right (List.infix_cons (ih h))

theorem infix_invocation (name : String) (ts : Tokens) : ts <:+: Clause.invocation name ts :=
  List.infix_cons (infix_parens ts)

end Tokens

/-- The result, if there is one, is what it is. -/
theorem Yields.self {α : Type} (x : Except QueryError α) : Yields (fun a => x = .ok a) x :=
  fun _ h => h

/-- The arguments that a call writes: all, none, or only the first. -/
def CallForm.taken {α : Type} : CallForm → List α → List α
  | .plain, args => args
  | .bare, _ => []
  | .cast _, args => args.take 1
  | .convert _, args => args.take 1
  | .extract _, args => args.take 1

open Tokens

namespace Clause

variable {left right term : Lowered} {items args : LoweredList}

/-! ## Terms -/

theorem array_holds (word : Option String) (isEmpty : Bool) :
    Yields (fun ts => isEmpty = false → HoldsAll items ts) (array word isEmpty items) := by
  have hitems : ∀ before behind : Tokens, Yields (HoldsAll items)
      (items >>= fun l => pure (before ++ listed l ++ behind)) := fun before behind =>
    (Yields.self items).bind fun l hl => .pure
      ⟨l, hl, fun us hus => (infix_listed hus).trans (List.infix_append before (listed l) behind)⟩
  cases word with
  | none => exact (hitems [.mark .openBracket] [.mark .closeBracket]).mono fun _ h _ => h
  | some w =>
    cases isEmpty with
    | true => exact .ok fun h => by cases h
    | false =>
      exact (hitems [.raw w, .mark .openBracket] [.mark .closeBracket]).mono fun _ h _ => h

theorem arithmetic_holds (op : ArithmeticOp) (leftOp rightOp : Option ArithmeticOp) :
    Yields (fun ts => Holds left ts ∧ Holds right ts)
      (arithmetic op leftOp rightOp left right) :=
  (Yields.self left).bind fun l hl => (Yields.self right).bind fun r hr => .pure
    ⟨⟨l, hl, List.infix_append_of_infix_left (infix_parensIf _ l)⟩,
      ⟨r, hr, List.infix_append_of_infix_right (List.infix_cons (infix_parensIf _ r))⟩⟩

theorem negative_holds (isOperation : Bool) : Yields (Holds term) (negative isOperation term) :=
  (Yields.self term).bind fun t ht => .pure ⟨t, ht, List.infix_cons (infix_parensIf _ t)⟩

/-- A part that may be missing stands in its dress. -/
theorem optional_holds {dress : Tokens → Tokens} (hdress : ∀ ts, ts <:+: dress ts)
    (part : Option Lowered) :
    Yields (fun ts => ∀ x ∈ part, Holds x ts) (optional dress part) := by
  cases part with
  | none => exact .ok (by simp)
  | some x =>
    refine (Yields.self x).map fun ts hts y hy => ?_
    cases hy
    exact ⟨ts, hts, hdress ts⟩

theorem choice_holds {branches : LoweredList} (otherwise : Option Lowered) :
    Yields (fun ts => HoldsAll branches ts ∧ ∀ x ∈ otherwise, Holds x ts)
      (choice branches otherwise) := by
  have helse : Yields (fun ts => ∀ x ∈ otherwise, Holds x ts)
      (optional (spaced (.word .ELSE) ++ ·) otherwise) :=
    optional_holds (fun _ => List.infix_append_right) otherwise
  refine (Yields.self branches).bind fun l hl => helse.bind fun rest hrest => .pure ⟨?_, ?_⟩
  · refine ⟨l, hl, fun us hus => ?_⟩
    rw [List.append_assoc]
    exact List.infix_append_of_infix_left (List.infix_cons (List.infix_of_mem_flatten hus))
  · exact fun x hx => (hrest x hx).mono
      (List.infix_append (.word .CASE :: l.flatten) rest [.space, .word .END])

theorem branch_holds {condition result : Lowered} :
    Yields (fun ts => Holds condition ts ∧ Holds result ts) (branch condition result) :=
  (Yields.self condition).bind fun c hc => (Yields.self result).bind fun r hr => .pure
    ⟨⟨c, hc, List.infix_append_of_infix_left
      (List.infix_append [Token.space, .word .WHEN, .space] c (spaced (.word .THEN)))⟩,
      ⟨r, hr, List.infix_append_right⟩⟩

/-- The single argument that some forms of a call take is the first. -/
theorem firstArgument_eq (name : String) :
    Yields (fun arg => ∃ l, args = .ok l ∧ ∀ us ∈ l.take 1, us = arg)
      (firstArgument name args) := by
  refine (Yields.self args).bind fun l hl => ?_
  cases l with
  | nil => exact .error _
  | cons arg rest => exact .ok ⟨arg :: rest, hl, fun us hus => by simpa using hus⟩

theorem invoked_holds (name : String) (form : CallForm) (distinct ignoreNulls : Bool) :
    Yields (fun ts => form ≠ .bare → ∃ l, args = .ok l ∧ ∀ us ∈ form.taken l, us <:+: ts)
      (invoked name form distinct ignoreNulls args) := by
  -- In every form with arguments they stand between the same parentheses.
  have hinner : ∀ {ts : Tokens} (pre post : Tokens),
      ts <:+: invocation name (pre ++ ts ++ post) := fun {ts} pre post =>
    (List.infix_append pre ts post).trans (infix_invocation name _)
  cases form with
  | bare => exact .ok fun h => absurd rfl h
  | plain =>
    exact (Yields.self args).bind fun l hl => .pure fun _ =>
      ⟨l, hl, fun us hus => (infix_listed hus).trans (hinner _ _)⟩
  | cast type =>
    refine (firstArgument_eq name).bind fun arg h => .pure fun _ => ?_
    obtain ⟨l, hl, hfirst⟩ := h
    refine ⟨l, hl, fun us hus => ?_⟩
    rw [hfirst us hus, List.append_assoc]
    exact hinner [] _
  | convert charset =>
    refine (firstArgument_eq name).bind fun arg h => .pure fun _ => ?_
    obtain ⟨l, hl, hfirst⟩ := h
    refine ⟨l, hl, fun us hus => ?_⟩
    rw [hfirst us hus, List.append_assoc]
    exact hinner [] _
  | extract part =>
    refine (firstArgument_eq name).bind fun arg h => .pure fun _ => ?_
    obtain ⟨l, hl, hfirst⟩ := h
    refine ⟨l, hl, fun us hus => ?_⟩
    rw [hfirst us hus]
    exact List.infix_append_right.trans (infix_invocation name _)

theorem call_holds {head : Lowered} (filter window : Option Lowered) :
    Yields (fun ts => Holds head ts ∧ (∀ x ∈ filter, Holds x ts) ∧ ∀ x ∈ window, Holds x ts)
      (call head filter window) := by
  have hfilter : ∀ c : Tokens,
      c <:+: .space :: .word .FILTER :: parens (.word .WHERE :: .space :: c) := fun c =>
    List.infix_cons (List.infix_cons
      ((List.infix_cons (List.infix_cons (List.infix_refl c))).trans (infix_parens _)))
  have hwindow : ∀ w : Tokens, w <:+: .space :: w := fun w => List.infix_cons (List.infix_refl w)
  exact (Yields.self head).bind fun h hh => (optional_holds hfilter filter).bind fun f hf =>
    (optional_holds hwindow window).bind fun w hw => .pure
      ⟨⟨h, hh, List.infix_append_of_infix_left List.infix_append_left⟩,
        fun x hx => (hf x hx).mono (List.infix_append h f w),
        fun x hx => (hw x hx).mono List.infix_append_right⟩

/-- The items of a clause stand in it, if there are any. -/
theorem infix_items (head : Tokens) {us : Tokens} {l : List Tokens} (h : us ∈ l) :
    ∃ ts ∈ Clause.items head l, us <:+: ts := by
  cases l with
  | nil => cases h
  | cons t l =>
    exact ⟨_, List.mem_singleton.mpr rfl,
      List.infix_append_of_infix_right (List.infix_cons (infix_listed h))⟩

theorem window_holds {partitionBy orderBy : LoweredList} (frame? : Option Frame) :
    Yields (fun ts => HoldsAll partitionBy ts ∧ HoldsAll orderBy ts)
      (window partitionBy orderBy frame?) := by
  refine (Yields.self partitionBy).bind fun l hl => (Yields.self orderBy).bind fun m hm =>
    .pure ⟨⟨l, hl, fun us hus => ?_⟩, ⟨m, hm, fun us hus => ?_⟩⟩
  · obtain ⟨ts, hts, hsub⟩ := infix_items [.word .PARTITION_BY] hus
    refine hsub.trans (List.infix_cons ((infix_spacedOut ?_).trans (infix_parens _)))
    exact List.mem_append_left _ (List.mem_append_left _ hts)
  · obtain ⟨ts, hts, hsub⟩ := infix_items [.word .ORDER_BY] hus
    refine hsub.trans (List.infix_cons ((infix_spacedOut ?_).trans (infix_parens _)))
    exact List.mem_append_left _ (List.mem_append_right _ hts)

/-! ## Conditions -/

theorem comparison_holds (op : Comparison) (withNull : Bool) :
    Yields (fun ts => Holds left ts ∧ Holds right ts) (comparison op withNull left right) := by
  cases withNull with
  | true => exact .error _
  | false =>
    exact (Yields.self left).bind fun l hl => (Yields.self right).bind fun r hr => .pure
      ⟨⟨l, hl, List.infix_append_left⟩,
        ⟨r, hr, List.infix_append_of_infix_right (List.infix_cons (List.infix_refl r))⟩⟩

theorem infix_infixed (l : Tokens) (negated : Bool) (op : Token) (r : Tokens) :
    l <:+: infixed l negated op r ∧ r <:+: infixed l negated op r := by
  unfold infixed
  rw [List.append_assoc]
  refine ⟨List.infix_append_left, List.infix_append_of_infix_right ?_⟩
  exact List.infix_append_of_infix_right (List.infix_cons (List.infix_cons (List.infix_refl r)))

/-- The operands of a match of a regular expression stand in it. -/
theorem regex_holds (d : Dialect) (negated : Bool) (t p : Tokens) :
    Yields (fun ts => t <:+: ts ∧ p <:+: ts) (regex d negated t p) := by
  unfold regex
  split
  · exact .ok ⟨List.infix_append_of_infix_left List.infix_append_left, List.infix_append_right⟩
  · next name _ =>
    have hlisted : ∀ us ∈ [t, p], us <:+: negation negated ++ invocation name (listed [t, p]) :=
      fun us hus => List.infix_append_of_infix_right
        ((infix_listed hus).trans (infix_invocation name _))
    exact .ok ⟨hlisted t (by simp), hlisted p (by simp)⟩
  · exact .error _

theorem infix_caseless (d : Dialect) (negated : Bool) (t p : Tokens) :
    t <:+: caseless d negated t p ∧ p <:+: caseless d negated t p := by
  unfold caseless
  have hcast : t <:+: invocation "CAST" (t ++ spaced (.word .AS) ++ [.raw d.profile.textType]) :=
    (List.infix_append_of_infix_left List.infix_append_left).trans (infix_invocation _ _)
  obtain ⟨hleft, hright⟩ := infix_infixed (invocation "UPPER"
    (invocation "CAST" (t ++ spaced (.word .AS) ++ [.raw d.profile.textType]))) negated
    (.word .LIKE) (invocation "UPPER" p)
  exact ⟨(hcast.trans (infix_invocation _ _)).trans hleft, (infix_invocation _ p).trans hright⟩

theorem matching_holds (d : Dialect) (op : MatchOp) (negated : Bool) (escape : Option Char) :
    Yields (fun ts => Holds left ts ∧ Holds right ts)
      (matching d op negated left right escape) := by
  refine (Yields.self left).bind fun t ht => (Yields.self right).bind fun p hp => ?_
  have hend : ∀ {body : Lowered} {tail : Tokens},
      Yields (fun ts => t <:+: ts ∧ p <:+: ts) body →
      Yields (fun ts => Holds left ts ∧ Holds right ts) (body >>= fun b => pure (b ++ tail)) :=
    fun h => h.bind fun b hb => .pure
      ⟨⟨t, ht, List.infix_append_of_infix_left hb.1⟩, ⟨p, hp, List.infix_append_of_infix_left hb.2⟩⟩
  cases op with
  | like => exact hend (.ok (infix_infixed t negated (.word .LIKE) p))
  | ilike =>
    refine iteInduction (fun _ => ?_) fun _ => hend (.ok (infix_caseless d negated t p))
    exact hend (.ok (infix_infixed t negated (.operator "ILIKE") p))
  | regexp => exact hend (regex_holds d negated t p)
  | glob =>
    refine iteInduction (fun _ => ?_) fun _ => hend (.error _)
    exact hend (.ok (infix_infixed t negated (.operator "GLOB") p))

theorem json_holds (d : Dialect) (op : JsonOp) :
    Yields (fun ts => Holds left ts ∧ Holds right ts) (json d op left right) := by
  unfold json
  split
  · exact (Yields.self left).bind fun l hl => (Yields.self right).bind fun r hr => .pure
      ⟨⟨l, hl, List.infix_append_left⟩,
        ⟨r, hr, List.infix_append_of_infix_right (List.infix_cons (List.infix_refl r))⟩⟩
  · exact .error _

theorem search_holds (d : Dialect) (op : Search) :
    Yields (fun ts => Holds left ts ∧ Holds right ts) (search d op left right) := by
  unfold search
  split
  · exact .error _
  · next style _ =>
    refine (Yields.self left).bind fun t ht => (Yields.self right).bind fun v hv => ?_
    have hboth : ∀ {x : Lowered}, Yields (fun ts => t <:+: ts ∧ v <:+: ts) x →
        Yields (fun ts => Holds left ts ∧ Holds right ts) x :=
      fun h => h.mono fun _ h => ⟨⟨t, ht, h.1⟩, ⟨v, hv, h.2⟩⟩
    cases style with
    | operator symbol =>
      exact hboth (.ok ⟨List.infix_append_left,
        List.infix_append_of_infix_right (List.infix_cons (List.infix_refl v))⟩)
    | function name valueFirst =>
      have hlisted : ∀ {l : List Tokens}, ∀ us ∈ l, us <:+: invocation name (listed l) :=
        fun us hus => (infix_listed hus).trans (infix_invocation name _)
      cases valueFirst with
      | false => exact hboth (.ok ⟨hlisted t (by simp), hlisted v (by simp)⟩)
      | true => exact hboth (.ok ⟨hlisted t (by simp), hlisted v (by simp)⟩)
    | matchAgainst =>
      refine hboth (.ok ⟨List.infix_append_of_infix_left (infix_invocation _ t), ?_⟩)
      refine List.infix_append_of_infix_right ?_
      exact List.infix_cons (List.infix_cons (List.infix_cons (infix_parens v)))
    | textVectors =>
      refine hboth (.ok ⟨?_, List.infix_append_of_infix_right (infix_invocation _ v)⟩)
      exact List.infix_append_of_infix_left
        (List.infix_append_of_infix_left (infix_invocation _ t))
    | regex => exact hboth (regex_holds d false t v)

theorem isNull_holds (negated : Bool) : Yields (Holds term) (isNull negated term) :=
  (Yields.self term).bind fun t ht => .pure ⟨t, ht, List.infix_append_of_infix_left
    (List.infix_append_of_infix_left List.infix_append_left)⟩

theorem isIn_holds (negated isEmpty : Bool) :
    Yields (fun ts => isEmpty = false → Holds term ts ∧ HoldsAll items ts)
      (isIn negated isEmpty term items) := by
  cases isEmpty with
  | true => exact .ok fun h => by cases h
  | false =>
    refine (Yields.self term).bind fun t ht => (Yields.self items).bind fun l hl =>
      .pure fun _ => ?_
    obtain ⟨hleft, hright⟩ := infix_infixed t negated (.word .IN) (parens (listed l))
    exact ⟨⟨t, ht, hleft⟩,
      ⟨l, hl, fun us hus => ((infix_listed hus).trans (infix_parens _)).trans hright⟩⟩

theorem isInRows_holds (negated : Bool) :
    Yields (fun ts => Holds left ts ∧ Holds right ts) (isInRows negated left right) :=
  (Yields.self left).bind fun l hl => (Yields.self right).bind fun r hr => .pure
    ⟨⟨l, hl, (infix_infixed l negated (.word .IN) r).1⟩,
      ⟨r, hr, (infix_infixed l negated (.word .IN) r).2⟩⟩

theorem between_holds (negated : Bool) {low high : Lowered} :
    Yields (fun ts => Holds term ts ∧ Holds low ts ∧ Holds high ts)
      (between negated term low high) := by
  refine (Yields.self term).bind fun t ht => (Yields.self low).bind fun l hl =>
    (Yields.self high).bind fun h hh => .pure ?_
  obtain ⟨hleft, hright⟩ := infix_infixed t negated (.word .BETWEEN)
    (l ++ spaced (.word .AND) ++ h)
  exact ⟨⟨t, ht, hleft⟩,
    ⟨l, hl, (List.infix_append_of_infix_left List.infix_append_left).trans hright⟩,
    ⟨h, hh, List.infix_append_right.trans hright⟩⟩

theorem hasRows_holds (negated : Bool) : Yields (Holds right) (hasRows negated right) :=
  (Yields.self right).bind fun r hr => .pure ⟨r, hr,
    List.infix_append_of_infix_right (List.infix_cons (List.infix_cons (List.infix_refl r)))⟩

theorem combined_holds (op : Connective) (leftOp rightOp : Option Connective) :
    Yields (fun ts => Holds left ts ∧ Holds right ts) (combined op leftOp rightOp left right) :=
  (Yields.self left).bind fun l hl => (Yields.self right).bind fun r hr => .pure
    ⟨⟨l, hl, List.infix_append_of_infix_left
      (List.infix_append_of_infix_left (infix_parensIf _ l))⟩,
      ⟨r, hr, List.infix_append_of_infix_right (infix_parensIf _ r)⟩⟩

theorem negated_holds (isCombined : Bool) : Yields (Holds term) (negated isCombined term) :=
  (Yields.self term).bind fun t ht => .pure
    ⟨t, ht, List.infix_cons (List.infix_cons (infix_parensIf _ t))⟩

end Clause

end SqlScribe
