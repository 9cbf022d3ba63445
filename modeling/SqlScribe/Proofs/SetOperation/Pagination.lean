import SqlScribe.Proofs.SetOperation.Place
import SqlScribe.Query.Select
import SqlScribe.Render
/-! # Clauses of an operand and of the result

Where operands stand in parentheses, an order, a limit or an offset of the last operand is told from
one of the result.

* `Pagination`: an order and a row window, for a query or for the result of a set operation.
* `Compound.delimited`: the clauses of an operand stand in its parentheses, before the operator.
* `Compound.pagination_apart`: given to the last operand, they are never written as they are for
  the result. -/

namespace SqlScribe

open Tokens Text

/-! ## Ordering terms in tokens -/

theorem OrderItem.lowerAll_append (s : Scope) (names : List String) (items more : List OrderItem) :
    lowerAll s names (items ++ more) = do
      let l ← lowerAll s names items
      let e ← lowerAll s names more
      return l ++ e := by
  induction items with
  | nil =>
    rw [lowerAll]
    exact (bind_pure _).symm
  | cons item items ih =>
    obtain ⟨⟨expr, alias?⟩, order⟩ := item
    rw [List.cons_append, lowerAll, lowerAll, ih]
    cases alias?.filter names.contains <;> simp only [bind_assoc, pure_bind, List.cons_append]

theorem OrderItem.length_lowerAll (s : Scope) (names : List String) (items : List OrderItem) :
    Yields (fun l => l.length = items.length) (lowerAll s names items) := by
  induction items with
  | nil =>
    rw [lowerAll]
    exact .ok rfl
  | cons item items ih =>
    obtain ⟨⟨expr, alias?⟩, order⟩ := item
    have hrest (t : Tokens) : Yields (fun l => l.length = items.length + 1)
        (do return t :: (← lowerAll s names items)) :=
      ih.bind fun l hl => .pure (congrArg (· + 1) hl)
    rw [lowerAll]
    cases alias?.filter names.contains with
    | none => exact (Yields.self _).bind fun _ _ => hrest _
    | some a => exact (Yields.self _).bind fun _ _ => hrest _

/-- Ordering terms with more terms behind them are written one after the other. -/
theorem OrderItem.lowerAll_append_laid (s : Scope) (names : List String)
    (items more : List OrderItem) :
    Yields (fun l => ∃ l₀ e, lowerAll s names items = .ok l₀ ∧ lowerAll s names more = .ok e ∧
        l = l₀ ++ e) (lowerAll s names (items ++ more)) := by
  rw [lowerAll_append]
  exact (Yields.self _).bind fun l₀ hl₀ => (Yields.self _).bind fun e he =>
    .pure ⟨l₀, e, hl₀, he, rfl⟩

theorem OrderItem.eq_nil_of_lowerAll {s : Scope} {names : List String} {items : List OrderItem}
    {l : List Tokens} (h : lowerAll s names items = .ok l) : l = [] ↔ items = [] := by
  rw [← List.length_eq_zero_iff, length_lowerAll s names items l h, List.length_eq_zero_iff]

theorem OrderItem.isEmpty_of_lowerAll {s : Scope} {names : List String} {items : List OrderItem}
    {l : List Tokens} (h : lowerAll s names items = .ok l) : l.isEmpty = items.isEmpty := by
  rw [Bool.eq_iff_iff, List.isEmpty_iff, List.isEmpty_iff, eq_nil_of_lowerAll h]

theorem Compound.ResultClauses.eq_orderTokens {s : Scope} {c : Compound} {ts : Tokens}
    (h : c.ResultClauses s ts) :
    ∃ l, OrderItem.lowerAll s.standalone (s.orderNames c.base) c.orderBy = .ok l ∧
      ts = Statement.orderTokens s.dialect l c.limit c.offset := by
  obtain ⟨l, hl, rfl⟩ := h
  exact ⟨l, hl, by rw [Statement.orderTokens, OrderItem.isEmpty_of_lowerAll hl]⟩

/-! ## Orders and row windows -/

/-- An order and a row window that a query or the result of a set operation is given. -/
structure Pagination where
  /-- The ordering items, each with its direction. -/
  items : List (SelectItem × Option SortOrder) := []
  /-- The number of rows kept. -/
  limit : Option UInt64 := none
  /-- The number of rows passed over. -/
  offset : Option UInt64 := none

namespace Pagination

variable (w : Pagination) (q : Query) (c : Compound)

/-- The query with the order and the row window. -/
def onQuery : Query :=
  let ordered := w.items.foldl (fun q item => q.order [item.1] item.2) q
  let limited := w.limit.elim ordered ordered.limit
  w.offset.elim limited limited.offset

/-- The set operation with the order and the row window of its result. -/
def onResult : Compound :=
  let ordered := w.items.foldl (fun c item => c.order [item.1] item.2) c
  let limited := w.limit.elim ordered ordered.keep
  w.offset.elim limited limited.skip

/-- The ordering terms. Columns belong to a source, if one is given. -/
def terms (source : Option Qualifier) : List OrderItem :=
  w.items.map fun item => ⟨item.1.toTerm source, item.2⟩

theorem onQuery_eq :
    w.onQuery q = q.reordered (q.orderBy ++ w.terms q.sourceQualifier?)
      (w.limit.or q.info.limit) (w.offset.or q.info.offset) := by
  have hordered : w.items.foldl (fun q item => q.order [item.1] item.2) q =
      { q with orderBy := q.orderBy ++ w.terms q.sourceQualifier? } := by
    unfold terms
    induction w.items generalizing q with
    | nil =>
      rw [List.foldl_nil, List.map_nil, List.append_nil]
      cases q
      rfl
    | cons item items ih =>
      rw [List.foldl_cons, ih (q.order [item.1] item.2), List.map_cons]
      simp [Query.order, Query.termsOf, Query.sourceQualifier?]
  rw [onQuery, hordered]
  cases w.limit <;> cases w.offset <;> rfl

theorem onResult_eq :
    w.onResult c = { c with
      orderBy := c.orderBy ++ w.terms none
      limit := w.limit.or c.limit
      offset := w.offset.or c.offset } := by
  have hordered : w.items.foldl (fun c item => c.order [item.1] item.2) c =
      { c with orderBy := c.orderBy ++ w.terms none } := by
    unfold terms
    induction w.items generalizing c with
    | nil =>
      rw [List.foldl_nil, List.map_nil, List.append_nil]
      cases c
      rfl
    | cons item items ih =>
      rw [List.foldl_cons, ih (c.order [item.1] item.2), List.map_cons]
      simp [Compound.order]
  rw [onResult, hordered]
  cases w.limit <;> cases w.offset <;> rfl

/-- There is something in the order or the row window that is written. -/
def IsProper : Prop :=
  w.items ≠ [] ∨ w.limit.isSome = true ∨ (properOffset w.offset).isSome = true

/-- Neither the query nor the result has a limit or an offset in the place of these. -/
structure Fits : Prop where
  limit : w.limit.isSome = true → q.info.limit = none ∧ c.limit = none
  offset : w.offset.isSome = true → q.info.offset = none ∧ c.offset = none

/-- The only order of the query, or that of the result, is written as an ordering of no meaning. -/
def Meaningless (s : Scope) (p : Spelling) : Prop :=
  (q.orderBy = [] ∧ ∃ e, q.lowerOrder s.standalone (w.terms q.sourceQualifier?) = .ok e ∧
    MeansNoOrder (chars p (listed e))) ∨
  (c.orderBy = [] ∧
    ∃ e, OrderItem.lowerAll s.standalone (s.orderNames c.base) (w.terms none) = .ok e ∧
      MeansNoOrder (chars p (listed e)))

variable {w q c} {s : Scope} {p : Spelling}

theorem terms_eq_nil {source : Option Qualifier} : w.terms source = [] ↔ w.items = [] :=
  List.map_eq_nil_iff

/-! ## Whether an operand shows it -/

variable (w q) in
/-- The query writes something of the order or the row window. -/
def ShownBy : Prop :=
  q.isBlank = false ∧
    (q.extent = .full ∨ q.extent = .limited ∧ (w.items ≠ [] ∨ w.limit.isSome = true))

theorem isBlank_onQuery : (w.onQuery q).isBlank = q.isBlank := by
  rw [onQuery_eq]
  rfl

/-- A query that writes nothing of an order and a row window is the same without. -/
theorem lower_onQuery (h : ¬w.ShownBy q) (s : Scope) :
    (w.onQuery q).lower s.standalone = q.lower s.standalone := by
  cases hblank : q.isBlank with
  | true =>
    rw [q.lower_blank _ hblank, Query.lower_blank _ (isBlank_onQuery.trans hblank)]
  | false =>
    have hordering : Statement.ordering s.dialect q.extent
          (q.lowerOrder s.standalone (q.orderBy ++ w.terms q.sourceQualifier?))
          (q.orderBy ++ w.terms q.sourceQualifier?).isEmpty
          (w.limit.or q.info.limit) (w.offset.or q.info.offset) =
        Statement.ordering s.dialect q.extent (q.lowerOrder s.standalone q.orderBy)
          q.orderBy.isEmpty q.info.limit q.info.offset := by
      cases hextent : q.extent with
      | full => exact absurd ⟨hblank, .inl hextent⟩ h
      | limited =>
        have hnone : w.items = [] ∧ w.limit = none := by
          simpa [hextent, ShownBy, hblank] using h
        rw [terms_eq_nil.mpr hnone.1, hnone.2, List.append_nil]
        rfl
      | nothing => rfl
    rw [onQuery_eq, Query.lower_reordered s hblank, hordering, ← Query.lower_reordered s hblank,
      Query.reordered_self]

/-! ## Texts with and without it -/

section Texts

variable {σ : Type} {F : Filling σ} {a b b' : σ} {ts ts' us us' : Tokens} {r r' : List Char}
  (hwraps : s.dialect.profile.wrapsOperands = true) (hproper : w.IsProper) (hfits : w.Fits q c)
  (hmeans : s.dialect.profile.orderForOffset = true → ¬w.Meaningless q c s p)

include hwraps hproper hfits hmeans

/-- The clauses of a result that is given an order or a row window are others. -/
theorem result_ne (hts : (w.onResult c).ResultClauses s ts) (hus : c.ResultClauses s us)
    (hts' : F.Writes a ts ts' b') (hus' : F.Writes a us us' b) : chars p ts' ≠ chars p us' := by
  rw [onResult_eq] at hts
  obtain ⟨l', hl', rfl⟩ := hts.eq_orderTokens
  obtain ⟨l₀, e, hl₀, he, rfl⟩ := OrderItem.lowerAll_append_laid _ _ _ _ l' hl'
  obtain ⟨l, hl, rfl⟩ := hus.eq_orderTokens
  cases Except.ok.inj (hl₀.symm.trans hl)
  have hextra : e ≠ [] ∨ w.limit.isSome = true ∨ (properOffset w.offset).isSome = true :=
    hproper.imp_left fun hitems hnil =>
      hitems (terms_eq_nil.mp ((OrderItem.eq_nil_of_lowerAll he).mp hnil))
  intro heq
  exact Statement.ordered_ne hwraps (fun horder hl hmeaningless => hmeans horder
    (.inr ⟨(OrderItem.eq_nil_of_lowerAll hl₀).mp hl, e, he, hmeaningless⟩))
    (fun h => (hfits.limit h).2) (fun h => (hfits.offset h).2) hextra (.inl rfl) hts' hus'
    (congrArg (· ++ []) heq)

/-- So are the order and the row window of a query that writes something of it. -/
theorem ordering_ne (hshown : w.ShownBy q) (hr : GoesOn closing r)
    (hts : Statement.ordering s.dialect q.extent
      (q.lowerOrder s.standalone (q.orderBy ++ w.terms q.sourceQualifier?))
      (q.orderBy ++ w.terms q.sourceQualifier?).isEmpty
      (w.limit.or q.info.limit) (w.offset.or q.info.offset) = .ok ts)
    (hus : Statement.ordering s.dialect q.extent (q.lowerOrder s.standalone q.orderBy)
      q.orderBy.isEmpty q.info.limit q.info.offset = .ok us)
    (hts' : F.Writes a ts ts' b') (hus' : F.Writes a us us' b) :
    chars p ts' ++ r' ≠ chars p us' ++ r := by
  rcases hshown.2 with hextent | ⟨hextent, hextra⟩ <;> rw [hextent] at hts hus
  · obtain ⟨l', hl', rfl⟩ := Statement.ordering_full_laid _ _ _ _ _ ts hts
    obtain ⟨l, hl, rfl⟩ := Statement.ordering_full_laid _ _ _ _ _ us hus
    rw [← OrderItem.isEmpty_of_lowerAll hl'] at hts'
    rw [← OrderItem.isEmpty_of_lowerAll hl] at hus'
    obtain ⟨l₀, e, hl₀, he, rfl⟩ := OrderItem.lowerAll_append_laid _ _ _ _ l' hl'
    cases Except.ok.inj (hl₀.symm.trans hl)
    refine Statement.ordered_ne hwraps (fun horder hnil hmeaningless => hmeans horder
      (.inl ⟨(OrderItem.eq_nil_of_lowerAll hl₀).mp hnil, e, he, hmeaningless⟩))
      (fun h => (hfits.limit h).1) (fun h => (hfits.offset h).1) ?_ hr hts' hus'
    exact hproper.imp_left fun hitems hnil =>
      hitems (terms_eq_nil.mp ((OrderItem.eq_nil_of_lowerAll he).mp hnil))
  · -- Updates and deletions write their limit in one way, whatever the dialect.
    have hansi (l : List Tokens) (limit : Option UInt64) :
        headed .ORDER_BY l ++ Statement.limitClause limit =
          Statement.orderTokens .ansi l limit (Option.or none none) := by
      cases l <;> cases limit <;> rfl
    obtain ⟨l', hl', rfl⟩ := Statement.ordering_limited_laid _ _ _ _ _ ts hts
    obtain ⟨l, hl, rfl⟩ := Statement.ordering_limited_laid _ _ _ _ _ us hus
    rw [hansi] at hts' hus'
    obtain ⟨l₀, e, hl₀, he, rfl⟩ := OrderItem.lowerAll_append_laid _ _ _ _ l' hl'
    cases Except.ok.inj (hl₀.symm.trans hl)
    refine Statement.ordered_ne rfl Bool.noConfusion (fun h => (hfits.limit h).1)
      Bool.noConfusion ?_ hr hts' hus'
    exact (hextra.imp_left fun hitems hnil =>
      hitems (terms_eq_nil.mp ((OrderItem.eq_nil_of_lowerAll he).mp hnil))).imp_right .inl

/-- So is an operand that writes something of it. -/
theorem operand_ne (hshown : w.ShownBy q) (hts : (w.onQuery q).lower s.standalone = .ok ts)
    (hus : q.lower s.standalone = .ok us) (hts' : F.Writes a (parens ts) ts' b')
    (hus' : F.Writes a (parens us) us' b) : chars p ts' ++ r' ≠ chars p us' ++ r := by
  rw [onQuery_eq] at hts
  rw [← q.reordered_self] at hus
  obtain ⟨front, order', back, hfront, horder', hback, rfl⟩ :=
    Query.lower_reordered_laid s hshown.1 _ _ _ ts hts
  obtain ⟨front₁, order, back₁, hfront₁, horder, hback₁, rfl⟩ :=
    Query.lower_reordered_laid s hshown.1 _ _ _ us hus
  cases Except.ok.inj (hfront.symm.trans hfront₁)
  cases Except.ok.inj (hback.symm.trans hback₁)
  have hsplit (order : Tokens) : parens (front ++ order ++ back) =
      (.mark .openParen :: front) ++ (order ++ (back ++ [.mark .closeParen])) := by simp [parens]
  rw [hsplit] at hts' hus'
  -- What is before the order is written alike, and what is behind goes on as it should.
  obtain ⟨fs', xs', b₁', rfl, hfs', hxs'⟩ := hts'.append_inv
  obtain ⟨fs, xs, b₁, rfl, hfs, hxs⟩ := hus'.append_inv
  obtain ⟨rfl, rfl⟩ := hfs'.unique hfs
  obtain ⟨os', bs', b₂', rfl, hos', -⟩ := hxs'.append_inv
  obtain ⟨os, bs, b₂, rfl, hos, hbs⟩ := hxs.append_inv
  obtain ⟨ds, rfl, hds⟩ := hbs.append_plain (by decide)
  have hclosed : (chars p [.mark .closeParen] ++ r).head? = some ')' := by
    simp [chars, Tokens.text, Token.text, Mark.text]
  have hcloses : GoesOn closing (chars p ds ++ (chars p [.mark .closeParen] ++ r)) :=
    (Statement.back_closes q.parts_conflict_closes back hback).goesOn hds p (.inr (.inl hclosed))
  intro heq
  simp only [chars_append, List.append_assoc] at heq
  exact ordering_ne hwraps hproper hfits hmeans hshown hcloses horder' horder hos' hos
    (List.append_cancel_left heq)

end Texts

end Pagination

/-! ## Set operations -/

section Rendered

variable {α : Type} [Renderable α] {x : α} {o : RenderOptions} {text : String}

theorem writes_of_render (h : render x o = .ok text) :
    ∃ ts, renderTokens x o = .ok ts ∧ Filling.literals.Writes () ts ts () ∧
      text.toList = chars (o.spelling (renderDialect x o)) ts := by
  rw [render] at h
  cases hts : renderTokens x o with
  | error e =>
    rw [hts] at h
    cases h
  | ok ts =>
    rw [hts] at h
    cases h
    exact ⟨ts, rfl, Filling.literals_writes ts, rfl⟩

theorem writes_of_renderBound {b : Bindings} (h : (renderBound x o b).1 = .ok text) :
    ∃ ts us b', renderTokens x o = .ok ts ∧ Filling.placeholders.Writes b ts us b' ∧
      text.toList = chars (o.spelling (renderDialect x o)) us := by
  rw [renderBound] at h
  cases hts : renderTokens x o with
  | error e =>
    rw [hts] at h
    cases h
  | ok ts =>
    rw [hts] at h
    obtain ⟨us, hus, rfl⟩ := Filling.writes_of_textBound (Prod.ext h rfl)
    exact ⟨ts, us, _, rfl, hus, rfl⟩

/-- The texts of two items under some options are never the same: neither with literals, nor with
placeholders for values that are bound behind others. -/
def NeverAlike (o : RenderOptions) (x y : α) : Prop :=
  (∀ textX textY, render x o = .ok textX → render y o = .ok textY → textX ≠ textY) ∧
    ∀ b textX textY, (renderBound x o b).1 = .ok textX → (renderBound y o b).1 = .ok textY →
      textX ≠ textY

end Rendered

theorem Query.Wrapped.unique {s : Scope} {q : Query} {ts us : Tokens} (h : q.Wrapped s ts)
    (h' : q.Wrapped s us) : ts = us := by
  rcases h with ⟨hblank, rfl⟩ | ⟨hblank, body, hbody, -, rfl⟩ <;>
    rcases h' with ⟨hblank', rfl⟩ | ⟨hblank', body', hbody', -, rfl⟩
  · rfl
  · cases hblank.symm.trans hblank'
  · cases hblank.symm.trans hblank'
  · cases Except.ok.inj (hbody.symm.trans hbody')
    rfl

namespace Compound

variable {s : Scope} {c : Compound}

/-- The operand before an operator: the last of those before it, or the first of the set
operation. -/
def operandBefore (c : Compound) (before : List Operand) : Query :=
  (before.getLast?.map Operand.query).getD c.base

/-- Operands that are written one after the other are written so in two parts. -/
theorem operands_split {p : Operand → SetOperator × Tokens → Prop} {before after : List Operand}
    {rest : List (SetOperator × Tokens)} (h : List.Forall₂ p (before ++ after) rest) :
    ∃ front back, rest = front ++ back ∧ List.Forall₂ p before front ∧
      List.Forall₂ p after back := by
  refine ⟨rest.take before.length, rest.drop before.length, (List.take_append_drop _ _).symm, ?_,
    ?_⟩
  · exact (List.forall₂_take_append _ _ _ h.flip).flip
  · exact (List.forall₂_drop_append _ _ _ h.flip).flip

/-- An operator stands right behind the operand before it. -/
theorem Laid.split {first clauses : Tokens} {rest : List (SetOperator × Tokens)}
    (h : c.Laid s first rest clauses) {before after : List Operand} {o : Operand}
    (hc : c.operands = before ++ o :: after) :
    ∃ pre us post, (c.operandBefore before).Wrapped s us ∧
      first ++ rest.flatMap operandTokens ++ clauses =
        pre ++ us ++ .space :: o.operator.tokens ++ post := by
  have hrest := h.rest
  rw [hc] at hrest
  obtain ⟨front, back, rfl, hfront, hback⟩ := operands_split hrest
  cases hback with
  | @cons _ r _ back hr _ =>
    obtain ⟨op, vs⟩ := r
    obtain ⟨rfl, -⟩ := hr
    rcases before.eq_nil_or_concat with rfl | ⟨before, a, rfl⟩
    · cases hfront
      refine ⟨[], first, .space :: vs ++ back.flatMap operandTokens ++ clauses, h.first, ?_⟩
      simp [operandTokens]
    · rw [List.concat_eq_append] at hfront
      obtain ⟨front, last, rfl, -, hlast⟩ := operands_split hfront
      cases hlast with
      | @cons _ r _ _ hr hnil =>
        obtain ⟨op, us⟩ := r
        cases hnil
        refine ⟨first ++ front.flatMap operandTokens ++ .space :: op.tokens ++ [.space], us,
          .space :: vs ++ back.flatMap operandTokens ++ clauses, ?_, ?_⟩
        · simpa [operandBefore] using hr.2
        · simp [operandTokens]

/-- **Clauses of earlier operands.** Where operands stand in parentheses, a closing parenthesis
stands between the order and the row window of an operand and the operator behind it. -/
theorem delimited (h : s.dialect.profile.wrapsOperands = true) {before after : List Operand}
    {o : Operand} (hc : c.operands = before ++ o :: after)
    (hblank : (c.operandBefore before).isBlank = false) :
    Yields (fun ts => ∃ pre front order back post,
        (c.operandBefore before).orderAndWindow s = .ok order ∧
        Nests (front ++ order ++ back) ∧
        ts = pre ++ parens (front ++ order ++ back) ++ .space :: o.operator.tokens ++ post)
      (c.lower s.standalone) := by
  intro ts hts
  obtain ⟨first, rest, clauses, hlaid, rfl⟩ := lower_laid (s := s.standalone) h c ts hts
  obtain ⟨pre, us, post, hus, heq⟩ := hlaid.split hc
  rcases hus with ⟨hblank', -⟩ | ⟨-, body, hbody, hnests, rfl⟩
  · cases hblank.symm.trans hblank'
  · rw [← Query.reordered_self (c.operandBefore before)] at hbody
    obtain ⟨front, order, back, -, horder, -, rfl⟩ :=
      Query.lower_reordered_laid s hblank _ _ _ body hbody
    refine ⟨pre, front, order, back, post, horder, hnests, ?_⟩
    rw [← heq]
    exact List.append_nil _

/-- Operands with their operators are written in one way. -/
theorem operands_unique {operands : List Operand} {rest rest' : List (SetOperator × Tokens)}
    (h : List.Forall₂ (Operand.Wrapped s) operands rest)
    (h' : List.Forall₂ (Operand.Wrapped s) operands rest') : rest = rest' :=
  List.right_unique_forall₂' (fun _ _ _ hr hr' =>
    Prod.ext (hr.1.trans hr'.1.symm) (hr.2.unique hr'.2)) h h'

/-- A single operand is written with its operator. -/
theorem operand_laid {op : SetOperator} {q : Query} {rest : List (SetOperator × Tokens)}
    (h : List.Forall₂ (Operand.Wrapped s) [⟨op, q⟩] rest) :
    ∃ ts, rest = [(op, ts)] ∧ q.Wrapped s ts := by
  obtain ⟨⟨op, ts⟩, l, ⟨rfl, hts⟩, hnil, rfl⟩ := List.forall₂_cons_left_iff.mp h
  cases List.forall₂_nil_left_iff.mp hnil
  exact ⟨ts, rfl, hts⟩

/-- The set operation with another last operand behind some operands, and another identity. -/
def withLast (c : Compound) (id : SourceId) (front : List Operand) (op : SetOperator) (q : Query) :
    Compound :=
  { c with id, operands := front ++ [⟨op, q⟩] }

variable {w : Pagination} {p : Spelling}

/-- A set operation whose last operand has an order or a row window is not written as the one whose
result has it, however values are written. -/
theorem onLast_ne_onResult (h : s.dialect.profile.wrapsOperands = true) {front : List Operand}
    {op : SetOperator} {q : Query} (hc : c.operands = front ++ [⟨op, q⟩]) (hproper : w.IsProper)
    (hfits : w.Fits q c)
    (hmeans : s.dialect.profile.orderForOffset = true → ¬w.Meaningless q c s p) {id : SourceId}
    {σ : Type} {F : Filling σ} {a b b' : σ} {ts ts' us us' : Tokens}
    (hts : (c.withLast id front op (w.onQuery q)).lower s.standalone = .ok ts)
    (hus : (w.onResult c).lower s.standalone = .ok us) (hts' : F.Writes a ts ts' b')
    (hus' : F.Writes a us us' b) : chars p ts' ≠ chars p us' := by
  obtain ⟨first, rest, clauses', hlaid', rfl⟩ := lower_laid (s := s.standalone) h _ ts hts
  obtain ⟨first₁, rest₁, clauses, hlaid, rfl⟩ := lower_laid (s := s.standalone) h _ us hus
  have hfirst := hlaid.first
  have hrest := hlaid.rest
  rw [Pagination.onResult_eq] at hfirst hrest
  rw [hc] at hrest
  cases hlaid'.first.unique hfirst
  obtain ⟨front', last', rfl, hfront', hlast'⟩ := operands_split hlaid'.rest
  obtain ⟨front₁, last, rfl, hfront₁, hlast⟩ := operands_split hrest
  cases operands_unique hfront' hfront₁
  obtain ⟨vs', rfl, hvs'⟩ := operand_laid hlast'
  obtain ⟨vs, rfl, hvs⟩ := operand_laid hlast
  have hsplit (id : SourceId) (alias? : Option String) (vs clauses : Tokens) :
      Statement.placed s.standalone id alias?
          (first ++ (front' ++ [(op, vs)]).flatMap operandTokens ++ clauses) =
        (first ++ front'.flatMap operandTokens ++ .space :: op.tokens ++ [.space]) ++
          (vs ++ clauses) := by
    have hplaced : Statement.placed s.standalone id alias?
        (first ++ (front' ++ [(op, vs)]).flatMap operandTokens ++ clauses) =
          first ++ (front' ++ [(op, vs)]).flatMap operandTokens ++ clauses := List.append_nil _
    rw [hplaced]
    simp [operandTokens]
  rw [hsplit] at hts' hus'
  -- What is before the last operand is written alike.
  obtain ⟨xs', ys', b₁', rfl, hxs', hys'⟩ := hts'.append_inv
  obtain ⟨xs, ys, b₁, rfl, hxs, hys⟩ := hus'.append_inv
  obtain ⟨rfl, rfl⟩ := hxs'.unique hxs
  obtain ⟨zs', cs', b₂', rfl, hzs', hcs'⟩ := hys'.append_inv
  obtain ⟨zs, cs, b₂, rfl, hzs, hcs⟩ := hys.append_inv
  intro heq
  simp only [chars_append] at heq
  have heq := List.append_cancel_left heq
  by_cases hshown : w.ShownBy q
  · rcases hvs' with ⟨hblank, -⟩ | ⟨-, body', hbody', -, rfl⟩
    · cases (w.isBlank_onQuery.symm.trans hblank).symm.trans hshown.1
    rcases hvs with ⟨hblank, -⟩ | ⟨-, body, hbody, -, rfl⟩
    · cases hblank.symm.trans hshown.1
    exact Pagination.operand_ne h hproper hfits hmeans hshown hbody' hbody hzs' hzs heq
  · -- The operand is written alike too, so the clauses of the result are looked at.
    have hwrapped : q.Wrapped s.standalone vs' := by
      rw [Query.Wrapped, Pagination.isBlank_onQuery, Pagination.lower_onQuery hshown] at hvs'
      exact hvs'
    cases hwrapped.unique hvs
    obtain ⟨rfl, rfl⟩ := hzs'.unique hzs
    exact Pagination.result_ne h hproper hfits hmeans hlaid.clauses hlaid'.clauses hcs hcs'
      (List.append_cancel_left heq).symm

/-- **Clauses of operands and of the result.** In a dialect that puts operands in parentheses, a
closing parenthesis stands between the order and the row window of an operand and the operator
behind it, and a set operation whose last operand has an order or a row window is not written as the
one whose result has it, unless that is an ordering of no meaning in place of another. -/
theorem pagination_apart {c : Compound} {o : RenderOptions}
    (hwraps : (renderDialect c o).profile.wrapsOperands = true) :
    (∀ (before after : List Operand) {b : Operand} {ts : Tokens},
      c.operands = before ++ b :: after → (c.operandBefore before).isBlank = false →
      renderTokens c o = .ok ts →
        ∃ pre front order back post,
          (c.operandBefore before).orderAndWindow (Scope.ofOptions (renderDialect c o) o) =
            .ok order ∧
          Nests (front ++ order ++ back) ∧
          ts = pre ++ parens (front ++ order ++ back) ++ .space :: b.operator.tokens ++ post) ∧
    ∀ (id : SourceId) (front : List Operand) {op : SetOperator} {q : Query} {w : Pagination},
      c.operands = front ++ [⟨op, q⟩] → w.IsProper → w.Fits q c →
      ((renderDialect c o).profile.orderForOffset = true →
        ¬w.Meaningless q c (Scope.ofOptions (renderDialect c o) o)
          (o.spelling (renderDialect c o))) →
      NeverAlike o (c.withLast id front op (w.onQuery q)) (w.onResult c) := by
  constructor
  · intro before after b ts hc hblank hts
    exact delimited (s := Scope.ofOptions (renderDialect c o) o) hwraps hc hblank ts hts
  · intro id front op q w hc hproper hfits hmeans
    have hdialect : renderDialect (w.onResult c) o = renderDialect c o := by
      rw [Pagination.onResult_eq]
      rfl
    constructor
    · intro onLast onResult hlast hresult
      obtain ⟨ts, hts, hts', hlast⟩ := writes_of_render hlast
      obtain ⟨us, hus, hus', hresult⟩ := writes_of_render hresult
      rw [renderTokens, hdialect] at hus
      rw [hdialect] at hresult
      rintro rfl
      exact onLast_ne_onResult (s := Scope.ofOptions (renderDialect c o) o) hwraps hc hproper hfits
        hmeans hts hus hts' hus' (hlast.symm.trans hresult)
    · intro b onLast onResult hlast hresult
      obtain ⟨ts, ts', b', hts, hts', hlast⟩ := writes_of_renderBound hlast
      obtain ⟨us, us', b'', hus, hus', hresult⟩ := writes_of_renderBound hresult
      rw [renderTokens, hdialect] at hus
      rw [hdialect] at hresult
      rintro rfl
      exact onLast_ne_onResult (s := Scope.ofOptions (renderDialect c o) o) hwraps hc hproper hfits
        hmeans hts hus hts' hus' (hlast.symm.trans hresult)

/-- Two queries in the dialect that writes an offset before each limit. -/
theorem pagination_apart_limited :
    let a : Query := { Query.start ⟨1⟩ .mssql with selects := [Term.field "x"] }
    let b : Query := { Query.start ⟨2⟩ .mssql with selects := [Term.field "y"] }
    let c := (a.limit 2).combine ⟨3⟩ .union b
    let w : Pagination := { items := [(.column "z", none)], limit := some 1 }
    ∃ pre front order back post onLast onResult,
      renderTokens c {} = .ok (pre ++ parens (front ++ order ++ back) ++
        .space :: SetOperator.tokens .union ++ post) ∧
      (a.limit 2).orderAndWindow (Scope.ofOptions .mssql {}) = .ok order ∧
      render (c.withLast ⟨4⟩ [] .union (w.onQuery b)) {} = .ok onLast ∧
      render (w.onResult c) {} = .ok onResult ∧ onLast ≠ onResult := by
  intro a b c w
  obtain ⟨ts, hts⟩ : ∃ ts, renderTokens c {} = .ok ts := ⟨_, rfl⟩
  obtain ⟨onLast, hlast⟩ : ∃ text, render (c.withLast ⟨4⟩ [] .union (w.onQuery b)) {} = .ok text :=
    ⟨_, rfl⟩
  obtain ⟨onResult, hresult⟩ : ∃ text, render (w.onResult c) {} = .ok text := ⟨_, rfl⟩
  have hident : ¬MeansNoOrder
      (chars (RenderOptions.spelling {} .mssql) (listed [[.ident "z"]])) := by decide
  obtain ⟨hearlier, hresults⟩ := pagination_apart (c := c) (o := {}) rfl
  obtain ⟨pre, front, order, back, post, horder, -, rfl⟩ := hearlier [] [] rfl rfl hts
  have hfits : w.Fits b c := ⟨fun _ => ⟨rfl, rfl⟩, Bool.noConfusion⟩
  have hmeans : ¬w.Meaningless b c (Scope.ofOptions .mssql {})
      (RenderOptions.spelling {} .mssql) := by
    rintro (⟨-, e, he, hmeaningless⟩ | ⟨-, e, he, hmeaningless⟩) <;> cases Except.ok.inj he <;>
      exact hident hmeaningless
  have halike := hresults ⟨4⟩ [] rfl (.inr (.inl rfl)) hfits fun _ => hmeans
  exact ⟨pre, front, order, back, post, onLast, onResult, hts, horder, hlast, hresult,
    halike.1 _ _ hlast hresult⟩

/-- Without parentheses around the operands, a limit of the last operand is written as one of the
result, and nothing stands between an earlier limit and the operator behind it. An offset that
passes over nothing is not written, and an ordering of no meaning is written where one is needed, be
it by itself or at the beginning of some text. -/
theorem pagination_confused :
    let a (d : Dialect) : Query := { Query.start ⟨1⟩ d with selects := [Term.field "x"] }
    let b (d : Dialect) : Query := { Query.start ⟨2⟩ d with selects := [Term.field "y"] }
    let confused (w : Pagination) (q : Query) (c : Compound) : Prop :=
      ∃ text, render (c.withLast ⟨3⟩ [] .union (w.onQuery q)) {} = .ok text ∧
        render (w.onResult c) {} = .ok text
    (∀ d ∈ [Dialect.mysql, .sqlite],
      confused { limit := some 1 } (b d) ((a d).combine ⟨3⟩ .union (b d)) ∧
        renderTokens (((a d).limit 1).combine ⟨3⟩ .union (b d)) {} =
          .ok [.word .SELECT, .space, .ident "x", .space, .word .LIMIT, .space, .count 1,
            .space, .word .UNION, .space, .word .SELECT, .space, .ident "y"]) ∧
    confused { offset := some 0 } (b .ansi) ((a .ansi).combine ⟨3⟩ .union (b .ansi)) ∧
    ∀ text ∈ ["(SELECT 0)", "(SELECT 0) OFFSET 1 ROWS) ORDER BY (SELECT 0)"],
      confused { items := [(.term (Term.ofExpr (.raw text)), none)] } ((b .mssql).offset 1)
        (((a .mssql).combine ⟨3⟩ .union ((b .mssql).offset 1)).skip 1) := by
  intro a b confused
  have hconfused {w : Pagination} {q : Query} {c : Compound} (ts us : Tokens)
      (hlast : renderTokens (c.withLast ⟨3⟩ [] .union (w.onQuery q)) {} = .ok ts)
      (hresult : renderTokens (w.onResult c) {} = .ok us)
      (htext : ts.text (RenderOptions.spelling {} c.base.info.dialect) =
        us.text (RenderOptions.spelling {} c.base.info.dialect)) : confused w q c := by
    refine ⟨_, congrArg (· >>= fun ts => pure (Tokens.text _ ts)) hlast, ?_⟩
    rw [render, hresult, Pagination.onResult_eq]
    exact congrArg Except.ok htext.symm
  let select (name : String) : Tokens := [.word .SELECT, .space, .ident name]
  let union : Tokens := [.space, .word .UNION, .space]
  let ordered (text : String) : Tokens :=
    [.space, .word .ORDER_BY, .space, .raw text] ++ PaginationStyle.offsetRows (.count 1)
  refine ⟨?_, ?_, ?_⟩
  · intro d hd
    simp only [List.mem_cons, List.not_mem_nil, or_false] at hd
    let ts := select "x" ++ union ++ select "y" ++ PaginationStyle.limitClause (.count 1)
    rcases hd with rfl | rfl <;> exact ⟨hconfused ts ts (by rfl) (by rfl) rfl, by rfl⟩
  · let ts := parens (select "x") ++ union ++ parens (select "y")
    exact hconfused ts ts (by rfl) (by rfl) rfl
  · intro text htext
    -- The ordering that is written where one is needed stands in one place, the given one in the
    -- other.
    let texts (first second : String) : Tokens :=
      parens (select "x") ++ union ++ parens (select "y" ++ ordered first) ++ ordered second
    have htexts : ∀ p : Spelling,
        (texts text "(SELECT 0)").text p = (texts "(SELECT 0)" text).text p := by
      simp only [List.mem_cons, List.not_mem_nil, or_false] at htext
      intro p
      rcases htext with rfl | rfl
      · rfl
      · have hone : (Int.repr 1).toList = ['1'] := by decide
        apply String.toList_inj.mp
        simp [texts, ordered, select, union, parens, PaginationStyle.offsetRows,
          PaginationStyle.offsetClause, toList_text, Token.text, Keyword.text, Mark.text, hone]
    exact hconfused (texts text "(SELECT 0)") (texts "(SELECT 0)" text) (by rfl) (by rfl) (htexts _)

end Compound

end SqlScribe
