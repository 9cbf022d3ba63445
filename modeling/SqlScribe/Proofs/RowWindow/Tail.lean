import SqlScribe.Proofs.RowWindow.Reading
/-! # Tails of selections and set operations

The clauses of a selection behind its select list, and those of the result of a set operation, end
with an order and a row window. Read by the grammar of the dialect they give back the offset and the
limit, and they hold no clause for these where nothing is to be passed over or left out.

* `Forest.Behind`: a keyword that another one stands before, at the same level.
* `Tokens.Paginates`: tokens that a limit and an offset are read from.
* `Statement.tails_paginate`: every tail is such tokens. -/

namespace SqlScribe

open Tokens

namespace Forest

variable {k k' : Keyword} {f g : Forest}

/-- Every keyword `k` outside brackets stands behind a keyword `k'` at the same level. -/
def Behind (k k' : Keyword) (f : Forest) : Prop :=
  ∀ before after, f = before ++ .token (.word k) :: after → .token (.word k') ∈ before

namespace Behind

theorem of_not_mem (h : .token (.word k) ∉ f) : Behind k k' f := by
  rintro before after rfl
  exact absurd (List.mem_append_right before List.mem_cons_self) h

theorem head (hk : k ≠ k') (f : Forest) : Behind k k' (.token (.word k') :: f) := by
  intro before after heq
  cases before with
  | nil =>
    injection heq with hhead _
    cases hhead
    exact absurd rfl hk
  | cons tree before =>
    injection heq with hhead _
    rw [← hhead]
    exact List.mem_cons_self

theorem append_left (hf : .token (.word k) ∉ f) (hg : Behind k k' g) : Behind k k' (f ++ g) := by
  intro before after heq
  rcases List.append_eq_append_iff.mp heq with ⟨trees, rfl, htrees⟩ | ⟨trees, rfl, htrees⟩
  · exact List.mem_append_right f (hg trees after htrees)
  · cases trees with
    | nil => cases hg [] after htrees.symm
    | cons tree trees =>
      injection htrees with hhead _
      rw [← hhead] at hf
      exact absurd (List.mem_append_right before List.mem_cons_self) hf

theorem append_right (hf : Behind k k' f) (hg : .token (.word k) ∉ g) : Behind k k' (f ++ g) := by
  intro before after heq
  rcases List.append_eq_append_iff.mp heq with ⟨trees, rfl, rfl⟩ | ⟨trees, rfl, htrees⟩
  · exact absurd (List.mem_append_right trees List.mem_cons_self) hg
  · cases trees with
    | nil =>
      rw [← List.nil_append g, ← htrees] at hg
      exact absurd List.mem_cons_self hg
    | cons tree trees =>
      injection htrees with hhead _
      exact hf before trees (by rw [← hhead])

end Behind

theorem Calm.not_mem (h : Calm f) (hk : k.followsOperands = true) : .token (.word k) ∉ f :=
  fun hmem => absurd (hk.symm.trans (h _ hmem)) Bool.noConfusion

end Forest

/-! ## Row windows of trees -/

/-- The trees show the row window of a limit and an offset in a dialect, behind an order if they are
`ordered`, and nothing of it if no row is passed over and none is left out. -/
structure Forest.Paginates (d : Dialect) (ordered : Bool) (limit offset : Option UInt64)
    (f : Forest) : Prop where
  /-- The row window is read. -/
  window : f.rowWindow? d = some (.ofCounts limit offset)
  /-- In MySQL and SQLite every offset stands behind a limit. -/
  limited : d = .mysql ∨ d = .sqlite → f.Behind .OFFSET .LIMIT
  /-- In SQL Server every fetch stands behind an offset. -/
  fetched : d = .mssql → f.Behind .FETCH .OFFSET
  /-- In SQL Server every offset stands behind an order. -/
  sorted : d = .mssql → f.Behind .OFFSET .ORDER_BY
  /-- Nothing is shown of a row window of all rows, nor an order that was not asked for. -/
  unpaged : limit = none → offset = none ∨ offset = some 0 →
    (∀ k ∈ [Keyword.LIMIT, .OFFSET, .FETCH], .token (.word k) ∉ f) ∧
      (ordered = false → .token (.word .ORDER_BY) ∉ f)

/-- The brackets of the tokens fit, and their trees show the row window of a limit and an offset. -/
def Tokens.Paginates (d : Dialect) (ordered : Bool) (limit offset : Option UInt64) (ts : Tokens) :
    Prop :=
  ∃ f, Forms ts f ∧ f.Paginates d ordered limit offset

namespace PaginationStyle

/-- The keywords that the clauses of a row window may begin with. -/
def heads : PaginationStyle → List Keyword
  | .limitOffset => [.LIMIT, .OFFSET]
  | .limitRequired _ => [.LIMIT]
  | .offsetFetch => [.OFFSET]
  | .fetchOnly => [.OFFSET, .FETCH]

theorem window_head (style : PaginationStyle) (limit : Option UInt64) {offset : Option UInt64}
    (hoffset : properOffset offset = offset) :
    limit = none ∧ offset = none ∧ style.window limit offset = [] ∨
      (limit.isSome || offset.isSome) = true ∧
        ∃ k ∈ style.heads, ∃ ts, style.window limit offset = .space :: .word k :: ts := by
  cases style <;> cases limit <;> cases offset <;>
    simp [window, hoffset, clause, heads, limitClause, offsetClause, offsetRows, fetchNext]

theorem followsOperands_of_mem_heads {style : PaginationStyle} {k : Keyword}
    (hk : k ∈ style.heads) : k.followsOperands = true ∧ k ≠ .ORDER_BY := by
  cases style <;> simp only [heads, List.mem_cons, List.not_mem_nil, or_false] at hk <;>
    rcases hk with rfl | rfl <;> exact ⟨rfl, nofun⟩

end PaginationStyle

namespace Dialect

variable (d : Dialect) (limit offset : Option UInt64)

/-- The clauses of a row window begin with a keyword, if there are any. -/
theorem windowTrees_head :
    limit = none ∧ properOffset offset = none ∧ d.windowTrees limit offset = [] ∨
      (limit.isSome || (properOffset offset).isSome) = true ∧
        ∃ k ∈ d.profile.pagination.heads, ∃ f,
          d.windowTrees limit offset = .token (.word k) :: f := by
  rcases d.profile.pagination.window_head limit (properOffset_idem offset) with
    ⟨hlimit, hoffset, hwindow⟩ | ⟨hsome, k, hk, ts, hwindow⟩
  · exact .inl ⟨hlimit, hoffset, congrArg Forest.ofTokens hwindow⟩
  · have hplain : (Token.word k).role = .plain := by
      have hfollows := (PaginationStyle.followsOperands_of_mem_heads hk).1
      cases k <;> first | rfl | cases hfollows
    refine .inr ⟨hsome, k, hk, Forest.ofTokens ts, ?_⟩
    rw [windowTrees, window, hwindow]
    exact Forest.ofTokens_cons hplain ts

theorem windowTrees_eq_nil (hlimit : limit = none) (hoffset : properOffset offset = none) :
    d.windowTrees limit offset = [] := by
  rcases d.windowTrees_head limit offset with ⟨-, -, hw⟩ | ⟨hsome, -⟩
  · exact hw
  · rw [hlimit, hoffset] at hsome
    cases hsome

/-- Before the clauses of a row window nothing is left out where its beginning is looked for. -/
theorem dropWhile_windowTrees {lock : Forest} (hlock : lock.Calm) :
    ∃ rest : Forest, rest.Calm ∧ (d.windowTrees limit offset ++ lock).dropWhile (!·.arranges) =
      d.windowTrees limit offset ++ rest := by
  rcases d.windowTrees_head limit offset with ⟨-, -, hw⟩ | ⟨-, k, hk, f, hw⟩ <;> rw [hw]
  · exact ⟨[], .nil, hlock.dropWhile⟩
  · have hkeyword : (TokenTree.token (.word k)).arranges = true :=
      (PaginationStyle.followsOperands_of_mem_heads hk).1
    exact ⟨lock, hlock, List.dropWhile_cons_of_neg (by simp [hkeyword])⟩

end Dialect

namespace Forest

variable {d : Dialect} {limit offset : Option UInt64} {clauses order lock : Forest}

/-- Behind other clauses and before others, an order and the clauses of a row window are read as
these. -/
theorem rowWindow?_tail (hclauses : clauses.Calm) (horder : order.Orders) (hlock : lock.Calm)
    (hsorted : d = .mssql → order ≠ [] ∨ limit = none ∧ properOffset offset = none) :
    rowWindow? d (clauses ++ (order ++ (d.windowTrees limit offset ++ lock))) =
      some (.ofCounts limit offset) := by
  obtain ⟨rest, hrest, hwindow⟩ := d.dropWhile_windowTrees limit offset hlock
  rw [rowWindow?, hclauses.dropWhile_append]
  rcases horder with rfl | ⟨items, rfl, hitems⟩
  · have hread : d.rowWindow? false (d.windowTrees limit offset ++ rest) =
        some (.ofCounts limit offset) :=
      Dialect.rowWindow?_window hrest fun hd =>
        .inr ((hsorted hd).resolve_left fun h => h rfl)
    rw [List.nil_append, hwindow]
    split
    · next items heq =>
      -- The clauses of a row window do not begin with an order.
      rcases d.windowTrees_head limit offset with ⟨-, -, hw⟩ | ⟨-, k, hk, f, hw⟩ <;>
        rw [hw] at heq
      · rw [List.nil_append] at heq
        exact absurd (heq ▸ List.mem_cons_self) (hrest.not_mem (k := .ORDER_BY) rfl)
      · cases heq
        exact absurd rfl (PaginationStyle.followsOperands_of_mem_heads hk).2
    · exact hread
  · have hread : (.token (.word .ORDER_BY) :: items ++ (d.windowTrees limit offset ++ lock) :
        Forest).dropWhile (!·.arranges) =
        .token (.word .ORDER_BY) :: (items ++ (d.windowTrees limit offset ++ lock)) := rfl
    rw [hread]
    dsimp only
    rw [hitems.dropWhile_append, hwindow]
    exact Dialect.rowWindow?_window hrest fun _ => .inl rfl

theorem Orders.not_mem {k : Keyword} (h : order.Orders) (hk : k.followsOperands = true)
    (hne : k ≠ .ORDER_BY) : .token (.word k) ∉ order := by
  rcases h with rfl | ⟨items, rfl, hitems⟩
  · exact List.not_mem_nil
  · refine List.not_mem_cons_of_ne_of_not_mem (fun heq => ?_) (hitems.not_mem hk)
    cases heq
    exact hne rfl

/-- Where all row windows begin with one keyword, the other keywords stand behind it. -/
theorem behind_tail {k k' : Keyword} (hclauses : clauses.Calm) (horder : order.Orders)
    (hlock : lock.Calm) (hk : k.followsOperands = true) (hne : k ≠ .ORDER_BY) (hkk' : k ≠ k')
    (hheads : d.profile.pagination.heads = [k']) :
    (clauses ++ (order ++ (d.windowTrees limit offset ++ lock))).Behind k k' := by
  refine .append_left (hclauses.not_mem hk) (.append_left (horder.not_mem hk hne)
    (.append_right ?_ (hlock.not_mem hk)))
  rcases d.windowTrees_head limit offset with ⟨-, -, hw⟩ | ⟨-, j, hj, f, hw⟩ <;> rw [hw]
  · exact .of_not_mem List.not_mem_nil
  · rw [hheads] at hj
    rw [List.mem_singleton.mp hj]
    exact .head hkk' f

/-- Other clauses do not keep an order and the clauses of a row window from being found. -/
theorem paginates_tail {ordered : Bool} (hclauses : clauses.Calm) (horder : order.Orders)
    (hlock : lock.Calm)
    (hsorted : d = .mssql → order ≠ [] ∨ limit = none ∧ properOffset offset = none)
    (hunordered : ordered = false → limit = none → properOffset offset = none → order = []) :
    (clauses ++ (order ++ (d.windowTrees limit offset ++ lock))).Paginates d ordered limit
      offset := by
  refine ⟨rowWindow?_tail hclauses horder hlock hsorted, ?limited, ?fetched, ?sorted, ?unpaged⟩
  case limited =>
    rintro (rfl | rfl) <;>
      exact behind_tail hclauses horder hlock rfl (by decide) (by decide) rfl
  case fetched =>
    rintro rfl
    exact behind_tail hclauses horder hlock rfl (by decide) (by decide) rfl
  case sorted =>
    rintro rfl
    refine .append_left (hclauses.not_mem rfl) ?_
    rcases horder with rfl | ⟨items, rfl, -⟩
    · obtain ⟨hlimit, hoffset⟩ := (hsorted rfl).resolve_left fun h => h rfl
      rw [Dialect.windowTrees_eq_nil _ _ _ hlimit hoffset]
      exact .of_not_mem (hlock.not_mem rfl)
    · exact .head (by decide) _
  case unpaged =>
    intro hlimit hoffset
    have hproper : properOffset offset = none := by rcases hoffset with rfl | rfl <;> rfl
    rw [Dialect.windowTrees_eq_nil _ _ _ hlimit hproper, List.nil_append]
    have hapart {k : Keyword} (hk : k.followsOperands = true)
        (hnot : .token (.word k) ∉ order) : .token (.word k) ∉ clauses ++ (order ++ lock) := by
      simp [hclauses.not_mem hk, hnot, hlock.not_mem hk]
    refine ⟨fun k hk => ?_, fun hordered => ?_⟩
    · have hkeywords : ∀ k ∈ [Keyword.LIMIT, .OFFSET, .FETCH],
          k.followsOperands = true ∧ k ≠ .ORDER_BY := by decide
      obtain ⟨hfollows, hne⟩ := hkeywords k hk
      exact hapart hfollows (horder.not_mem hfollows hne)
    · refine hapart rfl ?_
      rw [hunordered hordered hlimit hproper]
      exact List.not_mem_nil

end Forest

/-! ## Tails -/

namespace Statement

/-- The order and the row window of a query or set operation, in trees. -/
theorem orderTokens_forms (d : Dialect) {l : List Tokens} (hl : ∀ ts ∈ l, Unarranged ts)
    (limit offset : Option UInt64) :
    ∃ order : Forest, order.Orders ∧
      Forms (orderTokens d l limit offset) (order ++ d.windowTrees limit offset) ∧
      (d = .mssql → order ≠ [] ∨ limit = none ∧ properOffset offset = none) ∧
      (l.isEmpty = true → limit = none → properOffset offset = none → order = []) := by
  have hwindow := d.window_forms limit offset
  cases l with
  | nil =>
    rw [orderTokens, headed, List.nil_append, windowClause]
    split
    · next hfill =>
      -- An order of no meaning is written.
      simp only [List.isEmpty_nil, Bool.and_true, Bool.and_eq_true] at hfill
      refine ⟨[.token (.word .ORDER_BY), .token (.raw "(SELECT 0)")],
        .inr ⟨_, rfl, fun tree htree => by rw [List.mem_singleton.mp htree]; rfl⟩,
        (Forms.blank (.plain rfl (.blank (.plain rfl .nil)))).append hwindow,
        fun _ => .inl (List.cons_ne_nil _ _), fun _ hlimit hoffset => ?_⟩
      rw [hlimit, hoffset] at hfill
      cases hfill.1
    · next hfill =>
      refine ⟨[], .inl rfl, Forms.nil.append hwindow, fun hd => .inr ?_, fun _ _ _ => rfl⟩
      subst hd
      simpa [Dialect.profile, Option.isSome_eq_false_iff] using hfill
  | cons ts l =>
    obtain ⟨items, hitems, hcalm⟩ := (Shows.listed hl rfl).calm
    have horder : orderTokens d (ts :: l) limit offset =
        .space :: .word .ORDER_BY :: .space :: listed (ts :: l) ++
          d.window limit (properOffset offset) := by
      simp [orderTokens, headed, windowClause]
    rw [horder]
    exact ⟨.token (.word .ORDER_BY) :: items, .inr ⟨items, rfl, hcalm⟩,
      (Forms.blank (.plain rfl hitems.blank)).append hwindow,
      fun _ => .inl (List.cons_ne_nil _ _), fun hnil => by cases hnil⟩

/-- The order and the row window, behind clauses from which they stand apart and before others, show
the row window. -/
theorem orderTokens_paginates (d : Dialect) {l : List Tokens} (hl : ∀ ts ∈ l, Unarranged ts)
    (limit offset : Option UInt64) {clauses lock : Tokens} (hclauses : Unarranged clauses)
    (hlock : Unarranged lock) :
    Tokens.Paginates d (!l.isEmpty) limit offset
      (clauses ++ orderTokens d l limit offset ++ lock) := by
  obtain ⟨f, hf, hfcalm⟩ := hclauses.calm
  obtain ⟨g, hg, hgcalm⟩ := hlock.calm
  obtain ⟨order, horders, hforms, hsorted, hunordered⟩ := orderTokens_forms d hl limit offset
  refine ⟨f ++ (order ++ (d.windowTrees limit offset ++ g)), ?_,
    Forest.paginates_tail hfcalm horders hgcalm hsorted fun h => hunordered (by simpa using h)⟩
  simpa only [List.append_assoc] using (hf.append hforms).append hg

end Statement

/-- The clauses of the result of a set operation show its row window. -/
theorem Compound.ResultClauses.paginates {s : Scope} {c : Compound} {ts : Tokens}
    (h : c.ResultClauses s ts) :
    ts.Paginates s.dialect (!c.orderBy.isEmpty) c.limit c.offset := by
  obtain ⟨l, hl, rfl⟩ := h.eq_orderTokens
  have hitems : ∀ ts ∈ l, Unarranged ts := OrderItem.lowerAll_unarranged _ _ _ l hl
  have hpaginates := Statement.orderTokens_paginates s.dialect hitems c.limit c.offset .nil .nil
  rwa [List.nil_append, List.append_nil, OrderItem.isEmpty_of_lowerAll hl] at hpaginates

namespace Statement

/-- A selection's tail shows its row window. -/
theorem selectTail_paginates (s : Scope) (q : Query) :
    Yields (Tokens.Paginates s.dialect (!q.orderBy.isEmpty) q.info.limit q.info.offset)
      (selectTail s q (q.parts s)) := by
  have htail : selectTail s q (q.parts s) = do
      let clauses ← sourceClauses q (q.parts s)
      let order ← listClause .ORDER_BY (q.parts s).orderBy
      let lock ← lockClause s q.info.lock
      return clauses ++ (order ++
        windowClause s.dialect q.orderBy.isEmpty q.info.limit q.info.offset) ++ lock := by
    simp only [selectTail, sourceClauses, bind_assoc, pure_bind, List.append_assoc]
  rw [htail]
  refine (sourceClauses_unarranged s q).bind fun clauses hclauses =>
    ((listClause_laid .ORDER_BY (q.parts s).orderBy)).bind fun order horder =>
      (lockClause_shows (fun _ => Token.arranges_of_inClause) s q.info.lock).bind
        fun lock hlock => ?_
  obtain ⟨l, hl, rfl⟩ := horder
  have hempty : l.isEmpty = q.orderBy.isEmpty := OrderItem.isEmpty_of_lowerAll hl
  have hitems : ∀ ts ∈ l, Unarranged ts := OrderItem.lowerAll_unarranged _ _ _ l hl
  rw [← hempty]
  exact .pure (orderTokens_paginates s.dialect hitems q.info.limit q.info.offset hclauses hlock)

section Tail

variable {s : Scope} {q : Query} {p : QueryParts}

/-- The tail of a selection is in the tokens, with others before and behind it. -/
def HasTail (s : Scope) (q : Query) (p : QueryParts) (ts : Tokens) : Prop :=
  ∃ front tail back, selectTail s q p = .ok tail ∧ ts = front ++ tail ++ back

theorem HasTail.within {ts : Tokens} (h : HasTail s q p ts) (before behind : Tokens) :
    HasTail s q p (before ++ ts ++ behind) := by
  obtain ⟨front, tail, back, htail, rfl⟩ := h
  exact ⟨before ++ front, tail, back ++ behind, htail, by simp only [List.append_assoc]⟩

theorem HasTail.of_eq {tail : Tokens} (h : selectTail s q p = .ok tail) (front : Tokens) :
    HasTail s q p (front ++ tail) :=
  ⟨front, tail, [], h, (List.append_nil _).symm⟩

theorem selection_tail (target : Option Table) : Yields (HasTail s q p) (selection s q p target) :=
  (Yields.self _).bind fun _ _ => (Yields.self _).bind fun _ htail => .pure (.of_eq htail _)

/-- Rows that are added are those of a selection where none are given. -/
theorem insertion_tail (hrows : q.rows.isEmpty = true) (target : Table) :
    Yields (HasTail s q p) (insertion s q p target) := by
  have hadded : Yields (HasTail s q p) (addedRows s q p) := by
    rw [addedRows, if_pos hrows]
    exact (Yields.self _).bind fun _ _ => (Yields.self _).bind fun _ htail => .pure (.of_eq htail _)
  refine (Yields.self _).bind fun head _ => (Yields.self _).bind fun columns _ =>
    hadded.bind fun added hadded => (Yields.self _).bind fun conflict _ =>
      (Yields.self _).bind fun duplicates _ => (Yields.self _).bind fun returning _ => .pure ?_
  have htail := hadded.within (head ++ .space :: target.tokens s ++ columns)
    (conflict ++ duplicates ++ returning)
  simpa only [List.append_assoc] using htail

/-- A statement that writes all of an order and a row window has the tail of a selection. -/
theorem whole_tail (h : q.extent = .full) : Yields (HasTail s q p) (whole s q p) := by
  have hbody : Yields (HasTail s q p) (body s q p) := by
    rw [Query.extent] at h
    unfold body
    split
    · exact selection_tail none
    · exact selection_tail _
    · next target haction =>
      rw [haction] at h
      refine insertion_tail ?_ target
      by_contra hrows
      rw [if_neg hrows] at h
      cases h
    · next haction =>
      rw [haction] at h
      cases h
    · next haction =>
      rw [haction] at h
      cases h
  refine (Yields.self _).bind fun commonTables _ => hbody.bind fun body hbody => .pure ?_
  simpa only [List.append_nil] using hbody.within commonTables []

end Tail

/-- **All dialects keep the same rows.** Whatever limit and offset a selection or a set operation is
given, with or without an order and wherever it stands, its tail is read by the grammar of the
dialect: it passes over as many rows as the offset says, or none, and keeps as many as the limit
says, or all, where no count is beyond the greatest signed number of 64 bits. In MySQL and SQLite
every offset stands behind a limit, in SQL Server every fetch behind an offset and every offset
behind an order. Nothing is written for a row window of all rows. -/
theorem tails_paginate :
    (∀ (s : Scope) (q : Query), q.isBlank = false → q.extent = .full →
      Yields (fun ts => ∃ front tail back,
          selectTail (s.inside q) q (q.parts (s.inside q)) = .ok tail ∧
          ts = placed s q.info.id q.info.alias? (front ++ tail ++ back) ∧
          tail.Paginates s.dialect (!q.orderBy.isEmpty) q.info.limit q.info.offset)
        (q.lower s)) ∧
    ∀ (s : Scope) (c : Compound),
      Yields (fun ts => ∃ base operands tail, c.base.lower s.operands = .ok base ∧
          Operand.lowerAll s.operands c.base.selectCount c.operands = .ok operands ∧
          c.ResultClauses s tail ∧
          ts = placed s c.id c.alias? (base ++ operands.flatten ++ tail) ∧
          tail.Paginates s.dialect (!c.orderBy.isEmpty) c.limit c.offset)
        (c.lower s) := by
  refine ⟨fun s q hblank hextent => ?_, fun s c => ?_⟩
  · rw [Query.lower_eq, if_neg (by rw [hblank]; exact Bool.false_ne_true)]
    refine (whole_tail hextent).bind fun body hbody => ?_
    obtain ⟨front, tail, back, htail, rfl⟩ := hbody
    exact .pure ⟨front, tail, back, htail, rfl, selectTail_paginates (s.inside q) q tail htail⟩
  · obtain ⟨id, base, operands, orderBy, limit, offset, alias?⟩ := c
    rw [Compound.lower]
    refine Yields.bind (p := fun ts => ∃ first rest tail, base.lower s.operands = .ok first ∧
      Operand.lowerAll s.operands base.selectCount operands = .ok rest ∧
      Compound.ResultClauses s ⟨id, base, operands, orderBy, limit, offset, alias?⟩ tail ∧
      ts = first ++ rest.flatten ++ tail) ?_ fun body hbody => ?_
    · refine (Yields.self _).bind fun first hfirst => (Yields.self _).bind fun rest hrest =>
        (listClause_laid _ _).bind fun order horder => ?_
      obtain ⟨l, hl, rfl⟩ := horder
      exact .pure ⟨first, rest, _, hfirst, hrest, ⟨l, hl, rfl⟩, List.append_assoc ..⟩
    · obtain ⟨first, rest, tail, hfirst, hrest, htail, rfl⟩ := hbody
      exact .pure ⟨first, rest, tail, hfirst, hrest, htail, rfl, htail.paginates⟩

/-- A selection in SQL Server without an order, with the greatest limit and an offset of zero. -/
theorem tails_paginate_greatest :
    let q : Query := { Query.start ⟨1⟩ .mssql with selects := [Term.field "x"] }
    let limited : Query := (q.limit 18446744073709551615).offset 0
    limited.isBlank = false ∧ limited.extent = .full ∧
      ∃ ts front tail back f, limited.lower (Scope.ofOptions .mssql {}) = .ok ts ∧
        ts = front ++ tail ++ back ∧ Forms tail f ∧
        f.rowWindow? .mssql = some ⟨0, some 9223372036854775807⟩ ∧
        f.Behind .FETCH .OFFSET ∧ f.Behind .OFFSET .ORDER_BY := by
  intro q limited
  have htokens : ∃ ts, limited.lower (Scope.ofOptions .mssql {}) = .ok ts := ⟨_, rfl⟩
  obtain ⟨ts, hts⟩ := htokens
  obtain ⟨front, tail, back, -, hplaced, f, hf, hpaginates⟩ :=
    tails_paginate.1 (Scope.ofOptions .mssql {}) limited rfl rfl ts hts
  exact ⟨rfl, rfl, ts, front, tail, back, f, hts, hplaced.trans (List.append_nil _), hf,
    hpaginates.window, hpaginates.fetched rfl, hpaginates.sorted rfl⟩

end Statement

end SqlScribe
