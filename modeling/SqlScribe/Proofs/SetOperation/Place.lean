import SqlScribe.Proofs.Masking.Lowering
import SqlScribe.Proofs.SetOperation.Filling
/-! # Where the order and the row window stand

The order and the row window of a query stand at one place in its statement. What is written before
them and behind them is the same, whatever they are.

* `Query.extent`: how much of the order and the row window a query writes.
* `Statement.whole_eq`: a statement is what is before its order, its order and its row window, and
  what is behind them.
* `Statement.back_goesOn`: what is behind them begins with a keyword of its own, or is nothing. -/

namespace SqlScribe

open Tokens

/-- How much of its order and its row window a query writes. -/
inductive Extent where
  /-- All. -/
  | full
  /-- The order and the limit. -/
  | limited
  /-- Nothing. -/
  | nothing
deriving Repr, DecidableEq

/-- How much of its order and its row window the query writes. -/
def Query.extent (q : Query) : Extent :=
  match q.info.action with
  | .select | .insert _ true => .full
  | .insert _ false => if q.rows.isEmpty then .full else .nothing
  | .update _ | .delete => .limited

namespace Statement

variable (s : Scope) (q : Query) (p : QueryParts)

/-! ## The parts of a statement -/

/-- The clauses of a selection from its sources to the condition on groups. -/
def sourceClauses : Lowered := do
  let sources ← listClause .FROM p.sources
  let joins ← joinClauses p.joins
  let filter ← conditionClause .WHERE q.filter.isEmpty p.filter
  let groupBy ← groupClause q.info.withRollup p.groupBy
  let having ← conditionClause .HAVING q.having.isEmpty p.having
  return sources ++ joins ++ filter ++ groupBy ++ having

/-- A selection up to its order. -/
def selectionFront (target : Option Table) : Lowered := do
  let select ← selectClause s.dialect q p
  let clauses ← sourceClauses q p
  let into := target.elim [] fun t => .space :: .word .INTO :: .space :: t.tokens s
  return select ++ into ++ clauses

/-- What an insertion adds, up to the order of what it selects. -/
def addedFront : Lowered :=
  if q.rows.isEmpty then do
    let select ← selectClause s.dialect q p
    let clauses ← sourceClauses q p
    return .space :: select ++ clauses
  else listClause .VALUES p.rows

/-- What is written of a query before its order. -/
def front : Lowered := do
  let commonTables ← withClause s.dialect (q.commonTables.any (·.recursive)) p.commonTables
  match q.info.action with
  | .select => return commonTables ++ (← selectionFront s q p none)
  | .insert t true => return commonTables ++ (← selectionFront s q p (some t))
  | .insert t false => do
    let head ← insertHead s.dialect q.info.insertMode
    let columns ← columnClause p.columns
    let added ← addedFront s q p
    return commonTables ++ (head ++ .space :: t.tokens s ++ columns ++ added)
  | .update t => do
    let joins ← joinClauses p.joins
    let assignments ← p.assignments
    let sources ← listClause .FROM p.sources
    let filter ← conditionClause .WHERE q.filter.isEmpty p.filter
    return commonTables ++ (.word .UPDATE :: .space :: t.tokens s ++ joins ++
      Tokens.spaced (.word .SET) ++ Tokens.listed assignments ++ sources ++ filter)
  | .delete => do
    let sources ← listClause .FROM p.sources
    let joins ← joinClauses p.joins
    let filter ← conditionClause .WHERE q.filter.isEmpty p.filter
    return commonTables ++
      (.word .DELETE :: sources ++ usingClause s q.info.usingTables ++ joins ++ filter)

/-- The order and the row window of a query, as much as it writes of them. -/
def ordering (d : Dialect) (extent : Extent) (orderBy : LoweredList) (unordered : Bool)
    (limit offset : Option UInt64) : Lowered :=
  match extent with
  | .full => do
    return (← listClause .ORDER_BY orderBy) ++ windowClause d unordered limit offset
  | .limited => do return (← listClause .ORDER_BY orderBy) ++ limitClause limit
  | .nothing => .ok []

/-- The lock on what an insertion selects. -/
def addedLock : Lowered := if q.rows.isEmpty then lockClause s q.info.lock else .ok []

/-- What is written of a query behind its row window. -/
def back : Lowered :=
  match q.info.action with
  | .select | .insert _ true => lockClause s q.info.lock
  | .insert _ false => do
    let lock ← addedLock s q
    let conflict ← p.conflict
    let duplicates ← duplicateClause s.dialect q.duplicateUpdates.isEmpty p.duplicateUpdates
    let returning ← returningClause s.dialect q p.returning
    return lock ++ conflict ++ duplicates ++ returning
  | .update _ | .delete => returningClause s.dialect q p.returning

theorem ordering_full_laid (d : Dialect) (orderBy : LoweredList) (unordered : Bool)
    (limit offset : Option UInt64) :
    Yields (fun ts => ∃ l, orderBy = .ok l ∧
        ts = headed .ORDER_BY l ++ windowClause d unordered limit offset)
      (ordering d .full orderBy unordered limit offset) := by
  refine (listClause_laid _ _).bind fun ts hts => ?_
  obtain ⟨l, hl, rfl⟩ := hts
  exact .pure ⟨l, hl, rfl⟩

theorem ordering_limited_laid (d : Dialect) (orderBy : LoweredList) (unordered : Bool)
    (limit offset : Option UInt64) :
    Yields (fun ts => ∃ l, orderBy = .ok l ∧ ts = headed .ORDER_BY l ++ limitClause limit)
      (ordering d .limited orderBy unordered limit offset) := by
  refine (listClause_laid _ _).bind fun ts hts => ?_
  obtain ⟨l, hl, rfl⟩ := hts
  exact .pure ⟨l, hl, rfl⟩

theorem selection_eq (target : Option Table) :
    selection s q p target = do
      let front ← selectionFront s q p target
      let order ← listClause .ORDER_BY p.orderBy
      let lock ← lockClause s q.info.lock
      return front ++ (order ++
        windowClause s.dialect q.orderBy.isEmpty q.info.limit q.info.offset) ++ lock := by
  cases target <;>
    simp only [selection, selectTail, selectionFront, sourceClauses, Option.elim, bind_assoc,
      pure_bind, List.append_assoc]

/-- **The place of the order and the row window.** A statement is what is written before its order,
its order and its row window, and what is written behind them. -/
theorem whole_eq :
    whole s q p = do
      let front ← front s q p
      let order ← ordering s.dialect q.extent p.orderBy q.orderBy.isEmpty q.info.limit q.info.offset
      let back ← back s q p
      return front ++ order ++ back := by
  unfold whole body front Query.extent back
  cases haction : q.info.action with
  | select =>
    simp only [selection_eq, ordering, bind_assoc, pure_bind, List.append_assoc]
  | insert t into =>
    cases into with
    | true => simp only [selection_eq, ordering, bind_assoc, pure_bind, List.append_assoc]
    | false =>
      -- Rows come without an order and a row window; a selection brings its own, before the lock.
      cases hrows : q.rows.isEmpty with
      | true =>
        simp only [insertion, addedRows, addedFront, addedLock, selectTail, sourceClauses, hrows,
          if_pos, ordering, bind_assoc, pure_bind, List.append_assoc, List.cons_append]
      | false =>
        simp only [insertion, addedRows, addedFront, addedLock, hrows, Bool.false_eq_true,
          if_false, ordering, bind_assoc, pure_bind, List.append_assoc, List.cons_append]
        rfl
  | update t =>
    simp only [update, changeTail, ordering, bind_assoc, pure_bind, List.append_assoc,
      List.cons_append]
  | delete =>
    simp only [deletion, changeTail, ordering, bind_assoc, pure_bind, List.append_assoc,
      List.cons_append]

end Statement

/-! ## Behind the row window -/

/-- The tokens are none, or begin with a keyword that may stand behind a row window. -/
def Tokens.Closes (ts : Tokens) : Prop :=
  ts = [] ∨ ∃ k ∈ Text.closing, ∃ us, ts = .space :: .word k :: us

namespace Tokens.Closes

variable {ts us : Tokens}

theorem nil : Closes [] := .inl rfl

theorem word {k : Keyword} (hk : k ∈ Text.closing) (ts : Tokens) :
    Closes (.space :: .word k :: ts) := .inr ⟨k, hk, ts, rfl⟩

theorem append (h : Closes ts) (h' : Closes us) : Closes (ts ++ us) := by
  rcases h with rfl | ⟨k, hk, ts, rfl⟩
  · exact h'
  · exact word hk _

/-- However values are written, the text goes on as behind a row window. -/
theorem goesOn (h : Closes ts) {σ : Type} {F : Filling σ} {a b : σ} (hus : F.Writes a ts us b)
    (p : Spelling) {r : List Char} (hr : Text.GoesOn Text.closing r) :
    Text.GoesOn Text.closing (chars p us ++ r) := by
  rcases h with rfl | ⟨k, hk, ts, rfl⟩
  · cases hus
    exact hr
  · obtain ⟨vs, rfl, hvs⟩ := hus.cons_plain rfl
    obtain ⟨vs, rfl, -⟩ := hvs.cons_plain rfl
    rw [chars_word, List.append_assoc]
    exact .inr (.inr ⟨k, hk, List.prefix_append _ _⟩)

end Tokens.Closes

namespace Statement

variable {s : Scope} {q : Query} {parts : QueryParts}

theorem lockClause_closes (lock : Option Lock) : Yields Closes (lockClause s lock) := by
  cases lock with
  | none => exact .ok .nil
  | some lock => exact iteInduction (fun _ => .ok (.word (by decide) _)) fun _ => .error _

theorem conflictClause_closes (d : Dialect) (c : Conflict) (parts : ConflictParts) :
    Yields Closes (conflictClause d c parts) := by
  refine iteInduction (fun _ => .error _) fun _ => ?_
  cases c.handler with
  | none => exact iteInduction (fun _ => .ok .nil) fun _ => .error _
  | some handler =>
    exact (Yields.self _).bind fun _ _ => (Yields.self _).bind fun _ _ =>
      (Yields.self _).bind fun _ _ => .pure (.word (by decide) _)

theorem duplicateClause_closes (d : Dialect) (isEmpty : Bool) (updates : LoweredList) :
    Yields Closes (duplicateClause d isEmpty updates) :=
  iteInduction (fun _ => .ok .nil) fun _ => iteInduction (fun _ => .error _) fun _ =>
    (Yields.self _).bind fun _ _ => .pure (.word (by decide) _)

theorem returningClause_closes (d : Dialect) (items : LoweredList) :
    Yields Closes (returningClause d q items) := by
  refine iteInduction (fun _ => .ok .nil) fun _ => iteInduction (fun _ => ?_) fun _ => .error _
  cases foreignReturned? q with
  | some t => exact .error _
  | none => exact (Yields.self _).bind fun _ _ => .pure (.word (by decide) _)

/-- Behind its row window, a query goes on with a keyword of its own or is at its end. -/
theorem back_closes (hconflict : Yields Closes parts.conflict) :
    Yields Closes (back s q parts) := by
  unfold back
  split
  · exact lockClause_closes _
  · exact lockClause_closes _
  · have hlock : Yields Closes (addedLock s q) :=
      iteInduction (fun _ => lockClause_closes _) fun _ => .ok .nil
    exact hlock.bind fun _ hlock => hconflict.bind fun _ hconflict =>
      (duplicateClause_closes _ _ _).bind fun _ hduplicates =>
        (returningClause_closes _ _).bind fun _ hreturning =>
          .pure (((hlock.append hconflict).append hduplicates).append hreturning)
  · exact returningClause_closes _ _
  · exact returningClause_closes _ _

end Statement

namespace Query

theorem parts_conflict_closes {inner : Scope} (q : Query) :
    Yields Closes (q.parts inner).conflict := by
  unfold parts
  cases q.conflict with
  | none => exact .ok .nil
  | some c =>
    obtain ⟨targets, targetFilter, handler, assignments, updateFilter⟩ := c
    show Yields _ (Conflict.lower inner _)
    rw [Conflict.lower]
    exact Statement.conflictClause_closes _ _ _

/-! ## Other orders and row windows -/

/-- The query with another order and another row window. -/
def reordered (q : Query) (orderBy : List OrderItem) (limit offset : Option UInt64) : Query :=
  { q with orderBy, info := { q.info with limit, offset } }

/-- The ordering terms in the tokens in which the query writes them. -/
def lowerOrder (s : Scope) (q : Query) (items : List OrderItem) : LoweredList :=
  OrderItem.lowerAll (s.inside q).quiet ((s.inside q).orderNames q) items

/-- What a query writes before its order and behind its row window is the same, whatever these
are. -/
theorem lower_reordered (s : Scope) {q : Query} (h : q.isBlank = false) (orderBy : List OrderItem)
    (limit offset : Option UInt64) :
    (q.reordered orderBy limit offset).lower s.standalone = do
      let front ← Statement.front (s.standalone.inside q) q (q.parts (s.standalone.inside q))
      let order ← Statement.ordering s.dialect q.extent (q.lowerOrder s.standalone orderBy)
        orderBy.isEmpty limit offset
      let back ← Statement.back (s.standalone.inside q) q (q.parts (s.standalone.inside q))
      return front ++ order ++ back := by
  have hplaced (body : Tokens) :
      Statement.placed s.standalone (q.reordered orderBy limit offset).info.id
        (q.reordered orderBy limit offset).info.alias? body = body := List.append_nil _
  have hblank : (q.reordered orderBy limit offset).isBlank = false := h
  rw [lower_eq, if_neg (by rw [hblank]; exact Bool.false_ne_true), Statement.whole_eq]
  simp only [hplaced, bind_pure]
  -- The scope and the other parts do not look at the order and the row window.
  rfl

/-- The order and the row window of a query, as much as it writes of them. -/
def orderAndWindow (s : Scope) (q : Query) : Lowered :=
  Statement.ordering s.dialect q.extent (q.lowerOrder s.standalone q.orderBy) q.orderBy.isEmpty
    q.info.limit q.info.offset

theorem reordered_self (q : Query) : q.reordered q.orderBy q.info.limit q.info.offset = q := by
  cases q
  rfl

theorem lower_reordered_laid (s : Scope) {q : Query} (h : q.isBlank = false)
    (orderBy : List OrderItem) (limit offset : Option UInt64) :
    Yields (fun ts => ∃ front order back,
        Statement.front (s.standalone.inside q) q (q.parts (s.standalone.inside q)) = .ok front ∧
        Statement.ordering s.dialect q.extent (q.lowerOrder s.standalone orderBy) orderBy.isEmpty
          limit offset = .ok order ∧
        Statement.back (s.standalone.inside q) q (q.parts (s.standalone.inside q)) = .ok back ∧
        ts = front ++ order ++ back)
      ((q.reordered orderBy limit offset).lower s.standalone) := by
  rw [lower_reordered s h]
  exact (Yields.self _).bind fun front hfront => (Yields.self _).bind fun order horder =>
    (Yields.self _).bind fun back hback => .pure ⟨front, order, back, hfront, horder, hback, rfl⟩

end Query

end SqlScribe
