import SqlScribe.Proofs.Fragment.Clause
import SqlScribe.Proofs.Occurrence.Statement
/-! # Fragments in statements

A statement puts the parts of a query together and adds fragments of its own: the schemas of its
tables, `TOP` and the row window of what it selects, and the limit of what it changes.

* `QueryParts.Made`: the parts that the statement of a query writes are made from fragments, and
  those that it adds are among them.
* `Statement.whole_made`, `Statement.compound_made`: then the statement is made from them, or the
  set operation. -/

namespace SqlScribe

open Tokens

variable {F : Tokens → Prop}

theorem Scope.aliasSuffix_made (s : Scope) (name : String) :
    Made F (s.aliasSuffix name) := by
  unfold aliasSuffix
  split
  · exact .space (.word _ (.space (.one rfl)) rfl)
  · exact .space (.one rfl)

/-- The tokens of a table are plain but for its schemas. -/
theorem Table.tokens_made (hschema : ∀ part, F [.ident part, .mark .dot]) (s : Scope)
    (t : Table) : Made F (t.tokens s) := by
  refine .append (.flatMap fun part _ => .fragment (hschema part)) (.cons rfl ?_)
  cases t.alias? with
  | none => exact .nil
  | some name => exact s.aliasSuffix_made name

theorem SetOperator.tokens_made (op : SetOperator) : Made F op.tokens := by
  cases op with
  | unionAll => exact .word _ (.space (.one rfl)) rfl
  | _ => exact .one rfl

/-- The parts that the statement of a query writes are made from fragments, and what it adds itself
is among them. -/
structure QueryParts.Made (F : Tokens → Prop) (d : Dialect) (q : Query) (parts : QueryParts) :
    Prop where
  schema : ∀ part, F [.ident part, .mark .dot]
  commonTables : Yields (AllMade F) parts.commonTables
  sources : q.readsRows = true → Yields (AllMade F) parts.sources
  joins : q.readsRows = true → Yields (AllMade F) parts.joins
  filter : q.readsRows = true → Yields (Tokens.Made F) parts.filter
  orderBy : q.readsRows = true → Yields (AllMade F) parts.orderBy
  selects : q.selectsRows = true → Yields (AllMade F) parts.selects
  distinctOn : q.selectsRows = true → Yields (AllMade F) parts.distinctOn
  groupBy : q.selectsRows = true → Yields (AllMade F) parts.groupBy
  having : q.selectsRows = true → Yields (Tokens.Made F) parts.having
  top : q.selectsRows = true → ∀ t ∈ q.info.top, F [countToken t.count]
  window : q.selectsRows = true → F (d.window q.info.limit (properOffset q.info.offset))
  columns : q.insertsRows = true → Yields (AllMade F) parts.columns
  rows : q.insertsRows = true → Yields (AllMade F) parts.rows
  conflict : q.insertsRows = true → Yields (Tokens.Made F) parts.conflict
  duplicateUpdates : q.insertsRows = true → Yields (AllMade F) parts.duplicateUpdates
  assignments : q.info.action.updateTarget?.isSome = true →
    Yields (AllMade F) parts.assignments
  limit : q.info.action.isChange = true →
    ∀ n ∈ q.info.limit, F (PaginationStyle.limitClause (countToken n))
  returning : (q.insertsRows || q.info.action.isChange) = true →
    Yields (AllMade F) parts.returning

namespace Query

variable {q : Query}

theorem readsRows_of_selectsRows (h : q.selectsRows = true) : q.readsRows = true := by
  simp [readsRows, h]

theorem readsRows_of_isChange (h : q.info.action.isChange = true) : q.readsRows = true := by
  simp [readsRows, h]

end Query

namespace Statement

variable {items : LoweredList} {condition inner : Lowered} {s : Scope} {q : Query}
  {parts : QueryParts}

/-! ## Clauses of selections -/

theorem listClause_made (k : Keyword) (h : Yields (AllMade F) items)
    (hk : (Token.word k).standsAlone = true) : Yields (Made F) (listClause k items) := by
  refine h.bind fun l hl => ?_
  cases l with
  | nil => exact .ok .nil
  | cons ts l => exact .ok ((Made.listed hl).space.word k hk).space

theorem conditionClause_made (k : Keyword) (isEmpty : Bool) (h : Yields (Made F) condition)
    (hk : (Token.word k).standsAlone = true) :
    Yields (Made F) (conditionClause k isEmpty condition) := by
  cases isEmpty with
  | true => exact .ok .nil
  | false => exact h.bind fun _ hc => .pure (hc.space.word k hk).space

theorem commonTable_made (name : String) (columns : List String)
    (h : Yields (Made F) inner) : Yields (Made F) (commonTable name columns inner) := by
  refine h.bind fun body hbody =>
    .pure (.append (.append (.cons rfl ?_) (.spaced rfl)) hbody.parens)
  exact .ite .nil (.space (.parens (.idents columns)))

theorem withClause_made (d : Dialect) (recursive : Bool) (h : Yields (AllMade F) items) :
    Yields (Made F) (withClause d recursive items) := by
  refine h.bind fun l hl => ?_
  cases l with
  | nil => exact .ok .nil
  | cons ts l =>
    refine .ok (.append (.append (.word _ (.space ?_) rfl) (.listed hl)) (.one rfl))
    exact .ite (.word _ (.one rfl) rfl) .nil

theorem distinctClause_made (d : Dialect) (distinct isEmpty : Bool)
    (h : Yields (AllMade F) items) :
    Yields (Made F) (distinctClause d distinct isEmpty items) := by
  refine iteInduction (fun _ => .ok (.ite (.word _ (.one rfl) rfl) .nil)) fun _ =>
    iteInduction (fun _ => ?_) fun _ => .error _
  exact h.bind fun l hl => .pure
    (.append (.word _ (.space (.word _ (.parens (.listed hl)) rfl)) rfl) (.one rfl))

theorem topClause_made (d : Dialect) {top : Option Top}
    (h : ∀ t ∈ top, F [countToken t.count]) : Yields (Made F) (topClause d top) := by
  cases top with
  | none => exact .ok .nil
  | some t =>
    refine iteInduction (fun _ => .ok ?_) fun _ => .error _
    refine .append (.append (.word _ (.space (.parens (.fragment (h t rfl)))) rfl) (.space ?_)) ?_
    · exact .ite (.word _ (.one rfl) rfl) .nil
    · exact .ite (.cons rfl (.one rfl)) .nil

theorem selectClause_made {d : Dialect} (h : parts.Made F d q)
    (hq : q.selectsRows = true) : Yields (Made F) (selectClause d q parts) :=
  (distinctClause_made _ _ _ (h.distinctOn hq)).bind fun _ hd =>
    (topClause_made _ (h.top hq)).bind fun _ ht => (h.selects hq).bind fun _ hl =>
      .pure (((hd.space.word .SELECT rfl).append ht).append (.listed hl))

theorem joinClauses_made (h : Yields (AllMade F) items) :
    Yields (Made F) (joinClauses items) :=
  h.bind fun _ hl => .pure (.flatMap fun ts hts => (hl ts hts).space)

theorem groupClause_made (withRollup : Bool) (h : Yields (AllMade F) items) :
    Yields (Made F) (groupClause withRollup items) := by
  refine h.bind fun l hl => ?_
  cases l with
  | nil => exact .ok .nil
  | cons ts l =>
    refine .ok (.append (.space (.word _ (.space (.listed hl)) rfl)) (.ite ?_ .nil))
    exact .space (.word _ (.space (.one rfl)) rfl)

theorem windowClause_made {d : Dialect} (unordered : Bool) {limit offset : Option UInt64}
    (h : F (d.window limit (properOffset offset))) :
    Made F (windowClause d unordered limit offset) := by
  refine .append (.ite ?_ .nil) (.fragment h)
  exact .space (.word _ (.space (.one rfl)) rfl)

theorem lockClause_made (hschema : ∀ part, F [.ident part, .mark .dot]) (s : Scope)
    (lock : Option Lock) : Yields (Made F) (lockClause s lock) := by
  cases lock with
  | none => exact .ok .nil
  | some lock =>
    refine iteInduction (fun _ => .ok ?_) fun _ => .error _
    refine .append (.space (.word _ (.space (.word _ ?_ rfl)) rfl)) ?_
    · split
      · exact .nil
      · exact .append (.space (.cons rfl (.space (Table.tokens_made hschema s _))))
          (.flatMap fun t _ => .cons rfl (t.tokens_made hschema s).space)
    · split
      · exact .nil
      · exact .space (.one rfl)
      · exact .space (.one rfl)

theorem selectTail_made (h : parts.Made F s.dialect q) (hq : q.selectsRows = true) :
    Yields (Made F) (selectTail s q parts) := by
  have hreads := Query.readsRows_of_selectsRows hq
  exact (listClause_made _ (h.sources hreads) rfl).bind fun _ hs =>
    (joinClauses_made (h.joins hreads)).bind fun _ hj =>
      (conditionClause_made _ _ (h.filter hreads) rfl).bind fun _ hf =>
        (groupClause_made _ (h.groupBy hq)).bind fun _ hg =>
          (conditionClause_made _ _ (h.having hq) rfl).bind fun _ hh =>
            (listClause_made _ (h.orderBy hreads) rfl).bind fun _ ho =>
              (lockClause_made h.schema s _).bind fun _ hl =>
                .pure (((((((hs.append hj).append hf).append hg).append hh).append ho).append
                  (windowClause_made _ (h.window hq))).append hl)

theorem selection_made (h : parts.Made F s.dialect q) (hq : q.selectsRows = true)
    (target : Option Table) : Yields (Made F) (selection s q parts target) := by
  refine (selectClause_made h hq).bind fun select hselect => (selectTail_made h hq).bind
    fun tail htail => .pure (.append (.append hselect ?_) htail)
  cases target with
  | none => exact .nil
  | some t => exact ((t.tokens_made h.schema s).space.word .INTO rfl).space

/-! ## Changes of rows -/

theorem insertHead_made (d : Dialect) (mode : InsertMode) :
    Yields (Made F) (insertHead d mode) := by
  have hinto : Made F [.space, .word .INTO] := .space (.one rfl)
  cases mode with
  | insert => exact .ok (hinto.word _ rfl)
  | ignore =>
    rw [insertHead]
    split
    · exact .ok (.word _ (.space (hinto.cons rfl)) rfl)
    · exact .error _
  | replace => exact iteInduction (fun _ => .ok (hinto.word _ rfl)) fun _ => .error _
  | insertOrReplace =>
    refine iteInduction (fun _ => .ok ?_) fun _ => .error _
    exact .word _ (.space (.word _ (.space (hinto.word _ rfl)) rfl)) rfl

theorem assignment_made {column value : Lowered} (hc : Yields (Made F) column)
    (hv : Yields (Made F) value) : Yields (Made F) (assignment column value) :=
  hc.bind fun _ hc => hv.bind fun _ hv => .pure (hc.append (hv.cons rfl))

theorem whereClause_made (isEmpty : Bool) (h : Yields (Made F) condition) :
    Yields (Made F) (whereClause isEmpty condition) := by
  cases isEmpty with
  | true => exact .ok .nil
  | false => exact h.bind fun _ hc => .pure ((Made.spaced rfl).append hc)

theorem conflictTargets_made {l : List Tokens} (hl : AllMade F l) :
    Made F (conflictTargets l) := by
  cases l with
  | nil => exact .nil
  | cons ts l =>
    obtain ⟨hts, hl⟩ := List.forall_mem_cons.mp hl
    exact .space (.parens (hts.append (.flatMap fun us hus => (hl us hus).space.cons rfl)))

/-- The parts that a conflict clause writes are made from fragments. -/
structure ConflictParts.Made (F : Tokens → Prop) (c : Conflict) (parts : ConflictParts) :
    Prop where
  targets : c.handler ≠ none → Yields (AllMade F) parts.targets
  targetFilter : c.handler ≠ none → Yields (Tokens.Made F) parts.targetFilter
  assignments : c.handler = some .update → Yields (AllMade F) parts.assignments
  updateFilter : c.handler = some .update → Yields (Tokens.Made F) parts.updateFilter

section Conflict

variable {c : Conflict} {parts : ConflictParts}

theorem conflictHandler_made (h : parts.Made F c) {handler : ConflictHandler}
    (hc : c.handler = some handler) :
    Yields (Tokens.Made F) (conflictHandler c parts handler) := by
  cases handler with
  | nothing => exact .ok (.append (.spaced rfl) (.one rfl))
  | update =>
    refine iteInduction (fun _ => .error _) fun _ => ?_
    refine (h.assignments hc).bind fun l hl => (whereClause_made _ (h.updateFilter hc)).bind
      fun w hw => .pure (.append (.append (.spaced rfl) ?_) hw)
    exact .word _ (.space (.word _ (.space (.listed hl)) rfl)) rfl

theorem conflictClause_made (h : parts.Made F c) (d : Dialect) :
    Yields (Tokens.Made F) (conflictClause d c parts) := by
  refine iteInduction (fun _ => .error _) fun _ => ?_
  cases hc : c.handler with
  | none => exact iteInduction (fun _ => .ok .nil) fun _ => .error _
  | some handler =>
    have hsome : c.handler ≠ none := by simp [hc]
    refine (h.targets hsome).bind fun l hl => (whereClause_made _ (h.targetFilter hsome)).bind
      fun w hw => (conflictHandler_made h hc).bind fun t ht =>
        .pure (.append (.append ?_ hw) ht)
    exact .space (.word _ (.space (.word _ (conflictTargets_made hl) rfl)) rfl)

end Conflict

theorem duplicateClause_made (d : Dialect) (isEmpty : Bool) (h : Yields (AllMade F) items) :
    Yields (Made F) (duplicateClause d isEmpty items) := by
  refine iteInduction (fun _ => .ok .nil) fun _ =>
    iteInduction (fun _ => .error _) fun _ => h.bind fun l hl => .pure ?_
  have hupdate : Made F (.word .UPDATE :: .space :: listed l) :=
    (Made.listed hl).space.word _ rfl
  exact .space (.word _ (.space (.cons rfl hupdate.space)) rfl)

theorem returningClause_made (d : Dialect) (q : Query) (h : Yields (AllMade F) items) :
    Yields (Made F) (returningClause d q items) := by
  refine iteInduction (fun _ => .ok .nil) fun _ => iteInduction (fun _ => ?_) fun _ => .error _
  split
  · exact .error _
  · exact h.bind fun l hl => .pure ((Made.spaced rfl).append (.listed hl))

theorem columnClause_made (h : Yields (AllMade F) items) :
    Yields (Made F) (columnClause items) := by
  refine h.bind fun l hl => ?_
  cases l with
  | nil => exact .ok .nil
  | cons ts l => exact .ok (Made.listed hl).parens.space

theorem insertion_made (h : parts.Made F s.dialect q) (target : Table)
    (hq : q.info.action = .insert target false) :
    Yields (Made F) (insertion s q parts target) := by
  have hinserts : q.insertsRows = true := by simp [Query.insertsRows, hq]
  -- What is added is selected where there are no rows.
  have hadded : Yields (Made F) (addedRows s q parts) := by
    refine iteInduction (fun hrows => ?_) fun _ => listClause_made _ (h.rows hinserts) rfl
    have hselects : q.selectsRows = true := by simp [Query.selectsRows, hq, hrows]
    exact (selectClause_made h hselects).bind fun _ hselect =>
      (selectTail_made h hselects).bind fun _ htail => .pure (hselect.space.append htail)
  exact (insertHead_made _ _).bind fun _ hh =>
    (columnClause_made (h.columns hinserts)).bind fun _ hc => hadded.bind fun _ ha =>
      (h.conflict hinserts).bind fun _ hf =>
        (duplicateClause_made _ _ (h.duplicateUpdates hinserts)).bind fun _ hd =>
          (returningClause_made _ _ (h.returning (by simp [hinserts]))).bind fun _ hr =>
            .pure ((((((hh.append (target.tokens_made h.schema s).space).append hc).append
              ha).append hf).append hd).append hr)

theorem changeTail_made (h : parts.Made F s.dialect q)
    (hq : q.info.action.isChange = true) : Yields (Made F) (changeTail s q parts) := by
  have hreads := Query.readsRows_of_isChange hq
  have hlimit : Made F (limitClause q.info.limit) := by
    cases hn : q.info.limit with
    | none => exact .nil
    | some n => exact .fragment (h.limit hq n hn)
  exact (conditionClause_made _ _ (h.filter hreads) rfl).bind fun _ hf =>
    (listClause_made _ (h.orderBy hreads) rfl).bind fun _ ho =>
      (returningClause_made _ _ (h.returning (by simp [hq]))).bind fun _ hr =>
        .pure (((hf.append ho).append hlimit).append hr)

theorem update_made (h : parts.Made F s.dialect q) (target : Table)
    (hq : q.info.action = .update target) : Yields (Made F) (update s q parts target) := by
  have hchange : q.info.action.isChange = true := by rw [hq]; rfl
  have hreads := Query.readsRows_of_isChange hchange
  have hassigns : q.info.action.updateTarget?.isSome = true := by rw [hq]; rfl
  exact (joinClauses_made (h.joins hreads)).bind fun _ hj =>
    (h.assignments hassigns).bind fun _ ha =>
      (listClause_made _ (h.sources hreads) rfl).bind fun _ hs =>
        (changeTail_made h hchange).bind fun _ ht =>
          .pure (.append (.append (.append (.append (.append
            ((target.tokens_made h.schema s).space.word .UPDATE rfl) hj) (.spaced rfl))
            (.listed ha)) hs) ht)

theorem usingClause_made (hschema : ∀ part, F [.ident part, .mark .dot]) (s : Scope)
    (tables : List Table) : Made F (usingClause s tables) := by
  cases tables with
  | nil => exact .nil
  | cons t ts =>
    exact .append (.spaced rfl)
      (.listed (List.forall_mem_map.mpr fun u _ => u.tokens_made hschema s))

theorem deletion_made (h : parts.Made F s.dialect q) (hq : q.info.action = .delete) :
    Yields (Made F) (deletion s q parts) := by
  have hchange : q.info.action.isChange = true := by rw [hq]; rfl
  have hreads := Query.readsRows_of_isChange hchange
  exact (listClause_made _ (h.sources hreads) rfl).bind fun _ hs =>
    (joinClauses_made (h.joins hreads)).bind fun _ hj =>
      (changeTail_made h hchange).bind fun _ ht =>
        .pure ((((hs.word .DELETE rfl).append (usingClause_made h.schema s _)).append hj).append ht)

/-! ## Whole statements -/

theorem body_made (h : parts.Made F s.dialect q) : Yields (Made F) (body s q parts) := by
  cases hq : q.info.action with
  | select =>
    simp only [body, hq]
    exact selection_made h (by simp [Query.selectsRows, hq]) none
  | insert target fromList =>
    cases fromList with
    | true =>
      simp only [body, hq]
      exact selection_made h (by simp [Query.selectsRows, hq]) (some target)
    | false =>
      simp only [body, hq]
      exact insertion_made h target hq
  | update target =>
    simp only [body, hq]
    exact update_made h target hq
  | delete =>
    simp only [body, hq]
    exact deletion_made h hq

/-- A statement is made from the fragments of the parts that it writes and those that it adds. -/
theorem whole_made (h : parts.Made F s.dialect q) : Yields (Made F) (whole s q parts) :=
  (withClause_made _ _ h.commonTables).bind fun _ hw => (body_made h).bind fun _ hb =>
    .pure (hw.append hb)

theorem placed_made (s : Scope) (id : SourceId) (alias? : Option String) {ts : Tokens}
    (h : Made F ts) : Made F (placed s id alias? ts) := by
  refine (h.parensIf s.nested).append (.ite ?_ .nil)
  split
  · exact s.aliasSuffix_made _
  · exact .nil

theorem operand_made (op : SetOperator) (first other : Nat) (h : Yields (Made F) inner) :
    Yields (Made F) (operand op first other inner) :=
  iteInduction (fun _ => .error _) fun _ => h.bind fun _ hts =>
    .pure (op.tokens_made.space.append hts.space)

/-- A set operation is made from the fragments of its operands and its order, and its row window. -/
theorem compound_made {d : Dialect} {base : Lowered} {operands orderBy : LoweredList}
    (unordered : Bool) {limit offset : Option UInt64} (hb : Yields (Made F) base)
    (ho : Yields (AllMade F) operands) (hord : Yields (AllMade F) orderBy)
    (hwindow : F (d.window limit (properOffset offset))) :
    Yields (Made F) (compound d base operands orderBy unordered limit offset) :=
  hb.bind fun _ hb => ho.bind fun _ hl => (listClause_made _ hord rfl).bind fun _ hord =>
    .pure (((hb.append (.flatten hl)).append hord).append (windowClause_made _ hwindow))

theorem join_made {source : Lowered} (kind : JoinKind) (hs : Yields (Made F) source)
    (hc : Yields (Made F) condition) : Yields (Made F) (join kind source condition) := by
  refine hs.bind fun source hs => hc.bind fun c hc => .pure (.append (.append ?_ ?_) hc)
  · split
    · exact .cons rfl (.one rfl)
    · exact .nil
  · exact hs.space.word .JOIN rfl

end Statement

end SqlScribe
