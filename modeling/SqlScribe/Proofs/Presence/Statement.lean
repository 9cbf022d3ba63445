import SqlScribe.Lowering.Statement
import SqlScribe.Proofs.Presence.Clause
/-! # Keywords in statements

Statements leave no keyword without its condition if their parts do not. A clause for a condition is
left out if there is none, so that only a condition that is there has to be more than nothing.

* `QueryParts.Backed`: the parts of a query leave no keyword without its condition.
* `Statement.whole_backed`, `Statement.compound_backed`: so do the query and a set operation. -/

namespace SqlScribe

open Tokens

/-! ## Names and row windows -/

theorem Scope.aliasSuffix_backed (s : Scope) (name : String) : Backed (s.aliasSuffix name) := by
  unfold aliasSuffix
  split
  · exact .cons rfl (.cons rfl (.cons rfl (.one rfl)))
  · exact .cons rfl (.one rfl)

theorem Table.tokens_backed (s : Scope) (t : Table) : Backed (t.tokens s) := by
  refine .append (.flatMap fun part _ => .cons rfl (.one rfl)) (.cons rfl ?_)
  cases t.alias? with
  | none => exact .nil
  | some name => exact s.aliasSuffix_backed name

theorem PaginationStyle.clause_backed {write : Token → Tokens} (h : ∀ n, Backed (write (.count n)))
    (n : Option UInt64) : Backed (clause write n) := by
  cases n with
  | none => exact .nil
  | some n => exact h _

theorem Dialect.window_backed (d : Dialect) (limit offset : Option UInt64) :
    Backed (d.window limit offset) := by
  have hlimit : ∀ {t : Token}, t.isPlain = true → Backed (PaginationStyle.limitClause t) :=
    fun ht => .cons rfl (.cons rfl (.cons rfl (.one ht)))
  have hoffset : ∀ {t : Token}, t.isPlain = true → Backed (PaginationStyle.offsetClause t) :=
    fun ht => .cons rfl (.cons rfl (.cons rfl (.one ht)))
  have hrows : ∀ {t : Token}, t.isPlain = true → Backed (PaginationStyle.offsetRows t) :=
    fun ht => (hoffset ht).append (.cons rfl (.one rfl))
  have hfetch : ∀ n, Backed (PaginationStyle.fetchNext (.count n)) := fun n =>
    .cons rfl (.cons rfl (.cons rfl (.cons rfl (.cons rfl (.cons rfl (.cons rfl (.cons rfl
      (.cons rfl (.one rfl)))))))))
  unfold Dialect.window PaginationStyle.window
  split
  · exact .append (PaginationStyle.clause_backed (fun _ => hlimit rfl) _)
      (PaginationStyle.clause_backed (fun _ => hoffset rfl) _)
  · split
    · exact .append (hlimit rfl) (hoffset rfl)
    · exact .append (PaginationStyle.clause_backed (fun _ => hlimit rfl) _)
        (PaginationStyle.clause_backed (fun _ => hoffset rfl) _)
  · exact .nil
  · exact .append (hrows rfl) (PaginationStyle.clause_backed hfetch _)
  · exact .append (PaginationStyle.clause_backed (fun _ => hrows rfl) _)
      (PaginationStyle.clause_backed hfetch _)

/-- The parts of a query leave no keyword without its condition, and conditions that are there are
more than nothing. -/
structure QueryParts.Backed (p : QueryParts) (q : Query) : Prop where
  commonTables : Yields AllBacked p.commonTables
  sources : Yields AllBacked p.sources
  selects : Yields AllBacked p.selects
  distinctOn : Yields AllBacked p.distinctOn
  joins : Yields AllBacked p.joins
  filter : q.filter.isEmpty = false → Yields (Fills false) p.filter
  groupBy : Yields AllBacked p.groupBy
  having : q.having.isEmpty = false → Yields (Fills false) p.having
  orderBy : Yields AllBacked p.orderBy
  columns : Yields AllBacked p.columns
  rows : Yields AllBacked p.rows
  conflict : Yields Tokens.Backed p.conflict
  duplicateUpdates : Yields AllBacked p.duplicateUpdates
  assignments : Yields AllBacked p.assignments
  returning : Yields AllBacked p.returning

namespace Statement

variable {items : LoweredList} {condition inner : Lowered} {q : Query} {p : QueryParts}

/-! ## Selections -/

theorem listClause_backed {k : Keyword} (hk : (Token.word k).isPlain = true)
    (h : Yields AllBacked items) : Yields Backed (listClause k items) := by
  refine h.bind fun l hl => ?_
  cases l with
  | nil => exact .ok .nil
  | cons ts l => exact .ok (.cons rfl (.cons hk (Backed.listed hl).space))

/-- A condition behind its keyword, unless there is none. -/
theorem conditionClause_backed (k : Keyword) {isEmpty : Bool}
    (h : isEmpty = false → Yields (Fills false) condition) :
    Yields Backed (conditionClause k isEmpty condition) := by
  cases isEmpty with
  | true => exact .ok .nil
  | false => exact (h rfl).bind fun c hc => .pure (.space (hc.keyword k))

theorem commonTable_backed (name : String) (columns : List String) (h : Yields Backed inner) :
    Yields Backed (commonTable name columns inner) := by
  refine h.bind fun body hb => .pure ?_
  refine ((Backed.cons rfl ?_).append (.spaced rfl)).append hb.parens
  split
  · exact .nil
  · exact .space (Backed.idents columns).parens

theorem withClause_backed (d : Dialect) (recursive : Bool) (h : Yields AllBacked items) :
    Yields Backed (withClause d recursive items) := by
  refine h.bind fun l hl => ?_
  cases l with
  | nil => exact .ok .nil
  | cons ts l =>
    refine .ok (((Backed.cons rfl (Backed.space ?_)).append (.listed hl)).append (.one rfl))
    split
    · exact .cons rfl (.one rfl)
    · exact .nil

theorem distinctClause_backed (d : Dialect) (distinct isEmpty : Bool)
    (h : Yields AllBacked items) : Yields Backed (distinctClause d distinct isEmpty items) := by
  refine iteInduction (fun _ => .ok ?_) fun _ => iteInduction (fun _ => ?_) fun _ => .error _
  · split
    · exact .cons rfl (.one rfl)
    · exact .nil
  · -- `ON` stands directly before the parenthesis of the terms.
    refine h.bind fun l hl => .pure ((Backed.cons rfl (.space ?_)).append (.one rfl))
    exact .keyword (Opens.admitted (Opens.parens _) .ON) (Backed.listed hl).parens

theorem topClause_backed (d : Dialect) (top : Option Top) : Yields Backed (topClause d top) := by
  cases top with
  | none => exact .ok .nil
  | some t =>
    refine iteInduction (fun _ => .ok ?_) fun _ => .error _
    have hcount : Backed (.word .TOP :: .space :: parens [countToken t.count]) :=
      .cons rfl (.space (Backed.one rfl).parens)
    refine (hcount.append (.space ?_)).append ?_
    · split
      · exact .cons rfl (.one rfl)
      · exact .nil
    · split
      · exact .cons rfl (.one rfl)
      · exact .nil

theorem selectClause_backed (d : Dialect) (h : p.Backed q) :
    Yields Backed (selectClause d q p) :=
  (distinctClause_backed d _ _ h.distinctOn).bind fun _ hd => (topClause_backed d _).bind
    fun _ ht => h.selects.bind fun _ hl =>
      .pure (((Backed.cons rfl hd.space).append ht).append (.listed hl))

theorem joinClauses_backed (h : Yields AllBacked items) : Yields Backed (joinClauses items) :=
  h.bind fun _ hl => .pure (.flatMap fun ts hts => (hl ts hts).space)

theorem groupClause_backed (withRollup : Bool) (h : Yields AllBacked items) :
    Yields Backed (groupClause withRollup items) := by
  refine h.bind fun l hl => ?_
  cases l with
  | nil => exact .ok .nil
  | cons ts l =>
    refine .ok (.append (.cons rfl (.cons rfl (Backed.listed hl).space)) ?_)
    split
    · exact .cons rfl (.cons rfl (.cons rfl (.one rfl)))
    · exact .nil

theorem windowClause_backed (d : Dialect) (unordered : Bool) (limit offset : Option UInt64) :
    Backed (windowClause d unordered limit offset) := by
  refine .append ?_ (d.window_backed _ _)
  split
  · exact .cons rfl (.cons rfl (.cons rfl (.one rfl)))
  · exact .nil

theorem lockClause_backed (s : Scope) (lock : Option Lock) :
    Yields Backed (lockClause s lock) := by
  cases lock with
  | none => exact .ok .nil
  | some lock =>
    refine iteInduction (fun _ => ?_) fun _ => .error _
    refine .ok (.append (.cons rfl (.cons rfl (.cons rfl (.cons rfl ?_)))) ?_)
    · split
      · exact .nil
      · exact .append (.cons rfl (.cons rfl (.cons rfl (Table.tokens_backed s _))))
          (.flatMap fun t _ => .cons rfl (t.tokens_backed s).space)
    · split
      · exact .nil
      · exact .cons rfl (.one rfl)
      · exact .cons rfl (.one rfl)

theorem selectTail_backed (s : Scope) (h : p.Backed q) : Yields Backed (selectTail s q p) :=
  (listClause_backed rfl h.sources).bind fun _ hs => (joinClauses_backed h.joins).bind fun _ hj =>
    (conditionClause_backed .WHERE h.filter).bind fun _ hf =>
      (groupClause_backed _ h.groupBy).bind fun _ hg =>
        (conditionClause_backed .HAVING h.having).bind fun _ hh =>
          (listClause_backed rfl h.orderBy).bind fun _ ho => (lockClause_backed s _).bind
            fun _ hl => .pure (((((((hs.append hj).append hf).append hg).append hh).append
              ho).append (windowClause_backed _ _ _ _)).append hl)

theorem selection_backed (s : Scope) (h : p.Backed q) (target : Option Table) :
    Yields Backed (selection s q p target) := by
  refine (selectClause_backed _ h).bind fun select hselect => (selectTail_backed s h).bind
    fun tail htail => .pure (.append (.append hselect ?_) htail)
  cases target with
  | none => exact .nil
  | some t => exact .cons rfl (.cons rfl (t.tokens_backed s).space)

/-! ## Changes of rows -/

theorem insertHead_backed (d : Dialect) (mode : InsertMode) :
    Yields Backed (insertHead d mode) := by
  have hinto : Backed [.space, .word .INTO] := .cons rfl (.one rfl)
  cases mode with
  | insert => exact .ok (.cons rfl hinto)
  | ignore =>
    rw [insertHead]
    split
    · exact .ok (.cons rfl (.cons rfl (.cons rfl hinto)))
    · exact .error _
  | replace => exact iteInduction (fun _ => .ok (.cons rfl hinto)) fun _ => .error _
  | insertOrReplace =>
    have hreplace : Backed [.space, .word .REPLACE, .space, .word .INTO] :=
      .space (.cons rfl hinto)
    exact iteInduction (fun _ => .ok (.cons rfl (.cons rfl (.keyword rfl hreplace))))
      fun _ => .error _

theorem assignment_backed {column value : Lowered} (hc : Yields Backed column)
    (hv : Yields Backed value) : Yields Backed (assignment column value) :=
  hc.bind fun _ hc => hv.bind fun _ hv => .pure (hc.append (.cons rfl hv))

theorem whereClause_backed {isEmpty : Bool}
    (h : isEmpty = false → Yields (Fills false) condition) :
    Yields Backed (whereClause isEmpty condition) := by
  cases isEmpty with
  | true => exact .ok .nil
  | false => exact (h rfl).bind fun c hc => .pure (Backed.space (hc.keyword .WHERE))

theorem conflictTargets_backed {l : List Tokens} (hl : AllBacked l) :
    Backed (conflictTargets l) := by
  cases l with
  | nil => exact .nil
  | cons ts l =>
    refine .space (Backed.parens (.append (hl ts List.mem_cons_self) ?_))
    exact .flatMap fun us hus => .cons rfl (hl us (List.mem_cons_of_mem _ hus)).space

/-- The parts of a conflict clause leave no keyword without its condition. -/
structure ConflictParts.Backed (p : ConflictParts) (c : Conflict) : Prop where
  targets : Yields AllBacked p.targets
  targetFilter : c.targetFilter.isEmpty = false → Yields (Fills false) p.targetFilter
  assignments : Yields AllBacked p.assignments
  updateFilter : c.updateFilter.isEmpty = false → Yields (Fills false) p.updateFilter

theorem conflictHandler_backed {p : ConflictParts} {c : Conflict} (h : p.Backed c)
    (handler : ConflictHandler) : Yields Backed (conflictHandler c p handler) := by
  cases handler with
  | nothing => exact .ok (Backed.behind rfl (.one rfl))
  | update =>
    refine iteInduction (fun _ => .error _) fun _ => ?_
    refine h.assignments.bind fun l hl => (whereClause_backed h.updateFilter).bind fun w hw =>
      .pure (.append ?_ hw)
    exact Backed.behind rfl (.cons rfl (.cons rfl (.cons rfl (Backed.listed hl).space)))

theorem conflictClause_backed {p : ConflictParts} {c : Conflict} (d : Dialect) (h : p.Backed c) :
    Yields Backed (conflictClause d c p) := by
  refine iteInduction (fun _ => .error _) fun _ => ?_
  split
  · exact iteInduction (fun _ => .ok .nil) fun _ => .error _
  · refine h.targets.bind fun l hl => (whereClause_backed h.targetFilter).bind fun w hw =>
      (conflictHandler_backed h _).bind fun t ht => .pure (.append (.append ?_ hw) ht)
    have hconflict : Backed (.word .CONFLICT :: conflictTargets l) :=
      .cons rfl (conflictTargets_backed hl)
    exact .space (.keyword rfl hconflict.space)

theorem duplicateClause_backed (d : Dialect) (isEmpty : Bool) (h : Yields AllBacked items) :
    Yields Backed (duplicateClause d isEmpty items) := by
  refine iteInduction (fun _ => .ok .nil) fun _ =>
    iteInduction (fun _ => .error _) fun _ => h.bind fun l hl => .pure ?_
  have hkey : Backed (.raw "DUPLICATE KEY" :: .space :: .word .UPDATE :: .space :: listed l) :=
    .cons rfl (.cons rfl (.cons rfl (Backed.listed hl).space))
  exact .space (.keyword rfl hkey.space)

theorem returningClause_backed (d : Dialect) (q : Query) (h : Yields AllBacked items) :
    Yields Backed (returningClause d q items) := by
  refine iteInduction (fun _ => .ok .nil) fun _ => iteInduction (fun _ => ?_) fun _ => .error _
  split
  · exact .error _
  · exact h.bind fun l hl => .pure (Backed.behind rfl (.listed hl))

theorem columnClause_backed (h : Yields AllBacked items) : Yields Backed (columnClause items) := by
  refine h.bind fun l hl => ?_
  cases l with
  | nil => exact .ok .nil
  | cons ts l => exact .ok (.space (Backed.listed hl).parens)

theorem addedRows_backed (s : Scope) (h : p.Backed q) : Yields Backed (addedRows s q p) := by
  refine iteInduction (fun _ => ?_) fun _ => listClause_backed rfl h.rows
  exact (selectClause_backed _ h).bind fun select hselect => (selectTail_backed s h).bind
    fun tail htail => .pure (.append hselect.space htail)

theorem insertion_backed (s : Scope) (h : p.Backed q) (target : Table) :
    Yields Backed (insertion s q p target) :=
  (insertHead_backed _ _).bind fun _ hh => (columnClause_backed h.columns).bind fun _ hc =>
    (addedRows_backed s h).bind fun _ ha => h.conflict.bind fun _ hf =>
      (duplicateClause_backed _ _ h.duplicateUpdates).bind fun _ hd =>
        (returningClause_backed _ q h.returning).bind fun _ hr =>
          .pure ((((((hh.append (target.tokens_backed s).space).append hc).append ha).append
            hf).append hd).append hr)

theorem changeTail_backed (s : Scope) (h : p.Backed q) : Yields Backed (changeTail s q p) := by
  refine (conditionClause_backed .WHERE h.filter).bind fun _ hf =>
    (listClause_backed rfl h.orderBy).bind fun _ ho =>
      (returningClause_backed _ q h.returning).bind fun _ hr =>
        .pure (.append (.append (hf.append ho) ?_) hr)
  exact PaginationStyle.clause_backed (fun _ => .cons rfl (.cons rfl (.cons rfl (.one rfl)))) _

theorem update_backed (s : Scope) (h : p.Backed q) (target : Table) :
    Yields Backed (update s q p target) :=
  (joinClauses_backed h.joins).bind fun _ hj => h.assignments.bind fun _ ha =>
    (listClause_backed rfl h.sources).bind fun _ hs => (changeTail_backed s h).bind fun _ ht =>
      .pure (.append (.append (.append (.append (.append
        (.cons rfl (target.tokens_backed s).space) hj) (.spaced rfl)) (.listed ha)) hs) ht)

theorem usingClause_backed (s : Scope) (tables : List Table) : Backed (usingClause s tables) := by
  cases tables with
  | nil => exact .nil
  | cons t ts =>
    refine Backed.behind rfl (.listed fun us hus => ?_)
    obtain ⟨u, -, rfl⟩ := List.mem_map.mp hus
    exact u.tokens_backed s

theorem deletion_backed (s : Scope) (h : p.Backed q) : Yields Backed (deletion s q p) :=
  (listClause_backed rfl h.sources).bind fun _ hs => (joinClauses_backed h.joins).bind fun _ hj =>
    (changeTail_backed s h).bind fun _ ht =>
      .pure (.append (.append (.append (.cons rfl hs) (usingClause_backed s _)) hj) ht)

/-! ## Whole statements -/

theorem body_backed (s : Scope) (h : p.Backed q) : Yields Backed (body s q p) := by
  unfold body
  split
  · exact selection_backed s h _
  · exact selection_backed s h _
  · exact insertion_backed s h _
  · exact update_backed s h _
  · exact deletion_backed s h

theorem whole_backed (s : Scope) (h : p.Backed q) : Yields Backed (whole s q p) :=
  (withClause_backed _ _ h.commonTables).bind fun _ hw => (body_backed s h).bind fun _ hb =>
    .pure (hw.append hb)

theorem placed_backed {ts : Tokens} (s : Scope) (id : SourceId) (alias? : Option String)
    (h : Backed ts) : Backed (placed s id alias? ts) := by
  refine .append (h.parensIf s.nested) ?_
  split
  · split
    · exact s.aliasSuffix_backed _
    · exact .nil
  · exact .nil

/-- A nested statement opens with its parenthesis. -/
theorem placed_opens {ts : Tokens} (s : Scope) (id : SourceId) (alias? : Option String)
    (h : s.nested = true) : Opens (placed s id alias? ts) := by
  rw [placed, h]
  exact Faces.append (Opens.parens ts) _

theorem operand_backed (op : SetOperator) (first other : Nat) (h : Yields Backed inner) :
    Yields Backed (operand op first other inner) := by
  refine iteInduction (fun _ => .error _) fun _ => h.bind fun ts hts => .pure ?_
  refine .append (.space ?_) hts.space
  cases op with
  | unionAll => exact .cons rfl (.cons rfl (.one rfl))
  | _ => exact .one rfl

theorem compound_backed (d : Dialect) {base : Lowered} {operands orderBy : LoweredList}
    (unordered : Bool) (limit offset : Option UInt64) (hb : Yields Backed base)
    (ho : Yields AllBacked operands) (hord : Yields AllBacked orderBy) :
    Yields Backed (compound d base operands orderBy unordered limit offset) :=
  hb.bind fun _ hb => ho.bind fun _ hl => (listClause_backed rfl hord).bind fun _ hord =>
    .pure (((hb.append (.flatten hl)).append hord).append (windowClause_backed _ _ _ _))

theorem join_backed {source : Lowered} (kind : JoinKind) (hs : Yields Backed source)
    (hc : Yields Backed condition) : Yields Backed (join kind source condition) := by
  refine hs.bind fun source hs => hc.bind fun c hc => .pure ?_
  refine .append (.append ?_ (.cons rfl hs.space)) hc
  split
  · exact .cons rfl (.one rfl)
  · exact .nil

end Statement

end SqlScribe
