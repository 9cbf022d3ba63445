import SqlScribe.Lowering.Statement
import SqlScribe.Proofs.Masking.Clause
/-! # Statements without values

A statement looks at its clauses, but never at the values in them.

* `QueryParts.masked`: the parts of a query behind the mask.
* `Statement.whole_masked`, `Statement.compound_masked`: masking a query or set operation masks its
  tokens and changes nothing else. One law for each clause leads there. -/

namespace SqlScribe

open Tokens Lowered

/-! ## Tokens that never hold values -/

@[simp] theorem Scope.masked_aliasSuffix (s : Scope) (name : String) :
    (s.aliasSuffix name).masked = s.aliasSuffix name := by
  unfold Scope.aliasSuffix
  split <;> simp

/-- What stands before the dot of a field is a name. -/
theorem Scope.masked_of_qualifier? {s : Scope} {q : Qualifier} {t : Token}
    (h : s.qualifier? q = some t) : t.masked = t := by
  unfold Scope.qualifier? at h
  split at h
  · split at h
    · cases h
      rfl
    · split at h
      · cases h
        rfl
      · cases h
  · obtain ⟨name, -, rfl⟩ := Option.map_eq_some_iff.mp h
    rfl
  · cases h
    rfl

@[simp] theorem Scope.masked_qualification (s : Scope) (q : Option Qualifier) :
    (s.qualification q).masked = s.qualification q := by
  unfold Scope.qualification
  split
  · next t ht =>
    obtain ⟨q, -, hq⟩ := Option.bind_eq_some_iff.mp ht
    rw [masked_cons, Scope.masked_of_qualifier? hq]
    rfl
  · rfl

@[simp] theorem Table.masked_tokens (s : Scope) (t : Table) : (t.tokens s).masked = t.tokens s := by
  unfold Table.tokens
  split <;> simp

@[simp] theorem SetOperator.masked_tokens (op : SetOperator) : op.tokens.masked = op.tokens := by
  cases op <;> rfl

@[simp] theorem Dialect.masked_window (d : Dialect) (limit offset : Option UInt64) :
    (d.window limit offset).masked = d.window limit offset := by
  have hclause : ∀ {write : Token → Tokens} (n : Option UInt64),
      (∀ k : UInt64, (write (countToken k)).masked = write (countToken k)) →
      (PaginationStyle.clause write n).masked = PaginationStyle.clause write n := by
    intro write n h
    cases n with
    | none => rfl
    | some k => exact h k
  unfold Dialect.window PaginationStyle.window
  split
  · rw [masked_append, hclause _ fun _ => rfl, hclause _ fun _ => rfl]
  · split
    · rfl
    · rw [masked_append, hclause _ fun _ => rfl, hclause _ fun _ => rfl]
  · rfl
  · rw [masked_append, hclause _ fun _ => rfl]
    rfl
  · rw [masked_append, hclause _ fun _ => rfl, hclause _ fun _ => rfl]

/-- The parts with their values masked. -/
def QueryParts.masked (p : QueryParts) : QueryParts :=
  { commonTables := p.commonTables.masked
    sources := p.sources.masked
    selects := p.selects.masked
    distinctOn := p.distinctOn.masked
    joins := p.joins.masked
    filter := p.filter.masked
    groupBy := p.groupBy.masked
    having := p.having.masked
    orderBy := p.orderBy.masked
    columns := p.columns.masked
    rows := p.rows.masked
    conflict := p.conflict.masked
    duplicateUpdates := p.duplicateUpdates.masked
    assignments := p.assignments.masked
    returning := p.returning.masked }

namespace Statement

variable (s : Scope) (d : Dialect) (q : Query) (p : QueryParts)

/-! ## Selections -/

theorem listClause_masked (keyword : Keyword) (items : LoweredList) :
    listClause keyword items.masked = (listClause keyword items).masked := by
  refine LoweredList.masked_bind fun l => ?_
  cases l <;> simp

theorem conditionClause_masked (keyword : Keyword) (isEmpty : Bool) (condition : Lowered) :
    conditionClause keyword isEmpty condition.masked =
      (conditionClause keyword isEmpty condition).masked :=
  masked_ite _ rfl (masked_bind fun c => by simp)

theorem commonTable_masked (name : String) (columns : List String) (body : Lowered) :
    commonTable name columns body.masked = (commonTable name columns body).masked := by
  refine masked_bind fun b => ?_
  cases columns <;> simp

theorem withClause_masked (recursive : Bool) (tables : LoweredList) :
    withClause d recursive tables.masked = (withClause d recursive tables).masked := by
  refine LoweredList.masked_bind fun l => ?_
  cases l with
  | nil => rfl
  | cons t l => cases recursive && d.profile.recursiveWord <;> simp

theorem distinctClause_masked (distinct isEmpty : Bool) (terms : LoweredList) :
    distinctClause d distinct isEmpty terms.masked =
      (distinctClause d distinct isEmpty terms).masked := by
  refine masked_ite _ ?_ (masked_ite _ (LoweredList.masked_bind fun l => by simp) rfl)
  cases distinct <;> rfl

theorem masked_topClause (top : Option Top) : (topClause d top).masked = topClause d top := by
  cases top with
  | none => rfl
  | some t =>
    obtain ⟨count, percent, withTies⟩ := t
    refine (masked_ite _ ?_ rfl).symm
    cases percent <;> cases withTies <;> rfl

theorem selectClause_masked :
    selectClause d q.masked p.masked = (selectClause d q p).masked := by
  unfold selectClause
  rw [q.info_masked, q.distinctOn_masked, List.isEmpty_map]
  rw [QueryParts.masked, distinctClause_masked]
  refine masked_bind fun distinct => masked_bind_of_eq (masked_topClause d _) fun top => ?_
  exact LoweredList.masked_bind fun selects => by simp

theorem joinClauses_masked (joins : LoweredList) :
    joinClauses joins.masked = (joinClauses joins).masked :=
  LoweredList.masked_bind fun l => by simp [List.flatMap_map]

theorem groupClause_masked (withRollup : Bool) (terms : LoweredList) :
    groupClause withRollup terms.masked = (groupClause withRollup terms).masked := by
  refine LoweredList.masked_bind fun l => ?_
  cases l with
  | nil => rfl
  | cons t l => cases withRollup <;> simp

@[simp] theorem masked_windowClause (unordered : Bool) (limit offset : Option UInt64) :
    (windowClause d unordered limit offset).masked = windowClause d unordered limit offset := by
  unfold windowClause
  dsimp only
  split <;> simp

theorem masked_lockClause (lock : Option Lock) :
    (lockClause s lock).masked = lockClause s lock := by
  cases lock with
  | none => rfl
  | some lock =>
    obtain ⟨tables, whenLocked⟩ := lock
    refine (masked_ite _ ?_ rfl).symm
    cases tables <;> cases whenLocked <;> simp

theorem selectTail_masked : selectTail s q.masked p.masked = (selectTail s q p).masked := by
  unfold selectTail
  rw [q.info_masked, q.filter_masked, q.having_masked, q.isEmpty_orderBy_masked,
    Condition.isEmpty_masked, Condition.isEmpty_masked, QueryParts.masked]
  simp only [listClause_masked, joinClauses_masked, conditionClause_masked, groupClause_masked]
  refine masked_bind fun sources => masked_bind fun joins => masked_bind fun filter =>
    masked_bind fun groupBy => masked_bind fun having => masked_bind fun orderBy => ?_
  exact masked_bind_of_eq (masked_lockClause s _) fun lock => by simp

theorem selection_masked (target : Option Table) :
    selection s q.masked p.masked target = (selection s q p target).masked := by
  unfold selection
  rw [selectClause_masked, selectTail_masked]
  refine masked_bind fun select => masked_bind fun tail => ?_
  cases target <;> simp

/-! ## Changes of rows -/

theorem masked_insertHead (mode : InsertMode) : (insertHead d mode).masked = insertHead d mode := by
  cases mode with
  | insert => rfl
  | ignore =>
    rw [insertHead]
    split <;> rfl
  | replace => exact (masked_ite _ rfl rfl).symm
  | insertOrReplace => exact (masked_ite _ rfl rfl).symm

theorem assignment_masked (column value : Lowered) :
    assignment column.masked value.masked = (assignment column value).masked :=
  masked_bind fun c => masked_bind fun v => by simp

/-- The parts of a conflict clause with their values masked. -/
def ConflictParts.masked (p : ConflictParts) : ConflictParts :=
  { targets := p.targets.masked
    targetFilter := p.targetFilter.masked
    assignments := p.assignments.masked
    updateFilter := p.updateFilter.masked }

theorem whereClause_masked (isEmpty : Bool) (condition : Lowered) :
    whereClause isEmpty condition.masked = (whereClause isEmpty condition).masked :=
  masked_ite _ rfl (masked_bind fun c => by simp)

@[simp] theorem masked_conflictTargets (l : List Tokens) :
    (conflictTargets l).masked = conflictTargets (l.map Tokens.masked) := by
  cases l <;> simp [conflictTargets, List.flatMap_map]

theorem conflictHandler_masked (c : Conflict) (p : ConflictParts) (handler : ConflictHandler) :
    conflictHandler c.masked p.masked handler = (conflictHandler c p handler).masked := by
  cases handler with
  | nothing => rfl
  | update =>
    unfold conflictHandler
    rw [c.targets_masked, c.updateFilter_masked, List.isEmpty_map, Condition.isEmpty_masked,
      ConflictParts.masked]
    refine masked_ite _ rfl (LoweredList.masked_bind fun l => ?_)
    rw [whereClause_masked]
    exact masked_bind fun filter => by simp

theorem conflictClause_masked (c : Conflict) (p : ConflictParts) :
    conflictClause d c.masked p.masked = (conflictClause d c p).masked := by
  unfold conflictClause
  rw [c.handler_masked, c.targets_masked, c.targetFilter_masked, List.isEmpty_map,
    Condition.isEmpty_masked]
  refine masked_ite _ rfl ?_
  cases c.handler with
  | none => exact masked_ite _ rfl rfl
  | some handler =>
    simp only [conflictHandler_masked]
    refine LoweredList.masked_bind fun l => ?_
    rw [ConflictParts.masked, whereClause_masked]
    exact masked_bind fun filter => masked_bind fun handler => by simp

theorem duplicateClause_masked (isEmpty : Bool) (updates : LoweredList) :
    duplicateClause d isEmpty updates.masked = (duplicateClause d isEmpty updates).masked :=
  masked_ite _ rfl (masked_ite _ rfl (LoweredList.masked_bind fun l => by simp))

theorem foreignReturned?_masked : foreignReturned? q.masked = foreignReturned? q := by
  unfold foreignReturned?
  rw [q.info_masked, q.returning_masked, ← Term.maskedAll_eq_map, Term.qualifiersAll_masked]
  simp only [q.hasTable_masked]

theorem returningClause_masked (items : LoweredList) :
    returningClause d q.masked items.masked = (returningClause d q items).masked := by
  unfold returningClause
  rw [foreignReturned?_masked, q.returning_masked, List.isEmpty_map]
  refine masked_ite _ rfl (masked_ite _ ?_ rfl)
  split
  · rfl
  · exact LoweredList.masked_bind fun l => by simp

theorem columnClause_masked (columns : LoweredList) :
    columnClause columns.masked = (columnClause columns).masked := by
  refine LoweredList.masked_bind fun l => ?_
  cases l <;> simp

theorem addedRows_masked : addedRows s q.masked p.masked = (addedRows s q p).masked := by
  unfold addedRows
  rw [selectClause_masked, selectTail_masked, q.rows_masked, List.isEmpty_map]
  exact masked_ite _ (masked_bind fun select => masked_bind fun tail => by simp)
    (listClause_masked .VALUES p.rows)

theorem insertion_masked (target : Table) :
    insertion s q.masked p.masked target = (insertion s q p target).masked := by
  unfold insertion
  rw [addedRows_masked, q.info_masked, q.duplicateUpdates_masked, List.isEmpty_map,
    QueryParts.masked, columnClause_masked, duplicateClause_masked, returningClause_masked]
  refine masked_bind_of_eq (masked_insertHead _ _) fun head => ?_
  exact masked_bind fun columns => masked_bind fun added => masked_bind fun conflict =>
    masked_bind fun duplicates => masked_bind fun returning => by simp

@[simp] theorem masked_limitClause (limit : Option UInt64) :
    (limitClause limit).masked = limitClause limit := by
  cases limit <;> rfl

theorem changeTail_masked : changeTail s q.masked p.masked = (changeTail s q p).masked := by
  unfold changeTail
  rw [q.info_masked, q.filter_masked, Condition.isEmpty_masked, QueryParts.masked,
    conditionClause_masked, listClause_masked, returningClause_masked]
  exact masked_bind fun filter => masked_bind fun orderBy => masked_bind fun returning => by simp

theorem update_masked (target : Table) :
    update s q.masked p.masked target = (update s q p target).masked := by
  unfold update
  rw [changeTail_masked, QueryParts.masked, joinClauses_masked, listClause_masked]
  exact masked_bind fun joins => LoweredList.masked_bind fun assignments =>
    masked_bind fun sources => masked_bind fun tail => by simp

@[simp] theorem masked_usingClause (tables : List Table) :
    (usingClause s tables).masked = usingClause s tables := by
  cases tables <;> simp [usingClause, Function.comp_def]

theorem deletion_masked : deletion s q.masked p.masked = (deletion s q p).masked := by
  unfold deletion
  rw [changeTail_masked, q.info_masked, QueryParts.masked, joinClauses_masked, listClause_masked]
  exact masked_bind fun sources => masked_bind fun joins => masked_bind fun tail => by simp

/-! ## Whole statements -/

theorem body_masked : body s q.masked p.masked = (body s q p).masked := by
  unfold body
  rw [q.info_masked]
  split
  · exact selection_masked s q p none
  · next t _ => exact selection_masked s q p (some t)
  · next t _ => exact insertion_masked s q p t
  · next t _ => exact update_masked s q p t
  · exact deletion_masked s q p

theorem whole_masked : whole s q.masked p.masked = (whole s q p).masked := by
  unfold whole
  rw [body_masked, q.commonTables_masked, List.any_map, QueryParts.masked]
  simp only [Function.comp_def, CommonTable.recursive_masked, withClause_masked]
  exact masked_bind fun tables => masked_bind fun body => by simp

@[simp] theorem masked_placed (id : SourceId) (alias? : Option String) (body : Tokens) :
    (placed s id alias? body).masked = placed s id alias? body.masked := by
  unfold placed
  rw [masked_append, masked_parensIf]
  split
  · split <;> simp
  · rfl

theorem operand_masked (op : SetOperator) (first other : Nat) (query : Lowered) :
    operand op first other query.masked = (operand op first other query).masked :=
  masked_ite _ rfl (masked_bind fun ts => by simp)

theorem compound_masked (base : Lowered) (operands orderBy : LoweredList) (unordered : Bool)
    (limit offset : Option UInt64) :
    compound d base.masked operands.masked orderBy.masked unordered limit offset =
      (compound d base operands orderBy unordered limit offset).masked := by
  unfold compound
  rw [listClause_masked]
  exact masked_bind fun base => LoweredList.masked_bind fun operands => masked_bind fun orderBy =>
    by simp

theorem join_masked (kind : JoinKind) (source condition : Lowered) :
    join kind source.masked condition.masked = (join kind source condition).masked := by
  refine masked_bind fun source => masked_bind fun condition => ?_
  cases kind.words? <;> simp

end Statement

end SqlScribe
