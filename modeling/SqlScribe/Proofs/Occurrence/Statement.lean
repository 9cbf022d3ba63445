import SqlScribe.Lowering.Statement
import SqlScribe.Proofs.Occurrence.Clause
/-! # Parts within statements

What a statement does settles which clauses of a query are written; those that are hold their parts.

* `Query.selectsRows`, `Query.readsRows`, `Query.insertsRows`: the statement has a select list, has
  sources and a condition on their rows, or adds rows.
* `QueryParts.Written`: of the parts of a query, those that its statement writes stand in its
  tokens.
* `Statement.whole_writes`: they do so in every statement. -/

namespace SqlScribe

open Tokens

namespace Query

/-- The statement selects rows, be it to add them to a table. -/
def selectsRows (q : Query) : Bool :=
  match q.info.action with
  | .select => true
  | .insert _ true => true
  | .insert _ false => q.rows.isEmpty
  | .update _ => false
  | .delete => false

/-- The statement reads rows of its sources: it selects, changes or deletes them. -/
def readsRows (q : Query) : Bool := q.selectsRows || q.info.action.isChange

/-- The statement adds rows to a table. -/
def insertsRows (q : Query) : Bool :=
  match q.info.action with
  | .insert _ fromList => !fromList
  | .select => false
  | .update _ => false
  | .delete => false

end Query

namespace QueryParts

/-- The clauses that every statement with sources writes. -/
structure Reading (p : QueryParts) (q : Query) (ts : Tokens) : Prop where
  sources : HoldsAll p.sources ts
  joins : HoldsAll p.joins ts
  filter : q.filter.isEmpty = false → Holds p.filter ts
  orderBy : HoldsAll p.orderBy ts

/-- The clauses that every statement with a select list writes. -/
structure Selecting (p : QueryParts) (q : Query) (ts : Tokens) : Prop extends Reading p q ts where
  distinctOn : q.distinctOn.isEmpty = false → HoldsAll p.distinctOn ts
  selects : HoldsAll p.selects ts
  groupBy : HoldsAll p.groupBy ts
  having : q.having.isEmpty = false → Holds p.having ts

/-- The clauses behind the common tables that the statement of a query writes. -/
structure InBody (p : QueryParts) (q : Query) (ts : Tokens) : Prop where
  reading : q.readsRows = true → Reading p q ts
  selecting : q.selectsRows = true → Selecting p q ts
  columns : q.insertsRows = true → HoldsAll p.columns ts
  rows : q.insertsRows = true → q.rows.isEmpty = false → HoldsAll p.rows ts
  conflict : q.insertsRows = true → Holds p.conflict ts
  duplicateUpdates : q.insertsRows = true → q.duplicateUpdates.isEmpty = false →
    HoldsAll p.duplicateUpdates ts
  assignments : q.info.action.updateTarget?.isSome = true → HoldsAll p.assignments ts
  returning : (q.insertsRows || q.info.action.isChange) = true → q.returning.isEmpty = false →
    HoldsAll p.returning ts

/-- The parts that the statement of a query writes stand in the tokens. -/
structure Written (p : QueryParts) (q : Query) (ts : Tokens) : Prop extends InBody p q ts where
  commonTables : HoldsAll p.commonTables ts

variable {p : QueryParts} {q : Query} {ts us : Tokens}

theorem Reading.mono (h : Reading p q ts) (hts : ts <:+: us) : Reading p q us :=
  ⟨h.sources.mono hts, h.joins.mono hts, fun hf => (h.filter hf).mono hts, h.orderBy.mono hts⟩

theorem Selecting.mono (h : Selecting p q ts) (hts : ts <:+: us) : Selecting p q us :=
  ⟨h.toReading.mono hts, fun hd => (h.distinctOn hd).mono hts, h.selects.mono hts,
    h.groupBy.mono hts, fun hh => (h.having hh).mono hts⟩

theorem InBody.mono (h : InBody p q ts) (hts : ts <:+: us) : InBody p q us :=
  ⟨fun hq => (h.reading hq).mono hts, fun hq => (h.selecting hq).mono hts,
    fun hq => (h.columns hq).mono hts, fun hq hr => (h.rows hq hr).mono hts,
    fun hq => (h.conflict hq).mono hts, fun hq hd => (h.duplicateUpdates hq hd).mono hts,
    fun hq => (h.assignments hq).mono hts, fun hq hr => (h.returning hq hr).mono hts⟩

end QueryParts

namespace Statement

variable {items : LoweredList} {part : Lowered}

theorem listClause_holds (k : Keyword) : Yields (HoldsAll items) (listClause k items) := by
  refine (Yields.self items).bind fun l hl => ?_
  cases l with
  | nil => exact .ok ⟨[], hl, by simp⟩
  | cons t l =>
    exact .ok ⟨t :: l, hl, fun us hus =>
      List.infix_cons (List.infix_cons (List.infix_cons (infix_listed hus)))⟩

theorem conditionClause_holds (k : Keyword) (isEmpty : Bool) :
    Yields (fun ts => isEmpty = false → Holds part ts) (conditionClause k isEmpty part) := by
  cases isEmpty with
  | true => exact .ok fun h => by cases h
  | false =>
    exact (Yields.self part).bind fun c hc => .pure fun _ =>
      ⟨c, hc, List.infix_cons (List.infix_cons (List.infix_cons (List.infix_refl c)))⟩

theorem commonTable_holds (name : String) (columns : List String) :
    Yields (Holds part) (commonTable name columns part) :=
  (Yields.self part).bind fun body hbody => .pure
    ⟨body, hbody, List.infix_append_of_infix_right (infix_parens body)⟩

theorem withClause_holds (d : Dialect) (recursive : Bool) :
    Yields (HoldsAll items) (withClause d recursive items) := by
  refine (Yields.self items).bind fun l hl => ?_
  cases l with
  | nil => exact .ok ⟨[], hl, by simp⟩
  | cons t l =>
    refine .ok ⟨t :: l, hl, fun us hus => (infix_listed hus).trans ?_⟩
    exact List.infix_append_of_infix_left
      (List.infix_append_of_infix_right (List.infix_refl _))

theorem distinctClause_holds (d : Dialect) (distinct isEmpty : Bool) :
    Yields (fun ts => isEmpty = false → HoldsAll items ts)
      (distinctClause d distinct isEmpty items) := by
  refine iteInduction (fun hnil => .ok fun h => absurd (h.symm.trans hnil) Bool.false_ne_true)
    fun _ => iteInduction (fun _ => ?_) fun _ => .error _
  refine (Yields.self items).bind fun l hl => .pure fun _ => ⟨l, hl, fun us hus => ?_⟩
  refine List.infix_append_of_infix_left ?_
  exact List.infix_cons (List.infix_cons (List.infix_cons
    ((infix_listed hus).trans (infix_parens _))))

theorem joinClauses_holds : Yields (HoldsAll items) (joinClauses items) := by
  refine (Yields.self items).bind fun l hl => .pure ⟨l, hl, fun us hus => ?_⟩
  have hmem : Token.space :: us ∈ l.map (Token.space :: ·) := List.mem_map_of_mem hus
  rw [List.flatMap_def]
  exact (List.infix_cons (List.infix_refl us)).trans (List.infix_of_mem_flatten hmem)

theorem groupClause_holds (withRollup : Bool) :
    Yields (HoldsAll items) (groupClause withRollup items) := by
  refine (Yields.self items).bind fun l hl => ?_
  cases l with
  | nil => exact .ok ⟨[], hl, by simp⟩
  | cons t l =>
    exact .ok ⟨t :: l, hl, fun us hus => List.infix_append_of_infix_left
      (List.infix_cons (List.infix_cons (List.infix_cons (infix_listed hus))))⟩

variable (s : Scope) (q : Query) (p : QueryParts)

theorem selectClause_holds : Yields
    (fun ts => (q.distinctOn.isEmpty = false → HoldsAll p.distinctOn ts) ∧ HoldsAll p.selects ts)
    (selectClause s.dialect q p) := by
  refine (distinctClause_holds s.dialect q.info.distinct _).bind fun distinct hdistinct =>
    (Yields.self (topClause s.dialect q.info.top)).bind fun top _ =>
    (Yields.self p.selects).bind fun l hl => .pure ⟨fun h => ?_, l, hl, fun us hus => ?_⟩
  · exact (hdistinct h).mono
      (List.infix_append_of_infix_left
        (List.infix_append_of_infix_left (List.infix_cons (List.infix_cons List.infix_rfl))))
  · exact List.infix_append_of_infix_right (infix_listed hus)

theorem selectTail_writes : Yields
    (fun ts => p.Reading q ts ∧ HoldsAll p.groupBy ts ∧
      (q.having.isEmpty = false → Holds p.having ts))
    (selectTail s q p) := by
  refine (listClause_holds .FROM).bind fun sources hsources => joinClauses_holds.bind
    fun joins hjoins => (conditionClause_holds .WHERE _).bind fun filter hfilter =>
    (groupClause_holds _).bind fun groupBy hgroupBy => (conditionClause_holds .HAVING _).bind
    fun having hhaving => (listClause_holds .ORDER_BY).bind fun orderBy horderBy =>
    (Yields.self (lockClause s q.info.lock)).bind fun lock _ => .pure ?_
  simp only [List.append_assoc]
  refine ⟨⟨hsources.mono ?_, hjoins.mono ?_, fun h => (hfilter h).mono ?_, horderBy.mono ?_⟩,
    hgroupBy.mono ?_, fun h => (hhaving h).mono ?_⟩
  · exact List.infix_append_left
  · exact List.infix_append' _ _ _
  · exact List.infix_append_of_infix_right (List.infix_append' _ _ _)
  · iterate 4 refine List.infix_append_of_infix_right ?_
    exact List.infix_append' _ _ _
  · iterate 2 refine List.infix_append_of_infix_right ?_
    exact List.infix_append' _ _ _
  · iterate 3 refine List.infix_append_of_infix_right ?_
    exact List.infix_append' _ _ _

theorem selection_writes (target : Option Table) :
    Yields (p.Selecting q) (selection s q p target) := by
  refine (selectClause_holds s q p).bind fun select hselect =>
    (selectTail_writes s q p).bind fun tail htail => .pure ?_
  have hhead : ∀ into : Tokens, select <:+: select ++ into ++ tail := fun into =>
    List.infix_append_of_infix_left List.infix_append_left
  exact ⟨htail.1.mono List.infix_append_right, fun h => (hselect.1 h).mono (hhead _),
    hselect.2.mono (hhead _), htail.2.1.mono List.infix_append_right,
    fun h => (htail.2.2 h).mono List.infix_append_right⟩

theorem assignment_holds {column value : Lowered} :
    Yields (fun ts => Holds column ts ∧ Holds value ts) (assignment column value) :=
  (Yields.self column).bind fun c hc => (Yields.self value).bind fun v hv => .pure
    ⟨⟨c, hc, List.infix_append_left⟩,
      ⟨v, hv, List.infix_append_of_infix_right (List.infix_cons (List.infix_refl v))⟩⟩

theorem whereClause_holds (isEmpty : Bool) :
    Yields (fun ts => isEmpty = false → Holds part ts) (whereClause isEmpty part) := by
  cases isEmpty with
  | true => exact .ok fun h => by cases h
  | false =>
    exact (Yields.self part).bind fun c hc => .pure fun _ => ⟨c, hc, List.infix_append_right⟩

theorem infix_conflictTargets {l : List Tokens} {us : Tokens} (h : us ∈ l) :
    us <:+: conflictTargets l := by
  cases l with
  | nil => cases h
  | cons t l =>
    refine List.infix_cons (List.IsInfix.trans ?_ (infix_parens _))
    rcases List.mem_cons.mp h with rfl | h
    · exact List.infix_append_left
    · have hmem : Token.mark .comma :: Token.space :: us ∈
          l.map (fun t => Token.mark .comma :: .space :: t) := List.mem_map_of_mem h
      rw [List.flatMap_def]
      exact List.infix_append_of_infix_right ((List.infix_cons (List.infix_cons
        (List.infix_refl us))).trans (List.infix_of_mem_flatten hmem))

/-- A conflict clause with a handler writes its columns and their condition, and with the handler
that changes rows the changes and theirs. -/
structure ConflictParts.Written (p : ConflictParts) (c : Conflict) (ts : Tokens) : Prop where
  targets : c.handler ≠ none → HoldsAll p.targets ts
  targetFilter : c.handler ≠ none → c.targetFilter.isEmpty = false → Holds p.targetFilter ts
  assignments : c.handler = some .update → HoldsAll p.assignments ts
  updateFilter : c.handler = some .update → c.updateFilter.isEmpty = false →
    Holds p.updateFilter ts

theorem conflictHandler_holds (c : Conflict) (p : ConflictParts) (handler : ConflictHandler) :
    Yields (fun ts => handler = .update → HoldsAll p.assignments ts ∧
        (c.updateFilter.isEmpty = false → Holds p.updateFilter ts))
      (conflictHandler c p handler) := by
  cases handler with
  | nothing => exact .ok fun h => by cases h
  | update =>
    refine iteInduction (fun _ => .error _) fun _ => ?_
    refine (Yields.self p.assignments).bind fun l hl =>
      (whereClause_holds _).bind fun filter hfilter => .pure fun _ =>
        ⟨⟨l, hl, fun us hus => ?_⟩, ?_⟩
    · refine List.infix_append_of_infix_left (List.infix_append_of_infix_right ?_)
      exact List.infix_cons (List.infix_cons (List.infix_cons (List.infix_cons (infix_listed hus))))
    · exact fun h => (hfilter h).mono List.infix_append_right

theorem conflictClause_writes (d : Dialect) (c : Conflict) (p : ConflictParts) :
    Yields (p.Written c) (conflictClause d c p) := by
  refine iteInduction (fun _ => .error _) fun _ => ?_
  cases hhandler : c.handler with
  | none =>
    refine iteInduction (fun _ => .ok ?_) fun _ => .error _
    exact ⟨fun h => absurd hhandler h, fun h => absurd hhandler h,
      fun h => by simp [hhandler] at h, fun h => by simp [hhandler] at h⟩
  | some handler =>
    refine (Yields.self p.targets).bind fun l hl => (whereClause_holds _).bind fun filter hfilter =>
      (conflictHandler_holds c p handler).bind fun body hbody => .pure ?_
    have hupdate : c.handler = some .update → handler = .update := fun h => by
      simpa [hhandler] using h
    refine ⟨fun _ => ⟨l, hl, fun us hus => ?_⟩, fun _ h => (hfilter h).mono ?_,
      fun h => (hbody (hupdate h)).1.mono List.infix_append_right,
      fun h hne => ((hbody (hupdate h)).2 hne).mono List.infix_append_right⟩
    · refine List.infix_append_of_infix_left (List.infix_append_of_infix_left ?_)
      exact List.infix_cons (List.infix_cons (List.infix_cons
        (List.infix_cons (infix_conflictTargets hus))))
    · exact List.infix_append_of_infix_left List.infix_append_right

theorem duplicateClause_holds (d : Dialect) (isEmpty : Bool) :
    Yields (fun ts => isEmpty = false → HoldsAll items ts) (duplicateClause d isEmpty items) := by
  refine iteInduction (fun hnil => .ok fun h => absurd (h.symm.trans hnil) Bool.false_ne_true)
    fun _ => iteInduction (fun _ => .error _) fun _ => ?_
  refine (Yields.self items).bind fun l hl => .pure fun _ => ⟨l, hl, fun us hus => ?_⟩
  iterate 7 refine List.infix_cons ?_
  exact infix_listed hus

theorem returningClause_holds (d : Dialect) (q : Query) :
    Yields (fun ts => q.returning.isEmpty = false → HoldsAll items ts)
      (returningClause d q items) := by
  refine iteInduction (fun hnil => .ok fun h => absurd (h.symm.trans hnil) Bool.false_ne_true)
    fun _ => iteInduction (fun _ => ?_) fun _ => .error _
  cases foreignReturned? q with
  | some t => exact .error _
  | none =>
    exact (Yields.self items).bind fun l hl => .pure fun _ =>
      ⟨l, hl, fun us hus => List.infix_append_of_infix_right (infix_listed hus)⟩

theorem columnClause_holds : Yields (HoldsAll items) (columnClause items) := by
  refine (Yields.self items).bind fun l hl => ?_
  cases l with
  | nil => exact .ok ⟨[], hl, by simp⟩
  | cons t l =>
    exact .ok ⟨t :: l, hl, fun us hus =>
      List.infix_cons ((infix_listed hus).trans (infix_parens _))⟩

theorem addedRows_writes : Yields
    (fun ts => (q.rows.isEmpty = true → p.Selecting q ts) ∧
      (q.rows.isEmpty = false → HoldsAll p.rows ts))
    (addedRows s q p) := by
  refine iteInduction (fun hnil => ?_) fun hrows => ?_
  · refine (selectClause_holds s q p).bind fun select hselect =>
      (selectTail_writes s q p).bind fun tail htail => .pure ⟨fun _ => ?_, fun h => ?_⟩
    · have hhead : select <:+: .space :: select ++ tail :=
        List.infix_append_of_infix_left (List.infix_cons (List.infix_refl select))
      exact ⟨htail.1.mono List.infix_append_right, fun h => (hselect.1 h).mono hhead,
        hselect.2.mono hhead, htail.2.1.mono List.infix_append_right,
        fun h => (htail.2.2 h).mono List.infix_append_right⟩
    · rw [hnil] at h
      cases h
  · exact (listClause_holds .VALUES).mono fun ts h => ⟨fun hnil => absurd hnil hrows, fun _ => h⟩

theorem changeTail_holds : Yields
    (fun ts => (q.filter.isEmpty = false → Holds p.filter ts) ∧ HoldsAll p.orderBy ts ∧
      (q.returning.isEmpty = false → HoldsAll p.returning ts))
    (changeTail s q p) := by
  refine (conditionClause_holds .WHERE _).bind fun filter hfilter =>
    (listClause_holds .ORDER_BY).bind fun orderBy horderBy =>
    (returningClause_holds s.dialect q).bind fun returning hreturning =>
    .pure ⟨fun h => (hfilter h).mono ?_, horderBy.mono ?_, fun h => (hreturning h).mono ?_⟩
  · simp only [List.append_assoc]
    exact List.infix_append_left
  · simp only [List.append_assoc]
    exact List.infix_append' _ _ _
  · exact List.infix_append_right

theorem insertion_writes (target : Table) : Yields
    (fun ts => (q.rows.isEmpty = true → p.Selecting q ts) ∧ HoldsAll p.columns ts ∧
      (q.rows.isEmpty = false → HoldsAll p.rows ts) ∧ Holds p.conflict ts ∧
      (q.duplicateUpdates.isEmpty = false → HoldsAll p.duplicateUpdates ts) ∧
      (q.returning.isEmpty = false → HoldsAll p.returning ts))
    (insertion s q p target) := by
  refine (Yields.self (insertHead s.dialect q.info.insertMode)).bind fun head _ =>
    columnClause_holds.bind fun columns hcolumns => (addedRows_writes s q p).bind
    fun added hadded => (Yields.self p.conflict).bind fun conflict hconflict =>
    (duplicateClause_holds s.dialect _).bind fun duplicates hduplicates =>
    (returningClause_holds s.dialect q).bind fun returning hreturning => .pure ?_
  have hadded_infix : added <:+: head ++ .space :: target.tokens s ++ columns ++ added ++
      conflict ++ duplicates ++ returning := by
    iterate 3 refine List.infix_append_of_infix_left ?_
    exact List.infix_append_right
  refine ⟨fun h => (hadded.1 h).mono hadded_infix, hcolumns.mono ?_,
    fun h => (hadded.2 h).mono hadded_infix, ⟨conflict, hconflict, ?_⟩,
    fun h => (hduplicates h).mono ?_, fun h => (hreturning h).mono List.infix_append_right⟩
  · iterate 4 refine List.infix_append_of_infix_left ?_
    exact List.infix_append_right
  · iterate 2 refine List.infix_append_of_infix_left ?_
    exact List.infix_append_right
  · exact List.infix_append_of_infix_left List.infix_append_right

theorem update_writes (target : Table) : Yields
    (fun ts => p.Reading q ts ∧ HoldsAll p.assignments ts ∧
      (q.returning.isEmpty = false → HoldsAll p.returning ts))
    (update s q p target) := by
  refine joinClauses_holds.bind fun joins hjoins => (Yields.self p.assignments).bind
    fun l hl => (listClause_holds .FROM).bind fun sources hsources =>
    (changeTail_holds s q p).bind fun tail htail => .pure ?_
  refine ⟨⟨hsources.mono ?_, hjoins.mono ?_, fun h => (htail.1 h).mono List.infix_append_right,
      htail.2.1.mono List.infix_append_right⟩, ⟨l, hl, fun us hus => ?_⟩,
    fun h => (htail.2.2 h).mono List.infix_append_right⟩
  · exact List.infix_append_of_infix_left List.infix_append_right
  · iterate 4 refine List.infix_append_of_infix_left ?_
    exact List.infix_append_right
  · iterate 2 refine List.infix_append_of_infix_left ?_
    exact List.infix_append_of_infix_right (infix_listed hus)

theorem deletion_writes : Yields
    (fun ts => p.Reading q ts ∧ (q.returning.isEmpty = false → HoldsAll p.returning ts))
    (deletion s q p) := by
  refine (listClause_holds .FROM).bind fun sources hsources => joinClauses_holds.bind
    fun joins hjoins => (changeTail_holds s q p).bind fun tail htail => .pure ?_
  refine ⟨⟨hsources.mono ?_, hjoins.mono ?_, fun h => (htail.1 h).mono List.infix_append_right,
      htail.2.1.mono List.infix_append_right⟩,
    fun h => (htail.2.2 h).mono List.infix_append_right⟩
  · iterate 3 refine List.infix_append_of_infix_left ?_
    exact List.infix_cons (List.infix_refl sources)
  · exact List.infix_append_of_infix_left List.infix_append_right

theorem body_writes : Yields (p.InBody q) (body s q p) := by
  -- A clause that the statement does not write is ruled out by the questions about the action.
  rcases haction : q.info.action with _ | ⟨table, fromList⟩ | table | _
  case select =>
    have hbody := selection_writes s q p none
    simp only [body, haction]
    refine hbody.mono fun ts h => ⟨fun _ => h.toReading, fun _ => h, ?_, ?_, ?_, ?_, ?_, ?_⟩ <;>
      simp [Query.insertsRows, Action.isChange, Action.updateTarget?, Action.isDelete, haction]
  case insert =>
    cases fromList with
    | true =>
      have hbody := selection_writes s q p (some table)
      simp only [body, haction]
      refine hbody.mono fun ts h => ⟨fun _ => h.toReading, fun _ => h, ?_, ?_, ?_, ?_, ?_, ?_⟩ <;>
        simp [Query.insertsRows, Action.isChange, Action.updateTarget?, Action.isDelete, haction]
    | false =>
      have hbody := insertion_writes s q p table
      have hselects : q.selectsRows = q.rows.isEmpty := by simp [Query.selectsRows, haction]
      have hreads : q.readsRows = q.rows.isEmpty := by
        simp [Query.readsRows, hselects, Action.isChange, Action.updateTarget?, Action.isDelete,
          haction]
      simp only [body, haction]
      refine hbody.mono fun ts h => ?_
      obtain ⟨hselecting, hcolumns, hrows, hconflict, hduplicates, hreturning⟩ := h
      refine ⟨fun h => (hselecting (hreads ▸ h)).toReading, fun h => hselecting (hselects ▸ h),
        fun _ => hcolumns, fun _ => hrows, fun _ => hconflict, fun _ => hduplicates, ?_,
        fun _ => hreturning⟩
      simp [Action.updateTarget?, haction]
  case update =>
    have hbody := update_writes s q p table
    simp only [body, haction]
    refine hbody.mono fun ts h =>
      ⟨fun _ => h.1, ?_, ?_, ?_, ?_, ?_, fun _ => h.2.1, fun _ => h.2.2⟩ <;>
      simp [Query.selectsRows, Query.insertsRows, haction]
  case delete =>
    have hbody := deletion_writes s q p
    simp only [body, haction]
    refine hbody.mono fun ts h => ⟨fun _ => h.1, ?_, ?_, ?_, ?_, ?_, ?_, fun _ => h.2⟩ <;>
      simp [Query.selectsRows, Query.insertsRows, Action.updateTarget?, haction]

theorem whole_writes : Yields (p.Written q) (whole s q p) :=
  (withClause_holds s.dialect _).bind fun _ htables => (body_writes s q p).bind fun _ hbody =>
    .pure { toInBody := hbody.mono List.infix_append_right
            commonTables := htables.mono List.infix_append_left }

theorem join_holds (kind : JoinKind) {source condition : Lowered} :
    Yields (fun ts => Holds source ts ∧ Holds condition ts) (join kind source condition) :=
  (Yields.self source).bind fun src hsrc => (Yields.self condition).bind fun c hc => .pure
    ⟨⟨src, hsrc, List.infix_append_of_infix_left (List.infix_append_of_infix_right
      (List.infix_cons (List.infix_cons (List.infix_refl src))))⟩,
      ⟨c, hc, List.infix_append_right⟩⟩

theorem operand_holds (op : SetOperator) (first other : Nat) :
    Yields (Holds part) (operand op first other part) := by
  refine iteInduction (fun _ => .error _) fun _ => ?_
  exact (Yields.self part).bind fun ts hts => .pure
    ⟨ts, hts, List.infix_append_of_infix_right (List.infix_cons (List.infix_refl ts))⟩

theorem compound_holds (d : Dialect) (base : Lowered) (operands orderBy : LoweredList)
    (unordered : Bool) (limit offset : Option UInt64) : Yields
    (fun ts => Holds base ts ∧ HoldsAll operands ts ∧ HoldsAll orderBy ts)
    (compound d base operands orderBy unordered limit offset) := by
  refine (Yields.self base).bind fun b hb => (Yields.self operands).bind fun l hl =>
    (listClause_holds .ORDER_BY).bind fun order horder => .pure ?_
  simp only [List.append_assoc]
  refine ⟨⟨b, hb, List.infix_append_left⟩, ⟨l, hl, fun us hus => ?_⟩, horder.mono ?_⟩
  · exact List.infix_append_of_infix_right
      (List.infix_append_of_infix_left (List.infix_of_mem_flatten hus))
  · exact List.infix_append_of_infix_right (List.infix_append' _ _ _)

theorem infix_placed (id : SourceId) (alias? : Option String) (ts : Tokens) :
    ts <:+: placed s id alias? ts :=
  List.infix_append_of_infix_left (infix_parensIf s.nested ts)

end Statement

end SqlScribe
