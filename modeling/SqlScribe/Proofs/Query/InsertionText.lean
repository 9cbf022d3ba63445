import SqlScribe.Proofs.Occurrence.Lowering
import SqlScribe.Proofs.Query.InsertionSteps
/-! # The clauses of an insertion

An insertion writes its clauses one behind the other, and what its calls asked for is in them.

* `InsertionTokens`: the tokens of an insertion, clause by clause.
* `Statement.whole_lays`: every insertion is laid out so, with the tokens of its parts.
* `Query.Step.Written`: what a step asked for stands in its clause.
* `Query.insertion_writes_clauses`: a clause that was asked for is in every text of the query.
* `Query.selectInto_drops`: where the rows go into the table of a selection, it is not. -/

namespace SqlScribe

open Tokens

/-! ## Layouts -/

/-- What is done about a conflict, in tokens. -/
inductive HandlerTokens where
  /-- Nothing. -/
  | nothing
  /-- Updates of the existing row, under a condition or not. -/
  | update (assignments : List Tokens) (filter : Option Tokens)

/-- A conflict clause with a handler, in tokens. -/
structure ConflictTokens where
  /-- The columns in conflict. -/
  targets : List Tokens
  /-- The condition on the index. -/
  filter : Option Tokens
  /-- What is done. -/
  handler : HandlerTokens

/-- An insertion in tokens, clause by clause. -/
structure InsertionTokens where
  /-- The common tables before it. -/
  commonTables : Tokens
  /-- The keywords up to the table. -/
  keywords : Tokens
  /-- The table. -/
  target : Tokens
  /-- The columns. -/
  columns : List Tokens
  /-- The rows, or the selection of them. -/
  added : Tokens
  /-- The conflict clause. -/
  conflict : Option ConflictTokens
  /-- The updates of rows with duplicate keys. -/
  duplicates : Option (List Tokens)
  /-- The returned items. -/
  returning : Option (List Tokens)

/-- A condition between blanks, behind its keyword. -/
def Tokens.conditioned : Option Tokens → Tokens
  | none => []
  | some c => spaced (.word .WHERE) ++ c

/-- A clause that begins with some tokens and lists items, if it is there. -/
def Tokens.clauseOf (head : Tokens) : Option (List Tokens) → Tokens
  | none => []
  | some items => head ++ listed items

/-- The tokens of a handler. -/
def HandlerTokens.tokens : HandlerTokens → Tokens
  | .nothing => spaced (.word .DO) ++ [.word .NOTHING]
  | .update assignments filter =>
    spaced (.word .DO) ++ .word .UPDATE :: .space :: .word .SET :: .space ::
      listed assignments ++ conditioned filter

/-- The tokens of a conflict clause. -/
def ConflictTokens.tokens (c : ConflictTokens) : Tokens :=
  .space :: .word .ON :: .space :: .word .CONFLICT :: Statement.conflictTargets c.targets
    ++ conditioned c.filter ++ c.handler.tokens

namespace InsertionTokens

/-- The columns between parentheses, unless there are none. -/
def columnList : List Tokens → Tokens
  | [] => []
  | columns => .space :: parens (listed columns)

/-- All tokens of an insertion. -/
def tokens (l : InsertionTokens) : Tokens :=
  l.commonTables ++ (l.keywords ++ .space :: l.target ++ columnList l.columns ++ l.added
    ++ (l.conflict.map ConflictTokens.tokens).getD []
    ++ clauseOf [.space, .word .ON, .space, .raw "DUPLICATE KEY", .space, .word .UPDATE, .space]
      l.duplicates
    ++ clauseOf (spaced (.word .RETURNING)) l.returning)

end InsertionTokens

/-- The keywords before the table of an insertion that treats existing rows in some way. -/
def InsertMode.WrittenAs (d : Dialect) (ts : Tokens) : InsertMode → Prop
  | .insert => ts = [.word .INSERT, .space, .word .INTO]
  | .ignore => ∃ words, d.profile.insertIgnore = some words ∧
      (words = "IGNORE" ∨ words = "OR IGNORE") ∧
      ts = [.word .INSERT, .space, .raw words, .space, .word .INTO]
  | .replace => ts = [.word .REPLACE, .space, .word .INTO]
  | .insertOrReplace =>
    ts = [.word .INSERT, .space, .word .OR, .space, .word .REPLACE, .space, .word .INTO]

/-! ## Clauses -/

namespace Statement

variable {items : LoweredList} {part : Lowered}

theorem insertHead_writtenAs (d : Dialect) (mode : InsertMode) :
    Yields (mode.WrittenAs d) (insertHead d mode) := by
  cases mode with
  | insert => exact .ok rfl
  | ignore =>
    rw [insertHead]
    split
    · next words hwords =>
      refine .ok ⟨words, hwords, ?_, rfl⟩
      cases d <;> cases hwords <;> decide
    · exact .error _
  | replace => exact .guarded rfl
  | insertOrReplace => exact .guarded rfl

theorem columnClause_lays :
    Yields (fun ts => ∃ l, items = .ok l ∧ ts = InsertionTokens.columnList l)
      (columnClause items) := by
  refine (Yields.self items).bind fun l hl => ?_
  cases l with
  | nil => exact .ok ⟨[], hl, rfl⟩
  | cons t l => exact .ok ⟨t :: l, hl, rfl⟩

theorem whereClause_lays (isEmpty : Bool) :
    Yields (fun ts => ∃ filter, ts = conditioned filter) (whereClause isEmpty part) := by
  cases isEmpty with
  | true => exact .ok ⟨none, rfl⟩
  | false => exact (Yields.self part).bind fun c _ => .pure ⟨some c, rfl⟩

/-- The tokens of a conflict clause in which a handler was chosen are those of its parts. -/
structure LaysConflict (c : Conflict) (p : ConflictParts) (t : ConflictTokens) : Prop where
  targets : p.targets = .ok t.targets
  nothing : c.handler = some .nothing → t.handler = .nothing
  update : c.handler = some .update →
    ∃ l filter, p.assignments = .ok l ∧ t.handler = .update l filter

/-- What is written of a conflict clause: nothing if it has neither a handler nor columns. -/
def LaysConflict? (c : Conflict) (p : ConflictParts) : Option ConflictTokens → Prop
  | none => c.handler = none ∧ c.targets = []
  | some t => LaysConflict c p t

/-- A conflict clause that has a handler or columns is written. -/
theorem LaysConflict?.exists_some {c : Conflict} {p : ConflictParts} {t : Option ConflictTokens}
    (h : LaysConflict? c p t) (hc : c.handler ≠ none ∨ c.targets ≠ []) :
    ∃ written, t = some written ∧ LaysConflict c p written := by
  cases t with
  | none =>
    rcases hc with hc | hc
    · exact absurd h.1 hc
    · exact absurd h.2 hc
  | some written => exact ⟨written, rfl, h⟩

theorem conflictHandler_lays (c : Conflict) (p : ConflictParts) (handler : ConflictHandler) :
    Yields (fun ts => ∃ t : HandlerTokens, ts = t.tokens ∧ (handler = .nothing → t = .nothing) ∧
        (handler = .update → ∃ l filter, p.assignments = .ok l ∧ t = .update l filter))
      (conflictHandler c p handler) := by
  cases handler with
  | nothing => exact .ok ⟨.nothing, rfl, fun _ => rfl, nofun⟩
  | update =>
    refine iteInduction (fun _ => .error _) fun _ => ?_
    refine (Yields.self p.assignments).bind fun l hl => (whereClause_lays _).bind fun ts h => ?_
    obtain ⟨filter, rfl⟩ := h
    exact .pure ⟨.update l filter, rfl, nofun, fun _ => ⟨l, filter, hl, rfl⟩⟩

theorem conflictClause_lays (d : Dialect) (c : Conflict) (p : ConflictParts) :
    Yields (fun ts => ∃ t : Option ConflictTokens, ts = (t.map ConflictTokens.tokens).getD [] ∧
        LaysConflict? c p t)
      (conflictClause d c p) := by
  refine iteInduction (fun _ => .error _) fun _ => ?_
  cases hhandler : c.handler with
  | none =>
    refine iteInduction (fun htargets => .ok ⟨none, rfl, hhandler, ?_⟩) fun _ => .error _
    exact List.isEmpty_iff.mp htargets
  | some handler =>
    refine (Yields.self p.targets).bind fun l hl => (whereClause_lays _).bind fun ts h => ?_
    obtain ⟨filter, rfl⟩ := h
    refine (conflictHandler_lays c p handler).bind fun ts h => ?_
    obtain ⟨t, rfl, hnothing, hupdate⟩ := h
    refine .pure ⟨some ⟨l, filter, t⟩, rfl, hl, fun h => ?_, fun h => ?_⟩
    · exact hnothing (Option.some_inj.mp (hhandler.symm.trans h))
    · exact hupdate (Option.some_inj.mp (hhandler.symm.trans h))

theorem duplicateClause_lays (d : Dialect) (updates : List Assignment) :
    Yields (fun ts => ∃ l, (updates ≠ [] → ∃ us, l = some us ∧ items = .ok us) ∧ ts = clauseOf
        [.space, .word .ON, .space, .raw "DUPLICATE KEY", .space, .word .UPDATE, .space] l)
      (duplicateClause d updates.isEmpty items) := by
  refine iteInduction (fun hnil => .ok ⟨none, fun h => ?_, rfl⟩) fun _ =>
    iteInduction (fun _ => .error _) fun _ => ?_
  · exact absurd (List.isEmpty_iff.mp hnil) h
  · exact (Yields.self items).bind fun us hus => .pure ⟨some us, fun _ => ⟨us, rfl, hus⟩, rfl⟩

theorem returningClause_lays (d : Dialect) (q : Query) :
    Yields (fun ts => ∃ l, (q.returning ≠ [] → ∃ us, l = some us ∧ items = .ok us) ∧
        ts = clauseOf (spaced (.word .RETURNING)) l)
      (returningClause d q items) := by
  refine iteInduction (fun hnil => .ok ⟨none, fun h => ?_, rfl⟩) fun _ =>
    iteInduction (fun _ => ?_) fun _ => .error _
  · exact absurd (List.isEmpty_iff.mp hnil) h
  · cases foreignReturned? q with
    | some t => exact .error _
    | none =>
      exact (Yields.self items).bind fun us hus => .pure ⟨some us, fun _ => ⟨us, rfl, hus⟩, rfl⟩

/-- The tokens of an insertion are those of the parts of a query; those of its conflict clause have
some property. -/
structure Lays (s : Scope) (q : Query) (p : QueryParts) (target : Table)
    (conflict : Option ConflictTokens → Prop) (l : InsertionTokens) : Prop where
  keywords : q.info.insertMode.WrittenAs s.dialect l.keywords
  target : l.target = target.tokens s
  columns : p.columns = .ok l.columns
  conflict : conflict l.conflict
  duplicates : q.duplicateUpdates ≠ [] → ∃ us, l.duplicates = some us ∧ p.duplicateUpdates = .ok us
  returning : q.returning ≠ [] → ∃ us, l.returning = some us ∧ p.returning = .ok us

/-- An insertion is laid out clause by clause. -/
theorem whole_lays (s : Scope) {q : Query} (p : QueryParts) {target : Table}
    {conflict : Option ConflictTokens → Prop} (haction : q.info.action = .insert target false)
    (hconflict : Yields
      (fun ts => ∃ t : Option ConflictTokens, ts = (t.map ConflictTokens.tokens).getD [] ∧
        conflict t) p.conflict) :
    Yields (fun ts => ∃ l : InsertionTokens, ts = l.tokens ∧ Lays s q p target conflict l)
      (whole s q p) := by
  refine (Query.yields_true _).bind fun commonTables _ => ?_
  have hbody : body s q p = insertion s q p target := by rw [body, haction]
  rw [hbody]
  refine Yields.bind (p := fun ts => ∃ l : InsertionTokens, commonTables ++ ts = l.tokens ∧
    Lays s q p target conflict l) ?_ fun ts h => .pure h
  refine (insertHead_writtenAs s.dialect _).bind fun keywords hkeywords =>
    columnClause_lays.bind fun ts h => ?_
  obtain ⟨columns, hcolumns, rfl⟩ := h
  refine (Query.yields_true _).bind fun added _ => hconflict.bind fun ts h => ?_
  obtain ⟨clause, rfl, hclause⟩ := h
  refine (duplicateClause_lays s.dialect _).bind fun ts h => ?_
  obtain ⟨duplicates, hduplicates, rfl⟩ := h
  refine (returningClause_lays s.dialect q).bind fun ts h => ?_
  obtain ⟨returning, hreturning, rfl⟩ := h
  exact .pure ⟨⟨commonTables, keywords, target.tokens s, columns, added, clause, duplicates,
    returning⟩, rfl, hkeywords, rfl, hcolumns, hclause, hduplicates, hreturning⟩

end Statement

namespace Query

variable {q next q' : Query}

/-- What the step asked for stands in the clauses of an insertion into a table. Returned items stand
there themselves, or a star that takes them in does. -/
def Step.Written (inner : Scope) (target : Table) (l : InsertionTokens) : Step → Prop
  | .columns items => ∀ item ∈ items, ∃ ts ∈ l.columns, item.toColumn.lowerColumn inner = .ok ts
  | .onConflict items => ∀ item ∈ items, ∃ c, l.conflict = some c ∧
      ∃ ts ∈ c.targets, item.toColumn.lowerColumn inner = .ok ts
  | .doNothing => ∃ c, l.conflict = some c ∧ c.handler = .nothing
  | .doUpdate item value => ∃ c assignments filter, l.conflict = some c ∧
      c.handler = .update assignments filter ∧ ∃ ts ∈ assignments,
        Assignment.lower (inner.qualifying true)
          ⟨item.toColumn, value.getD (Term.excluded (item.toColumn.fieldName?.getD ""))⟩ = .ok ts
  | .onDuplicateUpdate item value => ∃ updates, l.duplicates = some updates ∧
      ∃ ts ∈ updates, Assignment.lower inner ⟨item.toColumn, value⟩ = .ok ts
  | .returning items => ∀ item ∈ items, ∃ returned, l.returning = some returned ∧
      ∃ ts ∈ returned, ∃ t : Term, (t = item.toTerm (some (.table target)) ∨ t.IsBareStar) ∧
        t.lower inner.labelled = .ok ts
  | _ => True

/-- The parts of the conflict clause of a query in its inner scope. -/
def conflictParts (inner : Scope) (c : Conflict) : Statement.ConflictParts :=
  { targets := Term.lowerColumns inner c.targets
    targetFilter := c.targetFilter.lower inner.quiet
    assignments := Assignment.lowerAll (inner.qualifying true) c.assignments
    updateFilter := c.updateFilter.lower (inner.qualifying true).quiet }

theorem parts_conflict_lays (s : Scope) (q : Query) : Yields
    (fun ts => ∃ t : Option ConflictTokens, ts = (t.map ConflictTokens.tokens).getD [] ∧
      ∀ c, q.conflict = some c → Statement.LaysConflict? c (conflictParts s c) t)
    (q.parts s).conflict := by
  rw [parts]
  cases hc : q.conflict with
  | none => exact .ok ⟨none, rfl, nofun⟩
  | some c =>
    have hlower : c.lower s = Statement.conflictClause s.dialect c (conflictParts s c) := by
      cases c
      rw [Conflict.lower, conflictParts]
    simp only
    rw [hlower]
    refine (Statement.conflictClause_lays s.dialect c _).mono fun ts h => ?_
    obtain ⟨t, hts, ht⟩ := h
    refine ⟨t, hts, fun d hd => ?_⟩
    cases hd
    exact ht

/-- What the step asked for and a query has stands in the clauses that the query lays out. -/
theorem Step.Gathered.written {s : Step} {inner : Scope} {target : Table} {l : InsertionTokens}
    (h : s.Gathered target q)
    (hl : Statement.Lays inner q (q.parts inner) target
      (fun t => ∀ c, q.conflict = some c → Statement.LaysConflict? c (conflictParts inner c) t) l) :
    s.Written inner target l := by
  cases s with
  | columns items =>
    exact fun item hitem => exists_mem_of_lowered (fun t ts => by rw [Term.lowerColumns])
      hl.columns (h item hitem)
  | onConflict items =>
    obtain ⟨c, hc, htargets⟩ := h
    intro item hitem
    have hmem := htargets item hitem
    obtain ⟨t, ht, hlays⟩ := (hl.conflict c hc).exists_some (.inr (List.ne_nil_of_mem hmem))
    exact ⟨t, ht, exists_mem_of_lowered (fun t ts => by rw [Term.lowerColumns]) hlays.targets hmem⟩
  | doNothing =>
    obtain ⟨c, hc, hhandler⟩ := h
    obtain ⟨t, ht, hlays⟩ := (hl.conflict c hc).exists_some (.inl (by simp [hhandler]))
    exact ⟨t, ht, hlays.nothing hhandler⟩
  | doUpdate item value =>
    obtain ⟨c, hc, hhandler, hmem⟩ := h
    obtain ⟨t, ht, hlays⟩ := (hl.conflict c hc).exists_some (.inl (by simp [hhandler]))
    obtain ⟨assignments, filter, hassignments, hupdate⟩ := hlays.update hhandler
    exact ⟨t, assignments, filter, ht, hupdate,
      exists_mem_of_lowered (fun a as => by rw [Assignment.lowerAll]) hassignments hmem⟩
  | onDuplicateUpdate item value =>
    obtain ⟨updates, hupdates, hlower⟩ := hl.duplicates (List.ne_nil_of_mem h)
    exact ⟨updates, hupdates,
      exists_mem_of_lowered (fun a as => by rw [Assignment.lowerAll]) hlower h⟩
  | returning items =>
    intro item hitem
    obtain ⟨t, ht, hmem⟩ : ∃ t : Term, (t = item.toTerm (some (.table target)) ∨ t.IsBareStar) ∧
        t ∈ q.returning := by
      rcases h item hitem with hmem | ⟨star, hmem, hstar⟩
      · exact ⟨_, .inl rfl, hmem⟩
      · exact ⟨star, .inr hstar, hmem⟩
    obtain ⟨returned, hreturned, hlower⟩ := hl.returning (List.ne_nil_of_mem hmem)
    obtain ⟨ts, hts, htokens⟩ :=
      exists_mem_of_lowered (fun t ts => by rw [Term.lowerAll]) hlower hmem
    exact ⟨returned, hreturned, ts, hts, t, ht, htokens⟩
  | _ => trivial

/-- **The clauses of an insertion are never dropped.** Let a step be granted by a query that can be
built and that inserts into a table (of which no item was selected before), and let further steps
follow. Whatever is written then, in any scope, is an insertion into that table in which stands what
the step asked for: the columns, the columns in conflict and the handler, the updates of rows with
duplicate keys, the returned items or a star that takes them in. The keywords are those of the last
step that chose how to treat existing rows. -/
theorem insertion_writes_clauses (hq : q.Reachable) {target : Table}
    (htarget : q.info.action = .insert target false) {fresh : SourceId} {s : Step}
    (hstep : q.step fresh s = .ok next) {steps : List (SourceId × Step)}
    (hrun : next.run steps = .ok q') {sc : Scope} {ts : Tokens} (hts : q'.lower sc = .ok ts)
    (hne : ts ≠ []) :
    ∃ l : InsertionTokens,
      ts = Statement.placed sc q'.info.id q'.info.alias? l.tokens ∧
      l.target = target.tokens (sc.inside q') ∧
      s.Written (sc.inside q') target l ∧
      ∀ mode, s.insertMode? = some mode →
        ((lastInsertMode? steps).getD mode).WrittenAs sc.dialect l.keywords := by
  have hkept := step_keeps q fresh s next hstep
  have hkept' := next.run_keeps steps q' hrun
  have hinserts : q.info.action.insertTarget? = some target := by rw [htarget]; rfl
  have haction : q'.info.action = .insert target false :=
    ((hkept.1.trans hkept'.1).action (by rw [isInsertion, hinserts]; rfl)).trans htarget
  have hgathered : s.Gathered target q' := run_gathered hinserts hq.starReturned hstep hrun
  rw [lower_eq] at hts
  cases hblank : q'.isBlank with
  | true =>
    rw [hblank, if_pos rfl] at hts
    cases hts
    exact absurd rfl hne
  | false =>
    rw [hblank, if_neg Bool.false_ne_true] at hts
    have hwhole := Statement.whole_lays (sc.inside q') (q'.parts (sc.inside q')) haction
      (parts_conflict_lays (sc.inside q') q')
    have hplaced := hwhole.bind (q := fun ts => ∃ l : InsertionTokens,
      ts = Statement.placed sc q'.info.id q'.info.alias? l.tokens ∧
      Statement.Lays (sc.inside q') q' (q'.parts (sc.inside q')) target _ l) fun whole h =>
        .pure <| h.imp fun l hl => ⟨by rw [hl.1], hl.2⟩
    obtain ⟨l, hl, hlays⟩ := hplaced ts hts
    refine ⟨l, hl, hlays.target, hgathered.written hlays, fun mode hmode => ?_⟩
    have hwritten := hlays.keywords
    rw [hkept'.2, hkept.2, hmode] at hwritten
    exact hwritten

/-- Columns of an insertion that passes over existing rows in the end. -/
theorem insertion_writes_clauses_columns :
    let hits : Table := { id := ⟨1⟩, name := "hits" }
    let q : Query := { start ⟨2⟩ .mysql with info.action := .insert hits false }
    let next : Query := { q with info.id := ⟨3⟩, columns := [Term.field "id"] }
    let q' : Query :=
      { next with info.id := ⟨5⟩, info.insertMode := .ignore, rows := [[Term.int 1]] }
    let s := Scope.ofOptions .mysql {}
    (start ⟨0⟩ .mysql).run [(⟨2⟩, .into hits)] = .ok q ∧
      q.step ⟨3⟩ (.columns [.column "id"]) = .ok next ∧
      next.run [(⟨4⟩, .rows [[Term.int 1]]), (⟨5⟩, .ignore)] = .ok q' ∧
      ∃ ts, q'.lower s = .ok ts ∧ ∃ l : InsertionTokens,
        ts = Statement.placed s q'.info.id q'.info.alias? l.tokens ∧
        ∃ columns ∈ l.columns, (Term.field "id").lowerColumn (s.inside q') = .ok columns := by
  intro hits q next q' s
  have hbegin : (start ⟨0⟩ .mysql).run [(⟨2⟩, .into hits)] = .ok q := rfl
  have hstep : q.step ⟨3⟩ (.columns [.column "id"]) = .ok next := rfl
  have hrun : next.run [(⟨4⟩, .rows [[Term.int 1]]), (⟨5⟩, .ignore)] = .ok q' := rfl
  have hlower : q'.lower s = .ok ([.word .INSERT, .space, .raw "IGNORE", .space, .word .INTO,
      .space, .ident "hits", .space, .mark .openParen, .ident "id", .mark .closeParen, .space,
      .word .VALUES, .space, .mark .openParen, .literal (.int 1), .mark .closeParen]) := rfl
  have hreachable := Reachable.run (.begun (.start ⟨0⟩ .mysql)) hbegin
  obtain ⟨l, hl, -, hwritten, -⟩ := insertion_writes_clauses hreachable rfl hstep hrun hlower
    (List.cons_ne_nil _ _)
  exact ⟨hbegin, hstep, hrun, _, hlower, l, hl, hwritten _ (List.mem_singleton_self _)⟩

/-- Clauses of an insertion that a selection into a table is granted and does not write. -/
theorem selectInto_drops :
    let abc : Table := { id := ⟨1⟩, name := "abc" }
    let efg : Table := { id := ⟨2⟩, name := "efg" }
    let column : SelectItem := .column "c"
    let q : Query :=
      { start ⟨5⟩ .ansi with
        sources := [.table abc], selects := [abc.field "x"], info.action := .insert efg true }
    let q' : Query :=
      { q with
        columns := [Term.field "c"]
        conflict := some ⟨[Term.field "c"], .empty, some .nothing, [], .empty⟩
        duplicateUpdates := [⟨Term.field "c", Term.int 1⟩], returning := [efg.field "c"]
        info.id := ⟨11⟩, info.insertMode := .ignore }
    let written : Tokens := [.word .SELECT, .space, .ident "x", .space, .word .INTO, .space,
      .ident "efg", .space, .word .FROM, .space, .ident "abc"]
    (start ⟨0⟩ .ansi).run [(⟨3⟩, .source (.table abc)), (⟨4⟩, .select [.column "x"]),
        (⟨5⟩, .into efg)] = .ok q ∧ q.isInsertion = true ∧
      q.run [(⟨6⟩, .columns [column]), (⟨7⟩, .onConflict [column]), (⟨8⟩, .doNothing),
        (⟨9⟩, .onDuplicateUpdate column (.int 1)), (⟨10⟩, .returning [column]),
        (⟨11⟩, .ignore)] = .ok q' ∧
      renderTokens q' {} = .ok written ∧ renderTokens q {} = .ok written :=
  ⟨rfl, rfl, rfl, rfl, rfl⟩

end Query

end SqlScribe
