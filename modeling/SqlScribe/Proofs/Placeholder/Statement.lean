import SqlScribe.Lowering.Statement
import SqlScribe.Proofs.Placeholder.Clause
/-! # Statements between placeholders

Statements whose parts are tame are tame. Clauses are set apart by the blank that they begin with;
what only introduces a list of items ends with a token of its own.

* `Tokens.Leads`: tokens behind which any tame ones may stand.
* `QueryParts.Tame`: the parts of a query are tame.
* `Statement.whole_tame`, `Statement.compound_tame`: so are the query and a set operation. -/

namespace SqlScribe

open Tokens

variable {c : Scan} {d : Dialect}

namespace Tokens

/-- Whatever is tame may follow the tokens. -/
def Leads (c : Scan) (d : Dialect) (ts : Tokens) : Prop :=
  ∀ rest, Tame c d rest → Tame c d (ts ++ rest)

variable {t : Token} {ts us : Tokens}

namespace Leads

theorem nil : Leads c d [] := fun _ h => h

theorem cons (ht : t.Mute c d) (h : Leads c d ts) : Leads c d (t :: ts) :=
  fun rest hrest => .cons ht (h rest hrest)

theorem append (h : Leads c d ts) (h' : Leads c d us) : Leads c d (ts ++ us) := by
  intro rest hrest
  rw [List.append_assoc]
  exact h _ (h' rest hrest)

/-- Tame tokens with one behind them that is no value. -/
theorem snoc (h : Tame c d ts) (ht : t.Separates c d) : Leads c d (ts ++ [t]) := by
  intro rest hrest
  rw [List.append_assoc]
  exact h.append (.cons ht hrest)

theorem word (k : Keyword) (h : Leads c d ts) : Leads c d (.word k :: ts) :=
  .cons (Token.Separates.word k).mute h

theorem space (h : Leads c d ts) : Leads c d (.space :: ts) :=
  .cons Token.Separates.space.mute h

/-- Tame tokens with a keyword between blanks behind them. -/
theorem keyword (k : Keyword) (h : Tame c d ts) : Leads c d (ts ++ spaced (.word k)) := by
  intro rest hrest
  rw [List.append_assoc]
  exact h.append (.keyword k hrest)

theorem parens (h : Tame c d ts) : Leads c d (parens ts) :=
  .snoc (Apart.mark _ h).tame (.mark _)

/-- Either of two pieces. -/
theorem choose {b : Prop} [Decidable b] (h : Leads c d ts) (h' : Leads c d us) :
    Leads c d (if b then ts else us) := by
  split
  · exact h
  · exact h'

end Leads

end Tokens

/-! ## Names -/

theorem Scope.aliasSuffix_apart (s : Scope) (name : String) : Apart c d (s.aliasSuffix name) := by
  have hname : Tame c d [.aliasName name] := (Apart.one (.aliasName name)).tame
  refine .space ?_
  split
  · exact (Apart.head _ hname).tame
  · exact hname

theorem Table.tokens_tame (s : Scope) (t : Table) : Tame c d (t.tokens s) := by
  refine (Apart.append (.flatMap fun part _ => .ident part (Apart.mark _ .nil).tame)
    (.ident t.name ?_)).tame
  cases t.alias? with
  | none => exact .nil
  | some name => exact (s.aliasSuffix_apart name).tame

/-! ## Row windows -/

/-- The limit that keeps all rows is written with inert characters. -/
def PaginationStyle.isFixed : PaginationStyle → Bool
  | .limitRequired unbounded => Text.isFixed unbounded
  | _ => true

theorem Dialect.isFixed_pagination (d : Dialect) : d.profile.pagination.isFixed = true := by
  cases d <;> decide

namespace PaginationStyle

theorem limitClause_apart {t : Token} (ht : t.Mute c d) : Apart c d (limitClause t) :=
  .space (Apart.head _ (.one ht)).tame

theorem offsetClause_apart {t : Token} (ht : t.Mute c d) : Apart c d (offsetClause t) :=
  .space (Apart.head _ (.one ht)).tame

theorem offsetRows_apart {t : Token} (ht : t.Mute c d) : Apart c d (offsetRows t) :=
  (offsetClause_apart ht).append (.space (Apart.word _ .nil).tame)

theorem fetchNext_apart {t : Token} (ht : t.Mute c d) : Apart c d (fetchNext t) := by
  have hend : Tame c d [.space, .word .ROWS, .space, .word .ONLY] :=
    (Apart.space (Apart.head _ (Apart.word _ .nil).tame).tame).tame
  exact .space (Apart.head _ (Apart.head _ (.cons ht hend)).tame).tame

theorem clause_apart {write : Token → Tokens} (n : Option UInt64)
    (h : ∀ {t : Token}, t.Mute c d → Apart c d (write t)) : Apart c d (clause write n) := by
  cases n with
  | none => exact .nil
  | some n => exact h (.count _)

end PaginationStyle

open PaginationStyle in
theorem Dialect.window_apart (e : Dialect) (limit offset : Option UInt64) :
    Apart c d (e.window limit offset) := by
  have hfixed := e.isFixed_pagination
  unfold Dialect.window PaginationStyle.window
  split
  · exact (clause_apart _ limitClause_apart).append (clause_apart _ offsetClause_apart)
  · next unbounded _ _ hstyle =>
    rw [hstyle] at hfixed
    split
    · exact (limitClause_apart (.raw (.fixed hfixed))).append (offsetClause_apart (.count _))
    · exact (clause_apart _ limitClause_apart).append (clause_apart _ offsetClause_apart)
  · exact .nil
  · exact (offsetRows_apart (.count _)).append (clause_apart _ fetchNext_apart)
  · exact (clause_apart _ offsetRows_apart).append (clause_apart _ fetchNext_apart)

/-- The parts of a query are tame. -/
structure QueryParts.Tame (c : Scan) (d : Dialect) (p : QueryParts) : Prop where
  commonTables : Yields (AllTame c d) p.commonTables
  sources : Yields (AllTame c d) p.sources
  selects : Yields (AllTame c d) p.selects
  distinctOn : Yields (AllTame c d) p.distinctOn
  joins : Yields (AllTame c d) p.joins
  filter : Yields (Tokens.Tame c d) p.filter
  groupBy : Yields (AllTame c d) p.groupBy
  having : Yields (Tokens.Tame c d) p.having
  orderBy : Yields (AllTame c d) p.orderBy
  columns : Yields (AllTame c d) p.columns
  rows : Yields (AllTame c d) p.rows
  conflict : Yields (Apart c d) p.conflict
  duplicateUpdates : Yields (AllTame c d) p.duplicateUpdates
  assignments : Yields (AllTame c d) p.assignments
  returning : Yields (AllTame c d) p.returning

namespace Statement

variable {items : LoweredList} {condition inner : Lowered} {q : Query} {p : QueryParts}

/-! ## Clauses of selections -/

theorem listClause_apart (k : Keyword) (h : Yields (AllTame c d) items) :
    Yields (Apart c d) (listClause k items) := by
  refine h.bind fun l hl => ?_
  cases l with
  | nil => exact .ok .nil
  | cons ts l => exact .ok (.space (Apart.head _ (Tame.listed hl)).tame)

theorem conditionClause_apart (k : Keyword) (isEmpty : Bool) (h : Yields (Tame c d) condition) :
    Yields (Apart c d) (conditionClause k isEmpty condition) := by
  cases isEmpty with
  | true => exact .ok .nil
  | false => exact h.bind fun ts hts => .pure (.space (Apart.head _ hts).tame)

theorem commonTable_tame (name : String) (columns : List String) (h : Yields (Tame c d) inner) :
    Yields (Tame c d) (commonTable name columns inner) := by
  refine h.bind fun body hbody => .pure ?_
  have hcolumns : Apart c d
      (if columns.isEmpty then [] else .space :: parens (Tokens.idents columns)) :=
    .choose .nil (.space (Apart.parens (.idents columns)).tame)
  have hhead : Tame c d (.ident name ::
      (if columns.isEmpty then [] else .space :: parens (Tokens.idents columns))) :=
    (Apart.ident name hcolumns.tame).tame
  exact Leads.keyword _ hhead _ (Apart.parens hbody).tame

theorem withClause_leads (e : Dialect) (recursive : Bool) (h : Yields (AllTame c d) items) :
    Yields (Leads c d) (withClause e recursive items) := by
  refine h.bind fun l hl => ?_
  cases l with
  | nil => exact .ok .nil
  | cons ts l =>
    have hhead : Leads c d (.word .WITH :: .space ::
        if recursive && e.profile.recursiveWord then [.word .RECURSIVE, .space] else []) :=
      .word _ (.space (.choose (.word _ (.space .nil)) .nil))
    exact .ok (.snoc (hhead _ (.listed hl)) .space)

theorem distinctClause_leads (e : Dialect) (distinct isEmpty : Bool)
    (h : Yields (AllTame c d) items) :
    Yields (Leads c d) (distinctClause e distinct isEmpty items) := by
  refine iteInduction (fun _ => .ok ?_) fun _ => iteInduction (fun _ => ?_) fun _ => .error _
  · exact .choose (.word _ (.space .nil)) .nil
  · refine h.bind fun l hl => .pure (.snoc ?_ .space)
    exact (Apart.head _ (Apart.word _ (Apart.parens (Tame.listed hl)).tame).tame).tame

theorem topClause_leads (e : Dialect) (top : Option Top) :
    Yields (Leads c d) (topClause e top) := by
  cases top with
  | none => exact .ok .nil
  | some t =>
    refine iteInduction (fun _ => .ok ?_) fun _ => .error _
    have hcount : Leads c d (.word .TOP :: .space :: parens [countToken t.count]) :=
      .word _ (.space (.parens (.one (.count _))))
    have hpercent : Leads c d (if t.percent then [.word .PERCENT, .space] else []) :=
      .choose (.word _ (.space .nil)) .nil
    have hties : (Token.raw "WITH TIES").Separates c d := .raw (by decide)
    have hmore : Leads c d (if t.withTies then [.raw "WITH TIES", .space] else []) :=
      .choose (.cons hties.mute (.space .nil)) .nil
    exact (hcount.append hpercent.space).append hmore

theorem selectClause_apart (e : Dialect) (h : p.Tame c d) :
    Yields (Apart c d) (selectClause e q p) := by
  refine (distinctClause_leads e _ _ h.distinctOn).bind fun distinct hdistinct =>
    (topClause_leads (c := c) (d := d) e _).bind fun top htop => h.selects.bind fun l hl =>
      .pure ?_
  rw [List.append_assoc]
  exact .head _ (hdistinct _ (htop _ (.listed hl)))

theorem joinClauses_apart (h : Yields (AllTame c d) items) :
    Yields (Apart c d) (joinClauses items) :=
  h.bind fun _ hl => .pure (.flatMap fun ts hts => .space (hl ts hts))

theorem groupClause_apart (withRollup : Bool) (h : Yields (AllTame c d) items) :
    Yields (Apart c d) (groupClause withRollup items) := by
  refine h.bind fun l hl => ?_
  cases l with
  | nil => exact .ok .nil
  | cons ts l =>
    have hrollup : Apart c d
        (if withRollup then [.space, .word .WITH, .space, .raw "ROLLUP"] else []) :=
      .choose (.space (Apart.head _ (Apart.raw (by decide) .nil).tame).tame) .nil
    exact .ok (.append (.space (Apart.head _ (Tame.listed hl)).tame) hrollup)

theorem windowClause_apart (e : Dialect) (unordered : Bool) (limit offset : Option UInt64) :
    Apart c d (windowClause e unordered limit offset) := by
  refine .append (.choose ?_ .nil) (Dialect.window_apart e _ _)
  exact .space (Apart.head _ (Apart.raw (by decide) .nil).tame).tame

theorem lockClause_apart (s : Scope) (lock : Option Lock) :
    Yields (Apart c d) (lockClause s lock) := by
  cases lock with
  | none => exact .ok .nil
  | some lock =>
    refine iteInduction (fun _ => ?_) fun _ => .error _
    have hword : ∀ {text : String}, Text.isWord text = true → Apart c d [.space, .raw text] :=
      fun h => .space (Apart.raw h .nil).tame
    refine .ok (.append (.space (Apart.head _ (Apart.word _ ?_).tame).tame) ?_)
    · split
      · exact .nil
      · next t ts _ =>
        have hfirst : Apart c d (.space :: .raw "OF" :: .space :: t.tokens s) :=
          .space (Apart.raw (by decide) (Apart.space (t.tokens_tame s)).tame).tame
        have hothers : Apart c d (ts.flatMap fun t => .mark .comma :: .space :: t.tokens s) :=
          .flatMap fun t _ => .mark _ (Apart.space (t.tokens_tame s)).tame
        exact (hfirst.append hothers).tame
    · split
      · exact .nil
      · exact hword (by decide)
      · exact hword (by decide)

theorem selectTail_apart (s : Scope) (h : p.Tame c d) : Yields (Apart c d) (selectTail s q p) :=
  (listClause_apart _ h.sources).bind fun _ hs => (joinClauses_apart h.joins).bind fun _ hj =>
    (conditionClause_apart _ _ h.filter).bind fun _ hf =>
      (groupClause_apart _ h.groupBy).bind fun _ hg =>
        (conditionClause_apart _ _ h.having).bind fun _ hh =>
          (listClause_apart _ h.orderBy).bind fun _ ho =>
            (lockClause_apart s _).bind fun _ hl =>
              .pure (((((((hs.append hj).append hf).append hg).append hh).append ho).append
                (windowClause_apart _ _ _ _)).append hl)

theorem selection_apart (s : Scope) (h : p.Tame c d) (target : Option Table) :
    Yields (Apart c d) (selection s q p target) := by
  refine (selectClause_apart _ h).bind fun select hselect => (selectTail_apart s h).bind
    fun tail htail => .pure (Apart.append (.append hselect ?_) htail)
  cases target with
  | none => exact .nil
  | some t => exact .space (Apart.head _ (t.tokens_tame s)).tame

/-! ## Changes of rows -/

/-- The words by which an insertion passes over conflicts. -/
theorem isWord_insertIgnore (e : Dialect) :
    ∀ words ∈ e.profile.insertIgnore, Text.isWord words = true := by
  cases e <;> decide

theorem insertHead_apart (e : Dialect) (mode : InsertMode) :
    Yields (Apart c d) (insertHead e mode) := by
  have hinto : Tame c d [.space, .word .INTO] := (Apart.space (Apart.word _ .nil).tame).tame
  cases mode with
  | insert => exact .ok (.word _ hinto)
  | ignore =>
    rw [insertHead]
    split
    · next words hwords =>
      exact .ok (.head _ (Apart.raw (isWord_insertIgnore e words hwords) hinto).tame)
    · exact .error _
  | replace => exact iteInduction (fun _ => .ok (.word _ hinto)) fun _ => .error _
  | insertOrReplace =>
    refine iteInduction (fun _ => .ok ?_) fun _ => .error _
    exact .head _ (Apart.head _ (Apart.word _ hinto).tame).tame

theorem assignment_tame {column value : Lowered} (hc : Yields (Tame c d) column)
    (hv : Yields (Tame c d) value) : Yields (Tame c d) (assignment column value) :=
  hc.bind fun _ hc => hv.bind fun _ hv => .pure (hc.append (.mark _ hv))

theorem whereClause_apart (isEmpty : Bool) (h : Yields (Tame c d) condition) :
    Yields (Apart c d) (whereClause isEmpty condition) := by
  cases isEmpty with
  | true => exact .ok .nil
  | false => exact h.bind fun ts hts => .pure (.keyword _ hts)

theorem conflictTargets_apart {l : List Tokens} (hl : AllTame c d l) :
    Apart c d (conflictTargets l) := by
  cases l with
  | nil => exact .nil
  | cons ts l =>
    have hothers : Apart c d (l.flatMap fun t => .mark .comma :: .space :: t) :=
      .flatMap fun us hus => .mark _ (Apart.space (hl us (List.mem_cons_of_mem _ hus))).tame
    exact .space (Apart.parens ((hl ts List.mem_cons_self).append hothers)).tame

/-- The parts of a conflict clause are tame. -/
structure ConflictParts.Tame (c : Scan) (d : Dialect) (p : ConflictParts) : Prop where
  targets : Yields (AllTame c d) p.targets
  targetFilter : Yields (Tokens.Tame c d) p.targetFilter
  assignments : Yields (AllTame c d) p.assignments
  updateFilter : Yields (Tokens.Tame c d) p.updateFilter

theorem conflictHandler_apart {p : ConflictParts} (h : p.Tame c d) (conflict : Conflict)
    (handler : ConflictHandler) : Yields (Apart c d) (conflictHandler conflict p handler) := by
  cases handler with
  | nothing => exact .ok (.keyword _ (Apart.word _ .nil).tame)
  | update =>
    refine iteInduction (fun _ => .error _) fun _ => ?_
    refine h.assignments.bind fun l hl => (whereClause_apart _ h.updateFilter).bind fun w hw =>
      .pure (Apart.append ?_ hw)
    exact .keyword _ (Apart.head _ (Apart.head _ (Tame.listed hl)).tame).tame

theorem conflictClause_apart (e : Dialect) {p : ConflictParts} (h : p.Tame c d)
    (conflict : Conflict) : Yields (Apart c d) (conflictClause e conflict p) := by
  refine iteInduction (fun _ => .error _) fun _ => ?_
  split
  · exact iteInduction (fun _ => .ok .nil) fun _ => .error _
  · refine h.targets.bind fun l hl => (whereClause_apart _ h.targetFilter).bind fun w hw =>
      (conflictHandler_apart h conflict _).bind fun t ht => .pure (Apart.append (.append ?_ hw) ht)
    exact .space (Apart.head _ (Apart.word _ (conflictTargets_apart hl).tame).tame).tame

theorem duplicateClause_apart (e : Dialect) (isEmpty : Bool) (h : Yields (AllTame c d) items) :
    Yields (Apart c d) (duplicateClause e isEmpty items) := by
  refine iteInduction (fun _ => .ok .nil) fun _ =>
    iteInduction (fun _ => .error _) fun _ => h.bind fun l hl => .pure ?_
  have hupdate : Tame c d (.space :: .word .UPDATE :: .space :: listed l) :=
    (Apart.space (Apart.head _ (Tame.listed hl)).tame).tame
  exact .space (Apart.head _ (Apart.raw (by decide) hupdate).tame).tame

theorem returningClause_apart (e : Dialect) (h : Yields (AllTame c d) items) :
    Yields (Apart c d) (returningClause e q items) := by
  refine iteInduction (fun _ => .ok .nil) fun _ => iteInduction (fun _ => ?_) fun _ => .error _
  split
  · exact .error _
  · exact h.bind fun l hl => .pure (.keyword _ (.listed hl))

theorem columnClause_apart (h : Yields (AllTame c d) items) :
    Yields (Apart c d) (columnClause items) := by
  refine h.bind fun l hl => ?_
  cases l with
  | nil => exact .ok .nil
  | cons ts l => exact .ok (.space (Apart.parens (Tame.listed hl)).tame)

theorem addedRows_apart (s : Scope) (h : p.Tame c d) : Yields (Apart c d) (addedRows s q p) := by
  refine iteInduction (fun _ => ?_) fun _ => listClause_apart _ h.rows
  exact (selectClause_apart _ h).bind fun select hselect => (selectTail_apart s h).bind
    fun tail htail => .pure (.append (.space hselect.tame) htail)

theorem insertion_apart (s : Scope) (h : p.Tame c d) (target : Table) :
    Yields (Apart c d) (insertion s q p target) :=
  (insertHead_apart _ _).bind fun _ hh => (columnClause_apart h.columns).bind fun _ hc =>
    (addedRows_apart s h).bind fun _ ha => h.conflict.bind fun _ hf =>
      (duplicateClause_apart _ _ h.duplicateUpdates).bind fun _ hd =>
        (returningClause_apart _ h.returning).bind fun _ hr =>
          .pure ((((((hh.append (.space (target.tokens_tame s))).append hc).append ha).append
            hf).append hd).append hr)

theorem changeTail_apart (s : Scope) (h : p.Tame c d) : Yields (Apart c d) (changeTail s q p) :=
  (conditionClause_apart _ _ h.filter).bind fun _ hf =>
    (listClause_apart _ h.orderBy).bind fun _ ho =>
      (returningClause_apart _ h.returning).bind fun _ hr =>
        .pure (((hf.append ho).append
          (PaginationStyle.clause_apart _ PaginationStyle.limitClause_apart)).append hr)

theorem update_apart (s : Scope) (h : p.Tame c d) (target : Table) :
    Yields (Apart c d) (update s q p target) := by
  refine (joinClauses_apart h.joins).bind fun joins hjoins => h.assignments.bind fun l hl =>
    (listClause_apart _ h.sources).bind fun sources hsources =>
      (changeTail_apart s h).bind fun tail htail => .pure (Apart.append (.append ?_ hsources) htail)
  have hhead : Apart c d (.word .UPDATE :: .space :: target.tokens s ++ joins) :=
    Apart.append (.head _ (target.tokens_tame s)) hjoins
  rw [List.append_assoc]
  exact hhead.append (.keyword _ (.listed hl))

theorem usingClause_apart (s : Scope) (tables : List Table) : Apart c d (usingClause s tables) := by
  cases tables with
  | nil => exact .nil
  | cons t ts =>
    refine .keyword _ (.listed fun us hus => ?_)
    obtain ⟨u, -, rfl⟩ := List.mem_map.mp hus
    exact u.tokens_tame s

theorem deletion_apart (s : Scope) (h : p.Tame c d) : Yields (Apart c d) (deletion s q p) :=
  (listClause_apart _ h.sources).bind fun _ hs => (joinClauses_apart h.joins).bind fun _ hj =>
    (changeTail_apart s h).bind fun _ ht =>
      .pure ((((Apart.word _ hs.tame).append (usingClause_apart s _)).append hj).append ht)

/-! ## Whole statements -/

theorem body_apart (s : Scope) (h : p.Tame c d) : Yields (Apart c d) (body s q p) := by
  unfold body
  split
  · exact selection_apart s h _
  · exact selection_apart s h _
  · exact insertion_apart s h _
  · exact update_apart s h _
  · exact deletion_apart s h

/-- A query is tame. -/
theorem whole_tame (s : Scope) (h : p.Tame c d) : Yields (Tame c d) (whole s q p) :=
  (withClause_leads _ _ h.commonTables).bind fun _ hw => (body_apart s h).bind fun _ hb =>
    .pure (hw _ hb.tame)

theorem placed_tame {ts : Tokens} (s : Scope) (id : SourceId) (alias? : Option String)
    (h : Tame c d ts) : Tame c d (placed s id alias? ts) := by
  refine (h.parensIf _).append (.choose ?_ .nil)
  split
  · exact s.aliasSuffix_apart _
  · exact .nil

theorem operand_apart (op : SetOperator) (first other : Nat) (h : Yields (Tame c d) inner) :
    Yields (Apart c d) (operand op first other inner) := by
  refine iteInduction (fun _ => .error _) fun _ => h.bind fun ts hts => .pure ?_
  have hop : Tame c d op.tokens := by
    cases op with
    | unionAll => exact (Apart.head _ (Apart.word _ .nil).tame).tame
    | _ => exact (Apart.word _ .nil).tame
  exact Apart.append (.space hop) (.space hts)

/-- A set operation is tame. -/
theorem compound_tame (e : Dialect) {base : Lowered} {operands orderBy : LoweredList}
    (unordered : Bool) (limit offset : Option UInt64) (hb : Yields (Tame c d) base)
    (ho : Yields (∀ ts ∈ ·, Apart c d ts) operands) (hord : Yields (AllTame c d) orderBy) :
    Yields (Tame c d) (compound e base operands orderBy unordered limit offset) :=
  hb.bind fun _ hb => ho.bind fun _ hl => (listClause_apart _ hord).bind fun _ hord =>
    .pure (((hb.append (.flatten hl)).append hord).append (windowClause_apart _ _ _ _))

theorem isWord_words (kind : JoinKind) : ∀ words ∈ kind.words?, Text.isWord words = true := by
  cases kind <;> decide

theorem join_tame {source : Lowered} (kind : JoinKind) (hs : Yields (Tame c d) source)
    (hc : Yields (Apart c d) condition) : Yields (Tame c d) (join kind source condition) := by
  refine hs.bind fun source hs => hc.bind fun on hon => .pure (Tame.append ?_ hon)
  have hjoin : Apart c d (.word .JOIN :: .space :: source) := .head _ hs
  split
  · next words hwords =>
    exact (Apart.raw (isWord_words kind words hwords) (Apart.space hjoin.tame).tame).tame
  · exact hjoin.tame

end Statement

end SqlScribe
