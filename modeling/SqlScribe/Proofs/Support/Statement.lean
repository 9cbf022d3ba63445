import SqlScribe.Lowering.Statement
import SqlScribe.Proofs.Support.Clause
/-! # Constructs in statements

Statements whose parts show only what the dialect has do so too. Every clause that only some
dialects have is looked up in the profile before it is written.

* `QueryParts.Fit`: the parts of a query show only what the dialect has.
* `Statement.whole_fits`, `Statement.compound_fits`: so do the query and a set operation.
* `Tokens.Ends`: what such tokens begin, they complete, so that a whole statement may follow
  them. -/

namespace SqlScribe

open Tokens

variable {d : Dialect}

namespace Tokens

/-- Whatever fits may follow the tokens, also a statement that begins with its update. -/
def Ends (d : Dialect) (ts : Tokens) : Prop := ∀ rest, Fits d rest → Fits d (ts ++ rest)

variable {ts us : Tokens}

theorem Trails.ends (h : Trails d ts) {t : Token} (ht : t.isNeutral = true) :
    Ends d (ts ++ [t]) := by
  intro rest hrest
  rw [List.append_assoc]
  exact h.fits.append (.cons ht hrest)

theorem Ends.append (h : Ends d ts) (h' : Ends d us) : Ends d (ts ++ us) := by
  intro rest hrest
  rw [List.append_assoc]
  exact h _ (h' _ hrest)

theorem Ends.cons {t : Token} (ht : t.isNeutral = true) (h : Ends d ts) : Ends d (t :: ts) :=
  fun rest hrest => (Trails.cons ht (h rest hrest)).fits

theorem Ends.space (h : Ends d ts) : Ends d (.space :: ts) :=
  fun rest hrest => (h rest hrest).space

theorem Ends.nil : Ends d [] := fun _ h => h

/-- Tables by name: no more than one of them has no comma behind it. -/
theorem Ends.listed {l : List Tokens} (hl : ∀ ts ∈ l, Ends d ts) : Ends d (listed l) := by
  induction l with
  | nil => exact .nil
  | cons ts l ih =>
    have hts := hl ts List.mem_cons_self
    cases l with
    | nil => exact hts
    | cons us l =>
      exact hts.append (.cons rfl (ih fun vs hvs => hl vs (List.mem_cons_of_mem _ hvs)))

end Tokens

theorem Scope.aliasSuffix_trails (s : Scope) (name : String) : Trails d (s.aliasSuffix name) := by
  unfold aliasSuffix
  split
  · exact .blank (.word rfl (Trails.one rfl).fits)
  · exact .blank (.one rfl)

theorem Table.tokens_trails (s : Scope) (t : Table) : Trails d (t.tokens s) := by
  refine .append (.flatMap fun part _ => ?_) (.cons rfl (Trails.fits ?_))
  · exact .cons rfl (Trails.one rfl).fits
  · cases t.alias? with
    | none => exact .nil
    | some name => exact s.aliasSuffix_trails name

theorem Dialect.window_trails (e : Dialect) (limit offset : Option UInt64) :
    Trails d (e.window limit offset) := by
  have hlimit : ∀ {t : Token}, Trails d [t] → Trails d (PaginationStyle.limitClause t) :=
    fun ht => .blank (.word rfl ht.fits)
  have hoffset : ∀ {t : Token}, Trails d [t] → Trails d (PaginationStyle.offsetClause t) :=
    fun ht => .blank (.word rfl ht.fits)
  have hrows : ∀ {t : Token}, Trails d [t] → Trails d (PaginationStyle.offsetRows t) :=
    fun ht => (hoffset ht).append (.blank (.one rfl))
  have hfetch : ∀ {t : Token}, Trails d [t] → Trails d (PaginationStyle.fetchNext t) :=
    fun ht => .blank (.word rfl (Trails.word rfl
      (ht.append (.blank (.word rfl (Trails.one rfl).fits))).fits).fits)
  have hclause : ∀ {write : Token → Tokens} (n : Option UInt64),
      (∀ {t : Token}, Trails d [t] → Trails d (write t)) →
      Trails d (PaginationStyle.clause write n) := by
    intro write n h
    cases n with
    | none => exact .nil
    | some n => exact h (.one rfl)
  unfold Dialect.window PaginationStyle.window
  split
  · exact (hclause _ hlimit).append (hclause _ hoffset)
  · split
    · exact (hlimit (.raw _)).append (hoffset (.one rfl))
    · exact (hclause _ hlimit).append (hclause _ hoffset)
  · exact .nil
  · exact (hrows (.one rfl)).append (hclause _ hfetch)
  · exact (hclause _ hrows).append (hclause _ hfetch)

/-- The parts of a query show only what the dialect has. -/
structure QueryParts.Fit (d : Dialect) (p : QueryParts) : Prop where
  commonTables : Yields (∀ ts ∈ ·, Ends d ts) p.commonTables
  sources : Yields (AllTrail d) p.sources
  selects : Yields (AllTrail d) p.selects
  distinctOn : Yields (AllTrail d) p.distinctOn
  joins : Yields (AllTrail d) p.joins
  filter : Yields (Trails d) p.filter
  groupBy : Yields (AllTrail d) p.groupBy
  having : Yields (Trails d) p.having
  orderBy : Yields (AllTrail d) p.orderBy
  columns : Yields (AllTrail d) p.columns
  rows : Yields (AllTrail d) p.rows
  conflict : Yields (Trails d) p.conflict
  duplicateUpdates : Yields (AllTrail d) p.duplicateUpdates
  assignments : Yields (AllTrail d) p.assignments
  returning : Yields (AllTrail d) p.returning

namespace Statement

variable {items : LoweredList} {condition inner : Lowered}

/-! ## Clauses of selections -/

theorem listClause_trails {k : Keyword} (hk : (Token.word k).isNeutral = true)
    (h : Yields (AllTrail d) items) : Yields (Trails d) (listClause k items) := by
  refine h.bind fun l hl => ?_
  cases l with
  | nil => exact .ok .nil
  | cons ts l => exact .ok (.blank (.word hk (Trails.listed hl).fits))

theorem conditionClause_trails {k : Keyword} (hk : (Token.word k).isNeutral = true)
    (isEmpty : Bool) (h : Yields (Trails d) condition) :
    Yields (Trails d) (conditionClause k isEmpty condition) := by
  cases isEmpty with
  | true => exact .ok .nil
  | false => exact h.bind fun c hc => .pure (.blank (.word hk hc.fits))

theorem commonTable_ends (name : String) (columns : List String) (h : Yields (Fits d) inner) :
    Yields (Ends d) (commonTable name columns inner) := by
  refine h.bind fun b hb => .pure ?_
  have hcolumns : Trails d
      (if columns.isEmpty then [] else .space :: parens (Tokens.idents columns)) := by
    split
    · exact .nil
    · exact .blank (.parens (Trails.idents columns).fits)
  have hhead : Trails d (.ident name ::
      (if columns.isEmpty then [] else .space :: parens (Tokens.idents columns))
        ++ spaced (.word .AS)) :=
    Trails.append (.cons rfl hcolumns.fits) (.spaced rfl)
  intro rest hrest
  -- The closing parenthesis keeps the body and what follows the table apart.
  have hbody : Trails d (.mark .openParen :: (b ++ .mark .closeParen :: rest)) :=
    .cons rfl (hb.append (.cons rfl hrest))
  have hall := hhead.fits.append hbody
  simpa [parens] using hall

theorem withClause_ends (recursive : Bool) (h : Yields (∀ ts ∈ ·, Ends d ts) items) :
    Yields (Ends d) (withClause d recursive items) := by
  refine h.bind fun l hl => ?_
  cases l with
  | nil => exact .ok .nil
  | cons ts l =>
    refine .ok (.append (.append (.cons rfl (.space ?_)) (.listed hl)) (.space .nil))
    split
    · exact .cons rfl (.space .nil)
    · exact .nil

theorem distinctClause_trails (distinct isEmpty : Bool) (h : Yields (AllTrail d) items) :
    Yields (Trails d) (distinctClause d distinct isEmpty items) := by
  refine iteInduction (fun _ => .ok ?_) fun _ => iteInduction (fun hd => ?_) fun _ => .error _
  · cases distinct with
    | false => exact .nil
    | true => exact .word' (by decide) ⟨[], rfl, nofun⟩ (.space .nil)
  · refine h.bind fun l hl => .pure (Trails.append ?_ (.blank .nil))
    exact .word' (by decide) ⟨_, rfl, fun _ => hd⟩
      (.space (.on (Trails.parens (Trails.listed hl).fits).fits))

theorem topClause_trails (top : Option Top) : Yields (Trails d) (topClause d top) := by
  cases top with
  | none => exact .ok .nil
  | some t =>
    refine iteInduction (fun hd => .ok ?_) fun _ => .error _
    have hpercent : Trails d (if t.percent then [.word .PERCENT, .space] else []) := by
      split
      · exact .word rfl .nil
      · exact .nil
    have hties : Trails d (if t.withTies then [.raw "WITH TIES", .space] else []) := by
      split
      · exact .raw_cons _ (.blank .nil)
      · exact .nil
    have hcount : Trails d (parens [countToken t.count]) := .parens (Trails.one rfl).fits
    exact .append (.append (.word' (by decide) hd (.space hcount.fits)) hpercent.blank) hties

theorem selectClause_trails {q : Query} {p : QueryParts} (h : p.Fit d) :
    Yields (Trails d) (selectClause d q p) :=
  (distinctClause_trails _ _ h.distinctOn).bind fun _ hd =>
    (topClause_trails _).bind fun _ ht => h.selects.bind fun _ hl =>
      .pure (.append (.append (.word rfl hd.fits) ht) (.listed hl))

theorem joinClauses_trails (h : Yields (AllTrail d) items) :
    Yields (Trails d) (joinClauses items) :=
  h.bind fun _ hl => .pure (.flatMap fun ts hts => (hl ts hts).blank)

theorem groupClause_trails (withRollup : Bool) (h : Yields (AllTrail d) items) :
    Yields (Trails d) (groupClause withRollup items) := by
  refine h.bind fun l hl => ?_
  cases l with
  | nil => exact .ok .nil
  | cons ts l =>
    refine .ok (Trails.append (.blank (.word rfl (Trails.listed hl).fits)) ?_)
    split
    · exact .blank (.word rfl (Trails.raw _).fits)
    · exact .nil

theorem windowClause_trails (e : Dialect) (unordered : Bool) (limit offset : Option UInt64) :
    Trails d (windowClause e unordered limit offset) := by
  refine .append ?_ (Dialect.window_trails e _ _)
  split
  · exact .blank (.word rfl (Trails.raw _).fits)
  · exact .nil

theorem lockClause_trails (s : Scope) (lock : Option Lock) :
    Yields (Trails s.dialect) (lockClause s lock) := by
  cases lock with
  | none => exact .ok .nil
  | some lock =>
    refine iteInduction (fun hd => ?_) fun _ => .error _
    refine .ok (.append (.blank (.word' (by decide) hd (.space (.update ?_)))) ?_)
    · refine Trails.fits ?_
      split
      · exact .nil
      · exact .append (.blank (.raw_cons _ (.blank (Table.tokens_trails s _))))
          (.flatMap fun t _ => .cons rfl (.space (t.tokens_trails s).fits))
    · split
      · exact .nil
      · exact .blank (.raw _)
      · exact .blank (.raw _)

theorem selectTail_trails {q : Query} {p : QueryParts} (s : Scope) (h : p.Fit s.dialect) :
    Yields (Trails s.dialect) (selectTail s q p) :=
  (listClause_trails rfl h.sources).bind fun _ hs => (joinClauses_trails h.joins).bind fun _ hj =>
    (conditionClause_trails rfl _ h.filter).bind fun _ hf =>
      (groupClause_trails _ h.groupBy).bind fun _ hg =>
        (conditionClause_trails rfl _ h.having).bind fun _ hh =>
          (listClause_trails rfl h.orderBy).bind fun _ ho =>
            (lockClause_trails s _).bind fun _ hl =>
              .pure (((((((hs.append hj).append hf).append hg).append hh).append ho).append
                (windowClause_trails _ _ _ _)).append hl)

theorem selection_trails {q : Query} {p : QueryParts} (s : Scope) (h : p.Fit s.dialect)
    (target : Option Table) : Yields (Trails s.dialect) (selection s q p target) := by
  refine (selectClause_trails h).bind fun select hselect => (selectTail_trails s h).bind
    fun tail htail => .pure (Trails.append (.append hselect ?_) htail)
  cases target with
  | none => exact .nil
  | some t => exact .blank (.word rfl (t.tokens_trails s).fits)

/-! ## Changes of rows -/

theorem insertHead_trails (mode : InsertMode) : Yields (Trails d) (insertHead d mode) := by
  have hinto : Trails d [.space, .word .INTO] := .blank (.one rfl)
  cases mode with
  | insert => exact .ok (.word' (by decide) (.inl ⟨[], rfl⟩) hinto.fits)
  | ignore =>
    rw [insertHead]
    split
    · next words hwords =>
      refine .ok (.word' (by decide) (.inr (.inl ⟨words, _, rfl, ?_⟩)) ?_)
      · exact decide_eq_true hwords
      · exact (Trails.blank (.raw_cons _ hinto)).fits
    · exact .error _
  | replace =>
    refine iteInduction (fun hd => ?_) fun _ => .error _
    exact .ok (.word' (by decide) hd hinto.fits)
  | insertOrReplace =>
    refine iteInduction (fun hd => ?_) fun _ => .error _
    have hreplace : Trails d [.word .REPLACE, .space, .word .INTO] :=
      .word' (by decide) (Dialect.has_replace hd) hinto.fits
    exact .ok (.word' (by decide) (.inr (.inr ⟨_, rfl, hd⟩))
      (Trails.blank (.word rfl hreplace.fits)).fits)

theorem assignment_trails {column value : Lowered} (hc : Yields (Trails d) column)
    (hv : Yields (Trails d) value) : Yields (Trails d) (assignment column value) :=
  hc.bind fun _ hc => hv.bind fun _ hv => .pure (hc.append (.cons rfl hv.fits))

theorem whereClause_trails (isEmpty : Bool) (h : Yields (Trails d) condition) :
    Yields (Trails d) (whereClause isEmpty condition) := by
  cases isEmpty with
  | true => exact .ok .nil
  | false => exact h.bind fun c hc => .pure (.keyword rfl hc)

theorem conflictTargets_trails {l : List Tokens} (hl : AllTrail d l) :
    Trails d (conflictTargets l) := by
  cases l with
  | nil => exact .nil
  | cons ts l =>
    refine .blank (.parens (Trails.append (hl ts List.mem_cons_self) ?_).fits)
    exact .flatMap fun us hus => .cons rfl (hl us (List.mem_cons_of_mem _ hus)).fits.space

/-- The parts of a conflict clause show only what the dialect has. -/
structure ConflictParts.Fit (d : Dialect) (p : ConflictParts) : Prop where
  targets : Yields (AllTrail d) p.targets
  targetFilter : Yields (Trails d) p.targetFilter
  assignments : Yields (AllTrail d) p.assignments
  updateFilter : Yields (Trails d) p.updateFilter

theorem conflictHandler_trails {p : ConflictParts} (h : p.Fit d) (c : Conflict)
    (handler : ConflictHandler) : Yields (Trails d) (conflictHandler c p handler) := by
  cases handler with
  | nothing => exact .ok (.keyword rfl (.one rfl))
  | update =>
    refine iteInduction (fun _ => .error _) fun _ => ?_
    refine h.assignments.bind fun l hl => (whereClause_trails _ h.updateFilter).bind fun w hw =>
      .pure (Trails.append ?_ hw)
    -- The update stands behind a keyword of its own and a blank.
    exact .blank (.word rfl (.update (Trails.blank (.word rfl (Trails.listed hl).fits)).fits))

theorem conflictClause_trails {p : ConflictParts} (h : p.Fit d) (c : Conflict) :
    Yields (Trails d) (conflictClause d c p) := by
  refine iteInduction (fun _ => .error _) fun hd => ?_
  split
  · exact iteInduction (fun _ => .ok .nil) fun _ => .error _
  · refine h.targets.bind fun l hl => (whereClause_trails _ h.targetFilter).bind fun w hw =>
      (conflictHandler_trails h c _).bind fun t ht => .pure (Trails.append (.append ?_ hw) ht)
    have hconflict : Trails d (.word .CONFLICT :: conflictTargets l) :=
      .word' (by decide) (decide_eq_true (Decidable.not_not.mp hd))
        (conflictTargets_trails hl).fits
    exact .space (.on hconflict.blank.fits) nofun

theorem duplicateClause_trails (isEmpty : Bool) (h : Yields (AllTrail d) items) :
    Yields (Trails d) (duplicateClause d isEmpty items) := by
  refine iteInduction (fun _ => .ok .nil) fun _ =>
    iteInduction (fun _ => .error _) fun hd => h.bind fun l hl => .pure ?_
  have hupdate : Fits d (.space :: .word .UPDATE :: .space :: listed l) :=
    .space (.update (Trails.listed hl).blank.fits)
  have hkey : Fits d (.raw "DUPLICATE KEY" :: .space :: .word .UPDATE :: .space :: listed l) :=
    .cons (fun _ => decide_eq_true (Decidable.not_not.mp hd)) hupdate
  exact .space (.on hkey.space) nofun

theorem returningClause_trails {q : Query} (h : Yields (AllTrail d) items) :
    Yields (Trails d) (returningClause d q items) := by
  refine iteInduction (fun _ => .ok .nil) fun _ => iteInduction (fun hd => ?_) fun _ => .error _
  split
  · exact .error _
  · exact h.bind fun l hl => .pure
      (.blank (.word' (by decide) hd (Trails.listed hl).blank.fits))

theorem columnClause_trails (h : Yields (AllTrail d) items) :
    Yields (Trails d) (columnClause items) := by
  refine h.bind fun l hl => ?_
  cases l with
  | nil => exact .ok .nil
  | cons ts l => exact .ok (.blank (.parens (Trails.listed hl).fits))

theorem addedRows_trails {q : Query} {p : QueryParts} (s : Scope) (h : p.Fit s.dialect) :
    Yields (Trails s.dialect) (addedRows s q p) := by
  refine iteInduction (fun _ => ?_) fun _ => listClause_trails rfl h.rows
  exact (selectClause_trails h).bind fun select hselect => (selectTail_trails s h).bind
    fun tail htail => .pure (.append hselect.blank htail)

theorem insertion_trails {q : Query} {p : QueryParts} (s : Scope) (h : p.Fit s.dialect)
    (target : Table) : Yields (Trails s.dialect) (insertion s q p target) :=
  (insertHead_trails _).bind fun _ hh => (columnClause_trails h.columns).bind fun _ hc =>
    (addedRows_trails s h).bind fun _ ha => h.conflict.bind fun _ hf =>
      (duplicateClause_trails _ h.duplicateUpdates).bind fun _ hd =>
        (returningClause_trails h.returning).bind fun _ hr =>
          .pure ((((((hh.append (target.tokens_trails s).blank).append hc).append ha).append
            hf).append hd).append hr)

theorem changeTail_trails {q : Query} {p : QueryParts} (s : Scope) (h : p.Fit s.dialect) :
    Yields (Trails s.dialect) (changeTail s q p) := by
  refine (conditionClause_trails rfl _ h.filter).bind fun _ hf =>
    (listClause_trails rfl h.orderBy).bind fun _ ho =>
      (returningClause_trails h.returning).bind fun _ hr =>
        .pure (Trails.append (.append (hf.append ho) ?_) hr)
  cases q.info.limit with
  | none => exact .nil
  | some n => exact .blank (.word rfl (Trails.one rfl).fits)

/-- An update begins with its keyword and may not stand behind other tokens as it is. -/
theorem update_fits {q : Query} {p : QueryParts} (s : Scope) (h : p.Fit s.dialect)
    (target : Table) : Yields (Fits s.dialect) (update s q p target) :=
  (joinClauses_trails h.joins).bind fun _ hj => h.assignments.bind fun _ ha =>
    (listClause_trails rfl h.sources).bind fun _ hs => (changeTail_trails s h).bind fun _ ht =>
      .pure (.append (.append (.append (.append (.append
        (.update (target.tokens_trails s).fits.space) hj) (.spaced rfl)) (.listed ha)) hs) ht)

theorem usingClause_trails (s : Scope) (tables : List Table) :
    Trails d (usingClause s tables) := by
  cases tables with
  | nil => exact .nil
  | cons t ts =>
    refine .keyword rfl (.listed fun us hus => ?_)
    obtain ⟨u, -, rfl⟩ := List.mem_map.mp hus
    exact u.tokens_trails s

theorem deletion_trails {q : Query} {p : QueryParts} (s : Scope) (h : p.Fit s.dialect) :
    Yields (Trails s.dialect) (deletion s q p) :=
  (listClause_trails rfl h.sources).bind fun _ hs => (joinClauses_trails h.joins).bind fun _ hj =>
    (changeTail_trails s h).bind fun _ ht =>
      .pure (.append (.append (.append (.cons rfl hs.fits) (usingClause_trails s _)) hj) ht)

/-! ## Whole statements -/

theorem body_fits {q : Query} {p : QueryParts} (s : Scope) (h : p.Fit s.dialect) :
    Yields (Fits s.dialect) (body s q p) := by
  unfold body
  split
  · exact (selection_trails s h _).mono fun _ h => h.fits
  · exact (selection_trails s h _).mono fun _ h => h.fits
  · exact (insertion_trails s h _).mono fun _ h => h.fits
  · exact update_fits s h _
  · exact (deletion_trails s h).mono fun _ h => h.fits

/-- A query shows only what the dialect has. -/
theorem whole_fits {q : Query} {p : QueryParts} (s : Scope) (h : p.Fit s.dialect) :
    Yields (Fits s.dialect) (whole s q p) :=
  (withClause_ends _ h.commonTables).bind fun _ hw => (body_fits s h).bind fun _ hb =>
    .pure (hw _ hb)

/-- A statement in its place fits, and may stand behind other tokens if it is nested. -/
theorem placed_fits {ts : Tokens} (s : Scope) (id : SourceId) (alias? : Option String)
    (h : Fits d ts) :
    Fits d (placed s id alias? ts) ∧ (s.nested = true → Trails d (placed s id alias? ts)) := by
  obtain ⟨suffix, hplaced, hsuffix⟩ :
      ∃ suffix, placed s id alias? ts = parensIf s.nested ts ++ suffix ∧ Trails d suffix := by
    refine ⟨_, rfl, ?_⟩
    split
    · split
      · exact s.aliasSuffix_trails _
      · exact .nil
    · exact .nil
  have hbody : Fits d (parensIf s.nested ts) ∧
      (s.nested = true → Trails d (parensIf s.nested ts)) := by
    cases s.nested with
    | false => exact ⟨h, fun hnested => absurd hnested Bool.false_ne_true⟩
    | true => exact ⟨(Trails.parens h).fits, fun _ => .parens h⟩
  rw [hplaced]
  exact ⟨hbody.1.append hsuffix, fun hnested => (hbody.2 hnested).append hsuffix⟩

theorem operand_trails (op : SetOperator) (first other : Nat) (h : Yields (Fits d) inner) :
    Yields (Trails d) (operand op first other inner) := by
  refine iteInduction (fun _ => .error _) fun _ => h.bind fun ts hts => .pure ?_
  cases op with
  | unionAll => exact .blank (.word rfl (Trails.word rfl hts).fits)
  | _ => exact .blank (.word rfl hts)

/-- A set operation shows only what the dialect has. -/
theorem compound_fits {base : Lowered} {operands orderBy : LoweredList} (unordered : Bool)
    (limit offset : Option UInt64) (hb : Yields (Fits d) base)
    (ho : Yields (AllTrail d) operands) (hord : Yields (AllTrail d) orderBy) :
    Yields (Fits d) (compound d base operands orderBy unordered limit offset) :=
  hb.bind fun _ hb => ho.bind fun _ hl => (listClause_trails rfl hord).bind fun _ hord =>
    .pure (((hb.append (.flatten hl)).append hord).append (windowClause_trails _ _ _ _))

theorem join_trails {source : Lowered} (kind : JoinKind) (hs : Yields (Trails d) source)
    (hc : Yields (Trails d) condition) : Yields (Trails d) (join kind source condition) := by
  refine hs.bind fun source hs => hc.bind fun c hc => .pure ?_
  refine Trails.append (.append ?_ (.word rfl hs.fits)) hc
  split
  · exact .raw_cons _ (.blank .nil)
  · exact .nil

end Statement

end SqlScribe
