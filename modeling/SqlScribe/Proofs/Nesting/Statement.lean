import SqlScribe.Lowering.Statement
import SqlScribe.Proofs.Nesting.Clause
/-! # Brackets of statements

Statements whose parts have fitting brackets have fitting brackets, and a statement shows a word
that only statements have.

* `QueryParts.Nest`: the parts of a query have fitting brackets.
* `Statement.whole_states`, `Statement.compound_states`: so have the query and a set operation.
* `Statement.Placed`: a query in its place, or none. -/

namespace SqlScribe

open Tokens

/-- The word tells that a query or set operation is read, and not an expression. -/
def Token.isQueryWord : Token → Bool
  | .word .SELECT => true
  | .word .INSERT => true
  | .word .REPLACE => true
  | .word .UPDATE => true
  | .word .DELETE => true
  | .word .UNION => true
  | .word .INTERSECT => true
  | .word .EXCEPT => true
  | .word .MINUS => true
  | _ => false

/-- The token stands in the clauses that a selection has behind its select list, outside their
brackets, apart from terms and conditions and from the order and the row window. -/
def Token.inClause : Token → Bool
  | .ident _ => true
  | .aliasName _ => true
  | .raw _ => true
  | .mark .dot => true
  | .mark .comma => true
  | .word .AS => true
  | .word .FROM => true
  | .word .JOIN => true
  | .word .ON => true
  | .word .USING => true
  | .word .WHERE => true
  | .word .GROUP_BY => true
  | .word .WITH => true
  | .word .HAVING => true
  | .word .ASC => true
  | .word .DESC => true
  | .word .FOR => true
  | .word .UPDATE => true
  | _ => false

namespace Tokens

/-- The brackets of the tokens fit, and outside them stands a word of a statement. -/
abbrev States (ts : Tokens) : Prop := Bears (fun _ => True) (fun t => t.isQueryWord = true) ts

theorem Shows.word {k : Keyword} {ts : Tokens} (hk : (Token.word k).role = .plain)
    (h : Nests ts) : Nests (.word k :: .space :: ts) :=
  .cons hk trivial h.blank

theorem Shows.words {k : Keyword} (hk : (Token.word k).role = .plain) :
    Nests [.word k, .space] :=
  .word hk .nil

theorem Shows.raw (text : String) : Nests [.raw text] := .cons rfl trivial .nil

theorem idents_nests (names : List String) : Nests (idents names) := by
  refine .listed (fun ts hts => ?_) trivial
  obtain ⟨name, -, rfl⟩ := List.mem_map.mp hts
  exact .cons rfl trivial .nil

theorem direction_shows {p : Token → Prop} (hp : ∀ t : Token, t.inClause = true → p t)
    (order : Option SortOrder) : Shows p (direction order) := by
  cases order with
  | none => exact .nil
  | some order => exact .blank (.cons (by cases order <;> rfl) (hp _ (by cases order <;> rfl)) .nil)

theorem direction_nests (order : Option SortOrder) : Nests (direction order) :=
  direction_shows (fun _ _ => trivial) order

/-- Each of some tokens after a blank. -/
theorem flatMap_shows {p : Token → Prop} {α : Type} {l : List α} {g : α → Tokens}
    (h : ∀ a ∈ l, Shows p (g a)) : Shows p (l.flatMap g) := by
  rw [List.flatMap_def]
  refine .flatten fun ts hts => ?_
  obtain ⟨a, ha, rfl⟩ := List.mem_map.mp hts
  exact h a ha

end Tokens

section Table

variable {p : Token → Prop} (hp : ∀ t : Token, t.inClause = true → p t)

include hp

theorem Scope.aliasSuffix_shows (s : Scope) (name : String) : Shows p (s.aliasSuffix name) := by
  have hname : Shows p [.aliasName name] := .cons rfl (hp _ rfl) .nil
  unfold aliasSuffix
  split
  · exact .blank (.cons rfl (hp _ rfl) hname.blank)
  · exact .blank hname

theorem Table.tokens_shows (s : Scope) (t : Table) : Shows p (t.tokens s) := by
  refine .append (flatMap_shows fun part _ => ?_) (.cons rfl (hp _ rfl) ?_)
  · exact .cons rfl (hp _ rfl) (.cons rfl (hp _ rfl) .nil)
  · cases t.alias? with
    | none => exact .nil
    | some name => exact s.aliasSuffix_shows hp name

end Table

theorem Scope.aliasSuffix_nests (s : Scope) (name : String) : Nests (s.aliasSuffix name) :=
  s.aliasSuffix_shows (fun _ _ => trivial) name

theorem Table.tokens_nests (s : Scope) (t : Table) : Nests (t.tokens s) :=
  t.tokens_shows (fun _ _ => trivial) s

/-- The brackets of the clauses of a limit and an offset fit. -/
theorem Dialect.window_nests (d : Dialect) (limit offset : Option UInt64) :
    Nests (d.window limit offset) := by
  have hlimit : ∀ t : Token, t.role = .plain → Nests (PaginationStyle.limitClause t) :=
    fun t ht => .blank (.word rfl (.cons ht trivial .nil))
  have hoffset : ∀ t : Token, t.role = .plain → Nests (PaginationStyle.offsetClause t) :=
    fun t ht => .blank (.word rfl (.cons ht trivial .nil))
  have hrows : ∀ t : Token, t.role = .plain → Nests (PaginationStyle.offsetRows t) :=
    fun t ht => (hoffset t ht).append (.blank (.cons rfl trivial .nil))
  have hfetch : ∀ t : Token, t.role = .plain → Nests (PaginationStyle.fetchNext t) :=
    fun t ht => .blank (.word rfl (.word rfl (.cons ht trivial
      (.blank (.word rfl (.cons rfl trivial .nil))))))
  have hclause : ∀ {write : Token → Tokens} (n : Option UInt64),
      (∀ t : Token, t.role = .plain → Nests (write t)) →
      Nests (PaginationStyle.clause write n) := by
    intro write n h
    cases n with
    | none => exact .nil
    | some n => exact h _ rfl
  unfold Dialect.window PaginationStyle.window
  split
  · exact (hclause _ hlimit).append (hclause _ hoffset)
  · split
    · exact (hlimit _ rfl).append (hoffset _ rfl)
    · exact (hclause _ hlimit).append (hclause _ hoffset)
  · exact .nil
  · exact (hrows _ rfl).append (hclause _ hfetch)
  · exact (hclause _ hrows).append (hclause _ hfetch)

/-- The brackets of the parts of a query fit. -/
structure QueryParts.Nest (p : QueryParts) : Prop where
  commonTables : Yields AllNest p.commonTables
  sources : Yields AllNest p.sources
  selects : Yields AllNest p.selects
  distinctOn : Yields AllNest p.distinctOn
  joins : Yields AllNest p.joins
  filter : Yields Nests p.filter
  groupBy : Yields AllNest p.groupBy
  having : Yields Nests p.having
  orderBy : Yields AllNest p.orderBy
  columns : Yields AllNest p.columns
  rows : Yields AllNest p.rows
  conflict : Yields Nests p.conflict
  duplicateUpdates : Yields AllNest p.duplicateUpdates
  assignments : Yields AllNest p.assignments
  returning : Yields AllNest p.returning

namespace Statement

variable {items : LoweredList} {condition inner : Lowered}

/-! ## Clauses of selections -/

/-! ### Behind the select list

In this section the tokens of clauses have the property `p`, and so do the tokens outside the
brackets of their parts. -/

section Tail

variable {p : Token → Prop} (hp : ∀ t : Token, t.inClause = true → p t)

theorem joinClauses_shows (h : Yields (∀ ts ∈ ·, Shows p ts) items) :
    Yields (Shows p) (joinClauses items) :=
  h.bind fun _ hl => .pure (flatMap_shows fun ts hts => (hl ts hts).blank)

theorem conditionClause_shows {k : Keyword} (hk : (Token.word k).role = .plain)
    (hword : p (.word k)) (isEmpty : Bool) (h : Yields (Shows p) condition) :
    Yields (Shows p) (conditionClause k isEmpty condition) := by
  cases isEmpty with
  | true => exact .ok .nil
  | false => exact h.bind fun c hc => .pure (.blank (.cons hk hword hc.blank))

include hp

theorem listClause_shows {k : Keyword} (hk : (Token.word k).role = .plain) (hword : p (.word k))
    (h : Yields (∀ ts ∈ ·, Shows p ts) items) : Yields (Shows p) (listClause k items) := by
  refine h.bind fun l hl => ?_
  cases l with
  | nil => exact .ok .nil
  | cons ts l => exact .ok (.blank (.cons hk hword (Shows.listed hl (hp _ rfl)).blank))

theorem groupClause_shows (withRollup : Bool) (h : Yields (∀ ts ∈ ·, Shows p ts) items) :
    Yields (Shows p) (groupClause withRollup items) := by
  refine h.bind fun l hl => ?_
  cases l with
  | nil => exact .ok .nil
  | cons ts l =>
    refine .ok (.append (.blank (.cons rfl (hp _ rfl) (Shows.listed hl (hp _ rfl)).blank)) ?_)
    split
    · exact .blank (.cons rfl (hp _ rfl) (.blank (.cons rfl (hp _ rfl) .nil)))
    · exact .nil

theorem lockClause_shows (s : Scope) (lock : Option Lock) :
    Yields (Shows p) (lockClause s lock) := by
  have hraw : ∀ text, Shows p [.raw text] := fun text => .cons rfl (hp _ rfl) .nil
  unfold lockClause
  split
  · exact .ok .nil
  · split
    · have hwords : Shows p [.space, .word .FOR, .space, .word .UPDATE] :=
        .blank (.cons rfl (hp _ rfl) (.blank (.cons rfl (hp _ rfl) .nil)))
      refine .ok (.append (.append hwords ?_) ?_)
      · split
        · exact .nil
        · exact .append (.blank (.cons rfl (hp _ rfl) (.blank (Table.tokens_shows hp s _))))
            (flatMap_shows fun t _ => .cons rfl (hp _ rfl) (.blank (t.tokens_shows hp s)))
      · split
        · exact .nil
        · exact .blank (hraw _)
        · exact .blank (hraw _)
    · exact .error _

theorem join_shows {source : Lowered} (kind : JoinKind) (hs : Yields (Shows p) source)
    (hc : Yields (Shows p) condition) : Yields (Shows p) (join kind source condition) := by
  refine hs.bind fun source hs => hc.bind fun c hc => .pure ?_
  refine .append (.append ?_ (.cons rfl (hp _ rfl) hs.blank)) hc
  split
  · exact .cons rfl (hp _ rfl) (.blank .nil)
  · exact .nil

end Tail

theorem listClause_nests {k : Keyword} (hk : (Token.word k).role = .plain)
    (h : Yields AllNest items) : Yields Nests (listClause k items) :=
  listClause_shows (fun _ _ => trivial) hk trivial h

theorem conditionClause_nests {k : Keyword} (hk : (Token.word k).role = .plain) (isEmpty : Bool)
    (h : Yields Nests condition) : Yields Nests (conditionClause k isEmpty condition) :=
  conditionClause_shows hk trivial isEmpty h

theorem commonTable_nests (name : String) (columns : List String) (h : Yields Nests inner) :
    Yields Nests (commonTable name columns inner) := by
  refine h.bind fun b hb => .pure (.append (.append (.cons rfl trivial ?_) ?_) hb.parens)
  · split
    · exact .nil
    · exact .blank (idents_nests columns).parens
  · exact .spaced rfl trivial

theorem withClause_nests (d : Dialect) (recursive : Bool) (h : Yields AllNest items) :
    Yields Nests (withClause d recursive items) := by
  refine h.bind fun l hl => ?_
  cases l with
  | nil => exact .ok .nil
  | cons ts l =>
    refine .ok (.append (.append (.word rfl ?_) (.listed hl trivial)) (.blank .nil))
    split
    · exact .words rfl
    · exact .nil

theorem distinctClause_nests (d : Dialect) (distinct isEmpty : Bool) (h : Yields AllNest items) :
    Yields Nests (distinctClause d distinct isEmpty items) := by
  unfold distinctClause
  split
  · refine .ok ?_
    split
    · exact .words rfl
    · exact .nil
  · split
    · exact h.bind fun l hl => .pure (.append
        (.word rfl (.cons rfl trivial (Shows.listed hl trivial).parens)) (.blank .nil))
    · exact .error _

theorem topClause_nests (d : Dialect) (top : Option Top) : Yields Nests (topClause d top) := by
  unfold topClause
  split
  · exact .ok .nil
  · split
    · refine .ok (.append (.append (.word rfl (Shows.parens (.cons rfl trivial .nil)))
        (.blank ?_)) ?_)
      · split
        · exact .words rfl
        · exact .nil
      · split
        · exact .cons rfl trivial (.blank .nil)
        · exact .nil
    · exact .error _

theorem selectClause_states {q : Query} {p : QueryParts} (d : Dialect) (h : p.Nest) :
    Yields States (selectClause d q p) :=
  (distinctClause_nests d _ _ h.distinctOn).bind fun _ hd =>
    (topClause_nests d _).bind fun _ ht => h.selects.bind fun _ hl =>
      .pure (.append_right (.append_right (.head rfl trivial rfl hd.blank) ht)
        (Shows.listed hl trivial))

theorem joinClauses_nests (h : Yields AllNest items) : Yields Nests (joinClauses items) :=
  joinClauses_shows h

theorem groupClause_nests (withRollup : Bool) (h : Yields AllNest items) :
    Yields Nests (groupClause withRollup items) :=
  groupClause_shows (fun _ _ => trivial) withRollup h

theorem windowClause_nests (d : Dialect) (unordered : Bool) (limit offset : Option UInt64) :
    Nests (windowClause d unordered limit offset) := by
  refine .append ?_ (d.window_nests _ _)
  split
  · exact .blank (.word rfl (.raw _))
  · exact .nil

theorem lockClause_nests (s : Scope) (lock : Option Lock) : Yields Nests (lockClause s lock) :=
  lockClause_shows (fun _ _ => trivial) s lock

theorem selectTail_nests {q : Query} {p : QueryParts} (s : Scope) (h : p.Nest) :
    Yields Nests (selectTail s q p) :=
  (listClause_nests rfl h.sources).bind fun _ hs => (joinClauses_nests h.joins).bind fun _ hj =>
    (conditionClause_nests rfl _ h.filter).bind fun _ hf =>
      (groupClause_nests _ h.groupBy).bind fun _ hg =>
        (conditionClause_nests rfl _ h.having).bind fun _ hh =>
          (listClause_nests rfl h.orderBy).bind fun _ ho =>
            (lockClause_nests s _).bind fun _ hl =>
              .pure (((((((hs.append hj).append hf).append hg).append hh).append ho).append
                (windowClause_nests _ _ _ _)).append hl)

theorem selection_states {q : Query} {p : QueryParts} (s : Scope) (h : p.Nest)
    (target : Option Table) : Yields States (selection s q p target) := by
  refine (selectClause_states _ h).bind fun select hselect => (selectTail_nests s h).bind
    fun tail htail => .pure (.append_right (.append_right hselect ?_) htail)
  cases target with
  | none => exact .nil
  | some t => exact .blank (.word rfl (t.tokens_nests s))

/-! ## Changes of rows -/

theorem insertHead_states (d : Dialect) (mode : InsertMode) : Yields States (insertHead d mode) := by
  have hinto : Nests [.space, .word .INTO] := .blank (.cons rfl trivial .nil)
  cases mode with
  | insert => exact .ok (.head rfl trivial rfl hinto)
  | ignore =>
    rw [insertHead]
    split
    · exact .ok (.head rfl trivial rfl (.blank (.cons rfl trivial hinto)))
    · exact .error _
  | replace =>
    refine iteInduction (fun _ => ?_) fun _ => .error _
    exact .ok (.head rfl trivial rfl hinto)
  | insertOrReplace =>
    refine iteInduction (fun _ => ?_) fun _ => .error _
    exact .ok (.head rfl trivial rfl (.blank (.word rfl (.cons rfl trivial hinto))))

theorem assignment_nests {column value : Lowered} (hc : Yields Nests column)
    (hv : Yields Nests value) : Yields Nests (assignment column value) :=
  hc.bind fun _ hc => hv.bind fun _ hv => .pure (hc.append (.cons rfl trivial hv))

theorem whereClause_nests (isEmpty : Bool) (h : Yields Nests condition) :
    Yields Nests (whereClause isEmpty condition) := by
  cases isEmpty with
  | true => exact .ok .nil
  | false => exact h.bind fun c hc => .pure (.append (.spaced rfl trivial) hc)

theorem conflictTargets_nests {l : List Tokens} (hl : AllNest l) : Nests (conflictTargets l) := by
  cases l with
  | nil => exact .nil
  | cons ts l =>
    refine .blank (Shows.parens (.append (hl ts (List.mem_cons_self ..)) ?_))
    exact flatMap_shows fun us hus => .cons rfl trivial (hl us (List.mem_cons_of_mem _ hus)).blank

/-- The brackets of the parts of a conflict clause fit. -/
structure ConflictParts.Nest (p : ConflictParts) : Prop where
  targets : Yields AllNest p.targets
  targetFilter : Yields Nests p.targetFilter
  assignments : Yields AllNest p.assignments
  updateFilter : Yields Nests p.updateFilter

theorem conflictHandler_nests {p : ConflictParts} (h : p.Nest) (c : Conflict)
    (handler : ConflictHandler) : Yields Nests (conflictHandler c p handler) := by
  cases handler with
  | nothing => exact .ok (.append (.spaced rfl trivial) (.cons rfl trivial .nil))
  | update =>
    refine iteInduction (fun _ => .error _) fun _ => ?_
    exact h.assignments.bind fun l hl => (whereClause_nests _ h.updateFilter).bind fun w hw =>
      .pure ((Shows.append (.spaced rfl trivial)
        (.word rfl (.word rfl (Shows.listed hl trivial)))).append hw)

theorem conflictClause_nests {p : ConflictParts} (d : Dialect) (h : p.Nest) (c : Conflict) :
    Yields Nests (conflictClause d c p) := by
  refine iteInduction (fun _ => .error _) fun _ => ?_
  split
  · exact iteInduction (fun _ => .ok .nil) fun _ => .error _
  · exact h.targets.bind fun l hl => (whereClause_nests _ h.targetFilter).bind fun w hw =>
      (conflictHandler_nests h c _).bind fun t ht =>
        .pure (((Shows.blank (.word rfl (.cons rfl trivial (conflictTargets_nests hl)))).append
          hw).append ht)

theorem duplicateClause_nests (d : Dialect) (isEmpty : Bool) (h : Yields AllNest items) :
    Yields Nests (duplicateClause d isEmpty items) := by
  refine iteInduction (fun _ => .ok .nil) fun _ => iteInduction (fun _ => .error _) fun _ => ?_
  exact h.bind fun l hl => .pure (.blank (.word rfl (.cons rfl trivial
    (.blank (.word rfl (.listed hl trivial))))))

theorem returningClause_nests {q : Query} (d : Dialect) (h : Yields AllNest items) :
    Yields Nests (returningClause d q items) := by
  refine iteInduction (fun _ => .ok .nil) fun _ => iteInduction (fun _ => ?_) fun _ => .error _
  split
  · exact .error _
  · exact h.bind fun l hl => .pure (.append (.spaced rfl trivial) (.listed hl trivial))

theorem columnClause_nests (h : Yields AllNest items) : Yields Nests (columnClause items) := by
  refine h.bind fun l hl => ?_
  cases l with
  | nil => exact .ok .nil
  | cons ts l => exact .ok (.blank (Shows.listed hl trivial).parens)

theorem addedRows_nests {q : Query} {p : QueryParts} (s : Scope) (h : p.Nest) :
    Yields Nests (addedRows s q p) := by
  refine iteInduction (fun _ => ?_) fun _ => listClause_nests rfl h.rows
  exact (selectClause_states _ h).bind fun select hselect => (selectTail_nests s h).bind
    fun tail htail => .pure (.append (.blank hselect.nests) htail)

theorem insertion_states {q : Query} {p : QueryParts} (s : Scope) (h : p.Nest) (target : Table) :
    Yields States (insertion s q p target) :=
  (insertHead_states _ _).bind fun _ hh => (columnClause_nests h.columns).bind fun _ hc =>
    (addedRows_nests s h).bind fun _ ha => h.conflict.bind fun _ hf =>
      (duplicateClause_nests _ _ h.duplicateUpdates).bind fun _ hd =>
        (returningClause_nests _ h.returning).bind fun _ hr =>
          .pure ((((((hh.append_right (target.tokens_nests s).blank).append_right hc).append_right
            ha).append_right hf).append_right hd).append_right hr)

theorem changeTail_nests {q : Query} {p : QueryParts} (s : Scope) (h : p.Nest) :
    Yields Nests (changeTail s q p) := by
  refine (conditionClause_nests rfl _ h.filter).bind fun _ hf =>
    (listClause_nests rfl h.orderBy).bind fun _ ho =>
      (returningClause_nests _ h.returning).bind fun _ hr =>
        .pure (((hf.append ho).append ?_).append hr)
  cases q.info.limit with
  | none => exact .nil
  | some n => exact .blank (.word rfl (.cons rfl trivial .nil))

theorem update_states {q : Query} {p : QueryParts} (s : Scope) (h : p.Nest) (target : Table) :
    Yields States (update s q p target) :=
  (joinClauses_nests h.joins).bind fun _ hj => h.assignments.bind fun _ ha =>
    (listClause_nests rfl h.sources).bind fun _ hs => (changeTail_nests s h).bind fun _ ht =>
      .pure (.append_right (.append_right (.append_right (.append_right (.append_right
        (.head rfl trivial rfl (target.tokens_nests s).blank) hj) (.spaced rfl trivial))
          (Shows.listed ha trivial)) hs) ht)

theorem usingClause_nests (s : Scope) (tables : List Table) : Nests (usingClause s tables) := by
  cases tables with
  | nil => exact .nil
  | cons t ts =>
    refine .append (.spaced rfl trivial) (.listed (fun us hus => ?_) trivial)
    obtain ⟨u, -, rfl⟩ := List.mem_map.mp hus
    exact u.tokens_nests s

theorem deletion_states {q : Query} {p : QueryParts} (s : Scope) (h : p.Nest) :
    Yields States (deletion s q p) :=
  (listClause_nests rfl h.sources).bind fun _ hs => (joinClauses_nests h.joins).bind fun _ hj =>
    (changeTail_nests s h).bind fun _ ht =>
      .pure (.append_right (.append_right (.append_right (.head rfl trivial rfl hs)
        (usingClause_nests s _)) hj) ht)

/-! ## Whole statements -/

theorem body_states {q : Query} {p : QueryParts} (s : Scope) (h : p.Nest) :
    Yields States (body s q p) := by
  unfold body
  split
  · exact selection_states s h _
  · exact selection_states s h _
  · exact insertion_states s h _
  · exact update_states s h _
  · exact deletion_states s h

/-- The brackets of a query fit, and it shows a word of a statement. -/
theorem whole_states {q : Query} {p : QueryParts} (s : Scope) (h : p.Nest) :
    Yields States (whole s q p) :=
  (withClause_nests _ _ h.commonTables).bind fun _ hw => (body_states s h).bind fun _ hb =>
    .pure (.append_left hw hb)

theorem placed_shows {p : Token → Prop} {ts : Tokens}
    (hp : ∀ t : Token, t.inClause = true → p t) (s : Scope) (id : SourceId)
    (alias? : Option String) (h : Shows p (parensIf s.nested ts)) :
    Shows p (placed s id alias? ts) := by
  refine .append h ?_
  split
  · split
    · exact s.aliasSuffix_shows hp _
    · exact .nil
  · exact .nil

theorem placed_nests {ts : Tokens} (s : Scope) (id : SourceId) (alias? : Option String)
    (h : Nests ts) : Nests (placed s id alias? ts) :=
  placed_shows (fun _ _ => trivial) s id alias? (h.parensIf _)

theorem operand_states (op : SetOperator) (first other : Nat) (h : Yields Nests inner) :
    Yields States (operand op first other inner) := by
  refine iteInduction (fun _ => .error _) fun _ => h.bind fun ts hts => .pure ?_
  cases op with
  | union => exact .append_right (.blank (.head rfl trivial rfl .nil)) hts.blank
  | unionAll =>
    exact .append_right (.blank (.head rfl trivial rfl (.blank (.cons rfl trivial .nil))))
      hts.blank
  | intersect => exact .append_right (.blank (.head rfl trivial rfl .nil)) hts.blank
  | except => exact .append_right (.blank (.head rfl trivial rfl .nil)) hts.blank
  | minus => exact .append_right (.blank (.head rfl trivial rfl .nil)) hts.blank

/-- A statement in its place, or no tokens where there is not yet enough to write. -/
def Placed (s : Scope) (id : SourceId) (alias? : Option String) (isBlank : Bool)
    (p : Tokens → Prop) (ts : Tokens) : Prop :=
  isBlank = true ∧ ts = [] ∨ isBlank = false ∧ ∃ inner, p inner ∧ ts = placed s id alias? inner

theorem Placed.mono {s : Scope} {id : SourceId} {alias? : Option String} {isBlank : Bool}
    {p q : Tokens → Prop} {ts : Tokens} (h : Placed s id alias? isBlank p ts)
    (hpq : ∀ inner, p inner → q inner) : Placed s id alias? isBlank q ts := by
  rcases h with ⟨hblank, hts⟩ | ⟨hblank, inner, hinner, hts⟩
  · exact .inl ⟨hblank, hts⟩
  · exact .inr ⟨hblank, inner, hpq inner hinner, hts⟩

theorem Placed.nests {s : Scope} {id : SourceId} {alias? : Option String} {isBlank : Bool}
    {p : Tokens → Prop} {ts : Tokens} (h : Placed s id alias? isBlank p ts)
    (hp : ∀ inner, p inner → Nests inner) : Nests ts := by
  rcases h with ⟨-, rfl⟩ | ⟨-, inner, hinner, rfl⟩
  · exact .nil
  · exact placed_nests s id alias? (hp inner hinner)

/-- The brackets of a set operation fit, and with an operand it shows a word of a statement. -/
theorem compound_states {base : Lowered} {operands orderBy : LoweredList} (d : Dialect)
    (unordered : Bool) (limit offset : Option UInt64) (hb : Yields Nests base)
    (ho : Yields (∀ ts ∈ ·, States ts) operands) (hord : Yields AllNest orderBy) :
    Yields (fun ts => Nests ts ∧ ((∀ l, operands = .ok l → l ≠ []) → States ts))
      (compound d base operands orderBy unordered limit offset) := by
  refine hb.bind fun base hb => ?_
  cases operands with
  | error e => exact .error e
  | ok l =>
    have hl : ∀ ts ∈ l, States ts := ho l rfl
    refine (listClause_nests rfl hord).bind fun order horder => .pure ?_
    have htail := horder.append (windowClause_nests d unordered limit offset)
    simp only [List.append_assoc]
    -- The first query may have nothing to write; the word is that of the first operand.
    refine ⟨hb.append ((Shows.flatten fun ts hts => (hl ts hts).nests).append htail), fun h => ?_⟩
    cases l with
    | nil => exact absurd rfl (h _ rfl)
    | cons ts l =>
      rw [List.flatten_cons, List.append_assoc]
      refine .append_left hb ((hl ts (List.mem_cons_self ..)).append_right ?_)
      exact (Shows.flatten fun us hus => (hl us (List.mem_cons_of_mem _ hus)).nests).append htail

theorem join_nests {source : Lowered} (kind : JoinKind) (hs : Yields Nests source)
    (hc : Yields Nests condition) : Yields Nests (join kind source condition) :=
  join_shows (fun _ _ => trivial) kind hs hc

end Statement

end SqlScribe
