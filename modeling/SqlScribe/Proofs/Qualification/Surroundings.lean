import SqlScribe.Proofs.Masking.Lowering
import SqlScribe.Proofs.Qualification.Mention
/-! # Names from around

A piece of syntax depends on the names that the queries around it have given to sources only by
those of the sources that it looks up.

* `Scope.under`: a scope with other names from around.
* `Mention.Agree`: two lists of names give the sources that are looked up the same names.
* `Query.lower_under` and its like: scopes that agree so give the same tokens. The proof follows the
  syntax. -/

namespace SqlScribe

/-- The scope in which the queries around have given other names. -/
def Scope.under (s : Scope) (aliases : List (SourceId × String)) : Scope := { s with aliases }

/-- Two lists of names give all sources that are looked up the same names. -/
def Mention.Agree (as bs : List (SourceId × String)) (ms : List Mention) : Prop :=
  ∀ id, .lookup id ∈ ms → as.lookup id = bs.lookup id

namespace Mention

variable {as bs : List (SourceId × String)} {ms ns : List Mention}

@[simp] theorem agree_nil : Agree as bs [] := by simp [Agree]

@[simp] theorem agree_append : Agree as bs (ms ++ ns) ↔ Agree as bs ms ∧ Agree as bs ns := by
  simp [Agree, or_imp, forall_and]

/-- What a query has named itself is the same under all names from around. -/
theorem Agree.inside {own : List (SourceId × String)} (h : Agree as bs (escaping own ms)) :
    Agree (own ++ as) (own ++ bs) ms := by
  intro id hid
  rw [List.lookup_append, List.lookup_append]
  cases hown : own.lookup id with
  | some name => rfl
  | none =>
    have hescapes : lookup id ∈ escaping own ms := List.mem_filter.mpr ⟨hid, by simp [hown]⟩
    rw [h id hescapes]

end Mention

namespace Scope

variable (s : Scope) (aliases : List (SourceId × String))

@[simp] theorem under_quiet : (s.under aliases).quiet = s.quiet.under aliases := rfl

@[simp] theorem under_labelled : (s.under aliases).labelled = s.labelled.under aliases := rfl

@[simp] theorem under_embedded : (s.under aliases).embedded = s.embedded.under aliases := rfl

@[simp] theorem under_standalone : (s.under aliases).standalone = s.standalone.under aliases := rfl

@[simp] theorem under_asSource : (s.under aliases).asSource = s.asSource.under aliases := rfl

@[simp] theorem under_operands : (s.under aliases).operands = s.operands.under aliases := rfl

@[simp] theorem under_qualifying (b : Bool) :
    (s.under aliases).qualifying b = (s.qualifying b).under aliases := rfl

@[simp] theorem under_dialect : (s.under aliases).dialect = s.dialect := rfl

@[simp] theorem under_showsAlias : (s.under aliases).showsAlias = s.showsAlias := rfl

@[simp] theorem under_aliasSuffix (name : String) :
    (s.under aliases).aliasSuffix name = s.aliasSuffix name := rfl

@[simp] theorem under_groupNames (q : Query) :
    (s.under aliases).groupNames q = s.groupNames q := rfl

@[simp] theorem under_orderNames (q : Query) :
    (s.under aliases).orderNames q = s.orderNames q := rfl

theorem under_inside (q : Query) :
    (s.under aliases).inside q = (s.inside q).under (q.info.aliases ++ aliases) := rfl

variable {s aliases}

theorem or_alias_under {id : SourceId} {alias? : Option String}
    (h : Mention.Agree aliases s.aliases (Mention.unnamed id alias?)) :
    alias?.or ((s.under aliases).alias? id) = alias?.or (s.alias? id) := by
  cases alias? with
  | some name => rfl
  | none => exact h id (List.mem_singleton.mpr rfl)

theorem qualification_under {q : Option Qualifier}
    (h : Mention.Agree aliases s.aliases (q.toList.flatMap (·.mentions))) :
    (s.under aliases).qualification q = s.qualification q := by
  cases q with
  | none => rfl
  | some q =>
    rw [Option.toList_some, List.flatMap_singleton] at h
    rw [qualification, qualification, Option.bind_some, Option.bind_some]
    cases q with
    | table t => rw [qualifier?, qualifier?, or_alias_under h]; rfl
    | subquery id alias? => rw [qualifier?, qualifier?, or_alias_under h]
    | raw text => rfl

end Scope

theorem Table.tokens_under (s : Scope) (aliases : List (SourceId × String)) (t : Table) :
    t.tokens (s.under aliases) = t.tokens s := rfl

theorem Statement.whole_under (s : Scope) (aliases : List (SourceId × String)) (q : Query)
    (p : QueryParts) : Statement.whole (s.under aliases) q p = Statement.whole s q p := rfl

/-- The name behind a query is looked up where aliases are shown. -/
theorem Statement.placed_under {s : Scope} {aliases : List (SourceId × String)} {id : SourceId}
    {alias? : Option String} (h : s.showsAlias = true →
      Mention.Agree aliases s.aliases (Mention.unnamed id alias?)) (body : Tokens) :
    Statement.placed (s.under aliases) id alias? body = Statement.placed s id alias? body := by
  rw [placed, placed]
  cases hs : s.showsAlias with
  | false => simp [hs, Scope.under]
  | true =>
    rw [Scope.or_alias_under (h hs), Scope.under_showsAlias, hs]
    rfl

open Mention (Agree agree_nil agree_append unnamed)

mutual

theorem Term.lower_under (s : Scope) {as : List (SourceId × String)} : ∀ t : Term,
    Agree as s.aliases t.mentions → t.lower (s.under as) = t.lower s
  | ⟨expr, alias?⟩, h => by
    rw [Term.mentions] at h
    rw [Term.lower, Term.lower, Expr.lower_under s expr h]
    rfl

theorem Expr.lower_under (s : Scope) {as : List (SourceId × String)} : ∀ e : Expr,
    Agree as s.aliases e.mentions → e.lower (s.under as) = e.lower s
  | .field q name, h => by
    rw [Expr.mentions] at h
    rw [Expr.lower, Expr.lower, Scope.qualification_under h]
  | .star q, h => by
    rw [Expr.mentions] at h
    rw [Expr.lower, Expr.lower, Scope.qualification_under h]
  | .value _, _ => by rw [Expr.lower, Expr.lower]
  | .named _ _, _ => by rw [Expr.lower, Expr.lower]
  | .null, _ => by rw [Expr.lower, Expr.lower]
  | .parameter _, _ => by rw [Expr.lower, Expr.lower]
  | .raw _, _ => by rw [Expr.lower, Expr.lower]
  | .tuple items, h => by
    rw [Expr.mentions] at h
    rw [Expr.lower, Expr.lower, Scope.under_quiet, Term.lowerAll_under s.quiet items h]
  | .array items, h => by
    rw [Expr.mentions] at h
    rw [Expr.lower, Expr.lower, Scope.under_quiet, Term.lowerAll_under s.quiet items h,
      Scope.under_dialect]
  | .interval _, _ => by rw [Expr.lower, Expr.lower, Scope.under_dialect]
  | .arithmetic op left right, h => by
    rw [Expr.mentions, agree_append] at h
    rw [Expr.lower, Expr.lower, Scope.under_quiet, Term.lower_under s.quiet left h.1,
      Term.lower_under s.quiet right h.2]
  | .negative t, h => by
    rw [Expr.mentions] at h
    rw [Expr.lower, Expr.lower, Scope.under_quiet, Term.lower_under s.quiet t h]
  | .call c, h => by
    rw [Expr.mentions] at h
    rw [Expr.lower, Expr.lower, Scope.under_quiet, Call.lower_under s.quiet c h]
  | .case branches none, h => by
    rw [Expr.mentions, agree_append] at h
    rw [Expr.lower, Expr.lower, Scope.under_quiet, Branch.lowerAll_under s.quiet branches h.1]
  | .case branches (some t), h => by
    rw [Expr.mentions, agree_append] at h
    rw [Expr.lower, Expr.lower, Scope.under_quiet, Branch.lowerAll_under s.quiet branches h.1,
      Term.lower_under s.quiet t h.2]
  | .subquery q, h => by
    -- An embedded query does not show its name, so that name is not looked up.
    rw [Expr.mentions] at h
    rw [Expr.lower, Expr.lower, Scope.under_embedded,
      Subquery.lower_under s.embedded q h fun hs => absurd hs Bool.false_ne_true]
  | .condition c, h => by
    rw [Expr.mentions] at h
    rw [Expr.lower, Expr.lower, Scope.under_quiet, Condition.lower_under s.quiet c h]

theorem Call.lower_under (s : Scope) {as : List (SourceId × String)} : ∀ c : Call,
    Agree as s.aliases c.mentions → c.lower (s.under as) = c.lower s
  | ⟨name, form, aggregate, distinct, ignoreNulls, args, none, none⟩, h => by
    rw [Call.mentions, agree_append, agree_append] at h
    rw [Call.lower, Call.lower, Scope.under_quiet, Term.lowerAll_under s.quiet args h.1.1]
  | ⟨name, form, aggregate, distinct, ignoreNulls, args, none, some w⟩, h => by
    rw [Call.mentions, agree_append, agree_append] at h
    rw [Call.lower, Call.lower, Scope.under_quiet, Term.lowerAll_under s.quiet args h.1.1,
      Window.lower_under s w h.2]
  | ⟨name, form, aggregate, distinct, ignoreNulls, args, some c, none⟩, h => by
    rw [Call.mentions, agree_append, agree_append] at h
    rw [Call.lower, Call.lower, Scope.under_quiet, Term.lowerAll_under s.quiet args h.1.1,
      Condition.lower_under s.quiet c h.1.2]
  | ⟨name, form, aggregate, distinct, ignoreNulls, args, some c, some w⟩, h => by
    rw [Call.mentions, agree_append, agree_append] at h
    rw [Call.lower, Call.lower, Scope.under_quiet, Term.lowerAll_under s.quiet args h.1.1,
      Condition.lower_under s.quiet c h.1.2, Window.lower_under s w h.2]

theorem Window.lower_under (s : Scope) {as : List (SourceId × String)} : ∀ w : Window,
    Agree as s.aliases w.mentions → w.lower (s.under as) = w.lower s
  | ⟨partitionBy, orderBy, frame⟩, h => by
    rw [Window.mentions, agree_append] at h
    rw [Window.lower, Window.lower, Scope.under_quiet, Term.lowerAll_under s.quiet partitionBy h.1,
      OrderItem.lowerAll_under s.quiet [] orderBy h.2]

theorem Condition.lower_under (s : Scope) {as : List (SourceId × String)} : ∀ c : Condition,
    Agree as s.aliases c.mentions → c.lower (s.under as) = c.lower s
  | .empty, _ => by rw [Condition.lower, Condition.lower]
  | .compare op left right, h => by
    rw [Condition.mentions, agree_append] at h
    rw [Condition.lower, Condition.lower, Scope.under_quiet, Term.lower_under s.quiet left h.1,
      Term.lower_under s.quiet right h.2]
  | .matches op negated term pattern escape, h => by
    rw [Condition.mentions, agree_append] at h
    rw [Condition.lower, Condition.lower, Scope.under_quiet, Term.lower_under s.quiet term h.1,
      Term.lower_under s.quiet pattern h.2, Scope.under_dialect]
  | .json op left right, h => by
    rw [Condition.mentions, agree_append] at h
    rw [Condition.lower, Condition.lower, Scope.under_quiet, Term.lower_under s.quiet left h.1,
      Term.lower_under s.quiet right h.2, Scope.under_dialect]
  | .search op term value, h => by
    rw [Condition.mentions, agree_append] at h
    rw [Condition.lower, Condition.lower, Scope.under_quiet, Term.lower_under s.quiet term h.1,
      Term.lower_under s.quiet value h.2, Scope.under_dialect]
  | .isNull negated term, h => by
    rw [Condition.mentions] at h
    rw [Condition.lower, Condition.lower, Scope.under_quiet, Term.lower_under s.quiet term h]
  | .isIn negated term items, h => by
    rw [Condition.mentions, agree_append] at h
    rw [Condition.lower, Condition.lower, Scope.under_quiet, Term.lower_under s.quiet term h.1,
      Term.lowerAll_under s.quiet items h.2]
  | .isInRows negated term rows, h => by
    rw [Condition.mentions, agree_append] at h
    rw [Condition.lower, Condition.lower, Scope.under_quiet, Term.lower_under s.quiet term h.1,
      Scope.under_embedded,
      Subquery.lower_under s.embedded rows h.2 fun hs => absurd hs Bool.false_ne_true]
  | .between negated term low high, h => by
    rw [Condition.mentions, agree_append, agree_append] at h
    rw [Condition.lower, Condition.lower, Scope.under_quiet, Term.lower_under s.quiet term h.1.1,
      Term.lower_under s.quiet low h.1.2, Term.lower_under s.quiet high h.2]
  | .hasRows negated rows, h => by
    rw [Condition.mentions] at h
    rw [Condition.lower, Condition.lower, Scope.under_embedded,
      Subquery.lower_under s.embedded rows h fun hs => absurd hs Bool.false_ne_true]
  | .combined op left right, h => by
    rw [Condition.mentions, agree_append] at h
    rw [Condition.lower, Condition.lower, Scope.under_quiet, Condition.lower_under s.quiet left h.1,
      Condition.lower_under s.quiet right h.2]
  | .not c, h => by
    rw [Condition.mentions] at h
    rw [Condition.lower, Condition.lower, Scope.under_quiet, Condition.lower_under s.quiet c h]
  | .term t, h => by
    rw [Condition.mentions] at h
    rw [Condition.lower, Condition.lower, Scope.under_quiet, Term.lower_under s.quiet t h]

theorem Subquery.lower_under (s : Scope) {as : List (SourceId × String)} : ∀ q : Subquery,
    Agree as s.aliases q.mentions →
    (s.showsAlias = true → Agree as s.aliases (unnamed q.id q.alias?)) →
    q.lower (s.under as) = q.lower s
  | .query q, h, hname => by
    rw [Subquery.mentions] at h
    rw [Subquery.lower, Subquery.lower]
    exact Query.lower_under s q h hname
  | .compound c, h, hname => by
    rw [Subquery.mentions] at h
    rw [Subquery.lower, Subquery.lower]
    exact Compound.lower_under s c h hname

theorem Source.lower_under (s : Scope) {as : List (SourceId × String)} : ∀ x : Source,
    Agree as s.aliases x.mentions → x.lower (s.under as) = x.lower s
  | .table t, _ => by rw [Source.lower, Source.lower, Table.tokens_under]
  | .subquery q, h => by
    rw [Source.mentions, agree_append] at h
    rw [Source.lower, Source.lower, Scope.under_asSource,
      Subquery.lower_under s.asSource q h.2 fun _ => h.1]

theorem Join.lower_under (s : Scope) {as : List (SourceId × String)} : ∀ j : Join,
    Agree as s.aliases j.mentions → j.lower (s.under as) = j.lower s
  | ⟨kind, source, condition⟩, h => by
    rw [Join.mentions, agree_append] at h
    rw [Join.lower, Join.lower, Source.lower_under s source h.1,
      JoinCondition.lower_under s condition h.2]

theorem JoinCondition.lower_under (s : Scope) {as : List (SourceId × String)} : ∀ c : JoinCondition,
    Agree as s.aliases c.mentions → c.lower (s.under as) = c.lower s
  | .all, _ => by rw [JoinCondition.lower, JoinCondition.lower]
  | .on c, h => by
    rw [JoinCondition.mentions] at h
    rw [JoinCondition.lower, JoinCondition.lower, Scope.under_quiet,
      Condition.lower_under s.quiet c h]
  | .sharing _, _ => by rw [JoinCondition.lower, JoinCondition.lower]

theorem CommonTable.lower_under (s : Scope) {as : List (SourceId × String)} : ∀ t : CommonTable,
    Agree as s.aliases t.mentions → t.lower (s.under as) = t.lower s
  | ⟨name, columns, recursive, body⟩, h => by
    rw [CommonTable.mentions] at h
    rw [CommonTable.lower, CommonTable.lower, Scope.under_standalone,
      Subquery.lower_under s.standalone body h fun hs => absurd hs Bool.false_ne_true]

theorem Term.lowerColumn_under (s : Scope) {as : List (SourceId × String)} : ∀ t : Term,
    Agree as s.aliases t.mentions → t.lowerColumn (s.under as) = t.lowerColumn s
  | ⟨expr, alias?⟩, h => by
    -- A field is written by its name alone, any other column as the expression it is.
    rw [Term.mentions] at h
    have hexpr := Expr.lower_under (s.quiet.qualifying false) expr h
    cases expr with
    | field q name => rfl
    | _ => exact hexpr

theorem Assignment.lower_under (s : Scope) {as : List (SourceId × String)} : ∀ a : Assignment,
    Agree as s.aliases a.mentions → a.lower (s.under as) = a.lower s
  | ⟨column, value⟩, h => by
    rw [Assignment.mentions, agree_append] at h
    rw [Assignment.lower, Assignment.lower, Term.lowerColumn_under s column h.1,
      Scope.under_quiet, Term.lower_under s.quiet value h.2]

theorem Conflict.lower_under (s : Scope) {as : List (SourceId × String)} : ∀ c : Conflict,
    Agree as s.aliases c.mentions → c.lower (s.under as) = c.lower s
  | ⟨targets, targetFilter, handler, assignments, updateFilter⟩, h => by
    rw [Conflict.mentions, agree_append, agree_append, agree_append] at h
    obtain ⟨⟨⟨htargets, htargetFilter⟩, hassignments⟩, hupdateFilter⟩ := h
    rw [Conflict.lower, Conflict.lower, Term.lowerColumns_under s targets htargets,
      Scope.under_quiet, Condition.lower_under s.quiet targetFilter htargetFilter,
      Scope.under_qualifying,
      Assignment.lowerAll_under (s.qualifying true) assignments hassignments,
      Scope.under_quiet,
      Condition.lower_under (s.qualifying true).quiet updateFilter hupdateFilter,
      Scope.under_dialect]

theorem Query.lower_under (s : Scope) {as : List (SourceId × String)} : ∀ q : Query,
    Agree as s.aliases q.mentions →
    (s.showsAlias = true → Agree as s.aliases (unnamed q.info.id q.info.alias?)) →
    q.lower (s.under as) = q.lower s
  | ⟨info, commonTables, sources, selects, distinctOn, joins, filter, groupBy, having, orderBy,
      columns, rows, conflict, duplicateUpdates, assignments, returning⟩, h, hname => by
    rw [Query.mentions_eq, agree_append] at h
    -- Names that the query has given itself hide those from around, so inside of it the scopes
    -- agree on everything that its clauses mention.
    have hinside := h.2.inside
    simp only [agree_append] at hinside
    obtain ⟨⟨⟨⟨⟨⟨⟨⟨⟨⟨⟨⟨⟨⟨htables, hsources⟩, hselects⟩, hdistinctOn⟩, hjoins⟩, hfilter⟩, hgroupBy⟩,
      hhaving⟩, horderBy⟩, hcolumns⟩, hrows⟩, hconflict⟩, hupdates⟩, hassignments⟩, hreturning⟩ :=
      hinside
    have hparts : ∀ inner : Scope, inner.aliases = info.aliases ++ s.aliases →
        Query.parts (inner.under (info.aliases ++ as)) ⟨info, commonTables, sources, selects,
          distinctOn, joins, filter, groupBy, having, orderBy, columns, rows, conflict,
          duplicateUpdates, assignments, returning⟩ =
        Query.parts inner ⟨info, commonTables, sources, selects, distinctOn, joins, filter,
          groupBy, having, orderBy, columns, rows, conflict, duplicateUpdates, assignments,
          returning⟩ := by
      intro inner haliases
      rw [← haliases] at htables hsources hselects hdistinctOn hjoins hfilter hgroupBy hhaving
      rw [← haliases] at horderBy hcolumns hrows hconflict hupdates hassignments hreturning
      apply QueryParts.ext
      case commonTables => exact CommonTable.lowerAll_under inner commonTables htables
      case sources => exact Source.lowerAll_under inner sources hsources
      case selects => exact Term.lowerAll_under inner.labelled selects hselects
      case distinctOn => exact Term.lowerAll_under inner.quiet distinctOn hdistinctOn
      case joins => exact Join.lowerAll_under inner joins hjoins
      case filter => exact Condition.lower_under inner.quiet filter hfilter
      case groupBy => exact Term.lowerAllNamed_under inner.quiet _ groupBy hgroupBy
      case having => exact Condition.lower_under inner.quiet having hhaving
      case orderBy => exact OrderItem.lowerAll_under inner.quiet _ orderBy horderBy
      case columns => exact Term.lowerColumns_under inner columns hcolumns
      case rows => exact Term.lowerRows_under inner.quiet rows hrows
      case conflict =>
        cases conflict with
        | none => rfl
        | some c => exact Conflict.lower_under inner c hconflict
      case duplicateUpdates => exact Assignment.lowerAll_under inner duplicateUpdates hupdates
      case assignments => exact Assignment.lowerAll_under inner assignments hassignments
      case returning => exact Term.lowerAll_under inner.labelled returning hreturning
    rw [Query.lower_eq, Query.lower_eq, Scope.under_inside, hparts _ rfl, Statement.whole_under]
    simp only [Statement.placed_under hname]

theorem Compound.lower_under (s : Scope) {as : List (SourceId × String)} : ∀ c : Compound,
    Agree as s.aliases c.mentions →
    (s.showsAlias = true → Agree as s.aliases (unnamed c.id c.alias?)) →
    c.lower (s.under as) = c.lower s
  | ⟨id, base, operands, orderBy, limit, offset, alias?⟩, h, hname => by
    rw [Compound.mentions, agree_append, agree_append] at h
    rw [Compound.lower, Compound.lower, Scope.under_operands,
      Query.lower_under s.operands base h.1.1 fun hs => absurd hs Bool.false_ne_true,
      Operand.lowerAll_under s.operands base.selectCount operands rfl h.1.2, Scope.under_standalone,
      Scope.under_orderNames, OrderItem.lowerAll_under s.standalone (s.orderNames base) orderBy h.2,
      Scope.under_dialect]
    simp only [Statement.placed_under hname]

theorem Term.lowerAll_under (s : Scope) {as : List (SourceId × String)} : ∀ l : List Term,
    Agree as s.aliases (Term.mentionsAll l) → Term.lowerAll (s.under as) l = Term.lowerAll s l
  | [], _ => by rw [Term.lowerAll, Term.lowerAll]
  | t :: l, h => by
    rw [Term.mentionsAll, agree_append] at h
    rw [Term.lowerAll, Term.lowerAll, Term.lower_under s t h.1, Term.lowerAll_under s l h.2]

theorem Term.lowerAllNamed_under (s : Scope) (names : List String) {as : List (SourceId × String)} :
    ∀ l : List Term, Agree as s.aliases (Term.mentionsAll l) →
    Term.lowerAllNamed (s.under as) names l = Term.lowerAllNamed s names l
  | [], _ => by rw [Term.lowerAllNamed, Term.lowerAllNamed]
  | ⟨expr, alias?⟩ :: l, h => by
    rw [Term.mentionsAll, agree_append, Term.mentions] at h
    rw [Term.lowerAllNamed, Term.lowerAllNamed, Expr.lower_under s expr h.1,
      Term.lowerAllNamed_under s names l h.2]

theorem Term.lowerColumns_under (s : Scope) {as : List (SourceId × String)} : ∀ l : List Term,
    Agree as s.aliases (Term.mentionsAll l) →
    Term.lowerColumns (s.under as) l = Term.lowerColumns s l
  | [], _ => by rw [Term.lowerColumns, Term.lowerColumns]
  | t :: l, h => by
    rw [Term.mentionsAll, agree_append] at h
    rw [Term.lowerColumns, Term.lowerColumns, Term.lowerColumn_under s t h.1,
      Term.lowerColumns_under s l h.2]

theorem Term.lowerRows_under (s : Scope) {as : List (SourceId × String)} : ∀ l : List (List Term),
    Agree as s.aliases (Term.mentionsRows l) → Term.lowerRows (s.under as) l = Term.lowerRows s l
  | [], _ => by rw [Term.lowerRows, Term.lowerRows]
  | row :: l, h => by
    rw [Term.mentionsRows, agree_append] at h
    rw [Term.lowerRows, Term.lowerRows, Term.lowerAll_under s row h.1, Term.lowerRows_under s l h.2]

theorem OrderItem.lowerAll_under (s : Scope) (names : List String) {as : List (SourceId × String)} :
    ∀ l : List OrderItem, Agree as s.aliases (OrderItem.mentionsAll l) →
    OrderItem.lowerAll (s.under as) names l = OrderItem.lowerAll s names l
  | [], _ => by rw [OrderItem.lowerAll, OrderItem.lowerAll]
  | ⟨⟨expr, alias?⟩, order⟩ :: l, h => by
    rw [OrderItem.mentionsAll, agree_append, Term.mentions] at h
    rw [OrderItem.lowerAll, OrderItem.lowerAll, Expr.lower_under s expr h.1,
      OrderItem.lowerAll_under s names l h.2]

theorem Branch.lowerAll_under (s : Scope) {as : List (SourceId × String)} : ∀ l : List Branch,
    Agree as s.aliases (Branch.mentionsAll l) → Branch.lowerAll (s.under as) l = Branch.lowerAll s l
  | [], _ => by rw [Branch.lowerAll, Branch.lowerAll]
  | ⟨condition, result⟩ :: l, h => by
    rw [Branch.mentionsAll, agree_append, agree_append] at h
    rw [Branch.lowerAll, Branch.lowerAll, Condition.lower_under s condition h.1.1,
      Term.lower_under s result h.1.2, Branch.lowerAll_under s l h.2]

theorem Source.lowerAll_under (s : Scope) {as : List (SourceId × String)} : ∀ l : List Source,
    Agree as s.aliases (Source.mentionsAll l) → Source.lowerAll (s.under as) l = Source.lowerAll s l
  | [], _ => by rw [Source.lowerAll, Source.lowerAll]
  | x :: l, h => by
    rw [Source.mentionsAll, agree_append] at h
    rw [Source.lowerAll, Source.lowerAll, Source.lower_under s x h.1, Source.lowerAll_under s l h.2]

theorem Join.lowerAll_under (s : Scope) {as : List (SourceId × String)} : ∀ l : List Join,
    Agree as s.aliases (Join.mentionsAll l) → Join.lowerAll (s.under as) l = Join.lowerAll s l
  | [], _ => by rw [Join.lowerAll, Join.lowerAll]
  | j :: l, h => by
    rw [Join.mentionsAll, agree_append] at h
    rw [Join.lowerAll, Join.lowerAll, Join.lower_under s j h.1, Join.lowerAll_under s l h.2]

theorem CommonTable.lowerAll_under (s : Scope) {as : List (SourceId × String)} :
    ∀ l : List CommonTable, Agree as s.aliases (CommonTable.mentionsAll l) →
    CommonTable.lowerAll (s.under as) l = CommonTable.lowerAll s l
  | [], _ => by rw [CommonTable.lowerAll, CommonTable.lowerAll]
  | t :: l, h => by
    rw [CommonTable.mentionsAll, agree_append] at h
    rw [CommonTable.lowerAll, CommonTable.lowerAll, CommonTable.lower_under s t h.1,
      CommonTable.lowerAll_under s l h.2]

theorem Assignment.lowerAll_under (s : Scope) {as : List (SourceId × String)} :
    ∀ l : List Assignment, Agree as s.aliases (Assignment.mentionsAll l) →
    Assignment.lowerAll (s.under as) l = Assignment.lowerAll s l
  | [], _ => by rw [Assignment.lowerAll, Assignment.lowerAll]
  | a :: l, h => by
    rw [Assignment.mentionsAll, agree_append] at h
    rw [Assignment.lowerAll, Assignment.lowerAll, Assignment.lower_under s a h.1,
      Assignment.lowerAll_under s l h.2]

theorem Operand.lowerAll_under (s : Scope) (width : Nat) {as : List (SourceId × String)} :
    ∀ l : List Operand, s.showsAlias = false → Agree as s.aliases (Operand.mentionsAll l) →
    Operand.lowerAll (s.under as) width l = Operand.lowerAll s width l
  | [], _, _ => by rw [Operand.lowerAll, Operand.lowerAll]
  | ⟨op, query⟩ :: l, hs, h => by
    rw [Operand.mentionsAll, agree_append] at h
    rw [Operand.lowerAll, Operand.lowerAll,
      Query.lower_under s query h.1 fun hshows => absurd (hs.symm.trans hshows) Bool.false_ne_true,
      Operand.lowerAll_under s width l hs h.2]

end

end SqlScribe
