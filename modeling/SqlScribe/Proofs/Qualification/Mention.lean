import SqlScribe.Syntax.Shape
/-! # Mentions

How a piece of syntax refers to sources by identity: the name of a source that it mentions without
one is looked up among the names that queries have given, the innermost query first.

* `Mention`: a source is looked up, or takes part in a query.
* `Query.mentions` and its like: the mentions in a piece of syntax. Sources that a query has named
  itself are not looked up outside of it.
* `Query.SelfContained`: every source that is looked up outside of a query takes part in it. -/

namespace SqlScribe

/-- How a source is referred to by its identity. -/
inductive Mention where
  /-- The name that the queries around have given it is looked up. -/
  | lookup (id : SourceId)
  /-- It takes part in a query. -/
  | source (id : SourceId)
deriving Repr, DecidableEq

namespace Mention

/-- The lookups of a source that has a name or not. -/
def unnamed (id : SourceId) (alias? : Option String) : List Mention :=
  if alias?.isSome then [] else [.lookup id]

/-- Inside a query with names for sources, lookups of those do not reach the queries around it. -/
def escaping (aliases : List (SourceId × String)) (ms : List Mention) : List Mention :=
  ms.filter fun
    | .lookup id => (aliases.lookup id).isNone
    | .source _ => true

end Mention

/-- The sources that take part in a query by itself, by a join or as its target. -/
def Query.sourceIds (sources : List Source) (joins : List Join) (action : Action) :
    List SourceId :=
  sources.map (·.id) ++ joins.map (·.source.id) ++
    (action.insertTarget?.or action.updateTarget?).toList.map (·.id)

/-- The lookups of what stands before a dot. -/
def Qualifier.mentions : Qualifier → List Mention
  | .table t => Mention.unnamed t.id t.alias?
  | .subquery id alias? => Mention.unnamed id alias?
  | .raw _ => []

mutual

/-- The mentions in a term. -/
def Term.mentions : Term → List Mention
  | ⟨expr, _⟩ => expr.mentions

/-- The mentions in an expression. -/
def Expr.mentions : Expr → List Mention
  | .field q _ => q.toList.flatMap (·.mentions)
  | .star q => q.toList.flatMap (·.mentions)
  | .value _ => []
  | .named _ _ => []
  | .null => []
  | .parameter _ => []
  | .raw _ => []
  | .tuple items => Term.mentionsAll items
  | .array items => Term.mentionsAll items
  | .interval _ => []
  | .arithmetic _ left right => left.mentions ++ right.mentions
  | .negative t => t.mentions
  | .call c => c.mentions
  | .case branches otherwise =>
    Branch.mentionsAll branches ++
      match otherwise with
      | none => []
      | some t => t.mentions
  | .subquery q => q.mentions
  | .condition c => c.mentions

/-- The mentions in a function call. -/
def Call.mentions : Call → List Mention
  | ⟨_, _, _, _, _, args, filter, window⟩ =>
    Term.mentionsAll args ++
      (match filter with
        | none => []
        | some c => c.mentions) ++
      (match window with
        | none => []
        | some w => w.mentions)

/-- The mentions in a window. -/
def Window.mentions : Window → List Mention
  | ⟨partitionBy, orderBy, _⟩ => Term.mentionsAll partitionBy ++ OrderItem.mentionsAll orderBy

/-- The mentions in a condition. -/
def Condition.mentions : Condition → List Mention
  | .empty => []
  | .compare _ left right => left.mentions ++ right.mentions
  | .matches _ _ term pattern _ => term.mentions ++ pattern.mentions
  | .json _ left right => left.mentions ++ right.mentions
  | .search _ term value => term.mentions ++ value.mentions
  | .isNull _ term => term.mentions
  | .isIn _ term items => term.mentions ++ Term.mentionsAll items
  | .isInRows _ term rows => term.mentions ++ rows.mentions
  | .between _ term low high => term.mentions ++ low.mentions ++ high.mentions
  | .hasRows _ rows => rows.mentions
  | .combined _ left right => left.mentions ++ right.mentions
  | .not c => c.mentions
  | .term t => t.mentions

/-- The mentions in a query or set operation. -/
def Subquery.mentions : Subquery → List Mention
  | .query q => q.mentions
  | .compound c => c.mentions

/-- The mentions in a source; a query without a name is looked up itself. -/
def Source.mentions : Source → List Mention
  | .table _ => []
  | .subquery q => Mention.unnamed q.id q.alias? ++ q.mentions

/-- The mentions in a join. -/
def Join.mentions : Join → List Mention
  | ⟨_, source, condition⟩ => source.mentions ++ condition.mentions

/-- The mentions in the condition of a join. -/
def JoinCondition.mentions : JoinCondition → List Mention
  | .all => []
  | .on c => c.mentions
  | .sharing _ => []

/-- The mentions in a common table. -/
def CommonTable.mentions : CommonTable → List Mention
  | ⟨_, _, _, body⟩ => body.mentions

/-- The mentions in an assignment. -/
def Assignment.mentions : Assignment → List Mention
  | ⟨column, value⟩ => column.mentions ++ value.mentions

/-- The mentions in a conflict clause. -/
def Conflict.mentions : Conflict → List Mention
  | ⟨targets, targetFilter, _, assignments, updateFilter⟩ =>
    Term.mentionsAll targets ++ targetFilter.mentions ++ Assignment.mentionsAll assignments ++
      updateFilter.mentions

/-- The mentions in a query: its sources, and what its clauses mention and it has not named. -/
def Query.mentions : Query → List Mention
  | ⟨info, commonTables, sources, selects, distinctOn, joins, filter, groupBy, having, orderBy,
      columns, rows, conflict, duplicateUpdates, assignments, returning⟩ =>
    (Query.sourceIds sources joins info.action).map Mention.source ++
      Mention.escaping info.aliases
        (CommonTable.mentionsAll commonTables ++ Source.mentionsAll sources ++
          Term.mentionsAll selects ++ Term.mentionsAll distinctOn ++ Join.mentionsAll joins ++
          filter.mentions ++ Term.mentionsAll groupBy ++ having.mentions ++
          OrderItem.mentionsAll orderBy ++ Term.mentionsAll columns ++ Term.mentionsRows rows ++
          (match conflict with
            | none => []
            | some c => c.mentions) ++
          Assignment.mentionsAll duplicateUpdates ++ Assignment.mentionsAll assignments ++
          Term.mentionsAll returning)

/-- The mentions in a set operation. -/
def Compound.mentions : Compound → List Mention
  | ⟨_, base, operands, orderBy, _, _, _⟩ =>
    base.mentions ++ Operand.mentionsAll operands ++ OrderItem.mentionsAll orderBy

/-- The mentions in a list of terms. -/
def Term.mentionsAll : List Term → List Mention
  | [] => []
  | t :: ts => t.mentions ++ Term.mentionsAll ts

/-- The mentions in rows of terms. -/
def Term.mentionsRows : List (List Term) → List Mention
  | [] => []
  | row :: rows => Term.mentionsAll row ++ Term.mentionsRows rows

/-- The mentions in a list of ordering terms. -/
def OrderItem.mentionsAll : List OrderItem → List Mention
  | [] => []
  | ⟨t, _⟩ :: items => t.mentions ++ OrderItem.mentionsAll items

/-- The mentions in a list of branches. -/
def Branch.mentionsAll : List Branch → List Mention
  | [] => []
  | ⟨c, t⟩ :: branches => c.mentions ++ t.mentions ++ Branch.mentionsAll branches

/-- The mentions in a list of sources. -/
def Source.mentionsAll : List Source → List Mention
  | [] => []
  | source :: sources => source.mentions ++ Source.mentionsAll sources

/-- The mentions in a list of joins. -/
def Join.mentionsAll : List Join → List Mention
  | [] => []
  | j :: joins => j.mentions ++ Join.mentionsAll joins

/-- The mentions in a list of common tables. -/
def CommonTable.mentionsAll : List CommonTable → List Mention
  | [] => []
  | t :: ts => t.mentions ++ CommonTable.mentionsAll ts

/-- The mentions in a list of assignments. -/
def Assignment.mentionsAll : List Assignment → List Mention
  | [] => []
  | a :: as => a.mentions ++ Assignment.mentionsAll as

/-- The mentions in a list of operands. -/
def Operand.mentionsAll : List Operand → List Mention
  | [] => []
  | ⟨_, query⟩ :: operands => query.mentions ++ Operand.mentionsAll operands

end

theorem Query.mentions_eq (q : Query) : q.mentions =
    (sourceIds q.sources q.joins q.info.action).map Mention.source ++
      Mention.escaping q.info.aliases
        (CommonTable.mentionsAll q.commonTables ++ Source.mentionsAll q.sources ++
          Term.mentionsAll q.selects ++ Term.mentionsAll q.distinctOn ++
          Join.mentionsAll q.joins ++ q.filter.mentions ++ Term.mentionsAll q.groupBy ++
          q.having.mentions ++ OrderItem.mentionsAll q.orderBy ++ Term.mentionsAll q.columns ++
          Term.mentionsRows q.rows ++
          (match q.conflict with
            | none => []
            | some c => c.mentions) ++
          Assignment.mentionsAll q.duplicateUpdates ++ Assignment.mentionsAll q.assignments ++
          Term.mentionsAll q.returning) := by
  cases q
  rw [mentions.eq_def]

/-- Every source that is looked up takes part in the query or in one that it holds. -/
def Query.SelfContained (q : Query) : Prop :=
  ∀ id, .lookup id ∈ q.mentions → .source id ∈ q.mentions

end SqlScribe
