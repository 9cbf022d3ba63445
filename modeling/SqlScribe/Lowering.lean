import SqlScribe.Lowering.Statement
/-! # Lowering

The tokens of every term, condition and query in a scope. Each function lowers the parts of its
argument and leaves it to the clauses to put them together; a part that stands inside another one
does not show its alias, and a query makes a scope of its own for its parts. -/

namespace SqlScribe

namespace Scope

/-- The scope of the operands of a set operation. -/
def operands (s : Scope) : Scope :=
  { s with nested := s.dialect.profile.wrapsOperands, showsAlias := false }

/-- The scope inside a query. -/
def inside (s : Scope) (q : Query) : Scope := s.enter q.usesQualifiers q.info.aliases

/-- The aliases that grouping terms of a query may be named by. -/
def groupNames (s : Scope) (q : Query) : List String :=
  if s.groupByAlias && s.dialect.profile.groupByAlias then q.selectAliases else []

/-- The aliases that ordering terms of a query may be named by. -/
def orderNames (s : Scope) (q : Query) : List String :=
  if s.orderByAlias then q.selectAliases else []

end Scope

mutual

/-- The tokens of a term, with its alias where aliases are shown. -/
def Term.lower (s : Scope) : Term → Lowered
  | ⟨expr, alias?⟩ => do
    let body ← expr.lower s
    return body ++ if s.showsAlias then (alias?.map s.aliasSuffix).getD [] else []

/-- The tokens of an expression. -/
def Expr.lower (s : Scope) : Expr → Lowered
  | .field q name => .ok (s.qualification q ++ [.ident name])
  | .star q => .ok (s.qualification q ++ [.mark .star])
  | .value v => Clause.value v (.literal v)
  | .named name v => Clause.value v (.named name v)
  | .null => .ok [.word .NULL]
  | .parameter text => .ok [.placeholder text]
  | .raw sql => .ok [.raw sql]
  | .tuple items => do return Tokens.parens (Tokens.listed (← Term.lowerAll s.quiet items))
  | .array items =>
    Clause.array s.dialect.profile.arrayWord items.isEmpty (Term.lowerAll s.quiet items)
  | .interval i => .ok [.raw (i.literal s.dialect)]
  | .arithmetic op left right =>
    Clause.arithmetic op left.operator? right.operator? (left.lower s.quiet) (right.lower s.quiet)
  | .negative t => Clause.negative t.isOperation (t.lower s.quiet)
  | .call c => c.lower s.quiet
  | .case branches otherwise =>
    if branches.isEmpty then .error .emptyCase
    else
      Clause.choice (Branch.lowerAll s.quiet branches)
        (match otherwise with
          | none => none
          | some t => some (t.lower s.quiet))
  | .subquery q => q.lower s.embedded
  | .condition c => c.lower s.quiet

/-- The tokens of a function call. -/
def Call.lower (s : Scope) : Call → Lowered
  | ⟨name, form, _, distinct, ignoreNulls, args, filter, window⟩ =>
    Clause.call (Clause.invoked name form distinct ignoreNulls (Term.lowerAll s.quiet args))
      (match filter with
        | none => none
        | some c => some (c.lower s.quiet))
      (match window with
        | none => none
        | some w => some (w.lower s))

/-- The tokens of a window. -/
def Window.lower (s : Scope) : Window → Lowered
  | ⟨partitionBy, orderBy, frame⟩ =>
    Clause.window (Term.lowerAll s.quiet partitionBy) (OrderItem.lowerAll s.quiet [] orderBy) frame

/-- The tokens of a condition. -/
def Condition.lower (s : Scope) : Condition → Lowered
  | .empty => .ok []
  | .compare op left right =>
    Clause.comparison op (left.isNull || right.isNull) (left.lower s.quiet) (right.lower s.quiet)
  | .matches op negated term pattern escape =>
    Clause.matching s.dialect op negated (term.lower s.quiet) (pattern.lower s.quiet) escape
  | .json op left right => Clause.json s.dialect op (left.lower s.quiet) (right.lower s.quiet)
  | .search op term value =>
    Clause.search s.dialect op (term.lower s.quiet) (value.lower s.quiet)
  | .isNull negated term => Clause.isNull negated (term.lower s.quiet)
  | .isIn negated term items =>
    Clause.isIn negated items.isEmpty (term.lower s.quiet) (Term.lowerAll s.quiet items)
  | .isInRows negated term rows =>
    Clause.isInRows negated (term.lower s.quiet) (rows.lower s.embedded)
  | .between negated term low high =>
    Clause.between negated (term.lower s.quiet) (low.lower s.quiet) (high.lower s.quiet)
  | .hasRows negated rows => Clause.hasRows negated (rows.lower s.embedded)
  | .combined op left right =>
    Clause.combined op left.connective? right.connective? (left.lower s.quiet) (right.lower s.quiet)
  | .not c => Clause.negated c.connective?.isSome (c.lower s.quiet)
  | .term t => t.lower s.quiet

/-- The tokens of a query or set operation. -/
def Subquery.lower (s : Scope) : Subquery → Lowered
  | .query q => q.lower s
  | .compound c => c.lower s

/-- The tokens of a source. -/
def Source.lower (s : Scope) : Source → Lowered
  | .table t => .ok (t.tokens s)
  | .subquery q => q.lower s.asSource

/-- The tokens of a join. -/
def Join.lower (s : Scope) : Join → Lowered
  | ⟨kind, source, condition⟩ => Statement.join kind (source.lower s) (condition.lower s)

/-- The tokens of the condition of a join. -/
def JoinCondition.lower (s : Scope) : JoinCondition → Lowered
  | .all => .ok []
  | .on c => do return Tokens.spaced (.word .ON) ++ (← c.lower s.quiet)
  | .sharing columns =>
    .ok (Tokens.spaced (.word .USING) ++ Tokens.parens (Tokens.idents columns))

/-- The tokens of a common table. -/
def CommonTable.lower (s : Scope) : CommonTable → Lowered
  | ⟨name, columns, _, body⟩ => Statement.commonTable name columns (body.lower s.standalone)

/-- The tokens of a column that is given a value: its name without a qualifier. -/
def Term.lowerColumn (s : Scope) : Term → Lowered
  | ⟨.field _ name, _⟩ => .ok [.ident name]
  | ⟨expr, _⟩ => expr.lower (s.quiet.qualifying false)

/-- The tokens of an assignment. -/
def Assignment.lower (s : Scope) : Assignment → Lowered
  | ⟨column, value⟩ => Statement.assignment (column.lowerColumn s) (value.lower s.quiet)

/-- The tokens of a conflict clause. Values and the condition on the existing row are qualified, for
both rows have the same columns. -/
def Conflict.lower (s : Scope) : Conflict → Lowered
  | ⟨targets, targetFilter, handler, assignments, updateFilter⟩ =>
    Statement.conflictClause s.dialect ⟨targets, targetFilter, handler, assignments, updateFilter⟩
      { targets := Term.lowerColumns s targets
        targetFilter := targetFilter.lower s.quiet
        assignments := Assignment.lowerAll (s.qualifying true) assignments
        updateFilter := updateFilter.lower (s.qualifying true).quiet }

/-- The tokens of a query. -/
def Query.lower (s : Scope) : Query → Lowered
  | ⟨info, commonTables, sources, selects, distinctOn, joins, filter, groupBy, having, orderBy,
      columns, rows, conflict, duplicateUpdates, assignments, returning⟩ =>
    let q : Query := ⟨info, commonTables, sources, selects, distinctOn, joins, filter, groupBy,
      having, orderBy, columns, rows, conflict, duplicateUpdates, assignments, returning⟩
    if q.isBlank then .ok []
    else
      let inner := s.inside q
      let parts : QueryParts :=
        { commonTables := CommonTable.lowerAll inner commonTables
          sources := Source.lowerAll inner sources
          selects := Term.lowerAll inner.labelled selects
          distinctOn := Term.lowerAll inner.quiet distinctOn
          joins := Join.lowerAll inner joins
          filter := filter.lower inner.quiet
          groupBy := Term.lowerAllNamed inner.quiet (inner.groupNames q) groupBy
          having := having.lower inner.quiet
          orderBy := OrderItem.lowerAll inner.quiet (inner.orderNames q) orderBy
          columns := Term.lowerColumns inner columns
          rows := Term.lowerRows inner.quiet rows
          conflict := match conflict with
            | none => .ok []
            | some c => c.lower inner
          duplicateUpdates := Assignment.lowerAll inner duplicateUpdates
          assignments := Assignment.lowerAll inner assignments
          returning := Term.lowerAll inner.labelled returning }
      do return Statement.placed s info.id info.alias? (← Statement.whole inner q parts)

/-- The tokens of a set operation. -/
def Compound.lower (s : Scope) : Compound → Lowered
  | ⟨id, base, operands, orderBy, limit, offset, alias?⟩ => do
    let body ← Statement.compound s.dialect (base.lower s.operands)
      (Operand.lowerAll s.operands base.selectCount operands)
      (OrderItem.lowerAll s.standalone (s.orderNames base) orderBy)
      orderBy.isEmpty limit offset
    return Statement.placed s id alias? body

/-- The tokens of each term of a list. -/
def Term.lowerAll (s : Scope) : List Term → LoweredList
  | [] => .ok []
  | t :: ts => do
    let t ← t.lower s
    let ts ← Term.lowerAll s ts
    return t :: ts

/-- The tokens of each term of a list, a term whose alias is among `names` by that alias. -/
def Term.lowerAllNamed (s : Scope) (names : List String) : List Term → LoweredList
  | [] => .ok []
  | ⟨expr, alias?⟩ :: ts => do
    let t ← match alias?.filter names.contains with
      | some a => .ok [.aliasName a]
      | none => expr.lower s
    let ts ← Term.lowerAllNamed s names ts
    return t :: ts

/-- The tokens of each column of a list. -/
def Term.lowerColumns (s : Scope) : List Term → LoweredList
  | [] => .ok []
  | t :: ts => do
    let t ← t.lowerColumn s
    let ts ← Term.lowerColumns s ts
    return t :: ts

/-- The tokens of each row of a list. -/
def Term.lowerRows (s : Scope) : List (List Term) → LoweredList
  | [] => .ok []
  | row :: rows => do
    let row ← Term.lowerAll s row
    let rows ← Term.lowerRows s rows
    return Tokens.parens (Tokens.listed row) :: rows

/-- The tokens of each ordering term of a list, a term whose alias is among `names` by that
alias. -/
def OrderItem.lowerAll (s : Scope) (names : List String) : List OrderItem → LoweredList
  | [] => .ok []
  | ⟨⟨expr, alias?⟩, order⟩ :: items => do
    let t ← match alias?.filter names.contains with
      | some a => .ok [.aliasName a]
      | none => expr.lower s
    let items ← OrderItem.lowerAll s names items
    return (t ++ Tokens.direction order) :: items

/-- The tokens of each branch of a list. -/
def Branch.lowerAll (s : Scope) : List Branch → LoweredList
  | [] => .ok []
  | ⟨condition, result⟩ :: branches => do
    let b ← Clause.branch (condition.lower s) (result.lower s)
    let branches ← Branch.lowerAll s branches
    return b :: branches

/-- The tokens of each source of a list. -/
def Source.lowerAll (s : Scope) : List Source → LoweredList
  | [] => .ok []
  | source :: sources => do
    let source ← source.lower s
    let sources ← Source.lowerAll s sources
    return source :: sources

/-- The tokens of each join of a list. -/
def Join.lowerAll (s : Scope) : List Join → LoweredList
  | [] => .ok []
  | j :: joins => do
    let j ← j.lower s
    let joins ← Join.lowerAll s joins
    return j :: joins

/-- The tokens of each common table of a list. -/
def CommonTable.lowerAll (s : Scope) : List CommonTable → LoweredList
  | [] => .ok []
  | t :: ts => do
    let t ← t.lower s
    let ts ← CommonTable.lowerAll s ts
    return t :: ts

/-- The tokens of each assignment of a list. -/
def Assignment.lowerAll (s : Scope) : List Assignment → LoweredList
  | [] => .ok []
  | a :: as => do
    let a ← a.lower s
    let as ← Assignment.lowerAll s as
    return a :: as

/-- The tokens of each operand of a list, with its operator. All operands have `width` items. -/
def Operand.lowerAll (s : Scope) (width : Nat) : List Operand → LoweredList
  | [] => .ok []
  | ⟨op, query⟩ :: operands => do
    let o ← Statement.operand op width query.selectCount (query.lower s)
    let operands ← Operand.lowerAll s width operands
    return o :: operands

end

end SqlScribe
