import SqlScribe.Lowering.Clause
/-! # Statements

The tokens of a whole query, put together from the tokens of its parts. Clauses are looked at in the
order in which they are written, so the first of them that cannot be written gives the error. -/

namespace SqlScribe

/-- The parts of a query in tokens. -/
structure QueryParts where
  /-- The queries it refers to by name. -/
  commonTables : LoweredList
  /-- Its sources. -/
  sources : LoweredList
  /-- The select list, with aliases. -/
  selects : LoweredList
  /-- The terms of `DISTINCT ON`. -/
  distinctOn : LoweredList
  /-- The joins. -/
  joins : LoweredList
  /-- The condition on rows. -/
  filter : Lowered
  /-- The grouping terms. -/
  groupBy : LoweredList
  /-- The condition on groups. -/
  having : Lowered
  /-- The ordering terms. -/
  orderBy : LoweredList
  /-- The columns of added rows. -/
  columns : LoweredList
  /-- The added rows. -/
  rows : LoweredList
  /-- The conflict clause. -/
  conflict : Lowered
  /-- The updates of rows with duplicate keys. -/
  duplicateUpdates : LoweredList
  /-- The updates. -/
  assignments : LoweredList
  /-- The returned items. -/
  returning : LoweredList

namespace Statement

/-- A clause of a keyword and listed items, unless there are none. -/
def listClause (keyword : Keyword) (items : LoweredList) : Lowered := do
  match ← items with
  | [] => .ok []
  | items => .ok (.space :: .word keyword :: .space :: Tokens.listed items)

/-- A clause of a keyword and a condition, unless there is none. -/
def conditionClause (keyword : Keyword) (isEmpty : Bool) (condition : Lowered) : Lowered :=
  if isEmpty then .ok []
  else do return .space :: .word keyword :: .space :: (← condition)

/-- The column of a common table and its body. -/
def commonTable (name : String) (columns : List String) (body : Lowered) : Lowered := do
  let body ← body
  return .ident name ::
    (if columns.isEmpty then [] else .space :: Tokens.parens (Tokens.idents columns))
      ++ Tokens.spaced (.word .AS) ++ Tokens.parens body

/-- The `WITH` clause. -/
def withClause (d : Dialect) (recursive : Bool) (tables : LoweredList) : Lowered := do
  match ← tables with
  | [] => .ok []
  | tables =>
    .ok (.word .WITH :: .space ::
      (if recursive && d.profile.recursiveWord then [.word .RECURSIVE, .space] else [])
        ++ Tokens.listed tables ++ [.space])

/-- The `DISTINCT` and `DISTINCT ON` clauses. -/
def distinctClause (d : Dialect) (distinct isEmpty : Bool) (terms : LoweredList) : Lowered :=
  if isEmpty then .ok (if distinct then [.word .DISTINCT, .space] else [])
  else if d.profile.distinctOn then do
    let terms ← terms
    return .word .DISTINCT :: .space :: .word .ON :: Tokens.parens (Tokens.listed terms)
      ++ [.space]
  else .error (.unsupported d .distinctOn)

/-- The `TOP` clause. -/
def topClause (d : Dialect) (top : Option Top) : Lowered :=
  match top with
  | none => .ok []
  | some t =>
    if d.profile.top then
      .ok (.word .TOP :: .space :: Tokens.parens [countToken t.count] ++ .space ::
        (if t.percent then [.word .PERCENT, .space] else [])
          ++ (if t.withTies then [.raw "WITH TIES", .space] else []))
    else .error (.unsupported d .top)

/-- The clause from `SELECT` to the end of the select list. -/
def selectClause (d : Dialect) (q : Query) (p : QueryParts) : Lowered := do
  let distinct ← distinctClause d q.info.distinct q.distinctOn.isEmpty p.distinctOn
  let top ← topClause d q.info.top
  let selects ← p.selects
  return .word .SELECT :: .space :: distinct ++ top ++ Tokens.listed selects

/-- The joins, each after a blank. -/
def joinClauses (joins : LoweredList) : Lowered := do
  return (← joins).flatMap (.space :: ·)

/-- The `GROUP BY` clause. -/
def groupClause (withRollup : Bool) (terms : LoweredList) : Lowered := do
  match ← terms with
  | [] => .ok []
  | terms =>
    .ok (.space :: .word .GROUP_BY :: .space :: Tokens.listed terms
      ++ (if withRollup then [.space, .word .WITH, .space, .raw "ROLLUP"] else []))

/-- The row window, after an ordering of no meaning where the dialect needs one and there is
none. -/
def windowClause (d : Dialect) (unordered : Bool) (limit offset : Option UInt64) : Tokens :=
  let proper := properOffset offset
  let filler :=
    if (limit.isSome || proper.isSome) && unordered && d.profile.orderForOffset then
      [.space, .word .ORDER_BY, .space, .raw "(SELECT 0)"]
    else []
  filler ++ d.window limit proper

/-- The `FOR UPDATE` clause. -/
def lockClause (s : Scope) (lock : Option Lock) : Lowered :=
  match lock with
  | none => .ok []
  | some lock =>
    if s.dialect.profile.forUpdate then
      let tables := match lock.tables with
        | [] => []
        | t :: ts =>
          .space :: .raw "OF" :: .space :: t.tokens s
            ++ ts.flatMap (fun t => .mark .comma :: .space :: t.tokens s)
      let wait := match lock.wait with
        | .wait => []
        | .noWait => [.space, .raw "NOWAIT"]
        | .skipLocked => [.space, .raw "SKIP LOCKED"]
      .ok (.space :: .word .FOR :: .space :: .word .UPDATE :: tables ++ wait)
    else .error (.unsupported s.dialect .forUpdate)

/-- The clauses of a selection behind the select list. -/
def selectTail (s : Scope) (q : Query) (p : QueryParts) : Lowered := do
  let sources ← listClause .FROM p.sources
  let joins ← joinClauses p.joins
  let filter ← conditionClause .WHERE q.filter.isEmpty p.filter
  let groupBy ← groupClause q.info.withRollup p.groupBy
  let having ← conditionClause .HAVING q.having.isEmpty p.having
  let orderBy ← listClause .ORDER_BY p.orderBy
  let window := windowClause s.dialect q.orderBy.isEmpty q.info.limit q.info.offset
  let lock ← lockClause s q.info.lock
  return sources ++ joins ++ filter ++ groupBy ++ having ++ orderBy ++ window ++ lock

/-- A selection, into a table if one is given. -/
def selection (s : Scope) (q : Query) (p : QueryParts) (target : Option Table) : Lowered := do
  let select ← selectClause s.dialect q p
  let into := match target with
    | none => []
    | some t => .space :: .word .INTO :: .space :: t.tokens s
  let tail ← selectTail s q p
  return select ++ into ++ tail

/-- The keywords of an insertion. -/
def insertHead (d : Dialect) : InsertMode → Lowered
  | .insert => .ok [.word .INSERT, .space, .word .INTO]
  | .ignore =>
    match d.profile.insertIgnore with
    | some words => .ok [.word .INSERT, .space, .raw words, .space, .word .INTO]
    | none => .error (.unsupported d .insertIgnore)
  | .replace =>
    if d.profile.replace then .ok [.word .REPLACE, .space, .word .INTO]
    else .error (.unsupported d .replace)
  | .insertOrReplace =>
    if d.profile.insertOrReplace then
      .ok [.word .INSERT, .space, .word .OR, .space, .word .REPLACE, .space, .word .INTO]
    else .error (.unsupported d .insertOrReplace)

/-- An assignment to a column. -/
def assignment (column value : Lowered) : Lowered := do
  let column ← column
  let value ← value
  return column ++ .mark .eq :: value

/-- The parts of a conflict clause in tokens. -/
structure ConflictParts where
  /-- The columns in conflict. -/
  targets : LoweredList
  /-- The condition on the index. -/
  targetFilter : Lowered
  /-- The changes of the existing row. -/
  assignments : LoweredList
  /-- The condition on the existing row. -/
  updateFilter : Lowered

/-- A condition clause between blanks, unless there is no condition. -/
def whereClause (isEmpty : Bool) (condition : Lowered) : Lowered :=
  if isEmpty then .ok []
  else do return Tokens.spaced (.word .WHERE) ++ (← condition)

/-- The columns in conflict, between parentheses. -/
def conflictTargets : List Tokens → Tokens
  | [] => []
  | t :: ts => .space :: Tokens.parens (t ++ ts.flatMap fun t => .mark .comma :: .space :: t)

/-- What is done about a conflict. -/
def conflictHandler (c : Conflict) (p : ConflictParts) : ConflictHandler → Lowered
  | .nothing => .ok (Tokens.spaced (.word .DO) ++ [.word .NOTHING])
  | .update =>
    if c.targets.isEmpty then .error (.configuration .conflictUpdateWithoutTargets)
    else do
      let assignments ← p.assignments
      let filter ← whereClause c.updateFilter.isEmpty p.updateFilter
      return Tokens.spaced (.word .DO) ++ .word .UPDATE :: .space :: .word .SET :: .space ::
        Tokens.listed assignments ++ filter

/-- The `ON CONFLICT` clause. -/
def conflictClause (d : Dialect) (c : Conflict) (p : ConflictParts) : Lowered :=
  if d.profile.upsert ≠ .onConflict then .error (.unsupported d .onConflict)
  else
    match c.handler with
    | none =>
      if c.targets.isEmpty then .ok [] else .error (.configuration .conflictWithoutHandler)
    | some handler => do
      let targets ← p.targets
      let filter ← whereClause c.targetFilter.isEmpty p.targetFilter
      let handler ← conflictHandler c p handler
      return .space :: .word .ON :: .space :: .word .CONFLICT :: conflictTargets targets
        ++ filter ++ handler

/-- The `ON DUPLICATE KEY UPDATE` clause. -/
def duplicateClause (d : Dialect) (isEmpty : Bool) (updates : LoweredList) : Lowered :=
  if isEmpty then .ok []
  else if d.profile.upsert ≠ .onDuplicateKey then .error (.unsupported d .onDuplicateKey)
  else do
    return .space :: .word .ON :: .space :: .raw "DUPLICATE KEY" :: .space :: .word .UPDATE ::
      .space :: Tokens.listed (← updates)

/-- The first table among the qualifiers of the returned items that takes no part in the
statement. -/
def foreignReturned? (q : Query) : Option Table :=
  (Term.qualifiersAll q.returning).findSome? fun
    | .table t =>
      if q.info.action.insertTarget?.any (· == t) || q.hasTable t then none else some t
    | .subquery _ _ => none
    | .raw _ => none

/-- The `RETURNING` clause. -/
def returningClause (d : Dialect) (q : Query) (items : LoweredList) : Lowered :=
  if q.returning.isEmpty then .ok []
  else if d.profile.returning then
    match foreignReturned? q with
    | some t => .error (.configuration (.foreignReturned t.shownName))
    | none => do return Tokens.spaced (.word .RETURNING) ++ Tokens.listed (← items)
  else .error (.unsupported d .returning)

/-- The columns of added rows. -/
def columnClause (columns : LoweredList) : Lowered := do
  match ← columns with
  | [] => .ok []
  | columns => .ok (.space :: Tokens.parens (Tokens.listed columns))

/-- What an insertion adds: its rows, or those that it selects. -/
def addedRows (s : Scope) (q : Query) (p : QueryParts) : Lowered :=
  if q.rows.isEmpty then do
    let select ← selectClause s.dialect q p
    let tail ← selectTail s q p
    return .space :: select ++ tail
  else listClause .VALUES p.rows

/-- An insertion. -/
def insertion (s : Scope) (q : Query) (p : QueryParts) (target : Table) : Lowered := do
  let head ← insertHead s.dialect q.info.insertMode
  let columns ← columnClause p.columns
  let added ← addedRows s q p
  let conflict ← p.conflict
  let duplicates ← duplicateClause s.dialect q.duplicateUpdates.isEmpty p.duplicateUpdates
  let returning ← returningClause s.dialect q p.returning
  return head ++ .space :: target.tokens s ++ columns ++ added ++ conflict ++ duplicates
    ++ returning

/-- The limit of an update or deletion. -/
def limitClause (limit : Option UInt64) : Tokens :=
  PaginationStyle.clause PaginationStyle.limitClause limit

/-- The clauses that an update and a deletion end with. -/
def changeTail (s : Scope) (q : Query) (p : QueryParts) : Lowered := do
  let filter ← conditionClause .WHERE q.filter.isEmpty p.filter
  let orderBy ← listClause .ORDER_BY p.orderBy
  let returning ← returningClause s.dialect q p.returning
  return filter ++ orderBy ++ limitClause q.info.limit ++ returning

/-- An update. -/
def update (s : Scope) (q : Query) (p : QueryParts) (target : Table) : Lowered := do
  let joins ← joinClauses p.joins
  let assignments ← p.assignments
  let sources ← listClause .FROM p.sources
  let tail ← changeTail s q p
  return .word .UPDATE :: .space :: target.tokens s ++ joins ++ Tokens.spaced (.word .SET)
    ++ Tokens.listed assignments ++ sources ++ tail

/-- The further tables of a deletion. -/
def usingClause (s : Scope) (tables : List Table) : Tokens :=
  match tables with
  | [] => []
  | tables => Tokens.spaced (.word .USING) ++ Tokens.listed (tables.map (·.tokens s))

/-- A deletion. -/
def deletion (s : Scope) (q : Query) (p : QueryParts) : Lowered := do
  let sources ← listClause .FROM p.sources
  let joins ← joinClauses p.joins
  let tail ← changeTail s q p
  return .word .DELETE :: sources ++ usingClause s q.info.usingTables ++ joins ++ tail

/-- The statement of a query, without common tables. -/
def body (s : Scope) (q : Query) (p : QueryParts) : Lowered :=
  match q.info.action with
  | .select => selection s q p none
  | .insert t true => selection s q p (some t)
  | .insert t false => insertion s q p t
  | .update t => update s q p t
  | .delete => deletion s q p

/-- The whole statement of a query in its inner scope. -/
def whole (s : Scope) (q : Query) (p : QueryParts) : Lowered := do
  let commonTables ← withClause s.dialect (q.commonTables.any (·.recursive)) p.commonTables
  let body ← body s q p
  return commonTables ++ body

/-- A statement as it stands in its surroundings: in parentheses where it is nested, followed by its
name where aliases are shown. -/
def placed (s : Scope) (id : SourceId) (alias? : Option String) (body : Tokens) : Tokens :=
  Tokens.parensIf s.nested body ++
    (if s.showsAlias then
      match alias?.or (s.alias? id) with
      | some a => s.aliasSuffix a
      | none => []
    else [])

/-- An operand of a set operation after its operator. All operands have as many items as the first
one has. -/
def operand (op : SetOperator) (first other : Nat) (query : Lowered) : Lowered :=
  if other ≠ first then .error (.unequalWidths first other)
  else do return .space :: op.tokens ++ .space :: (← query)

/-- A set operation. -/
def compound (d : Dialect) (base : Lowered) (operands orderBy : LoweredList) (unordered : Bool)
    (limit offset : Option UInt64) : Lowered := do
  let base ← base
  let operands ← operands
  let orderBy ← listClause .ORDER_BY orderBy
  return base ++ operands.flatten ++ orderBy ++ windowClause d unordered limit offset

/-- A joined source. -/
def join (kind : JoinKind) (source condition : Lowered) : Lowered := do
  let source ← source
  let condition ← condition
  return (match kind.words? with
      | some words => [.raw words, .space]
      | none => []) ++ .word .JOIN :: .space :: source ++ condition

end Statement

end SqlScribe
