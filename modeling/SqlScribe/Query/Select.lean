import SqlScribe.Query.Basic
/-! # Select lists, groups and order

The calls that make up a selection. Selecting all columns of a source takes in the columns of that
source that are selected, before or after; selecting all columns of everything takes in all other
columns. -/

namespace SqlScribe.Query

/-- The column is among those that a star in the select list stands for. -/
def isCovered (q : Query) (column : Term) : Bool :=
  q.info.selectsStar ||
    match column.qualifier? with
    | some qualifier => q.info.starred.contains qualifier
    | none => false

/-- Adds a field or star to the select list. A star takes the place of what it covers. -/
def selectColumn (q : Query) (column : Term) : Query :=
  if q.isCovered column then q
  else if column.isStar then
    match column.qualifier? with
    | none => { q with info.selectsStar := true, selects := [column] }
    | some qualifier =>
      { q with
        info.starred := q.info.starred ++ [qualifier]
        selects := q.selects.filter (fun t => !t.qualifier?.any (· == qualifier)) ++ [column] }
  else { q with selects := q.selects ++ [column] }

/-- Adds an item to the select list. A column given by name belongs to the first source. -/
def selectItem (q : Query) : SelectItem → Except QueryError Query
  | .column name =>
    match q.sourceQualifier? with
    | some qualifier => .ok (q.selectColumn (SelectItem.toTerm (some qualifier) (.column name)))
    | none => .error (.configuration (.selectWithoutSource name))
  | .term t =>
    if t.isField || t.isStar then .ok (q.selectColumn t)
    else .ok { q with selects := q.selects ++ [t] }

/-- Adds items to the select list. There is none beside rows of values, in an update or in a
deletion. -/
def select (q : Query) (items : List SelectItem) : Except QueryError Query :=
  if !q.rows.isEmpty then .error (.configuration .selectAfterValues)
  else if q.info.action.isChange then .error (.configuration .selectInChange)
  else items.foldlM selectItem q

/-- The terms of items; columns belong to the first source. -/
def termsOf (q : Query) (items : List SelectItem) : List Term :=
  items.map (SelectItem.toTerm q.sourceQualifier?)

/-- Drops repeated rows. -/
def distinct (q : Query) : Query := { q with info.distinct := true }

/-- Keeps one row for equal values of some items. -/
def distinctOver (q : Query) (items : List SelectItem) : Query :=
  { q with distinctOn := q.distinctOn ++ q.termsOf items }

/-- Keeps a number or a share of the rows. -/
def top (q : Query) (t : Top) : Except QueryError Query :=
  if t.percent && 100 < t.count then .error (.usage (.percentAboveAll t.count))
  else .ok { q with info.top := some t }

/-- Keeps the rows of which a condition holds too. -/
def restrict (q : Query) (c : Condition) : Query := { q with filter := q.filter.and c }

/-- Keeps the groups of which a condition holds too. -/
def restrictGroups (q : Query) (c : Condition) : Query := { q with having := q.having.and c }

/-- Groups the rows by some items too. -/
def group (q : Query) (items : List SelectItem) : Query :=
  { q with groupBy := q.groupBy ++ q.termsOf items }

/-- Grouping terms with more terms in a rollup: the last grouping term takes them up if it is a
rollup. -/
def extendRollup (groups terms : List Term) : List Term :=
  match groups.getLast? with
  | some ⟨.call c, alias?⟩ =>
    if c.name = "ROLLUP" then
      groups.dropLast ++ [⟨.call { c with args := c.args ++ terms }, alias?⟩]
    else groups ++ [Term.invoke "ROLLUP" terms]
  | _ => groups ++ [Term.invoke "ROLLUP" terms]

/-- Adds super-aggregate rows over some items, in the way of the query's dialect. -/
def rollup (q : Query) (items : List SelectItem) : Except QueryError Query :=
  let terms := q.termsOf items
  match q.info.dialect.profile.rollup with
  | .withRollup =>
    if q.info.withRollup then .error (.grouping .secondRollup)
    else if terms.isEmpty && q.groupBy.isEmpty then .error (.grouping .rollupOfNothing)
    else .ok { q with info.withRollup := true, groupBy := q.groupBy ++ terms }
  | .function => .ok { q with groupBy := extendRollup q.groupBy terms }

/-- Orders the rows by some items too. -/
def order (q : Query) (items : List SelectItem) (direction : Option SortOrder) : Query :=
  { q with orderBy := q.orderBy ++ (q.termsOf items).map (⟨·, direction⟩) }

/-- Keeps so many rows. -/
def limit (q : Query) (n : UInt64) : Query := { q with info.limit := some n }

/-- Passes over so many rows. -/
def offset (q : Query) (n : UInt64) : Query := { q with info.offset := some n }

/-- Locks the rows. -/
def lock (q : Query) (l : Lock) : Query := { q with info.lock := some l }

end SqlScribe.Query
