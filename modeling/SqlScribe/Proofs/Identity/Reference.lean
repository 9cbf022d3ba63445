import SqlScribe.Query.Step
/-! # What a value refers to

A query refers to its sources and to whatever its fields and stars belong to, by identity, and so do
the queries inside it. A query that merely stands where a term does, or is an operand of a set
operation or a common table, is written without a look at its identity and is not referred to.

* `Query.references`, `Condition.references`: the identities that a value refers to.
* `Query.RefersIn`: all of them are in a list, clause by clause.
* `Condition.qualifiers_references`: the qualifiers of syntax are among what it refers to.
* `Query.Step.references`: the identities that the arguments of a call refer to. -/

namespace SqlScribe

/-- The identity that a qualifier refers to. -/
def Qualifier.references : Qualifier → List SourceId
  | .table t => [t.id]
  | .subquery id _ => [id]
  | .raw _ => []

/-- The identity that an action refers to: that of its target. -/
def Action.references : Action → List SourceId
  | .select => []
  | .insert t _ => [t.id]
  | .update t => [t.id]
  | .delete => []

/-- The identities that the part of a query without terms refers to: of sources that it has named,
of those that are selected as a whole, and of the target. -/
def QueryInfo.references (i : QueryInfo) : List SourceId :=
  i.aliases.map (·.1) ++ i.starred.flatMap Qualifier.references ++ i.action.references

mutual

/-- The identities that a term refers to. -/
def Term.references : Term → List SourceId
  | ⟨expr, _⟩ => expr.references

/-- The identities that an expression refers to. -/
def Expr.references : Expr → List SourceId
  | .field q _ => q.toList.flatMap Qualifier.references
  | .star q => q.toList.flatMap Qualifier.references
  | .value _ => []
  | .named _ _ => []
  | .null => []
  | .parameter _ => []
  | .raw _ => []
  | .tuple items => Term.referencesAll items
  | .array items => Term.referencesAll items
  | .interval _ => []
  | .arithmetic _ left right => left.references ++ right.references
  | .negative t => t.references
  | .call c => c.references
  | .case branches otherwise =>
    Branch.referencesAll branches ++
      match otherwise with
      | none => []
      | some t => t.references
  | .subquery q => q.references
  | .condition c => c.references

/-- The identities that a call refers to. -/
def Call.references : Call → List SourceId
  | ⟨_, _, _, _, _, args, filter, window⟩ =>
    Term.referencesAll args ++
      (match filter with
        | none => []
        | some c => c.references) ++
      (match window with
        | none => []
        | some w => w.references)

/-- The identities that a window refers to. -/
def Window.references : Window → List SourceId
  | ⟨partitionBy, orderBy, _⟩ =>
    Term.referencesAll partitionBy ++ OrderItem.referencesAll orderBy

/-- The identities that a condition refers to. -/
def Condition.references : Condition → List SourceId
  | .empty => []
  | .compare _ left right => left.references ++ right.references
  | .matches _ _ t pattern _ => t.references ++ pattern.references
  | .json _ left right => left.references ++ right.references
  | .search _ t value => t.references ++ value.references
  | .isNull _ t => t.references
  | .isIn _ t items => t.references ++ Term.referencesAll items
  | .isInRows _ t rows => t.references ++ rows.references
  | .between _ t low high => t.references ++ low.references ++ high.references
  | .hasRows _ rows => rows.references
  | .combined _ left right => left.references ++ right.references
  | .not c => c.references
  | .term t => t.references

/-- The identities that a query or set operation refers to. -/
def Subquery.references : Subquery → List SourceId
  | .query q => q.references
  | .compound c => c.references

/-- The identities that a source refers to, its own one first. -/
def Source.references : Source → List SourceId
  | .table t => [t.id]
  | .subquery (.query q) => q.info.id :: q.references
  | .subquery (.compound c) => c.id :: c.references

/-- The identities that a join refers to. -/
def Join.references : Join → List SourceId
  | ⟨_, source, condition⟩ => source.references ++ condition.references

/-- The identities that the condition of a join refers to. -/
def JoinCondition.references : JoinCondition → List SourceId
  | .all => []
  | .on c => c.references
  | .sharing _ => []

/-- The identities that a common table refers to. -/
def CommonTable.references : CommonTable → List SourceId
  | ⟨_, _, _, body⟩ => body.references

/-- The identities that an assignment refers to. -/
def Assignment.references : Assignment → List SourceId
  | ⟨column, value⟩ => column.references ++ value.references

/-- The identities that a conflict clause refers to. -/
def Conflict.references : Conflict → List SourceId
  | ⟨targets, targetFilter, _, assignments, updateFilter⟩ =>
    Term.referencesAll targets ++ targetFilter.references ++ Assignment.referencesAll assignments ++
      updateFilter.references

/-- The identities that a query refers to. -/
def Query.references : Query → List SourceId
  | ⟨info, commonTables, sources, selects, distinctOn, joins, filter, groupBy, having, orderBy,
      columns, rows, conflict, duplicateUpdates, assignments, returning⟩ =>
    info.references ++ (CommonTable.referencesAll commonTables ++ (Source.referencesAll sources ++
      (Term.referencesAll selects ++ (Term.referencesAll distinctOn ++ (Join.referencesAll joins ++
      (filter.references ++ (Term.referencesAll groupBy ++ (having.references ++
      (OrderItem.referencesAll orderBy ++ (Term.referencesAll columns ++
      (Term.referencesRows rows ++
      ((match conflict with
        | none => []
        | some c => c.references) ++ (Assignment.referencesAll duplicateUpdates ++
      (Assignment.referencesAll assignments ++ Term.referencesAll returning))))))))))))))

/-- The identities that a set operation refers to. -/
def Compound.references : Compound → List SourceId
  | ⟨_, base, operands, orderBy, _, _, _⟩ =>
    base.references ++ Operand.referencesAll operands ++ OrderItem.referencesAll orderBy

/-- The identities that a list of terms refers to. -/
def Term.referencesAll : List Term → List SourceId
  | [] => []
  | t :: ts => t.references ++ Term.referencesAll ts

/-- The identities that a list of rows refers to. -/
def Term.referencesRows : List (List Term) → List SourceId
  | [] => []
  | row :: rows => Term.referencesAll row ++ Term.referencesRows rows

/-- The identities that a list of ordering terms refers to. -/
def OrderItem.referencesAll : List OrderItem → List SourceId
  | [] => []
  | ⟨t, _⟩ :: items => t.references ++ OrderItem.referencesAll items

/-- The identities that a list of branches refers to. -/
def Branch.referencesAll : List Branch → List SourceId
  | [] => []
  | ⟨condition, result⟩ :: branches =>
    condition.references ++ result.references ++ Branch.referencesAll branches

/-- The identities that a list of sources refers to. -/
def Source.referencesAll : List Source → List SourceId
  | [] => []
  | source :: sources => source.references ++ Source.referencesAll sources

/-- The identities that a list of joins refers to. -/
def Join.referencesAll : List Join → List SourceId
  | [] => []
  | j :: joins => j.references ++ Join.referencesAll joins

/-- The identities that a list of common tables refers to. -/
def CommonTable.referencesAll : List CommonTable → List SourceId
  | [] => []
  | t :: ts => t.references ++ CommonTable.referencesAll ts

/-- The identities that a list of assignments refers to. -/
def Assignment.referencesAll : List Assignment → List SourceId
  | [] => []
  | a :: as => a.references ++ Assignment.referencesAll as

/-- The identities that a list of operands refers to. -/
def Operand.referencesAll : List Operand → List SourceId
  | [] => []
  | ⟨_, query⟩ :: operands => query.references ++ Operand.referencesAll operands

end

/-! ## Lists -/

theorem Term.referencesAll_append (ts us : List Term) :
    Term.referencesAll (ts ++ us) = Term.referencesAll ts ++ Term.referencesAll us := by
  induction ts with
  | nil => rfl
  | cons t ts ih =>
    rw [List.cons_append, Term.referencesAll, ih, Term.referencesAll, List.append_assoc]

theorem Term.referencesAll_subset {ts : List Term} {S : List SourceId} :
    Term.referencesAll ts ⊆ S ↔ ∀ t ∈ ts, t.references ⊆ S := by
  induction ts with
  | nil => simp [Term.referencesAll]
  | cons t ts ih => rw [Term.referencesAll, List.append_subset, ih, List.forall_mem_cons]

theorem Term.referencesRows_append (rows rows' : List (List Term)) :
    Term.referencesRows (rows ++ rows') =
      Term.referencesRows rows ++ Term.referencesRows rows' := by
  induction rows with
  | nil => rfl
  | cons row rows ih =>
    rw [List.cons_append, Term.referencesRows, ih, Term.referencesRows, List.append_assoc]

theorem OrderItem.referencesAll_append (items items' : List OrderItem) :
    OrderItem.referencesAll (items ++ items') =
      OrderItem.referencesAll items ++ OrderItem.referencesAll items' := by
  induction items with
  | nil => rfl
  | cons item items ih =>
    cases item
    rw [List.cons_append, OrderItem.referencesAll, ih, OrderItem.referencesAll, List.append_assoc]

theorem OrderItem.referencesAll_map (ts : List Term) (order : Option SortOrder) :
    OrderItem.referencesAll (ts.map (⟨·, order⟩)) = Term.referencesAll ts := by
  induction ts with
  | nil => rfl
  | cons t ts ih => rw [List.map_cons, OrderItem.referencesAll, ih, Term.referencesAll]

theorem Source.referencesAll_append (sources sources' : List Source) :
    Source.referencesAll (sources ++ sources') =
      Source.referencesAll sources ++ Source.referencesAll sources' := by
  induction sources with
  | nil => rfl
  | cons source sources ih =>
    rw [List.cons_append, Source.referencesAll, ih, Source.referencesAll, List.append_assoc]

theorem Join.referencesAll_append (joins joins' : List Join) :
    Join.referencesAll (joins ++ joins') =
      Join.referencesAll joins ++ Join.referencesAll joins' := by
  induction joins with
  | nil => rfl
  | cons j joins ih =>
    rw [List.cons_append, Join.referencesAll, ih, Join.referencesAll, List.append_assoc]

theorem CommonTable.referencesAll_append (ts us : List CommonTable) :
    CommonTable.referencesAll (ts ++ us) =
      CommonTable.referencesAll ts ++ CommonTable.referencesAll us := by
  induction ts with
  | nil => rfl
  | cons t ts ih =>
    rw [List.cons_append, CommonTable.referencesAll, ih, CommonTable.referencesAll,
      List.append_assoc]

theorem Assignment.referencesAll_append (as bs : List Assignment) :
    Assignment.referencesAll (as ++ bs) =
      Assignment.referencesAll as ++ Assignment.referencesAll bs := by
  induction as with
  | nil => rfl
  | cons a as ih =>
    rw [List.cons_append, Assignment.referencesAll, ih, Assignment.referencesAll, List.append_assoc]

/-! ## Queries -/

/-- A query refers to nothing but the identities of a list. -/
structure Query.RefersIn (S : List SourceId) (q : Query) : Prop where
  aliases : q.info.aliases.map (·.1) ⊆ S
  starred : q.info.starred.flatMap Qualifier.references ⊆ S
  action : q.info.action.references ⊆ S
  commonTables : CommonTable.referencesAll q.commonTables ⊆ S
  sources : Source.referencesAll q.sources ⊆ S
  selects : Term.referencesAll q.selects ⊆ S
  distinctOn : Term.referencesAll q.distinctOn ⊆ S
  joins : Join.referencesAll q.joins ⊆ S
  filter : q.filter.references ⊆ S
  groupBy : Term.referencesAll q.groupBy ⊆ S
  having : q.having.references ⊆ S
  orderBy : OrderItem.referencesAll q.orderBy ⊆ S
  columns : Term.referencesAll q.columns ⊆ S
  rows : Term.referencesRows q.rows ⊆ S
  conflict : ∀ c ∈ q.conflict, c.references ⊆ S
  duplicateUpdates : Assignment.referencesAll q.duplicateUpdates ⊆ S
  assignments : Assignment.referencesAll q.assignments ⊆ S
  returning : Term.referencesAll q.returning ⊆ S

theorem Query.refersIn_iff {S : List SourceId} {q : Query} : q.RefersIn S ↔ q.references ⊆ S := by
  have hconflict : (∀ c ∈ q.conflict, c.references ⊆ S) ↔
      (match q.conflict with
        | none => []
        | some c => c.references) ⊆ S := by
    cases q.conflict with
    | none => simp
    | some c => simp
  obtain ⟨info, commonTables, sources, selects, distinctOn, joins, filter, groupBy, having, orderBy,
    columns, rows, conflict, duplicateUpdates, assignments, returning⟩ := q
  rw [Query.references.eq_def]
  simp only [List.append_subset, ← hconflict, QueryInfo.references]
  constructor
  · intro h
    exact ⟨⟨⟨h.aliases, h.starred⟩, h.action⟩, h.commonTables, h.sources, h.selects, h.distinctOn,
      h.joins, h.filter, h.groupBy, h.having, h.orderBy, h.columns, h.rows, h.conflict,
      h.duplicateUpdates, h.assignments, h.returning⟩
  · rintro ⟨⟨⟨aliases, starred⟩, action⟩, commonTables, sources, selects, distinctOn, joins, filter,
      groupBy, having, orderBy, columns, rows, conflict, duplicateUpdates, assignments, returning⟩
    exact ⟨aliases, starred, action, commonTables, sources, selects, distinctOn, joins, filter,
      groupBy, having, orderBy, columns, rows, conflict, duplicateUpdates, assignments, returning⟩

/-! ## Qualifiers -/

theorem Qualifier.references_append {qs qs' : List Qualifier} {l l' : List SourceId}
    (h : qs.flatMap references ⊆ l) (h' : qs'.flatMap references ⊆ l') :
    (qs ++ qs').flatMap references ⊆ l ++ l' := by
  rw [List.flatMap_append]
  exact List.append_subset.mpr ⟨List.subset_append_of_subset_left _ h,
    List.subset_append_of_subset_right _ h'⟩

mutual

theorem Term.qualifiers_references :
    ∀ t : Term, t.qualifiers.flatMap Qualifier.references ⊆ t.references
  | ⟨expr, _⟩ => Expr.qualifiers_references expr

theorem Expr.qualifiers_references :
    ∀ e : Expr, e.qualifiers.flatMap Qualifier.references ⊆ e.references
  | .field _ _ => List.Subset.refl _
  | .star _ => List.Subset.refl _
  | .value _ => List.nil_subset _
  | .named _ _ => List.nil_subset _
  | .null => List.nil_subset _
  | .parameter _ => List.nil_subset _
  | .raw _ => List.nil_subset _
  | .tuple items => Term.qualifiersAll_references items
  | .array items => Term.qualifiersAll_references items
  | .interval _ => List.nil_subset _
  | .arithmetic _ left right =>
    Qualifier.references_append (Term.qualifiers_references left) (Term.qualifiers_references right)
  | .negative t => Term.qualifiers_references t
  | .call c => Call.qualifiers_references c
  | .case branches none =>
    Qualifier.references_append (Branch.qualifiersAll_references branches) (List.nil_subset _)
  | .case branches (some t) =>
    Qualifier.references_append (Branch.qualifiersAll_references branches)
      (Term.qualifiers_references t)
  | .subquery _ => List.nil_subset _
  | .condition c => Condition.qualifiers_references c

theorem Call.qualifiers_references :
    ∀ c : Call, c.qualifiers.flatMap Qualifier.references ⊆ c.references
  | ⟨_, _, _, _, _, args, none, none⟩ =>
    Qualifier.references_append
      (Qualifier.references_append (Term.qualifiersAll_references args) (List.nil_subset _))
      (List.nil_subset _)
  | ⟨_, _, _, _, _, args, none, some w⟩ =>
    Qualifier.references_append
      (Qualifier.references_append (Term.qualifiersAll_references args) (List.nil_subset _))
      (Window.qualifiers_references w)
  | ⟨_, _, _, _, _, args, some c, none⟩ =>
    Qualifier.references_append
      (Qualifier.references_append (Term.qualifiersAll_references args)
        (Condition.qualifiers_references c))
      (List.nil_subset _)
  | ⟨_, _, _, _, _, args, some c, some w⟩ =>
    Qualifier.references_append
      (Qualifier.references_append (Term.qualifiersAll_references args)
        (Condition.qualifiers_references c))
      (Window.qualifiers_references w)

theorem Window.qualifiers_references :
    ∀ w : Window, w.qualifiers.flatMap Qualifier.references ⊆ w.references
  | ⟨partitionBy, orderBy, _⟩ =>
    Qualifier.references_append (Term.qualifiersAll_references partitionBy)
      (OrderItem.qualifiersAll_references orderBy)

theorem Condition.qualifiers_references :
    ∀ c : Condition, c.qualifiers.flatMap Qualifier.references ⊆ c.references
  | .empty => List.nil_subset _
  | .compare _ left right =>
    Qualifier.references_append (Term.qualifiers_references left) (Term.qualifiers_references right)
  | .matches _ _ t pattern _ =>
    Qualifier.references_append (Term.qualifiers_references t) (Term.qualifiers_references pattern)
  | .json _ left right =>
    Qualifier.references_append (Term.qualifiers_references left) (Term.qualifiers_references right)
  | .search _ t value =>
    Qualifier.references_append (Term.qualifiers_references t) (Term.qualifiers_references value)
  | .isNull _ t => Term.qualifiers_references t
  | .isIn _ t items =>
    Qualifier.references_append (Term.qualifiers_references t)
      (Term.qualifiersAll_references items)
  | .isInRows _ t _ =>
    List.subset_append_of_subset_left _ (Term.qualifiers_references t)
  | .between _ t low high =>
    Qualifier.references_append
      (Qualifier.references_append (Term.qualifiers_references t) (Term.qualifiers_references low))
      (Term.qualifiers_references high)
  | .hasRows _ _ => List.nil_subset _
  | .combined _ left right =>
    Qualifier.references_append (Condition.qualifiers_references left)
      (Condition.qualifiers_references right)
  | .not c => Condition.qualifiers_references c
  | .term t => Term.qualifiers_references t

theorem Term.qualifiersAll_references : ∀ ts : List Term,
    (Term.qualifiersAll ts).flatMap Qualifier.references ⊆ Term.referencesAll ts
  | [] => List.nil_subset _
  | t :: ts =>
    Qualifier.references_append (Term.qualifiers_references t) (Term.qualifiersAll_references ts)

theorem OrderItem.qualifiersAll_references : ∀ items : List OrderItem,
    (OrderItem.qualifiersAll items).flatMap Qualifier.references ⊆ OrderItem.referencesAll items
  | [] => List.nil_subset _
  | ⟨t, _⟩ :: items =>
    Qualifier.references_append (Term.qualifiers_references t)
      (OrderItem.qualifiersAll_references items)

theorem Branch.qualifiersAll_references : ∀ branches : List Branch,
    (Branch.qualifiersAll branches).flatMap Qualifier.references ⊆ Branch.referencesAll branches
  | [] => List.nil_subset _
  | ⟨c, t⟩ :: branches =>
    Qualifier.references_append
      (Qualifier.references_append (Condition.qualifiers_references c)
        (Term.qualifiers_references t))
      (Branch.qualifiersAll_references branches)

end

/-- What the qualifier of a field or star refers to, the field or star does. -/
theorem Term.qualifier?_references {t : Term} {ns : Qualifier} (h : t.qualifier? = some ns) :
    ns.references ⊆ t.references := by
  obtain ⟨expr, alias?⟩ := t
  cases expr with
  | field q name =>
    obtain rfl : q = some ns := h
    show ns.references ⊆ [ns].flatMap Qualifier.references
    rw [List.flatMap_singleton]
    exact List.Subset.refl _
  | star q =>
    obtain rfl : q = some ns := h
    show ns.references ⊆ [ns].flatMap Qualifier.references
    rw [List.flatMap_singleton]
    exact List.Subset.refl _
  | _ => cases h

/-- What fields of a source refer to, the source does. -/
theorem Source.qualifier_references (source : Source) :
    source.qualifier.references ⊆ source.references := by
  cases source with
  | table t => exact List.Subset.refl _
  | subquery s =>
    cases s with
    | query q => exact List.cons_subset_cons _ (List.nil_subset _)
    | compound c => exact List.cons_subset_cons _ (List.nil_subset _)

/-- The identity of a source is among those that it refers to. -/
theorem Source.id_mem_references (source : Source) : source.id ∈ source.references := by
  cases source with
  | table t => exact List.mem_singleton_self _
  | subquery s =>
    cases s with
    | query q => exact List.mem_cons_self
    | compound c => exact List.mem_cons_self

/-! ## Calls -/

/-- The identities that an item refers to. -/
def SelectItem.references : SelectItem → List SourceId
  | .column _ => []
  | .term t => t.references

/-- The identities that the rule of a join refers to. -/
def JoinRule.references : JoinRule → List SourceId
  | .on c => c.references
  | .onFields _ => []
  | .sharing _ => []
  | .cross => []

/-- The identities that the arguments of a call refer to. -/
def Query.Step.references : Query.Step → List SourceId
  | .source s => s.references
  | .commonTable t => t.references
  | .select items => items.flatMap SelectItem.references
  | .distinctOn items => items.flatMap SelectItem.references
  | .filter c => c.references
  | .having c => c.references
  | .groupBy items => items.flatMap SelectItem.references
  | .rollup items => items.flatMap SelectItem.references
  | .orderBy items _ => items.flatMap SelectItem.references
  | .join _ s rule => s.references ++ rule.references
  | .into t => [t.id]
  | .columns items => items.flatMap SelectItem.references
  | .rows rs => Term.referencesRows rs
  | .replace row => Term.referencesAll row
  | .update t => [t.id]
  | .assign column value => column.references ++ value.references
  | .onConflict items => items.flatMap SelectItem.references
  | .doUpdate item value => item.references ++ value.toList.flatMap Term.references
  | .conflictWhere c => c.references
  | .onDuplicateUpdate item value => item.references ++ value.references
  | .returning items => items.flatMap SelectItem.references
  | .setImmutable _ | .fork | .aliased _ | .distinct | .top _ | .limit _ | .offset _ | .lock _
  | .ignore | .insertOrReplace | .delete | .usingTables _ | .doNothing | .onDuplicateIgnore => []

end SqlScribe
