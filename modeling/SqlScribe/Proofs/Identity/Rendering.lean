import SqlScribe.Proofs.Identity.Lowering
import SqlScribe.Proofs.Masking.Rendering
/-! # What is written under other identities

Identities only tell sources apart. If every identity in an item and in the scope around it is
renamed, and no two of them become one, then the item is written as before.

* `Item.recast`, `Scope.recast`: an item and a scope as another run has them.
* `Item.lower_recast`: the tokens of an item in a scope are those of the other item in the other
  scope.
* `Item.Renames`, `Scope.renamed`: items and scopes that differ in their identities only.
* `Item.lower_renamed`: such items have the same tokens or fail with the same error. -/

namespace SqlScribe

variable {r : Recast}

/-- The scope as another run has it. -/
def Scope.recast (r : Recast) (s : Scope) : Scope := { s with aliases := r.aliases s.aliases }

/-- The choice as another run has it. -/
def Case.recast (r : Recast) (c : Case) : Case :=
  { branches := Branch.recastAll r c.branches
    otherwise := c.otherwise.map (·.recast r) }

/-- The column as another run has it. -/
def Column.recast (r : Recast) (c : Column) : Column :=
  { c with default := c.default.map (·.recast r) }

/-- The foreign key as another run has it. -/
def ForeignKey.recast (r : Recast) (k : ForeignKey) : ForeignKey :=
  { k with table := k.table.recast r }

/-- The statement as another run has it. -/
def CreateTable.recast (r : Recast) (c : CreateTable) : CreateTable :=
  { c with
    table := c.table.recast r
    columns := c.columns.map (·.recast r)
    foreignKey := c.foreignKey.map (·.recast r)
    query := c.query.map (·.recast r) }

/-- The statement as another run has it. -/
def DropObject.recast (r : Recast) (d : DropObject) : DropObject :=
  { d with target := d.target.recast r }

/-- The item as another run has it. -/
def Item.recast (r : Recast) : Item → Item
  | .table t => .table (t.recast r)
  | .term t => .term (t.recast r)
  | .condition c => .condition (c.recast r)
  | .call c => .call (c.recast r)
  | .case c => .case (c.recast r)
  | .interval i => .interval i
  | .query q => .query (q.recast r)
  | .compound c => .compound (c.recast r)
  | .subquery q => .subquery (q.recast r)
  | .create c => .create (c.recast r)
  | .drop d => .drop (d.recast r)

/-- An injective renaming tells all identities apart, whichever are referred to. -/
theorem Scope.seenAs_recast (hr : Function.Injective r.id) (s : Scope) (l : List SourceId) :
    s.SeenAs r (s.aliases.map (·.1) ++ l) (s.recast r) :=
  ⟨hr.injOn, List.subset_append_left _ _, rfl⟩

namespace CreateTable

variable (s : Scope)

theorem columnTokens_recast (hr : Function.Injective r.id) (c : Column) :
    columnTokens (s.recast r) (c.recast r) = columnTokens s c := by
  have hdefault : (c.default.map (·.recast r)).map (·.lower (s.recast r).quiet) =
      c.default.map (·.lower s.quiet) := by
    cases c.default with
    | none => rfl
    | some t =>
      have hscope := (s.seenAs_recast hr t.references).quiet
      exact congrArg some (t.lower_recast hscope (List.subset_append_right _ _))
  simp only [columnTokens, Column.recast, hdefault]
  rfl

theorem foreignKeyTokens_recast (k : ForeignKey) :
    foreignKeyTokens (s.recast r) (k.recast r) = foreignKeyTokens s k := rfl

theorem bodyTokens_recast (hr : Function.Injective r.id) (c : CreateTable) :
    bodyTokens (s.recast r) (c.recast r) = bodyTokens s c := by
  have hcolumns : (c.columns.map (·.recast r)).mapM (columnTokens (s.recast r)) =
      c.columns.mapM (columnTokens s) := by
    rw [List.mapM_map]
    exact congrArg (c.columns.mapM ·) (funext (columnTokens_recast s hr))
  simp only [bodyTokens, CreateTable.recast, hcolumns, Option.map_map, Function.comp_def,
    foreignKeyTokens_recast]

theorem lower_recast (hr : Function.Injective r.id) (c : CreateTable) :
    (c.recast r).lower (s.recast r) = c.lower s := by
  have hhead : (c.recast r).headTokens = c.headTokens := rfl
  have htable : (c.recast r).table.tokens (s.recast r) = c.table.tokens s := rfl
  have hcolumns : (c.recast r).columns.isEmpty = c.columns.isEmpty := List.isEmpty_map
  have hquery : (c.recast r).query = c.query.map (·.recast r) := rfl
  rw [lower, lower, hhead, htable, hcolumns, hquery, bodyTokens_recast s hr]
  cases c.query with
  | none => rfl
  | some q =>
    have hscope := (s.seenAs_recast hr q.references).embedded
    simp only [Option.map_some,
      q.lower_recast hscope (fun hshows => absurd hshows Bool.false_ne_true)
        (List.subset_append_right _ _)]

end CreateTable

/-- A query or set operation is written as in the other run. Its own identity is looked up where it
shows its name. -/
theorem Subquery.lower_recast_of_injective (hr : Function.Injective r.id) (s : Scope)
    (q : Subquery) : (q.recast r).lower (s.recast r) = q.lower s := by
  have hscope := s.seenAs_recast hr (q.id :: q.references)
  refine q.lower_recast hscope (fun _ => ?_) ?_
  · exact List.mem_append_right _ List.mem_cons_self
  · exact List.Subset.trans (List.subset_cons_self _ _) (List.subset_append_right _ _)

namespace Item

/-- An item is written as in another run that tells all identities apart. -/
theorem lower_recast (hr : Function.Injective r.id) (s : Scope) (x : Item) :
    (x.recast r).lower (s.recast r) = x.lower s := by
  have hscope (l : List SourceId) := s.seenAs_recast hr l
  cases x with
  | table t => rfl
  | term t => exact t.lower_recast (hscope t.references) (List.subset_append_right _ _)
  | condition c => exact c.lower_recast (hscope c.references) (List.subset_append_right _ _)
  | call c => exact c.lower_recast (hscope c.references) (List.subset_append_right _ _)
  | case c =>
    have hlower := c.toExpr.lower_recast (hscope c.toExpr.references)
      (List.subset_append_right _ _)
    obtain ⟨branches, otherwise⟩ := c
    cases otherwise with
    | none => exact hlower
    | some t => exact hlower
  | interval i => rfl
  | query q => exact Subquery.lower_recast_of_injective hr s (.query q)
  | compound c => exact Subquery.lower_recast_of_injective hr s (.compound c)
  | subquery q => exact q.lower_recast_of_injective hr s
  | create c => exact c.lower_recast s hr
  | drop d => rfl

/-- The second item is the first one with its identities renamed: in its tables, queries and set
operations, in the qualifiers of its fields, and in the names that its queries have given to
sources. Whether calls give its queries new identities is left out of account, as nothing that is
written shows it. -/
def Renames (f : SourceId → SourceId) (x y : Item) : Prop :=
  y.recast ⟨id, true⟩ = x.recast ⟨f, true⟩

end Item

/-- The scope with its identities renamed. -/
def Scope.renamed (f : SourceId → SourceId) (s : Scope) : Scope :=
  { s with aliases := s.aliases.map fun p => (f p.1, p.2) }

/-- **Identities only tell sources apart.** An item whose identities are renamed, no two of them to
one, has the same tokens in a scope that is renamed alike, or fails with the same error. -/
theorem Item.lower_renamed {f : SourceId → SourceId} (hf : Function.Injective f) {x y : Item}
    (h : x.Renames f y) (s : Scope) : y.lower (s.renamed f) = x.lower s := by
  -- Both items are written as what they are once the modes of their queries are alike.
  have hmodes : (s.renamed f).recast ⟨id, true⟩ = s.renamed f := by
    rw [Scope.recast, Recast.aliases]
    exact congrArg (fun l => { s.renamed f with aliases := l }) (List.map_id _)
  have hy : (y.recast ⟨id, true⟩).lower (s.renamed f) = y.lower (s.renamed f) := by
    rw [← hmodes, Item.lower_recast (r := ⟨id, true⟩) Function.injective_id, hmodes]
  have hx : (x.recast ⟨f, true⟩).lower (s.renamed f) = x.lower s :=
    Item.lower_recast (r := ⟨f, true⟩) hf s x
  rw [← hy, ← hx, h]

/-- A table that is joined with itself beside a query without a name, in a query that keeps its
identity; a field is of a table that the query around has named. -/
theorem Item.lower_renamed_selfJoin :
    let shift : SourceId → SourceId := fun id => ⟨id.index + 7⟩
    let t : ℕ → Table := fun k => { id := ⟨k⟩, name := "abc" }
    let inner : ℕ → Query := fun k => { Query.start ⟨k⟩ .ansi with
      sources := [.table (t (k + 1))]
      selects := [Term.field "x"] }
    let outer : ℕ → Query := fun k => { Query.start ⟨k⟩ .ansi with
      info.immutable := false
      info.aliases := [(⟨k + 3⟩, "sq0"), (⟨k + 2⟩, "abc2")]
      sources := [.table (t (k + 1)), .subquery (.query ((inner (k + 3)).aliased "sq0"))]
      joins := [⟨.inner, .table { t (k + 2) with alias? := some "abc2" }, .all⟩]
      selects := [(t (k + 1)).field "y", (t (k + 2)).field "y", (inner (k + 3)).field "x",
        (t (k + 5)).field "z"] }
    let s : ℕ → Scope := fun k => { dialect := .ansi, aliases := [(⟨k + 5⟩, "far")] }
    Function.Injective shift ∧ (Item.query (outer 1)).Renames shift (.query (outer 8)) ∧
      (s 1).renamed shift = s 8 ∧
      (Item.query (outer 8)).lower (s 8) = (Item.query (outer 1)).lower (s 1) ∧
      ((outer 1).lower (s 1)).toOption.map (Tokens.text Dialect.ansi.spelling) =
        some ("SELECT \"abc\".\"y\",\"abc2\".\"y\",\"sq0\".\"x\",\"far\".\"z\" FROM \"abc\"," ++
          "(SELECT \"x\" FROM \"abc\") \"sq0\" JOIN \"abc\" \"abc2\"") := by
  intro shift t inner outer s
  have hshift : Function.Injective shift := by
    rintro ⟨m⟩ ⟨n⟩ h
    exact congrArg SourceId.mk (Nat.add_right_cancel (congrArg SourceId.index h))
  have hrenames : (Item.query (outer 1)).Renames shift (.query (outer 8)) := rfl
  exact ⟨hshift, hrenames, rfl, Item.lower_renamed hshift hrenames (s 1), by decide +kernel⟩

end SqlScribe
