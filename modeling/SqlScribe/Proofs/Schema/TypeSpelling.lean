import SqlScribe.Function.Catalogue
import SqlScribe.Proofs.Occurrence.Placed
/-! # Spelling of data types

A data type is written for a column of a new table and for a cast.

* `Dialect.respells`: the types that a dialect spells in its own way.
* `Dialect.typeName_eq_standardName_iff`: they are all that it does not spell as the standard does.
* `Call.lower_cast`, `CreateTable.columnTokens_type`: what is written for a cast and for a column.
* `Item.types_spelled`: so it is at any depth of an item.
* `Item.cast_not_respelled`: a cast is spelled as in the standard in every dialect. -/

namespace SqlScribe

open Relation Tokens

/-! ## Types that a dialect spells in its own way -/

namespace Dialect

/-- The dialect does not spell the type as the standard does. -/
def respells : Dialect → DataType → Bool
  | .ansi, _ => false
  | .redshift, _ => false
  | .postgres, t =>
    match t with
    | .int8 | .signed | .unsigned | .binary | .json => true
    | _ => false
  | .mysql, t =>
    match t with
    | .bool | .int32 | .float32 | .float64 | .timestamp | .timestampTz | .binary | .uuid => true
    | _ => false
  | .sqlite, t =>
    match t with
    | .int32 | .float32 | .string => false
    | _ => true
  | .mssql, t =>
    match t with
    | .bool | .int32 | .signed | .unsigned | .float64 | .string | .json | .timestamp
    | .timestampTz | .binary | .uuid => true
    | .varchar n => n == some 65535
    | _ => false
  | .oracle, t =>
    match t with
    | .char _ | .date | .timestamp | .timestampTz => false
    | _ => true

/-- Texts with different characters in one place are different. -/
theorem ne_of_getElem? {a b : String} (n : Nat) (h : a.toList[n]? ≠ b.toList[n]?) : a ≠ b :=
  fun heq => h (by rw [heq])

/-- The name of a type and the parenthesis behind it stand before the length. -/
theorem getElem?_sized (name : String) (n : UInt16) {k : Nat}
    (hk : k < (name ++ "(").toList.length) :
    (DataType.sized name (some n)).toList[k]? = (name ++ "(").toList[k]? := by
  rw [DataType.sized, String.toList_append, String.toList_append, List.append_assoc,
    List.getElem?_append_left hk]

theorem getElem?_scaled (name : String) (precision scale : UInt8) {k : Nat}
    (hk : k < (name ++ "(").toList.length) :
    (DataType.scaled name precision scale).toList[k]? = (name ++ "(").toList[k]? := by
  rw [DataType.scaled, String.toList_append, String.toList_append, String.toList_append,
    String.toList_append, List.append_assoc, List.append_assoc, List.append_assoc,
    List.getElem?_append_left hk]

/-- The dialect leaves the standard spelling alone for the types that it does not respell, and for no
others, whatever their lengths and digits are. -/
theorem typeName_eq_standardName_iff (d : Dialect) (t : DataType) :
    d.typeName t = t.standardName ↔ d.respells t = false := by
  -- A type that is not respelled has one name by definition. The names of any other type are closed
  -- texts, except for lengths and digits, which do not reach back to the first different character.
  cases d with
  | ansi | redshift => exact iff_of_true rfl rfl
  | postgres | mysql =>
    cases t
    all_goals first
      | exact iff_of_true rfl rfl
      | exact iff_of_false (by decide) nofun
  | sqlite =>
    cases t with
    | int32 | float32 | string => exact iff_of_true rfl rfl
    | decimal precision scale =>
      refine iff_of_false (ne_of_getElem? 0 ?_) nofun
      show "NUMERIC".toList[0]? ≠ _
      rw [DataType.standardName, getElem?_scaled _ _ _ (by decide)]
      decide
    | char length | varchar length =>
      cases length with
      | none => exact iff_of_false (by decide) nofun
      | some n =>
        refine iff_of_false (ne_of_getElem? 0 ?_) nofun
        show "TEXT".toList[0]? ≠ _
        rw [DataType.standardName, getElem?_sized _ _ (by decide)]
        decide
    | _ => exact iff_of_false (by decide) nofun
  | mssql =>
    cases t with
    | varchar length =>
      cases length with
      | none => exact iff_of_true rfl rfl
      | some n =>
        by_cases hn : n = 65535
        · subst hn
          exact iff_of_false (by decide) nofun
        · exact iff_of_true (if_neg hn) (beq_eq_false_iff_ne.mpr fun h => hn (Option.some.inj h))
    | int8 | int16 | int64 | float32 | decimal _ _ | char _ | date | time =>
      exact iff_of_true rfl rfl
    | _ => exact iff_of_false (by decide) nofun
  | oracle =>
    cases t with
    | char _ | date | timestamp | timestampTz => exact iff_of_true rfl rfl
    | decimal precision scale =>
      refine iff_of_false (ne_of_getElem? 0 ?_) nofun
      show (DataType.scaled "NUMBER" precision scale).toList[0]? ≠ _
      rw [DataType.standardName, getElem?_scaled _ _ _ (by decide),
        getElem?_scaled _ _ _ (by decide)]
      decide
    | varchar length =>
      cases length with
      | none => exact iff_of_false (by decide) nofun
      | some n =>
        refine iff_of_false (ne_of_getElem? 7 ?_) nofun
        show (DataType.sized "VARCHAR2" (some n)).toList[7]? ≠ _
        rw [DataType.standardName, getElem?_sized _ _ (by decide),
          getElem?_sized _ _ (by decide)]
        decide
    | _ => exact iff_of_false (by decide) nofun

end Dialect

/-! ## Casts -/

/-- A cast of an argument to a type of some spelling. -/
def Clause.castTo (name : String) (arg : Tokens) (spelling : String) : Tokens :=
  invocation name (arg ++ spaced (.word .AS) ++ [.raw spelling])

/-- The call is written as a cast of its first argument to a type of some spelling, and stands so
within tokens. -/
def Call.CastAs (c : Call) (s : Scope) (spelling : String) (ts : Tokens) : Prop :=
  ∃ t arg rest, c.args.head? = some t ∧ t.lower s.quiet = .ok arg ∧
    c.lower s = .ok (Clause.castTo c.name arg spelling ++ rest) ∧
    Clause.castTo c.name arg spelling ++ rest <:+: ts

theorem Clause.firstArgument_lowered {s : Scope} {name : String} {args : List Term} :
    Yields (fun arg => ∃ t, args.head? = some t ∧ t.lower s = .ok arg)
      (firstArgument name (Term.lowerAll s args)) := by
  cases args with
  | nil => exact .error _
  | cons t args =>
    rw [Term.lowerAll, firstArgument]
    simp only [bind_assoc, pure_bind]
    exact (Yields.self _).bind fun arg harg => (Yields.self _).bind fun l _ => .ok ⟨t, rfl, harg⟩

/-- A cast is written with the standard spelling of its type. -/
theorem Call.lower_cast {s : Scope} {c : Call} {t : DataType} (hform : c.form = .cast t) :
    Yields (fun ts => c.CastAs s t.standardName ts) (c.lower s) := by
  intro ts hts
  have hwritten : Yields (fun ts => ∃ u arg rest, c.args.head? = some u ∧
      u.lower s.quiet = .ok arg ∧ ts = Clause.castTo c.name arg t.standardName ++ rest)
      (c.lower s) := by
    obtain ⟨name, form, aggregate, distinct, ignoreNulls, args, filter, window⟩ := c
    cases hform
    rw [Call.lower.eq_def]
    simp only [Clause.call, Clause.invoked]
    simp only [bind_assoc, pure_bind]
    refine Clause.firstArgument_lowered.bind fun arg hfirst => ?_
    obtain ⟨u, hu, harg⟩ := hfirst
    refine (Yields.self _).bind fun f _ => (Yields.self _).bind fun w _ => .pure ?_
    exact ⟨u, arg, f ++ w, hu, harg, by rw [List.append_assoc]; rfl⟩
  obtain ⟨u, arg, rest, hu, harg, rfl⟩ := hwritten ts hts
  exact ⟨u, arg, rest, hu, harg, hts, List.infix_rfl⟩

/-! ## Columns -/

namespace CreateTable

variable {s : Scope}

/-- The name of a column before a type of some spelling. -/
def typedColumn (name spelling : String) : Tokens := [.ident name, .space, .raw spelling]

end CreateTable

/-- The column is written with a type of some spelling, and stands so within tokens. -/
def Column.TypedAs (c : Column) (s : Scope) (spelling : String) (ts : Tokens) : Prop :=
  ∃ rest, CreateTable.columnTokens s c = .ok (CreateTable.typedColumn c.name spelling ++ rest) ∧
    CreateTable.typedColumn c.name spelling ++ rest <:+: ts

namespace CreateTable

/-- A column is written with the spelling that the dialect has for its type. -/
theorem columnTokens_type {c : Column} {t : DataType} (htype : c.type = some t) :
    Yields (fun ts => c.TypedAs s (s.dialect.typeName t) ts) (columnTokens s c) := by
  intro ts hts
  have hwritten : Yields (fun ts => ∃ rest,
      ts = typedColumn c.name (s.dialect.typeName t) ++ rest) (columnTokens s c) := by
    rw [columnTokens, htype]
    exact (Yields.self _).bind fun default _ => .pure ⟨_, List.append_assoc _ _ _⟩
  obtain ⟨rest, rfl⟩ := hwritten ts hts
  exact ⟨rest, hts, List.infix_rfl⟩

/-- A column of a new table stands between the parentheses of the table. -/
theorem lower_columns {c : CreateTable} (hquery : c.query = none) :
    Yields (fun ts => ∀ column ∈ c.columns, Holds (columnTokens s column) ts) (c.lower s) := by
  rw [lower, hquery]
  refine iteInduction (fun hempty => ?_) fun _ => ?_
  · rw [List.isEmpty_iff.mp hempty]
    exact .ok fun column hcolumn => absurd hcolumn List.not_mem_nil
  · have hbody : Yields (fun ts => ∀ column ∈ c.columns, Holds (columnTokens s column) ts)
        (bodyTokens s c) := by
      refine (Yields.self _).bind fun l hl => .pure fun column hcolumn => ?_
      obtain ⟨us, hmem, hus⟩ := exists_mem_of_lowered
        (g := fun columns => columns.mapM (columnTokens s)) (fun _ _ => List.mapM_cons) hl hcolumn
      refine ⟨us, hus, (infix_listed ?_).trans (infix_parens _)⟩
      exact List.mem_append_left _ (List.mem_append_left _ (List.mem_append_left _ hmem))
    exact hbody.bind fun ts hts => .pure fun column hcolumn => (hts column hcolumn).mono
      (List.infix_append_of_infix_right (List.infix_cons List.infix_rfl))

end CreateTable

/-! ## Items -/

theorem Call.CastAs.mono {c : Call} {s : Scope} {spelling : String} {ts us : Tokens}
    (h : c.CastAs s spelling ts) (hts : ts <:+: us) : c.CastAs s spelling us := by
  obtain ⟨t, arg, rest, ht, harg, hlower, hin⟩ := h
  exact ⟨t, arg, rest, ht, harg, hlower, hin.trans hts⟩

theorem Column.TypedAs.mono {c : Column} {s : Scope} {spelling : String} {ts us : Tokens}
    (h : c.TypedAs s spelling ts) (hts : ts <:+: us) : c.TypedAs s spelling us := by
  obtain ⟨rest, hlower, hin⟩ := h
  exact ⟨rest, hlower, hin.trans hts⟩

namespace Item

/-- A call stands in the item, at some depth and in a scope, that is a cast to the type. -/
def Casts (x : Item) (s s' : Scope) (c : Call) (t : DataType) : Prop :=
  c.form = .cast t ∧ ∃ a ∈ x.occurrences s, a.Within ⟨s', .call c⟩

/-- The item creates a table from columns, and one of them is of the type. -/
def Declares (x : Item) (column : Column) (t : DataType) : Prop :=
  column.type = some t ∧ ∃ c, x = .create c ∧ c.query = none ∧ column ∈ c.columns

/-- **Casts and columns are spelled on ways of their own.** However an item is written, each cast in
it, at any depth, spells its type as the standard does, and each column of a new table spells its
type as the dialect does. So a cast and a column of one type, with whatever lengths and digits,
agree in those dialects that do not respell the type, and in no others. -/
theorem types_spelled {x : Item} {o : RenderOptions} {ts : Tokens}
    (h : renderTokens x o = .ok ts) (t : DataType) :
    let d := renderDialect x o
    let s := Scope.ofOptions d o
    (∀ s' c, x.Casts s s' c t → c.CastAs s' t.standardName ts) ∧
      (∀ column, x.Declares column t → column.TypedAs s (d.typeName t) ts) ∧
      (t.standardName = d.typeName t ↔ d.respells t = false) := by
  intro d s
  refine ⟨fun s' c hcast => ?_, fun column hcolumn => ?_, ?_⟩
  · obtain ⟨hform, a, ha, hwithin⟩ := hcast
    obtain ⟨us, hcall, hus⟩ := (x.lower_contains s ts h a ha).yields hwithin.holds
    obtain ⟨vs, hspelled, hvs⟩ := hcall.yields (Call.lower_cast hform)
    exact hspelled.mono (hvs.trans hus)
  · obtain ⟨htype, c, rfl, hquery, hmem⟩ := hcolumn
    obtain ⟨us, hspelled, hus⟩ := (CreateTable.lower_columns hquery ts h column hmem).yields
      (CreateTable.columnTokens_type htype)
    exact hspelled.mono hus
  · exact eq_comm.trans (d.typeName_eq_standardName_iff t)

/-- A column of decimal numbers in PostgreSQL has a cast to its type in its default, as an argument
of another call. -/
theorem types_spelled_decimal :
    let type : DataType := .decimal 10 2
    let cast : Call := { name := "CAST", args := [Term.int 1], form := .cast type }
    let column : Column :=
      { name := "n", type := some type
        default := some (Function.coalesce [Term.ofCall cast, Term.int 0]) }
    let x : Item := .create { table := { id := ⟨1⟩, name := "t" }, columns := [column] }
    let o : RenderOptions := { dialect := some .postgres }
    let s := Scope.ofOptions .postgres o
    (render x o).toOption = some ("CREATE TABLE \"t\" (\"n\" DECIMAL(10,2) " ++
      "DEFAULT COALESCE(CAST(1 AS DECIMAL(10,2)),0))") ∧
    ∃ ts, renderTokens x o = .ok ts ∧ ∃ s', cast.CastAs s' "DECIMAL(10,2)" ts ∧
      column.TypedAs s "DECIMAL(10,2)" ts := by
  intro type cast column x o s
  have htext : (render x o).toOption = some ("CREATE TABLE \"t\" (\"n\" DECIMAL(10,2) " ++
      "DEFAULT COALESCE(CAST(1 AS DECIMAL(10,2)),0))") := by decide +kernel +revert
  obtain ⟨ts, hts⟩ : ∃ ts, renderTokens x o = .ok ts := ⟨_, rfl⟩
  obtain ⟨hcasts, hcolumns, -⟩ := types_spelled hts type
  have hcast : x.Casts s s.quiet cast type :=
    ⟨rfl, _, List.mem_singleton_self _, .head rfl (.head (List.mem_singleton_self _)
      (.head List.mem_cons_self (.head rfl (.single (List.mem_singleton_self _)))))⟩
  have hcolumn : x.Declares column type := ⟨rfl, _, rfl, rfl, List.mem_singleton_self _⟩
  refine ⟨htext, ts, hts, s.quiet, ?_, ?_⟩
  · exact hcasts _ _ hcast
  · exact hcolumns _ hcolumn

/-- **A cast is not respelled.** In SQL Server a column of truth values is of the type `BIT`, and a
cast in its default is to the type `BOOLEAN`. -/
theorem cast_not_respelled :
    let cast : Call := { name := "CAST", args := [Term.int 1], form := .cast .bool }
    let column : Column := { name := "flag", type := some .bool, default := some (.ofCall cast) }
    let x : Item :=
      .create { table := { id := ⟨1⟩, name := "t" }, dialect := some .mssql, columns := [column] }
    let s := Scope.ofOptions .mssql {}
    (x.Casts s s.quiet cast .bool ∧ x.Declares column .bool) ∧
    (render x {}).toOption =
      some "CREATE TABLE \"t\" (\"flag\" BIT DEFAULT CAST(1 AS BOOLEAN))" ∧
    ∃ ts, renderTokens x {} = .ok ts ∧ cast.CastAs s.quiet "BOOLEAN" ts ∧
      column.TypedAs s "BIT" ts := by
  intro cast column x s
  have htext : (render x {}).toOption =
      some "CREATE TABLE \"t\" (\"flag\" BIT DEFAULT CAST(1 AS BOOLEAN))" := by
    decide +kernel +revert
  have hcast : x.Casts s s.quiet cast .bool :=
    ⟨rfl, _, List.mem_singleton_self _, .head rfl (.single (List.mem_singleton_self _))⟩
  have hcolumn : x.Declares column .bool := ⟨rfl, _, rfl, rfl, List.mem_singleton_self _⟩
  let before : Tokens := [.word .CREATE, .space, .word .TABLE, .space, .ident "t", .space,
    .mark .openParen]
  let default : Tokens := [.space, .word .DEFAULT, .space]
  let one : Tokens := [.literal (.int 1)]
  refine ⟨⟨hcast, hcolumn⟩, htext, _, rfl, ?_, ?_⟩
  · exact ⟨Term.int 1, one, [], rfl, rfl, rfl,
      before ++ CreateTable.typedColumn "flag" "BIT" ++ default, [.mark .closeParen], rfl⟩
  · exact ⟨default ++ Clause.castTo "CAST" one "BOOLEAN", rfl, before, [.mark .closeParen], rfl⟩

end Item

end SqlScribe
