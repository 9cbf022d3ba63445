import SqlScribe.Case
import SqlScribe.Proofs.Masking.Lowering
import SqlScribe.Proofs.Parameter.Positional
import SqlScribe.Query.Basic
import SqlScribe.Schema.Create
import SqlScribe.Schema.Drop
/-! # Texts without values

With placeholders whose values carry no names, nothing of a value reaches the text of a statement.

* `Item`: whatever can be written, in one type.
* `Item.lower_masked`: masking an item masks its tokens and changes nothing else.
* `Tokens.textBound_eq_of_masked`: tokens that are the same behind the mask have the same text with
  placeholders.
* `Item.renderParameters_eq_of_masked`: items that are the same behind the mask have the same text
  with placeholders, or fail with the same error. -/

namespace SqlScribe

open Tokens Lowered

/-- Values are the same behind the mask if they are the same, or if both can be written. -/
theorem Value.masked_eq_masked (v w : Value) :
    v.masked = w.masked ↔ v = w ∨ v.hasLiteral = true ∧ w.hasLiteral = true := by
  unfold masked
  constructor
  · intro h
    split at h <;> split at h
    · next hv hw => exact .inr ⟨hv, hw⟩
    · next hw =>
      subst h
      exact absurd rfl hw
    · next hv _ =>
      subst h
      exact absurd rfl hv
    · exact .inl h
  · rintro (rfl | ⟨hv, hw⟩)
    · rfl
    · rw [if_pos hv, if_pos hw]

/-- The choice with its values masked. -/
def Case.masked (c : Case) : Case :=
  { branches := Branch.maskedAll c.branches
    otherwise := c.otherwise.map Term.masked }

/-- The column with the values of its default masked. -/
def Column.masked (c : Column) : Column := { c with default := c.default.map Term.masked }

/-- The statement with its values masked. -/
def CreateTable.masked (c : CreateTable) : CreateTable :=
  { c with
    columns := c.columns.map Column.masked
    query := c.query.map Subquery.masked }

/-! ## Items -/

/-- Whatever can be written. -/
inductive Item where
  /-- A table. -/
  | table (t : Table)
  /-- A term. -/
  | term (t : Term)
  /-- A condition. -/
  | condition (c : Condition)
  /-- A function call. -/
  | call (c : Call)
  /-- A choice. -/
  | case (c : Case)
  /-- An interval. -/
  | interval (i : Interval)
  /-- A query. -/
  | query (q : Query)
  /-- A set operation. -/
  | compound (c : Compound)
  /-- A query or set operation. -/
  | subquery (q : Subquery)
  /-- A statement that creates a table. -/
  | create (c : CreateTable)
  /-- A statement that drops an object. -/
  | drop (d : DropObject)

namespace Item

/-- The tokens of an item in a scope. -/
def lower (s : Scope) : Item → Lowered
  | .table t => Renderable.lower s t
  | .term t => Renderable.lower s t
  | .condition c => Renderable.lower s c
  | .call c => Renderable.lower s c
  | .case c => Renderable.lower s c
  | .interval i => Renderable.lower s i
  | .query q => Renderable.lower s q
  | .compound c => Renderable.lower s c
  | .subquery q => Renderable.lower s q
  | .create c => Renderable.lower s c
  | .drop d => Renderable.lower s d

/-- The dialect that an item is written in unless another is asked for. -/
def dialect : Item → Dialect
  | .table t => Renderable.dialect t
  | .term t => Renderable.dialect t
  | .condition c => Renderable.dialect c
  | .call c => Renderable.dialect c
  | .case c => Renderable.dialect c
  | .interval i => Renderable.dialect i
  | .query q => Renderable.dialect q
  | .compound c => Renderable.dialect c
  | .subquery q => Renderable.dialect q
  | .create c => Renderable.dialect c
  | .drop d => Renderable.dialect d

instance : Renderable Item where
  lower := lower
  dialect := dialect

/-- The item with its values masked. -/
def masked : Item → Item
  | .table t => .table t
  | .term t => .term t.masked
  | .condition c => .condition c.masked
  | .call c => .call c.masked
  | .case c => .case c.masked
  | .interval i => .interval i
  | .query q => .query q.masked
  | .compound c => .compound c.masked
  | .subquery q => .subquery q.masked
  | .create c => .create c.masked
  | .drop d => .drop d

end Item

theorem Case.lower_masked (s : Scope) (c : Case) :
    c.masked.toExpr.lower s = (c.toExpr.lower s).masked := by
  obtain ⟨branches, otherwise⟩ := c
  have h := Expr.lower_masked s (.case branches otherwise)
  cases otherwise with
  | none => exact h
  | some t => exact h

namespace CreateTable

theorem columnTokens_masked (s : Scope) (c : Column) :
    columnTokens s c.masked = (columnTokens s c).masked := by
  obtain ⟨name, type, nullable, default⟩ := c
  have hdefault : Clause.optional (spaced (.word .DEFAULT) ++ ·)
      ((default.map Term.masked).map (·.lower s.quiet)) =
      (Clause.optional (spaced (.word .DEFAULT) ++ ·) (default.map (·.lower s.quiet))).masked := by
    cases default with
    | none => rfl
    | some t =>
      rw [Option.map_some, Option.map_some, t.lower_masked]
      exact Clause.optional_masked (fun ts => by simp) (some (t.lower s.quiet))
  rw [columnTokens, Column.masked, hdefault]
  refine masked_bind fun default => ?_
  cases type <;> rcases nullable with _ | _ | _ <;> simp

theorem mapM_columnTokens_masked (s : Scope) (columns : List Column) :
    (columns.map Column.masked).mapM (columnTokens s) =
      LoweredList.masked (columns.mapM (columnTokens s)) := by
  induction columns with
  | nil => rfl
  | cons c columns ih =>
    rw [List.map_cons, List.mapM_cons, List.mapM_cons, columnTokens_masked, ih]
    exact LoweredList.masked_cons _ _ fun _ => rfl

@[simp] theorem masked_nameList (names : List String) :
    (nameList names).masked = nameList names := by
  simp [nameList]

@[simp] theorem masked_uniqueTokens (names : List String) :
    (uniqueTokens names).masked = uniqueTokens names := by
  simp [uniqueTokens]

@[simp] theorem masked_primaryKeyTokens (names : List String) :
    (primaryKeyTokens names).masked = primaryKeyTokens names := by
  simp [primaryKeyTokens]

@[simp] theorem masked_referenceTokens (event : Keyword) (action : Option ReferenceAction) :
    (referenceTokens event action).masked = referenceTokens event action := by
  cases action <;> rfl

@[simp] theorem masked_foreignKeyTokens (s : Scope) (k : ForeignKey) :
    (foreignKeyTokens s k).masked = foreignKeyTokens s k := by
  simp [foreignKeyTokens]

theorem bodyTokens_masked (s : Scope) (c : CreateTable) :
    bodyTokens s c.masked = (bodyTokens s c).masked := by
  rw [bodyTokens, bodyTokens, masked, mapM_columnTokens_masked]
  refine LoweredList.masked_bind fun l => ?_
  cases c.primaryKey <;> cases c.foreignKey <;> simp [Function.comp_def]

@[simp] theorem masked_headTokens (c : CreateTable) : c.headTokens.masked = c.headTokens := by
  obtain ⟨table, dialect, temporary, unlogged, ifNotExists, columns, unique, primaryKey, foreignKey,
    query⟩ := c
  cases temporary <;> cases unlogged <;> cases ifNotExists <;> rfl

theorem lower_masked (s : Scope) (c : CreateTable) : c.masked.lower s = (c.lower s).masked := by
  have hhead : c.masked.headTokens = c.headTokens := rfl
  have htable : c.masked.table = c.table := rfl
  have hcolumns : c.masked.columns.isEmpty = c.columns.isEmpty := List.isEmpty_map
  have hquery : c.masked.query = c.query.map Subquery.masked := rfl
  rw [lower, lower, hhead, htable, hcolumns, hquery, bodyTokens_masked]
  cases c.query with
  | none => exact masked_ite _ rfl (masked_bind fun body => by simp)
  | some q =>
    rw [Option.map_some]
    simp only [q.lower_masked]
    exact masked_bind fun body => by simp

end CreateTable

@[simp] theorem DropObject.masked_tokens (s : Scope) (d : DropObject) :
    (d.tokens s).masked = d.tokens s := by
  obtain ⟨kind, target, ifExists, dialect⟩ := d
  cases kind <;> cases ifExists <;> simp [tokens, ObjectKind.token]

theorem Compound.dialect_masked (c : Compound) :
    c.masked.base.info.dialect = c.base.info.dialect := by
  obtain ⟨id, base, operands, orderBy, limit, offset, alias?⟩ := c
  exact congrArg (·.dialect) base.info_masked

namespace Item

/-- Masking an item masks its tokens and changes nothing else. -/
theorem lower_masked (s : Scope) (x : Item) : x.masked.lower s = (x.lower s).masked := by
  cases x with
  | table t => exact congrArg Except.ok (t.masked_tokens s).symm
  | term t => exact t.lower_masked s
  | condition c => exact c.lower_masked s
  | call c => exact c.lower_masked s
  | case c => exact c.lower_masked s
  | interval i => rfl
  | query q => exact q.lower_masked s
  | compound c => exact c.lower_masked s
  | subquery q => exact q.lower_masked s
  | create c => exact c.lower_masked s
  | drop d => exact congrArg Except.ok (d.masked_tokens s).symm

theorem dialect_masked (x : Item) : x.masked.dialect = x.dialect := by
  cases x with
  | query q => exact congrArg (·.dialect) q.info_masked
  | compound c => exact c.dialect_masked
  | subquery q =>
    cases q with
    | query q => exact congrArg (·.dialect) q.info_masked
    | compound c => exact c.dialect_masked
  | _ => rfl

end Item

/-! ## Texts -/

namespace Token

/-- The value that a masked token binds is the masked one, under the name that it had. -/
theorem value?_masked (t : Token) :
    t.masked.value? = t.value?.map fun bound => (bound.1, bound.2.masked) := by
  cases t <;> rfl

/-- A token without a value is the same behind the mask. -/
theorem masked_of_value? {t : Token} (h : t.value? = none) : t.masked = t := by
  cases t with
  | literal v => cases h
  | named name v => cases h
  | _ => rfl

end Token

namespace Tokens

theorem pieces_masked (s : Spelling) (ts : Tokens) : pieces s ts.masked = pieces s ts := by
  induction ts with
  | nil => rfl
  | cons t ts ih =>
    rw [masked_cons, pieces, pieces, t.value?_masked, ih]
    cases ht : t.value? with
    | none => rw [Token.masked_of_value? ht, Option.map_none]
    | some bound => rfl

theorem length_values_masked (ts : Tokens) : (values ts.masked).length = (values ts).length := by
  induction ts with
  | nil => rfl
  | cons t ts ih =>
    rw [masked_cons, values, values, t.value?_masked]
    cases t.value? with
    | none => exact ih
    | some bound => exact congrArg (· + 1) ih

/-- Tokens that are the same behind the mask have the same text with placeholders without names. -/
theorem textBound_eq_of_masked (s : Spelling) {ts us : Tokens} (h : ts.masked = us.masked)
    (b : Bindings) (hb : b.style.isNamed = false) :
    (textBound s ts b).1 = (textBound s us b).1 := by
  obtain ⟨_, -, hts⟩ := textBound_positional s ts b hb
  obtain ⟨_, -, hus⟩ := textBound_positional s us b hb
  have hpieces : pieces s ts = pieces s us := by rw [← pieces_masked, h, pieces_masked]
  have hcount : (values ts).length = (values us).length := by
    rw [← length_values_masked, h, length_values_masked]
  rw [hts, hus, hpieces, hcount]

end Tokens

/-- The text with placeholders, without what is bound. -/
theorem renderParameters_text {α : Type} [Renderable α] (x : α) (o : RenderOptions)
    (style : ParameterStyle) :
    (renderParameters x o style).map (·.1) = (renderBound x o ⟨style, []⟩).1 := by
  unfold renderParameters
  obtain ⟨text, b⟩ := renderBound x o ⟨style, []⟩
  cases text <;> rfl

namespace Item

variable {x y : Item}

/-- Items that are the same behind the mask are written in the same dialect. -/
theorem renderDialect_eq_of_masked (h : x.masked = y.masked) (o : RenderOptions) :
    renderDialect x o = renderDialect y o := by
  have hdialect : x.dialect = y.dialect := by rw [← x.dialect_masked, h, y.dialect_masked]
  exact congrArg o.dialect.getD hdialect

/-- Items that are the same behind the mask have tokens that are, or fail with the same error. -/
theorem renderTokens_eq_of_masked (h : x.masked = y.masked) (o : RenderOptions) :
    Lowered.masked (renderTokens x o) = Lowered.masked (renderTokens y o) := by
  rw [renderTokens, renderTokens, renderDialect_eq_of_masked h]
  show Lowered.masked (x.lower _) = Lowered.masked (y.lower _)
  rw [← x.lower_masked, h, y.lower_masked]

/-- **The text with placeholders does not depend on values.** Two items that are the same except for
values that can be written, with the same names where values have names, are either both written
with the same text around the same placeholders, or both refused for the same reason, whatever the
options are and whatever style without names the placeholders have. -/
theorem renderParameters_eq_of_masked (h : x.masked = y.masked) (o : RenderOptions)
    (style : ParameterStyle) (hs : style.isNamed = false) :
    (renderParameters x o style).map (·.1) = (renderParameters y o style).map (·.1) := by
  rw [renderParameters_text, renderParameters_text, renderBound, renderBound,
    renderDialect_eq_of_masked h]
  have htokens := renderTokens_eq_of_masked h o
  cases hx : renderTokens x o with
  | error e =>
    rw [hx] at htokens
    cases hy : renderTokens y o with
    | error e' =>
      rw [hy] at htokens
      cases htokens
      rfl
    | ok us =>
      rw [hy] at htokens
      cases htokens
  | ok ts =>
    rw [hx] at htokens
    cases hy : renderTokens y o with
    | error e =>
      rw [hy] at htokens
      cases htokens
    | ok us =>
      rw [hy] at htokens
      have hmasked : ts.masked = us.masked := Except.ok.inj htokens
      exact Tokens.textBound_eq_of_masked _ hmasked ⟨style, []⟩ hs

/-- A selection whose condition is on a number, and one on a text. -/
theorem renderParameters_eq_of_masked_selection :
    (renderParameters (Item.query { Query.start ⟨0⟩ .ansi with
        sources := [.table { id := ⟨1⟩, name := "abc" }]
        selects := [Term.field "x"]
        filter := (Term.field "a").equals (Term.int 1) }) {} .dollar).map (·.1) =
      (renderParameters (Item.query { Query.start ⟨0⟩ .ansi with
        sources := [.table { id := ⟨1⟩, name := "abc" }]
        selects := [Term.field "x"]
        filter := (Term.field "a").equals (Term.literal (.text "b")) }) {} .dollar).map (·.1) :=
  renderParameters_eq_of_masked rfl {} .dollar rfl

end Item

end SqlScribe
