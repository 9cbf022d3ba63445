import SqlScribe.Proofs.Masking.Rendering
import SqlScribe.Proofs.Support.Syntax
/-! # Constructs in what is rendered

Nothing is written in a dialect that the dialect does not have.

* `Item.lower_fits`: the tokens of an item show only what the dialect of the scope has.
* `Item.rendered_supported`: so do those of a rendering, under all options. -/

namespace SqlScribe

open Tokens

namespace CreateTable

variable {s : Scope}

theorem columnTokens_trails (c : Column) : Yields (Trails s.dialect) (columnTokens s c) := by
  have hdefault : Yields (Trails s.dialect) (Clause.optional (spaced (.word .DEFAULT) ++ ·)
      (c.default.map (·.lower s.quiet))) := by
    refine Clause.optional_trails (fun x hx => ?_) fun _ h => .keyword rfl h
    obtain ⟨t, -, rfl⟩ := Option.map_eq_some_iff.mp hx
    exact t.lower_trails s.quiet
  refine hdefault.bind fun default hdefault => .pure (.append (.append (.cons rfl ?_) ?_) hdefault)
  · refine Trails.fits ?_
    split
    · exact .blank (.raw _)
    · exact .nil
  · split
    · exact .blank (.one rfl)
    · exact .blank (.word rfl (Trails.one rfl).fits)
    · exact .nil

theorem mapM_columnTokens_trail (columns : List Column) :
    Yields (AllTrail s.dialect) (columns.mapM (columnTokens s)) := by
  induction columns with
  | nil => exact .none
  | cons c columns ih =>
    rw [List.mapM_cons]
    exact .cons (columnTokens_trails c) ih

theorem nameList_trails {d : Dialect} (names : List String) : Trails d (nameList names) :=
  .parens (Trails.idents names).fits

/-- An event of a reference stands behind `ON` and a blank, and nothing else does. -/
theorem referenceTokens_trails {d : Dialect} (event : Keyword) (action : Option ReferenceAction)
    (he : event = .DELETE ∨ event = .UPDATE) : Trails d (referenceTokens event action) := by
  cases action with
  | none => exact .nil
  | some action =>
    have hwords : Fits d [.space, .raw action.words] := (Trails.raw _).fits.space
    rcases he with rfl | rfl
    · exact .space (.on (Trails.cons rfl hwords).fits.space) nofun
    · exact .space (.on hwords.update.space) nofun

theorem foreignKeyTokens_trails (k : ForeignKey) : Trails s.dialect (foreignKeyTokens s k) := by
  refine Trails.append (.append (.append (.append (.append ?_ (.spaced rfl))
    (k.table.tokens_trails s)) (nameList_trails _).blank)
    (referenceTokens_trails _ _ (.inl rfl))) (referenceTokens_trails _ _ (.inr rfl))
  exact .word rfl (Trails.word rfl (nameList_trails _).fits).fits

theorem bodyTokens_trails (c : CreateTable) : Yields (Trails s.dialect) (bodyTokens s c) := by
  refine (mapM_columnTokens_trail c.columns).bind fun columns hcolumns =>
    .pure (.parens (Trails.listed fun ts hts => ?_).fits)
  rcases List.mem_append.mp hts with hts | hts
  · rcases List.mem_append.mp hts with hts | hts
    · rcases List.mem_append.mp hts with hts | hts
      · exact hcolumns ts hts
      · obtain ⟨names, -, rfl⟩ := List.mem_map.mp hts
        exact .word rfl (nameList_trails names).fits
    · obtain ⟨names, -, rfl⟩ := Option.map_eq_some_iff.mp (Option.mem_toList.mp hts)
      exact .word rfl (Trails.word rfl (nameList_trails names).fits).fits
  · obtain ⟨k, -, rfl⟩ := Option.map_eq_some_iff.mp (Option.mem_toList.mp hts)
    exact foreignKeyTokens_trails k

theorem headTokens_trails {d : Dialect} (c : CreateTable) : Trails d c.headTokens := by
  refine .append (.word rfl (Trails.fits ?_)) (.word rfl (Trails.fits ?_))
  · split
    · exact .word rfl .nil
    · split
      · exact .word rfl .nil
      · exact .nil
  · split
    · exact .word rfl (Trails.word rfl (Trails.word rfl .nil).fits).fits
    · exact .nil

theorem lower_fits (c : CreateTable) : Yields (Fits s.dialect) (c.lower s) := by
  have hhead : Trails s.dialect (c.headTokens ++ c.table.tokens s) :=
    c.headTokens_trails.append (c.table.tokens_trails s)
  unfold lower
  split
  · next q _ =>
    exact (q.lower_stands s.embedded).bind fun body h =>
      .pure ((hhead.append (.spaced rfl)).append (h.2 rfl)).fits
  · refine iteInduction (fun _ => .ok .nil) fun _ => ?_
    exact c.bodyTokens_trails.bind fun body h => .pure (hhead.append h.blank).fits

end CreateTable

theorem DropObject.tokens_fits (s : Scope) (d : DropObject) : Fits s.dialect (d.tokens s) := by
  have htarget : Trails s.dialect
      ((if d.ifExists then [.word .IF, .space, .word .EXISTS, .space] else [] : Tokens) ++
        d.target.tokens s) := by
    refine .append ?_ (d.target.tokens_trails s)
    split
    · exact .word rfl (Trails.word rfl .nil).fits
    · exact .nil
  have hkind : Trails s.dialect [d.kind.token] := by
    unfold ObjectKind.token
    split
    · exact .one rfl
    · exact .raw _
  exact (Trails.word rfl (hkind.append htarget.blank).fits).fits

namespace Item

/-- The tokens of an item show only what the dialect of the scope has. -/
theorem lower_fits (s : Scope) (x : Item) : Yields (Fits s.dialect) (x.lower s) := by
  cases x with
  | table t => exact .ok (t.tokens_trails s).fits
  | term t => exact (t.lower_trails s).mono fun _ h => h.fits
  | condition c => exact (c.lower_trails s).mono fun _ h => h.fits
  | call c => exact (c.lower_trails s).mono fun _ h => h.fits
  | case c => exact (c.toExpr.lower_trails s).mono fun _ h => h.fits
  | interval i => exact .ok (Trails.raw _).fits
  | query q => exact (q.lower_stands s).mono fun _ h => h.1
  | compound c => exact (c.lower_stands s).mono fun _ h => h.1
  | subquery q => exact (q.lower_stands s).mono fun _ h => h.1
  | create c => exact c.lower_fits
  | drop d => exact .ok (d.tokens_fits s)

/-- **Nothing is written that the dialect does not have.** If an item is written, under whatever
options, then a construct whose tokens stand anywhere in what is written is one of the dialect in
which it is written: `TOP`, `DISTINCT ON`, the operators for case and file name patterns and those
on JSON documents, `RETURNING`, `ON CONFLICT`, `ON DUPLICATE KEY UPDATE`, `FOR UPDATE`, an insertion
that passes over conflicts, `REPLACE INTO` and `INSERT OR REPLACE`. -/
theorem rendered_supported {x : Item} {o : RenderOptions} {ts : Tokens}
    (h : renderTokens x o = .ok ts) (c : Construct) (hc : c.spelling <:+: ts) :
    (renderDialect x o).has c = true :=
  (x.lower_fits (Scope.ofOptions (renderDialect x o) o) ts h).has hc

/-- A selection with `DISTINCT ON`. -/
theorem rendered_supported_distinctOn :
    renderTokens (Item.query { Query.start ⟨0⟩ .postgres with
        sources := [.table { id := ⟨1⟩, name := "abc" }]
        selects := [Term.field "x"]
        distinctOn := [Term.field "a"] }) {} =
      .ok ([.word .SELECT, .space] ++ Construct.distinctOn.spelling ++
        [.mark .openParen, .ident "a", .mark .closeParen, .space, .ident "x", .space, .word .FROM,
          .space, .ident "abc"]) ∧
    Dialect.postgres.has .distinctOn = true := by
  have htokens : renderTokens (Item.query { Query.start ⟨0⟩ .postgres with
        sources := [.table { id := ⟨1⟩, name := "abc" }]
        selects := [Term.field "x"]
        distinctOn := [Term.field "a"] }) {} =
      .ok ([.word .SELECT, .space] ++ Construct.distinctOn.spelling ++
        [.mark .openParen, .ident "a", .mark .closeParen, .space, .ident "x", .space, .word .FROM,
          .space, .ident "abc"]) := rfl
  exact ⟨htokens, rendered_supported htokens .distinctOn ⟨_, _, rfl⟩⟩

end Item

end SqlScribe
