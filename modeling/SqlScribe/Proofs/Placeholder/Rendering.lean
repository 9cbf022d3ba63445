import SqlScribe.Proofs.Masking.Rendering
import SqlScribe.Proofs.Placeholder.Lowering
/-! # Placeholders in what is rendered

A driver finds its placeholders by reading the text: it passes over quotes and takes what looks like
a placeholder for one. In what is rendered with placeholders it finds those of the bound values and
no others, as long as nothing else is written that looks like one.

* `Item.isAdmitted`: nothing in an item can be taken for a placeholder.
* `Item.lower_tame`: the tokens of such an item are tame.
* `Item.placeholders_found`: its placeholders are found, each where it stands. -/

namespace SqlScribe

open Tokens

variable {c : Scan} {d : Dialect} {s : Scope}

/-- What is looked for between the quotes of the standard. -/
def Scan.standard (style : ParameterStyle) (positional : style.isNamed = false) : Scan where
  style := style
  quote := '"'
  aliasQuote := '"'
  positional := positional
  quote_reserved := by decide
  aliasQuote_reserved := by decide

/-! ## Creating and dropping -/

/-- The names that a dialect has for types are made of inert characters. -/
theorem Dialect.isFixed_typeName (e : Dialect) (type : DataType) :
    Text.isFixed (e.typeName type) = true := by
  have hstandard := type.isFixed_standardName
  -- Names are closed, but for types with a length.
  cases e with
  | ansi => exact hstandard
  | redshift => exact hstandard
  | postgres =>
    cases type with
    | decimal precision scale => exact hstandard
    | char length => exact hstandard
    | varchar length => exact hstandard
    | _ => decide
  | mysql =>
    cases type with
    | decimal precision scale => exact hstandard
    | char length => exact hstandard
    | varchar length => exact hstandard
    | _ => decide
  | sqlite =>
    have hnumeric : Text.isFixed "NUMERIC" = true := by decide
    have htext : Text.isFixed "TEXT" = true := by decide
    cases type with
    | decimal precision scale => exact hnumeric
    | char length => exact htext
    | varchar length => exact htext
    | _ => decide
  | mssql =>
    cases type with
    | decimal precision scale => exact hstandard
    | char length => exact hstandard
    | varchar length =>
      cases length with
      | none => exact hstandard
      | some n =>
        have hmax : Text.isFixed "VARCHAR(MAX)" = true := by decide
        show Text.isFixed (if n = 65535 then "VARCHAR(MAX)" else _) = true
        split
        · exact hmax
        · exact hstandard
    | _ => decide
  | oracle =>
    have hnumber : Text.isFixed "NUMBER" = true := by decide
    have hvarchar : Text.isFixed "VARCHAR2" = true := by decide
    cases type with
    | decimal precision scale => exact DataType.isFixed_scaled hnumber precision scale
    | char length => exact hstandard
    | varchar length =>
      cases length with
      | none => decide
      | some n => exact DataType.isFixed_sized hvarchar (some n)
    | _ => decide

theorem ReferenceAction.isFixed_words (action : ReferenceAction) :
    Text.isFixed action.words = true := by
  cases action <;> decide

namespace CreateTable

/-- Nothing in a new table can be taken for a placeholder. -/
def isAdmitted (c : Scan) (t : CreateTable) : Bool :=
  t.columns.all (fun column => column.default.all (·.isAdmitted c)) &&
    t.query.all (·.isAdmitted c)

theorem columnTokens_tame {column : Column} (h : column.default.all (·.isAdmitted c) = true) :
    Yields (Tame c d) (columnTokens s column) := by
  have hdefault : Yields (Apart c d) (Clause.optional (spaced (.word .DEFAULT) ++ ·)
      (column.default.map (·.lower s.quiet))) := by
    refine Clause.optional_apart (fun x hx => ?_) fun _ h => .keyword _ h
    obtain ⟨t, ht, rfl⟩ := Option.map_eq_some_iff.mp hx
    rw [ht] at h
    exact t.lower_tame s.quiet h
  have hnull : Tame c d [.space, .word .NULL] := (Apart.space (Apart.word _ .nil).tame).tame
  refine hdefault.bind fun default hdefault => .pure (Tame.append (.append (Apart.tame
    (.ident _ ?_)) ?_) hdefault)
  · split
    · exact (Apart.space (.raw (.fixed (s.dialect.isFixed_typeName _)))).tame
    · exact .nil
  · split
    · exact .space (Apart.word _ .nil).tame
    · exact .space (Apart.word _ hnull).tame
    · exact .nil

theorem mapM_columnTokens_tame {columns : List Column}
    (h : columns.all (fun column => column.default.all (·.isAdmitted c)) = true) :
    Yields (AllTame c d) (columns.mapM (columnTokens s)) := by
  induction columns with
  | nil => exact .none
  | cons column columns ih =>
    obtain ⟨hcolumn, hcolumns⟩ := Bool.and_eq_true_iff.mp h
    rw [List.mapM_cons]
    exact .cons (columnTokens_tame hcolumn) (ih hcolumns)

theorem nameList_apart (names : List String) : Apart c d (nameList names) :=
  .parens (.idents names)

theorem referenceTokens_apart (event : Keyword) (action : Option ReferenceAction) :
    Apart c d (referenceTokens event action) := by
  cases action with
  | none => exact .nil
  | some action =>
    have hwords : Tame c d [.raw action.words] := .raw (.fixed action.isFixed_words)
    exact .space (Apart.head _ (Apart.head event hwords).tame).tame

theorem uniqueTokens_tame (names : List String) : Tame c d (uniqueTokens names) :=
  (Apart.head _ (nameList_apart names).tame).tame

theorem primaryKeyTokens_tame (names : List String) : Tame c d (primaryKeyTokens names) :=
  (Apart.head _ (Apart.head _ (nameList_apart names).tame).tame).tame

theorem foreignKeyTokens_tame (k : ForeignKey) : Tame c d (foreignKeyTokens s k) := by
  have hcolumns : Tame c d (.word .FOREIGN :: .space :: .word .KEY :: .space ::
      nameList k.columns) :=
    (Apart.head _ (Apart.head _ (nameList_apart k.columns).tame).tame).tame
  have htable := Leads.keyword .REFERENCES hcolumns _ (k.table.tokens_tame s)
  have hrows := htable.append (.space (nameList_apart k.tableColumns).tame)
  exact (hrows.append (referenceTokens_apart _ _)).append (referenceTokens_apart _ _)

theorem bodyTokens_apart {t : CreateTable}
    (h : t.columns.all (fun column => column.default.all (·.isAdmitted c)) = true) :
    Yields (Apart c d) (bodyTokens s t) := by
  have hall : Yields (AllTame c d) (t.columns.mapM (columnTokens s)) := mapM_columnTokens_tame h
  refine hall.bind fun columns hcolumns => .pure (.parens (Tame.listed fun ts hts => ?_))
  rcases List.mem_append.mp hts with hts | hts
  · rcases List.mem_append.mp hts with hts | hts
    · rcases List.mem_append.mp hts with hts | hts
      · exact hcolumns ts hts
      · obtain ⟨names, -, rfl⟩ := List.mem_map.mp hts
        exact uniqueTokens_tame names
    · obtain ⟨names, -, rfl⟩ := Option.map_eq_some_iff.mp (Option.mem_toList.mp hts)
      exact primaryKeyTokens_tame names
  · obtain ⟨k, -, rfl⟩ := Option.map_eq_some_iff.mp (Option.mem_toList.mp hts)
    exact foreignKeyTokens_tame k

theorem headTokens_leads (t : CreateTable) : Leads c d t.headTokens := by
  refine .append (.word _ (.space (.choose ?_ (.choose ?_ .nil))))
    (.word _ (.space (.choose ?_ .nil)))
  · exact .word _ (.space .nil)
  · exact .word _ (.space .nil)
  · exact .word _ (.space (.word _ (.space (.word _ (.space .nil)))))

theorem lower_tame {t : CreateTable} (h : t.isAdmitted c = true) :
    Yields (Tame c d) (t.lower s) := by
  obtain ⟨hcolumns, hquery⟩ := Bool.and_eq_true_iff.mp h
  have hhead : Tame c d (t.headTokens ++ t.table.tokens s) :=
    t.headTokens_leads _ (t.table.tokens_tame s)
  unfold lower
  split
  · next q hq =>
    rw [hq] at hquery
    exact (q.lower_tame s.embedded hquery).bind fun body hbody =>
      .pure (Leads.keyword .AS hhead _ hbody)
  · refine iteInduction (fun _ => .ok .nil) fun _ => ?_
    exact (bodyTokens_apart hcolumns).bind fun body hbody =>
      .pure (hhead.append (.space hbody.tame))

end CreateTable

theorem DropObject.tokens_tame (s : Scope) (t : DropObject) : Tame c d (t.tokens s) := by
  have hkind : t.kind.token.Mute c d := by
    unfold ObjectKind.token
    split
    · exact (Token.Separates.word _).mute
    · refine .raw (.fixed ?_)
      cases t.kind <;> decide
  have hexists : Leads c d
      (if t.ifExists then [.word .IF, .space, .word .EXISTS, .space] else []) :=
    .choose (.word _ (.space (.word _ (.space .nil)))) .nil
  have hhead : Leads c d (.word .DROP :: .space :: t.kind.token :: .space ::
      (if t.ifExists then [.word .IF, .space, .word .EXISTS, .space] else [])) :=
    .word _ (.space (.cons hkind (.space hexists)))
  exact hhead _ (t.target.tokens_tame s)

namespace Item

/-- Nothing in an item can be taken for a placeholder. -/
def isAdmitted (c : Scan) : Item → Bool
  | .table _ => true
  | .term t => t.isAdmitted c
  | .condition e => e.isAdmitted c
  | .call f => f.isAdmitted c
  | .case e => e.toExpr.isAdmitted c
  | .interval _ => true
  | .query q => q.isAdmitted c
  | .compound q => q.isAdmitted c
  | .subquery q => q.isAdmitted c
  | .create t => t.isAdmitted c
  | .drop _ => true

/-- The tokens of an item in which nothing can be taken for a placeholder are tame. -/
theorem lower_tame {x : Item} (h : x.isAdmitted c = true) : Yields (Tame c d) (x.lower s) := by
  cases x with
  | table t => exact .ok (t.tokens_tame s)
  | term t => exact t.lower_tame s h
  | condition e => exact e.lower_tame s h
  | call f => exact f.lower_tame s h
  | case e => exact e.toExpr.lower_tame s h
  | interval i => exact .ok (.raw (i.silent_literal s.dialect))
  | query q => exact q.lower_tame s h
  | compound q => exact q.lower_tame s h
  | subquery q => exact q.lower_tame s h
  | create t => exact CreateTable.lower_tame h
  | drop t => exact .ok (t.tokens_tame s)

/-- **Placeholders are what the driver sees.** Let nothing in an item be taken for a placeholder: it
has no pieces of SQL and no placeholders of the caller, its other texts that are written as they
stand have neither quotes nor the sign of the style in them, and it has no operator that is spelt
with that sign. If it is rendered with positional placeholders, between quotes that are used for
nothing else, then one reads in the text, outside quoted names and string literals, exactly the
placeholders of the bound values, in their order: before the placeholder of a value those of the
values before it, and with it one more. The text is that with literals, with placeholders for the
literals of the bound values. -/
theorem placeholders_found {x : Item} {o : RenderOptions} {sql : String} {bound : BoundValues}
    (hquote : (o.spelling (renderDialect x o)).quote = some c.quote)
    (halias : (o.spelling (renderDialect x o)).aliasQuote = some c.aliasQuote)
    (hx : x.isAdmitted c = true) (h : renderParameters x o c.style = .ok (sql, bound)) :
    ∃ (pieces : List String) (values : List Value),
      bound = .positional values ∧ pieces.length = values.length + 1 ∧
      render x o = .ok (interleave pieces (values.map (renderDialect x o).literal)) ∧
      sql = interleave pieces (placeholders c.style 0 values.length) ∧
      c.found sql = placeholders c.style 0 values.length ∧
      ∀ k < values.length,
        c.found (interleave (pieces.take (k + 1)) (placeholders c.style 0 k)) =
            placeholders c.style 0 k ∧
          c.found (interleave (pieces.take (k + 1)) (placeholders c.style 0 k) ++
            c.style.numbered (k + 1)) = placeholders c.style 0 (k + 1) := by
  have hspelling : o.spelling (renderDialect x o) = c.spelling (renderDialect x o) := by
    rw [Scan.spelling, ← hquote, ← halias]
    rfl
  -- Both texts are made of the same tokens, and binding positional values never fails.
  rw [renderParameters, renderBound] at h
  rw [render]
  cases htokens : renderTokens x o with
  | error e =>
    rw [htokens] at h
    cases h
  | ok ts =>
    have htame : Tame c (renderDialect x o) ts := lower_tame hx ts htokens
    obtain ⟨entries, hentries, hbound⟩ := textBound_positional (o.spelling (renderDialect x o)) ts
      ⟨c.style, []⟩ c.positional
    rw [htokens] at h
    dsimp only at h
    rw [hbound, hspelling] at h
    have hfinish : (Bindings.mk c.style ([] ++ entries)).finish = .positional ts.values := by
      rw [Bindings.finish, List.nil_append, c.positional, hentries]
      rfl
    obtain ⟨rfl, rfl⟩ := Prod.mk.inj (Except.ok.inj h)
    refine ⟨pieces (c.spelling (renderDialect x o)) ts, ts.values, hfinish, length_pieces _ _, ?_,
      rfl, htame.found 0, fun k hk => htame.found_upto hk⟩
    rw [hspelling]
    exact congrArg Except.ok (text_eq_interleave _ ts)

/-- In a style of numbers, a name and an interval with colons in them show no placeholders, and
neither does the operator of a key. -/
theorem placeholders_found_colons :
    renderParameters (condition (.combined .and
        (.json .hasKey (Term.field "a:1") (Term.literal (.text "k")))
        (.compare .gt (Term.field "b") (Term.interval { hours := 1, minutes := 2 }))))
      { dialect := some .postgres } .numeric =
        .ok ("\"a:1\"?:1 AND \"b\">INTERVAL '1:2 HOUR_MINUTE'", .positional [.text "k"]) ∧
    (Scan.standard .numeric rfl).found "\"a:1\"?:1 AND \"b\">INTERVAL '1:2 HOUR_MINUTE'" =
      [":1"] := by
  have hrender : renderParameters (condition (.combined .and
        (.json .hasKey (Term.field "a:1") (Term.literal (.text "k")))
        (.compare .gt (Term.field "b") (Term.interval { hours := 1, minutes := 2 }))))
      { dialect := some .postgres } (Scan.standard .numeric rfl).style =
        .ok ("\"a:1\"?:1 AND \"b\">INTERVAL '1:2 HOUR_MINUTE'", .positional [.text "k"]) := by rfl
  obtain ⟨pieces, values, hvalues, -, -, -, hfound, -⟩ := placeholders_found rfl rfl rfl hrender
  cases hvalues
  exact ⟨hrender, hfound⟩

/-- An operator that is spelt with the sign of a placeholder is taken for one, and so is a sign in
the name of a function, in a character set or in a qualifier. With the sign as the quote around
identifiers, a placeholder opens a quote and is not seen at all. -/
theorem placeholders_found_signs :
    (∀ p ∈ [(condition (.json .hasKey (Term.field "a") (Term.literal (.text "k"))), "\"a\"??"),
        (call { name := "f?", args := [Term.literal (.text "k")] }, "f?(?)"),
        (call { name := "CONVERT", form := .convert "utf8?", args := [Term.literal (.text "k")] },
          "CONVERT(? USING utf8?)"),
        (condition (.compare .eq (Term.qualified (.raw "t?") "a") (Term.literal (.text "k"))),
          "t?.\"a\"=?")],
      renderParameters p.1 { dialect := some .postgres } .qmark =
          .ok (p.2, .positional [.text "k"]) ∧
        (Scan.standard .qmark rfl).found p.2 = ["?", "?"]) ∧
    renderParameters (condition (.compare .eq (Term.field "a") (Term.literal (.text "k"))))
        { quote := some (some '?') } .qmark = .ok ("?a?=?", .positional [.text "k"]) ∧
    ParameterStyle.qmark.occurrences
      (Text.outside (fun ch => ch == '\'' || ch == '?') none "?a?=?".toList) = [] := by
  refine ⟨fun p hp => ?_, rfl, rfl⟩
  simp only [List.mem_cons, List.not_mem_nil, or_false] at hp
  rcases hp with rfl | rfl | rfl | rfl <;> exact ⟨rfl, rfl⟩

end Item

end SqlScribe
