import SqlScribe.Proofs.Fragment.Lowering
import SqlScribe.Proofs.Occurrence.Placed
/-! # Fragments in what is rendered

What is rendered is made from plain tokens, from the schemas of tables, and from the fragments of
the occurrences in it at any depth.

* `CreateTable.bodyTokens_made`: the definitions of a table are made from the fragments in the
  default values of its columns.
* `Item.lower_made`: an item is made from the fragments of what stands in it. -/

namespace SqlScribe

open Tokens Relation

variable {F : Tokens → Prop}

namespace CreateTable

variable {s : Scope}

theorem columnTokens_made {c : Column}
    (h : PartsMade F (c.default.toList.map (⟨s.quiet, .term ·⟩))) :
    Yields (Made F) (columnTokens s c) := by
  have hdefault : Yields (Made F) (Clause.optional (spaced (.word .DEFAULT) ++ ·)
      (c.default.map (·.lower s.quiet))) := by
    refine Clause.optional_made (fun x hx => ?_) fun _ hts => (Made.spaced rfl).append hts
    obtain ⟨t, ht, rfl⟩ := Option.map_eq_some_iff.mp hx
    exact List.forall_mem_map.mp h t (Option.mem_toList.mpr ht)
  refine hdefault.bind fun default hdefault => .pure (.append (.append (.cons rfl ?_) ?_) hdefault)
  · split
    · exact .space (.one rfl)
    · exact .nil
  · split
    · exact .space (.one rfl)
    · exact .space (.word _ (.space (.one rfl)) rfl)
    · exact .nil

theorem mapM_columnTokens_made {columns : List Column}
    (h : PartsMade F (columns.flatMap fun c => c.default.toList.map (⟨s.quiet, .term ·⟩))) :
    Yields (AllMade F) (columns.mapM (columnTokens s)) := by
  induction columns with
  | nil => exact .none
  | cons c columns ih =>
    obtain ⟨hc, hcolumns⟩ := List.forall_mem_append.mp h
    rw [List.mapM_cons]
    exact .cons (columnTokens_made hc) (ih hcolumns)

theorem nameList_made (names : List String) : Made F (nameList names) :=
  (Made.idents names).parens

theorem referenceTokens_made {event : Keyword} (hevent : (Token.word event).standsAlone = true)
    (action : Option ReferenceAction) : Made F (referenceTokens event action) := by
  cases action with
  | none => exact .nil
  | some action => exact .space (.word _ (.space (.word _ (.space (.one rfl)) hevent)) rfl)

theorem foreignKeyTokens_made (hschema : ∀ part, F [.ident part, .mark .dot]) (s : Scope)
    (k : ForeignKey) : Made F (foreignKeyTokens s k) := by
  refine .append (.append (.append (.append (.append ?_ (.spaced rfl))
    (k.table.tokens_made hschema s)) (nameList_made _).space) (referenceTokens_made rfl _))
    (referenceTokens_made rfl _)
  exact .word _ (.space (.word _ (nameList_made _).space rfl)) rfl

theorem bodyTokens_made (hschema : ∀ part, F [.ident part, .mark .dot]) {c : CreateTable}
    (h : PartsMade F (c.columns.flatMap fun c => c.default.toList.map (⟨s.quiet, .term ·⟩))) :
    Yields (Made F) (bodyTokens s c) := by
  refine (mapM_columnTokens_made h).bind fun columns hcolumns =>
    .pure (.parens (.listed fun ts hts => ?_))
  rcases List.mem_append.mp hts with hts | hts
  · rcases List.mem_append.mp hts with hts | hts
    · rcases List.mem_append.mp hts with hts | hts
      · exact hcolumns ts hts
      · obtain ⟨names, -, rfl⟩ := List.mem_map.mp hts
        exact .word _ (nameList_made names).space rfl
    · obtain ⟨names, -, rfl⟩ := Option.map_eq_some_iff.mp (Option.mem_toList.mp hts)
      exact .word _ (.space (.word _ (nameList_made names).space rfl)) rfl
  · obtain ⟨k, -, rfl⟩ := Option.map_eq_some_iff.mp (Option.mem_toList.mp hts)
    exact foreignKeyTokens_made hschema s k

theorem headTokens_made (c : CreateTable) : Made F c.headTokens := by
  refine .append (.word _ (.space ?_) rfl) (.word _ (.space (.ite ?_ .nil)) rfl)
  · exact .ite (.word _ (.one rfl) rfl) (.ite (.word _ (.one rfl) rfl) .nil)
  · exact .word _ (.space (.word _ (.space (.word _ (.one rfl) rfl)) rfl)) rfl

end CreateTable

theorem DropObject.tokens_made (hschema : ∀ part, F [.ident part, .mark .dot]) (s : Scope)
    (d : DropObject) : Made F (d.tokens s) := by
  have hkind : d.kind.token.standsAlone = true := by
    unfold ObjectKind.token
    split <;> rfl
  have hexists : Made F
      (if d.ifExists then [.word .IF, .space, .word .EXISTS, .space] else []) :=
    .ite (.word _ (.space (.word _ (.one rfl) rfl)) rfl) .nil
  exact .append (.word _ (.space (.cons hkind hexists.space)) rfl)
    (d.target.tokens_made hschema s)

/-- An item is made from the schemas of tables and the fragments of what stands in it at any
depth. -/
theorem Item.lower_made {s : Scope} (x : Item) (hschema : ∀ part, F [.ident part, .mark .dot])
    (h : ∀ a ∈ x.occurrences s, ∀ b, a.Within b → ∀ ts, b.Adds ts → F ts) :
    Yields (Made F) (x.lower s) := by
  have hparts : PartsMade F (x.occurrences s) := fun a ha => a.lower_made (h a ha)
  cases x with
  | table t => exact .ok (t.tokens_made hschema s)
  | term _ | condition _ | call _ | case _ | query _ | compound _ =>
    exact hparts _ List.mem_cons_self
  | interval i => exact .ok (.one rfl)
  | subquery y =>
    have hpiece := hparts _ List.mem_cons_self
    rw [Occurrence.lower_piece] at hpiece
    exact hpiece
  | create c =>
    have hlower : (Item.create c).lower s = c.lower s := rfl
    rw [hlower, CreateTable.lower]
    have hhead : Made F (c.headTokens ++ c.table.tokens s) :=
      c.headTokens_made.append (c.table.tokens_made hschema s)
    simp only [Item.occurrences] at hparts
    cases hquery : c.query with
    | some y =>
      rw [hquery] at hparts
      have hpiece := hparts _ List.mem_cons_self
      rw [Occurrence.lower_piece] at hpiece
      exact hpiece.bind fun _ hts => .pure ((hhead.append (.spaced rfl)).append hts)
    | none =>
      rw [hquery] at hparts
      refine iteInduction (fun _ => .ok .nil) fun _ => ?_
      exact (CreateTable.bodyTokens_made hschema hparts).bind fun _ hts =>
        .pure (hhead.append hts.space)
  | drop d => exact .ok (d.tokens_made hschema s)

end SqlScribe
