import SqlScribe.Proofs.Occurrence.Lowering
/-! # Columns

A column is a field or star that belongs to something. What is written before it depends on the
scope that it stands in, and all that a query writes itself in one clause stands in one scope.

* `Expr.column?`: what a column belongs to, and the token of its name.
* `Expr.lower_column`, `Scope.qualification_table`, `Scope.qualification_subquery`: what is written
  before a column of a table or of a query.
* `Occurrence.Own.keeps`: the scope and the qualifiers of what stands in something without a query
  between. -/

namespace SqlScribe

open Tokens Relation

/-! ## Columns -/

/-- What a column belongs to, and the token behind its qualifier. -/
def Expr.column? : Expr → Option (Qualifier × Token)
  | .field q name => q.map (·, .ident name)
  | .star q => q.map (·, .mark .star)
  | _ => none

namespace Scope

variable {s : Scope}

/-- The name that a table goes by in a scope: its alias, the name it was given, or its own. -/
def shownName (s : Scope) (t : Table) : String := (t.alias?.or (s.alias? t.id)).getD t.name

/-- The table is known by another name than its own. -/
def renames (s : Scope) (t : Table) : Bool := (t.alias?.or (s.alias? t.id)).isSome

@[simp] theorem quiet_quiet (s : Scope) : s.quiet.quiet = s.quiet := rfl

@[simp] theorem quiet_labelled (s : Scope) : s.labelled.quiet = s.quiet := rfl

@[simp] theorem qualification_quiet (s : Scope) (q : Option Qualifier) :
    s.quiet.qualification q = s.qualification q := rfl

@[simp] theorem quiet_qualifying (s : Scope) (b : Bool) :
    (s.quiet.qualifying b) = (s.qualifying b).quiet := rfl

/-- A column of a table is qualified in a scope that says so, or under another name. -/
theorem qualification_table (s : Scope) (t : Table) : s.qualification (some (.table t)) =
    if s.renames t || s.qualifies then [.ident (s.shownName t), .mark .dot] else [] := by
  cases h : t.alias?.or (s.alias? t.id) with
  | some name => simp [qualification, qualifier?, renames, shownName, h]
  | none => cases hq : s.qualifies <;> simp [qualification, qualifier?, renames, shownName, h, hq]

/-- A column of a query is qualified by the name of the query, if it has one. -/
theorem qualification_subquery (s : Scope) (id : SourceId) (alias? : Option String) :
    s.qualification (some (.subquery id alias?)) =
      match alias?.or (s.alias? id) with
      | some name => [.ident name, .mark .dot]
      | none => [] := by
  cases h : alias?.or (s.alias? id) <;> simp [qualification, qualifier?, h]

end Scope

theorem Expr.lower_column {e : Expr} {q : Qualifier} {tok : Token}
    (h : e.column? = some (q, tok)) (s : Scope) :
    e.lower s = .ok (s.qualification (some q) ++ [tok]) := by
  cases e with
  | field q' name =>
    obtain ⟨q'', rfl, heq⟩ := Option.map_eq_some_iff.mp h
    cases heq
    rw [lower]
  | star q' =>
    obtain ⟨q'', rfl, heq⟩ := Option.map_eq_some_iff.mp h
    cases heq
    rw [lower]
  | _ => cases h

/-- Behind a qualifier stands the name of a field or a star. -/
theorem Expr.name_column {e : Expr} {q : Qualifier} {tok : Token}
    (h : e.column? = some (q, tok)) : tok = .mark .star ∨ ∃ name, tok = .ident name := by
  cases e with
  | field q' name =>
    obtain ⟨_, -, heq⟩ := Option.map_eq_some_iff.mp h
    cases heq
    exact .inr ⟨name, rfl⟩
  | star q' =>
    obtain ⟨_, -, heq⟩ := Option.map_eq_some_iff.mp h
    cases heq
    exact .inl rfl
  | _ => cases h

theorem Expr.mem_qualifiers_of_column {e : Expr} {q : Qualifier} {tok : Token}
    (h : e.column? = some (q, tok)) : q ∈ e.qualifiers := by
  cases e with
  | field q' name =>
    obtain ⟨q'', rfl, heq⟩ := Option.map_eq_some_iff.mp h
    cases heq
    simp [qualifiers]
  | star q' =>
    obtain ⟨q'', rfl, heq⟩ := Option.map_eq_some_iff.mp h
    cases heq
    simp [qualifiers]
  | _ => cases h

/-! ## What a query writes itself -/

/-- The qualifiers in a piece; a query answers for its own. -/
def Piece.qualifiers : Piece → List Qualifier
  | .term t => t.qualifiers
  | .expr e => e.qualifiers
  | .call c => c.qualifiers
  | .window w => w.qualifiers
  | .condition c => c.qualifiers
  | .query _ => []
  | .compound _ => []

section Qualifiers

variable {qs : List Qualifier}

theorem Term.qualifiers_subset {ts : List Term} {t : Term} (h : t ∈ ts) :
    t.qualifiers ⊆ Term.qualifiersAll ts := by
  induction ts with
  | nil => cases h
  | cons u ts ih =>
    rw [Term.qualifiersAll]
    rcases List.mem_cons.mp h with rfl | h
    · exact List.subset_append_left _ _
    · exact List.Subset.trans (ih h) (List.subset_append_right _ _)

theorem OrderItem.qualifiers_subset {items : List OrderItem} {i : OrderItem} (h : i ∈ items) :
    i.term.expr.qualifiers ⊆ OrderItem.qualifiersAll items := by
  induction items with
  | nil => cases h
  | cons j items ih =>
    obtain ⟨t, order⟩ := j
    rw [OrderItem.qualifiersAll]
    rcases List.mem_cons.mp h with rfl | h
    · obtain ⟨expr, alias?⟩ := t
      rw [Term.qualifiers]
      exact List.subset_append_left _ _
    · exact List.Subset.trans (ih h) (List.subset_append_right _ _)

theorem Branch.qualifiers_subset {branches : List Branch} {b : Branch} (h : b ∈ branches) :
    b.condition.qualifiers ⊆ Branch.qualifiersAll branches ∧
      b.result.qualifiers ⊆ Branch.qualifiersAll branches := by
  induction branches with
  | nil => cases h
  | cons c branches ih =>
    obtain ⟨condition, result⟩ := c
    rw [Branch.qualifiersAll]
    rcases List.mem_cons.mp h with rfl | h
    · exact ⟨List.Subset.trans (List.subset_append_left _ _) (List.subset_append_left _ _),
        List.Subset.trans (List.subset_append_right _ _) (List.subset_append_left _ _)⟩
    · exact ⟨List.Subset.trans (ih h).1 (List.subset_append_right _ _),
        List.Subset.trans (ih h).2 (List.subset_append_right _ _)⟩

end Qualifiers

namespace Occurrence

/-- What is not a query stands in a scope, up to the aliases it shows, and has qualifiers from a
list. -/
def Keeps (s : Scope) (qs : List Qualifier) (l : List Occurrence) : Prop :=
  ∀ b ∈ l, b.piece.isQuery = false → b.scope.quiet = s.quiet ∧ b.piece.qualifiers ⊆ qs

section Keeps

variable {s : Scope} {qs : List Qualifier} {l m : List Occurrence} {b : Occurrence}

@[simp] theorem keeps_nil : Keeps s qs [] := by simp [Keeps]

@[simp] theorem keeps_cons : Keeps s qs (b :: l) ↔
    (b.piece.isQuery = false → b.scope.quiet = s.quiet ∧ b.piece.qualifiers ⊆ qs) ∧
      Keeps s qs l := by
  simp [Keeps]

@[simp] theorem keeps_append : Keeps s qs (l ++ m) ↔ Keeps s qs l ∧ Keeps s qs m := by
  exact List.forall_mem_append

theorem keeps_terms {ts : List Term} (h : Term.qualifiersAll ts ⊆ qs) :
    Keeps s qs (Term.occurrences s.quiet ts) := by
  intro b hb _
  obtain ⟨t, ht, rfl⟩ := List.mem_map.mp hb
  exact ⟨rfl, List.Subset.trans (Term.qualifiers_subset ht) h⟩

theorem keeps_branches {branches : List Branch} (h : Branch.qualifiersAll branches ⊆ qs) :
    Keeps s qs (branches.flatMap fun b =>
      [⟨s.quiet, .condition b.condition⟩, ⟨s.quiet, .term b.result⟩]) := by
  intro b hb _
  obtain ⟨branch, hmem, hb⟩ := List.mem_flatMap.mp hb
  obtain ⟨hcondition, hresult⟩ := Branch.qualifiers_subset hmem
  simp only [List.mem_cons, List.not_mem_nil, or_false] at hb
  rcases hb with rfl | rfl
  · exact ⟨rfl, List.Subset.trans hcondition h⟩
  · exact ⟨rfl, List.Subset.trans hresult h⟩

theorem keeps_items {names : List String} {items : List OrderItem}
    (h : OrderItem.qualifiersAll items ⊆ qs) :
    Keeps s qs (OrderItem.occurrences s.quiet names items) := by
  intro b hb _
  obtain ⟨i, hi, rfl⟩ := List.mem_map.mp hb
  exact ⟨rfl, List.Subset.trans (OrderItem.qualifiers_subset (List.mem_filter.mp hi).1) h⟩

@[simp] theorem isQuery_piece (x : Subquery) : x.piece.isQuery = true := by
  cases x <;> rfl

end Keeps

end Occurrence

theorem CallForm.mem_of_mem_taken {α : Type} (form : CallForm) {args : List α} {a : α}
    (h : a ∈ form.taken args) : a ∈ args := by
  cases form with
  | plain => exact h
  | bare => cases h
  | cast _ => exact List.mem_of_mem_take h
  | convert _ => exact List.mem_of_mem_take h
  | extract _ => exact List.mem_of_mem_take h

section Parts

open Occurrence

variable (s : Scope)

theorem Expr.keeps_parts (e : Expr) : Keeps s e.qualifiers (e.parts s) := by
  cases e with
  | tuple items => exact keeps_terms (by rw [qualifiers]; exact List.Subset.refl _)
  | array items => exact keeps_terms (by rw [qualifiers]; exact List.Subset.refl _)
  | arithmetic op left right => exact keeps_terms (by simp [qualifiers, Term.qualifiersAll])
  | negative t => exact keeps_terms (by simp [qualifiers, Term.qualifiersAll])
  | call c => simp [parts, qualifiers, Piece.qualifiers]
  | case branches otherwise =>
    cases otherwise with
    | none =>
      rw [qualifiers, parts, keeps_append]
      exact ⟨keeps_branches (List.subset_append_left _ _), keeps_nil⟩
    | some t =>
      rw [qualifiers, parts, keeps_append]
      exact ⟨keeps_branches (List.subset_append_left _ _),
        keeps_terms (by simp [Term.qualifiersAll])⟩
  | subquery q => simp [parts]
  | condition c => simp [parts, qualifiers, Piece.qualifiers]
  | field _ _ => exact keeps_nil
  | star _ => exact keeps_nil
  | value _ => exact keeps_nil
  | named _ _ => exact keeps_nil
  | null => exact keeps_nil
  | parameter _ => exact keeps_nil
  | raw _ => exact keeps_nil
  | interval _ => exact keeps_nil

theorem Call.keeps_parts (c : Call) : Keeps s c.qualifiers (c.parts s) := by
  obtain ⟨name, form, aggregate, distinct, ignoreNulls, args, filter, window⟩ := c
  -- A call may write fewer arguments than it has.
  rw [parts, keeps_append, keeps_append]
  refine ⟨⟨fun b hb _ => ?_, ?_⟩, ?_⟩
  · obtain ⟨t, ht, rfl⟩ := List.mem_map.mp hb
    refine ⟨rfl, List.Subset.trans (Term.qualifiers_subset (form.mem_of_mem_taken ht)) ?_⟩
    cases filter <;> cases window <;> simp [qualifiers]
  · cases filter <;> cases window <;> simp [qualifiers, Piece.qualifiers]
  · cases filter <;> cases window <;> simp [qualifiers, Piece.qualifiers]

theorem Window.keeps_parts (w : Window) : Keeps s w.qualifiers (w.parts s) := by
  obtain ⟨partitionBy, orderBy, frame⟩ := w
  rw [qualifiers, parts, keeps_append]
  exact ⟨keeps_terms (List.subset_append_left _ _), keeps_items (List.subset_append_right _ _)⟩

theorem Condition.keeps_parts (c : Condition) : Keeps s c.qualifiers (c.parts s) := by
  cases c with
  | empty => exact keeps_nil
  | compare op left right => exact keeps_terms (by simp [qualifiers, Term.qualifiersAll])
  | «matches» op negated t pattern escape =>
    exact keeps_terms (by simp [qualifiers, Term.qualifiersAll])
  | json op left right => exact keeps_terms (by simp [qualifiers, Term.qualifiersAll])
  | search op t value => exact keeps_terms (by simp [qualifiers, Term.qualifiersAll])
  | isNull negated t => exact keeps_terms (by simp [qualifiers, Term.qualifiersAll])
  | isIn negated t items =>
    rw [parts]
    split
    · exact keeps_nil
    · exact keeps_terms (by simp [qualifiers, Term.qualifiersAll])
  | isInRows negated t rows => simp [parts, qualifiers, Piece.qualifiers]
  | between negated t low high => exact keeps_terms (by simp [qualifiers, Term.qualifiersAll])
  | hasRows negated rows => simp [parts]
  | combined op left right => simp [parts, qualifiers, Piece.qualifiers]
  | not c => simp [parts, qualifiers, Piece.qualifiers]
  | term t => simp [parts, qualifiers, Piece.qualifiers]

end Parts

namespace Occurrence

variable {a b : Occurrence}

/-- A part that is not a query stands in the scope around it, and so do its qualifiers. -/
theorem OwnPart.keeps (h : OwnPart a b) (ha : a.piece.isQuery = false) :
    b.scope.quiet = a.scope.quiet ∧ b.piece.qualifiers ⊆ a.piece.qualifiers := by
  obtain ⟨hpart, hb⟩ := h
  obtain ⟨s, piece⟩ := a
  cases piece with
  | term t =>
    obtain ⟨expr, alias?⟩ := t
    cases hpart
    exact ⟨rfl, by simp [Piece.qualifiers, Term.qualifiers]⟩
  | expr e => exact e.keeps_parts s b hpart hb
  | call c => exact c.keeps_parts s b hpart hb
  | window w => exact w.keeps_parts s b hpart hb
  | condition c => exact c.keeps_parts s b hpart hb
  | query q => cases ha
  | compound c => cases ha

/-- What is written without a query between stands in the same scope, up to the aliases that it
shows, and mentions nothing else. -/
theorem Own.keeps (h : Own a b) (ha : a.piece.isQuery = false) :
    b.scope.quiet = a.scope.quiet ∧ b.piece.qualifiers ⊆ a.piece.qualifiers := by
  -- The induction has to know besides that it has not come to a query yet.
  suffices h' : b.piece.isQuery = false ∧ b.scope.quiet = a.scope.quiet ∧
      b.piece.qualifiers ⊆ a.piece.qualifiers from h'.2
  induction h with
  | refl => exact ⟨ha, rfl, List.Subset.refl _⟩
  | tail _ hpart ih =>
    obtain ⟨hc, hscope, hqualifiers⟩ := ih
    obtain ⟨hscope', hqualifiers'⟩ := hpart.keeps hc
    exact ⟨hpart.2, hscope'.trans hscope, List.Subset.trans hqualifiers' hqualifiers⟩

end Occurrence

end SqlScribe
