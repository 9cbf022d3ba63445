import SqlScribe.Case
import SqlScribe.Condition
import SqlScribe.Proofs.Nesting.Clause
import SqlScribe.Proofs.Presence.Syntax
/-! # Conditions made of conditions

Conditions are joined by connectives, which pass over none at all, and negated, which does not. What
is built from leaves without negating none at all is fit for a clause: it is none at all, or
something is written for it.

* `Condition.Fit`: a clause can be made of the condition or is left out.
* `Condition.Composed`: the condition is built from leaves by connectives, by negation of what is
  there, and over lists.
* `Term.Composed`: the term is built with such conditions as the filter of an aggregate or in the
  branches of a choice.
* `Condition.Composed.fit`, `Term.Composed.isComplete`: what is built so is complete. -/

namespace SqlScribe

/-! ## Lists

A list is complete if all it holds is. -/

section Lists

variable {α : Type} {p : α → Bool} {all : List α → Bool}

theorem all_iff_forall_mem (hnil : all [] = true) (hcons : ∀ a l, all (a :: l) = (p a && all l))
    (l : List α) : all l = true ↔ ∀ a ∈ l, p a = true := by
  induction l with
  | nil => simp [hnil]
  | cons a l ih => rw [hcons, Bool.and_eq_true_iff, ih, List.forall_mem_cons]

theorem Term.allComplete_iff (ts : List Term) :
    Term.allComplete ts = true ↔ ∀ t ∈ ts, t.isComplete = true :=
  all_iff_forall_mem (by rw [Term.allComplete]) (fun _ _ => by rw [Term.allComplete]) ts

theorem Term.rowsComplete_iff (rows : List (List Term)) :
    Term.rowsComplete rows = true ↔ ∀ row ∈ rows, Term.allComplete row = true :=
  all_iff_forall_mem (by rw [Term.rowsComplete]) (fun _ _ => by rw [Term.rowsComplete]) rows

theorem OrderItem.allComplete_iff (items : List OrderItem) :
    OrderItem.allComplete items = true ↔ ∀ item ∈ items, item.term.isComplete = true :=
  all_iff_forall_mem (by rw [OrderItem.allComplete])
    (fun ⟨⟨_, _⟩, _⟩ _ => by rw [OrderItem.allComplete, Term.isComplete]) items

theorem Branch.allComplete_iff (branches : List Branch) :
    Branch.allComplete branches = true ↔ ∀ b ∈ branches,
      ((!b.condition.isVacant && b.condition.isComplete) && b.result.isComplete) = true :=
  all_iff_forall_mem (by rw [Branch.allComplete])
    (fun ⟨_, _⟩ _ => by rw [Branch.allComplete, ← Bool.and_assoc]) branches

theorem Source.allComplete_iff (sources : List Source) :
    Source.allComplete sources = true ↔ ∀ s ∈ sources, s.isComplete = true :=
  all_iff_forall_mem (by rw [Source.allComplete]) (fun _ _ => by rw [Source.allComplete]) sources

theorem Join.allComplete_iff (joins : List Join) :
    Join.allComplete joins = true ↔ ∀ j ∈ joins, j.isComplete = true :=
  all_iff_forall_mem (by rw [Join.allComplete]) (fun _ _ => by rw [Join.allComplete]) joins

theorem CommonTable.allComplete_iff (tables : List CommonTable) :
    CommonTable.allComplete tables = true ↔ ∀ t ∈ tables, t.isComplete = true :=
  all_iff_forall_mem (by rw [CommonTable.allComplete])
    (fun _ _ => by rw [CommonTable.allComplete]) tables

theorem Assignment.allComplete_iff (assignments : List Assignment) :
    Assignment.allComplete assignments = true ↔ ∀ a ∈ assignments, a.isComplete = true :=
  all_iff_forall_mem (by rw [Assignment.allComplete])
    (fun _ _ => by rw [Assignment.allComplete]) assignments

end Lists

/-! ## Conditions -/

namespace Condition

variable {c left right : Condition}

/-- A clause can be made of the condition or is left out, and no keyword in it is left without its
condition. -/
def Fit (c : Condition) : Prop := c.isPlaceable = true ∧ c.isComplete = true

/-- Something is written for the condition, with no keyword in it left without its condition. -/
def Present (c : Condition) : Prop := (!c.isVacant) = true ∧ c.isComplete = true

/-- A condition that is a predicate: neither none, nor made of others. -/
def isLeaf : Condition → Bool
  | .empty | .combined _ _ _ | .not _ => false
  | _ => true

/-- What conditions are built from: leaves for which something is written, and nothing; and how they
are built. -/
inductive Composed : Condition → Prop where
  /-- None at all. -/
  | empty : Composed .empty
  /-- A predicate. -/
  | leaf {c : Condition} (hleaf : c.isLeaf = true) (h : c.Present) : Composed c
  /-- Two conditions under a connective. -/
  | combine (op : Connective) {left right : Condition} (hleft : Composed left)
      (hright : Composed right) : Composed (combine op left right)
  /-- The negation of a condition that is there. -/
  | not {c : Condition} (h : Composed c) (hne : c.isEmpty = false) : Composed (.not c)
  /-- All conditions of a list. -/
  | all {cs : List Condition} (h : ∀ c ∈ cs, Composed c) : Composed (all cs)
  /-- Some condition of a list. -/
  | any {cs : List Condition} (h : ∀ c ∈ cs, Composed c) : Composed (any cs)

theorem Fit.empty : Fit .empty := ⟨rfl, rfl⟩

theorem Present.fit (h : c.Present) : c.Fit := ⟨by rw [isPlaceable, h.1, Bool.or_true], h.2⟩

theorem Fit.present (h : c.Fit) (hne : c.isEmpty = false) : c.Present := by
  rwa [Fit, isPlaceable, hne, Bool.false_or] at h

theorem Fit.eq_empty_or (h : c.Fit) : c = .empty ∨ c.Present := by
  cases c with
  | empty => exact .inl rfl
  | _ => exact .inr (h.present rfl)

/-- What a connective joins is written for on both sides. -/
theorem Present.combined (op : Connective) (hleft : left.Present) (hright : right.Present) :
    Present (.combined op left right) := by
  refine ⟨rfl, ?_⟩
  rw [isComplete, hleft.1, hleft.2, hright.1, hright.2]
  rfl

theorem Present.not (h : c.Present) : Present (.not c) := by
  refine ⟨rfl, ?_⟩
  rw [isComplete, h.1, h.2]
  rfl

theorem Present.ne_empty (h : c.Present) : c ≠ .empty := by
  rintro rfl
  cases h.1

theorem Fit.combine (op : Connective) (hleft : left.Fit) (hright : right.Fit) :
    (combine op left right).Fit := by
  -- None at all is passed over on either side; what is left is there on both.
  rcases hleft.eq_empty_or with rfl | hl
  · rwa [combine_empty_left]
  · rcases hright.eq_empty_or with rfl | hr
    · rwa [combine_empty_right]
    · rw [combine_of_ne_empty op hl.ne_empty hr.ne_empty]
      exact (hl.combined op hr).fit

theorem Fit.foldl (op : Connective) {cs : List Condition} (hc : c.Fit) (hcs : ∀ c ∈ cs, Fit c) :
    (cs.foldl (Condition.combine op) c).Fit := by
  induction cs generalizing c with
  | nil => exact hc
  | cons d cs ih =>
    obtain ⟨hd, hcs⟩ := List.forall_mem_cons.mp hcs
    exact ih (hc.combine op hd) hcs

/-- What is there stays when more is joined to it. -/
theorem Present.foldl (op : Connective) {cs : List Condition} (hc : c.Present)
    (hcs : ∀ c ∈ cs, Present c) : (cs.foldl (Condition.combine op) c).Present := by
  induction cs generalizing c with
  | nil => exact hc
  | cons d cs ih =>
    obtain ⟨hd, hcs⟩ := List.forall_mem_cons.mp hcs
    refine ih ?_ hcs
    rw [combine_of_ne_empty op hc.ne_empty hd.ne_empty]
    exact hc.combined op hd

/-- **What is built from leaves is fit for a clause**, as long as nothing is negated that is none at
all. -/
theorem Composed.fit (h : c.Composed) : c.Fit := by
  induction h with
  | empty => exact .empty
  | leaf _ h => exact h.fit
  | combine op _ _ hleft hright => exact hleft.combine op hright
  | not _ hne ih => exact (ih.present hne).not.fit
  | all _ ih => exact Fit.empty.foldl .and ih
  | any _ ih => exact Fit.empty.foldl .or ih

end Condition

/-! ## Filters and choices -/

theorem Call.isComplete_iff (k : Call) : k.isComplete = true ↔
    Term.allComplete k.args = true ∧ (∀ c ∈ k.filter, c.Present) ∧
      ∀ w ∈ k.window, w.isComplete = true := by
  obtain ⟨name, form, aggregate, distinct, ignoreNulls, args, filter, window⟩ := k
  rw [Call.isComplete.eq_def, Bool.and_eq_true_iff, Bool.and_eq_true_iff]
  refine and_congr_right' (and_congr ?_ ?_)
  · cases filter with
    | none => simp
    | some c => simp [Condition.Present]
  · cases window with
    | none => simp
    | some w => simp

namespace Term

theorem isComplete_eq (t : Term) : t.isComplete = t.expr.isComplete := by
  obtain ⟨expr, alias?⟩ := t
  rw [Term.isComplete]

/-- A filter is joined to the one that the call has. -/
theorem filtered_complete {t : Term} {c : Condition} (ht : t.isComplete = true)
    (hc : c.Present) : Yields (·.isComplete = true) (t.filtered c) := by
  obtain ⟨expr, alias?⟩ := t
  cases expr with
  | call k =>
    rw [isComplete_eq, Expr.isComplete, Call.isComplete_iff] at ht
    obtain ⟨hargs, hfilter, hwindow⟩ := ht
    have hjoined : ((k.filter.map (·.and c)).getD c).Present := by
      cases hk : k.filter with
      | none => exact hc
      | some d =>
        exact Condition.Present.foldl .and (hfilter d hk) (List.forall_mem_singleton.mpr hc)
    have hchange : Yields (fun k : Call => k.isComplete = true) (if k.aggregate then
        .ok { k with filter := some ((k.filter.map (·.and c)).getD c) }
        else .error (.usage (.filterOnScalar k.name))) := by
      split
      · exact .ok ((Call.isComplete_iff _).mpr
          ⟨hargs, fun d hd => Option.some.inj hd ▸ hjoined, hwindow⟩)
      · exact .error _
    refine hchange.bind fun k hk => .pure ?_
    rwa [isComplete_eq, Expr.isComplete]
  | _ => exact .error _

/-- The term is complete as it stands, or built with conditions as the filter of an aggregate or in
the branches of a choice. -/
inductive Composed : Term → Prop where
  /-- A term that is complete. -/
  | complete {t : Term} (h : t.isComplete = true) : Composed t
  /-- An aggregate over the rows of which a condition holds. -/
  | filtered {t t' : Term} {c : Condition} (ht : Composed t) (hc : c.Composed)
      (hne : c.isEmpty = false) (h : t.filtered c = .ok t') : Composed t'
  /-- A choice between terms. -/
  | choice {k : Case} (hconditions : ∀ b ∈ k.branches, b.condition.Composed)
      (hne : ∀ b ∈ k.branches, b.condition.isEmpty = false)
      (hresults : ∀ b ∈ k.branches, Composed b.result)
      (hotherwise : ∀ t ∈ k.otherwise, Composed t) : Composed k.toTerm

theorem Composed.isComplete {t : Term} (h : t.Composed) : t.isComplete = true := by
  induction h with
  | complete h => exact h
  | filtered _ hc hne h ht => exact filtered_complete ht (hc.fit.present hne) _ h
  | @choice k hconditions hne _ _ hresults hotherwise =>
    rw [isComplete_eq, Case.toTerm, ofExpr, Case.toExpr, Expr.isComplete.eq_def,
      Bool.and_eq_true_iff, Branch.allComplete_iff]
    refine ⟨fun b hb => ?_, ?_⟩
    · rw [Bool.and_eq_true_iff, Bool.and_eq_true_iff]
      exact ⟨(hconditions b hb).fit.present (hne b hb), hresults b hb⟩
    · cases hk : k.otherwise with
      | none => rfl
      | some t => exact hotherwise t hk

end Term

end SqlScribe
