import Mathlib.Data.Set.Function
import SqlScribe.Proofs.Identity.Recast
import SqlScribe.Proofs.Identity.Reference
/-! # Calls under other identities

The calls, with their arguments, and the errors of another run, and how what comes of a call is
compared.

* `Query.Step.recast`, `QueryError.recast`: calls and errors as another run has them.
* `Recast.Outcome`: what comes of a call in one run and what in the other.
* `SelectItem.toTerm_recast`, `Condition.combine_recast` and their like: the parts of syntax that
  calls are made of. -/

namespace SqlScribe

variable {r : Recast} {S : List SourceId}

/-! ## Calls and errors -/

/-- The item as another run has it. -/
def SelectItem.recast (r : Recast) : SelectItem → SelectItem
  | .column name => .column name
  | .term t => .term (t.recast r)

/-- The rule of a join as another run has it. -/
def JoinRule.recast (r : Recast) : JoinRule → JoinRule
  | .on c => .on (c.recast r)
  | .onFields names => .onFields names
  | .sharing names => .sharing names
  | .cross => .cross

/-- The call as another run has it. Whether calls give a query a new identity is a matter of the
run. -/
def Query.Step.recast (r : Recast) : Query.Step → Query.Step
  | .setImmutable _ => .setImmutable r.immutable
  | .fork => .fork
  | .aliased name => .aliased name
  | .source s => .source (s.recast r)
  | .commonTable t => .commonTable (t.recast r)
  | .select items => .select (items.map (·.recast r))
  | .distinct => .distinct
  | .distinctOn items => .distinctOn (items.map (·.recast r))
  | .top t => .top t
  | .filter c => .filter (c.recast r)
  | .having c => .having (c.recast r)
  | .groupBy items => .groupBy (items.map (·.recast r))
  | .rollup items => .rollup (items.map (·.recast r))
  | .orderBy items order => .orderBy (items.map (·.recast r)) order
  | .limit n => .limit n
  | .offset n => .offset n
  | .lock l => .lock (l.recast r)
  | .join kind s rule => .join kind (s.recast r) (rule.recast r)
  | .into t => .into (t.recast r)
  | .columns items => .columns (items.map (·.recast r))
  | .rows rs => .rows (rs.map fun row => row.map (·.recast r))
  | .replace row => .replace (row.map (·.recast r))
  | .ignore => .ignore
  | .insertOrReplace => .insertOrReplace
  | .update t => .update (t.recast r)
  | .assign column value => .assign (column.recast r) (value.recast r)
  | .delete => .delete
  | .usingTables tables => .usingTables (tables.map (·.recast r))
  | .onConflict items => .onConflict (items.map (·.recast r))
  | .doNothing => .doNothing
  | .doUpdate item value => .doUpdate (item.recast r) (value.map (·.recast r))
  | .conflictWhere c => .conflictWhere (c.recast r)
  | .onDuplicateUpdate item value => .onDuplicateUpdate (item.recast r) (value.recast r)
  | .onDuplicateIgnore => .onDuplicateIgnore
  | .returning items => .returning (items.map (·.recast r))

/-- The join fault as another run has it. -/
def JoinFault.recast (r : Recast) : JoinFault → JoinFault
  | .foreignQualifier q => .foreignQualifier (q.recast r)
  | fault => fault

/-- The error as another run has it. -/
def QueryError.recast (r : Recast) : QueryError → QueryError
  | .join fault => .join (fault.recast r)
  | e => e

/-- Identities are not spelled. -/
theorem QueryError.message_recast (e : QueryError) : (e.recast r).message = e.message := by
  cases e with
  | join fault =>
    cases fault with
    | foreignQualifier q =>
      cases q with
      | table t => rfl
      | subquery id alias? => cases alias? <;> rfl
      | raw text => rfl
    | _ => rfl
  | _ => rfl

/-! ## Outcomes -/

/-- What comes of a call in one run, and what comes of it in the other: a result with a property and
its image, or an error as the other run has it. -/
inductive Recast.Outcome {α : Type} (r : Recast) (p : α → Prop) (f : α → α) :
    Except QueryError α → Except QueryError α → Prop where
  /-- The call succeeds. -/
  | ok {a b : α} (h : p a) (eq : b = f a) : Outcome r p f (.ok a) (.ok b)
  /-- The call fails. -/
  | error (e : QueryError) : Outcome r p f (.error e) (.error (e.recast r))

namespace Recast.Outcome

variable {α β γ : Type} {p : α → Prop} {f : α → α} {p' : β → Prop} {f' : β → β}

theorem bind {x y : Except QueryError α} {k k' : α → Except QueryError β} (h : r.Outcome p f x y)
    (hk : ∀ a, p a → r.Outcome p' f' (k a) (k' (f a))) :
    r.Outcome p' f' (x >>= k) (y >>= k') := by
  cases h with
  | ok ha eq =>
    subst eq
    exact hk _ ha
  | error e => exact .error e

/-- A fold whose steps agree in both runs agrees as a whole. -/
theorem foldlM {g : α → γ → Except QueryError α} {view : γ → γ} {l : List γ}
    (step : ∀ a, p a → ∀ c ∈ l, r.Outcome p f (g a c) (g (f a) (view c))) {a : α} (ha : p a) :
    r.Outcome p f (l.foldlM g a) ((l.map view).foldlM g (f a)) := by
  induction l generalizing a with
  | nil => exact .ok ha rfl
  | cons c l ih =>
    rw [List.map_cons, List.foldlM_cons, List.foldlM_cons]
    refine (step a ha c List.mem_cons_self).bind fun b hb => ?_
    exact ih (fun a ha c hc => step a ha c (List.mem_cons_of_mem _ hc)) hb

end Recast.Outcome

/-- What comes of a call on a query in one run and what in the other. -/
abbrev Query.Outcome (r : Recast) (S : List SourceId) :
    Except QueryError Query → Except QueryError Query → Prop :=
  Recast.Outcome r (RefersIn S) (recast r)

/-! ## Parts of syntax -/

/-- Two qualifiers are told apart in one run if they are in the other one. -/
theorem Qualifier.beq_recast (hr : Set.InjOn r.id {id | id ∈ S}) {a b : Qualifier}
    (ha : a.references ⊆ S) (hb : b.references ⊆ S) :
    (a.recast r == b.recast r) = (a == b) := by
  cases a with
  | table t => cases b <;> rfl
  | raw text => cases b <;> rfl
  | subquery id alias? =>
    cases b with
    | subquery id' alias?' =>
      show (r.id id == r.id id') = (id == id')
      rw [Bool.eq_iff_iff, beq_iff_eq, beq_iff_eq]
      exact hr.eq_iff (ha (List.mem_singleton_self _)) (hb (List.mem_singleton_self _))
    | _ => rfl

namespace SelectItem

variable (item : SelectItem)

theorem toTerm_recast (ns : Option Qualifier) :
    (item.recast r).toTerm (ns.map (·.recast r)) = (item.toTerm ns).recast r := by
  cases item with
  | column name =>
    simp only [recast, toTerm]
    split
    · rfl
    · cases ns <;> rfl
  | term t => rfl

theorem toColumn_recast : (item.recast r).toColumn = item.toColumn.recast r := by
  have hterm : (item.recast r).toTerm none = (item.toTerm none).recast r := item.toTerm_recast none
  rw [toColumn, toColumn, hterm]
  simp only [Term.fieldName?_recast]
  cases (item.toTerm none).fieldName? <;> rfl

variable {item}

theorem toTerm_references {ns : Option Qualifier}
    (hns : ns.toList.flatMap Qualifier.references ⊆ S) (hitem : item.references ⊆ S) :
    (item.toTerm ns).references ⊆ S := by
  cases item with
  | column name =>
    simp only [toTerm]
    split
    · exact List.nil_subset _
    · cases ns with
      | none => exact List.nil_subset _
      | some ns => exact hns
  | term t => exact hitem

theorem toColumn_references (hitem : item.references ⊆ S) : item.toColumn.references ⊆ S := by
  rw [toColumn]
  split
  · exact List.nil_subset _
  · have hnone : (none : Option Qualifier).toList.flatMap Qualifier.references ⊆ S :=
      List.nil_subset _
    exact toTerm_references hnone hitem

end SelectItem

namespace Condition

theorem combine_recast (op : Connective) (a b : Condition) :
    (combine op a b).recast r = combine op (a.recast r) (b.recast r) := by
  cases a with
  | empty => rw [combine_empty_left, recast, combine_empty_left]
  | _ => cases b <;> rfl

theorem combine_references (op : Connective) {a b : Condition} (ha : a.references ⊆ S)
    (hb : b.references ⊆ S) : (combine op a b).references ⊆ S := by
  cases a with
  | empty =>
    rw [combine_empty_left]
    exact hb
  | _ =>
    cases b with
    | empty => exact ha
    | _ => exact List.append_subset.mpr ⟨ha, hb⟩

theorem all_recast (cs : List Condition) : (all cs).recast r = all (cs.map (·.recast r)) := by
  rw [all, all, List.foldl_map]
  exact (List.foldl_hom (recast r) fun a b => (combine_recast .and a b).symm).symm

theorem all_references {cs : List Condition} (h : ∀ c ∈ cs, c.references ⊆ S) :
    (all cs).references ⊆ S := by
  have hfold : ∀ start : Condition, start.references ⊆ S → (cs.foldl and start).references ⊆ S := by
    induction cs with
    | nil => exact fun _ hstart => hstart
    | cons c cs ih =>
      obtain ⟨hc, hcs⟩ := List.forall_mem_cons.mp h
      exact fun start hstart => ih hcs _ (combine_references .and hstart hc)
  exact hfold .empty (List.nil_subset _)

end Condition

namespace Subquery

variable (s : Subquery) (name : String)

theorem aliased_recast : (s.recast r).aliased name = (s.aliased name).recast r := by
  cases s with
  | query q =>
    show Subquery.query ((q.recast r).aliased name) = .query ((q.aliased name).recast r)
    rw [q.recast_eq, Query.recast_eq]
    rfl
  | compound c =>
    cases c
    rfl

theorem subqueryCount_recast : (s.recast r).subqueryCount = s.subqueryCount := by
  cases s with
  | query q =>
    rw [recast, subqueryCount, subqueryCount, q.info_recast]
    rfl
  | compound c => rfl

end Subquery

/-- A name is none of the things that a source refers to. -/
theorem Source.references_aliased (s : Subquery) (name : String) :
    (Source.subquery (s.aliased name)).references = (Source.subquery s).references := by
  cases s with
  | query q =>
    cases q
    rfl
  | compound c =>
    cases c
    rfl

theorem Qualifier.contains_recast (hr : Set.InjOn r.id {id | id ∈ S}) {l : List Qualifier}
    (hl : l.flatMap references ⊆ S) {ns : Qualifier} (hns : ns.references ⊆ S) :
    (l.map (·.recast r)).contains (ns.recast r) = l.contains ns := by
  induction l with
  | nil => rfl
  | cons a l ih =>
    rw [List.flatMap_cons, List.append_subset] at hl
    rw [List.map_cons, List.contains_cons, List.contains_cons, beq_recast hr hns hl.1, ih hl.2]

namespace Call

theorem name_recast (c : Call) : (c.recast r).name = c.name := by
  cases c
  rfl

theorem append_args_recast (c : Call) (ts : List Term) :
    { c.recast r with args := (c.recast r).args ++ ts.map (·.recast r) } =
      ({ c with args := c.args ++ ts } : Call).recast r := by
  cases c
  simp only [recast.eq_def, Term.recastAll_eq_map, List.map_append]

theorem append_args_references {c : Call} {ts : List Term} (hc : c.references ⊆ S)
    (hts : Term.referencesAll ts ⊆ S) :
    ({ c with args := c.args ++ ts } : Call).references ⊆ S := by
  cases c
  simp only [references.eq_def, List.append_subset] at hc
  simp only [references.eq_def, Term.referencesAll_append, List.append_subset]
  exact ⟨⟨⟨hc.1.1, hts⟩, hc.1.2⟩, hc.2⟩

end Call

end SqlScribe
