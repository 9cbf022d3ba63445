import SqlScribe.Function.Catalogue
import SqlScribe.Proofs.Aggregation.Contents
import SqlScribe.Query.Step
import SqlScribe.Render
/-! # Returned terms

A statement that changes rows may return terms for the changed rows, and is not to aggregate them.

* `Query.returnedTerms`: the terms for some items.
* `Query.foldlM_returnTerm_error`: they are refused if one of them is an aggregate.
* `Query.returning_refuses`: aggregate functions are refused where no column stands beside them.
* `Query.returning_accepts`: some that are not refused.

The refusal asks whether a term is an aggregate, which is the question of grouping: one column
outside of aggregate functions makes a term one that is not. -/

namespace SqlScribe

namespace Query

variable {q : Query}

/-- The terms that are returned for some items. -/
def returnedTerms (q : Query) (items : List SelectItem) : List Term :=
  items.map (SelectItem.toTerm q.returnedQualifier?)

theorem returnTerm_aggregate {t : Term} (h : t.aggregation = .aggregate) :
    q.returnTerm t = .error (.configuration .aggregateReturned) := if_pos h

theorem exists_returnTerm (q : Query) {t : Term} (h : t.aggregation ≠ .aggregate) :
    ∃ q', q.returnTerm t = .ok q' := by
  rw [returnTerm, if_neg h]
  split
  · exact ⟨q, rfl⟩
  · split <;> exact ⟨_, rfl⟩

/-- A list of terms is refused if one of them is an aggregate, and for no other reason. -/
theorem foldlM_returnTerm_error {ts : List Term} {e : QueryError} :
    ts.foldlM returnTerm q = .error e ↔
      e = .configuration .aggregateReturned ∧ ∃ t ∈ ts, t.aggregation = .aggregate := by
  induction ts generalizing q with
  | nil => simp [pure, Except.pure]
  | cons t ts ih =>
    rw [List.foldlM_cons]
    by_cases ht : t.aggregation = .aggregate
    · rw [returnTerm_aggregate ht]
      constructor
      · intro h
        cases h
        exact ⟨rfl, t, List.mem_cons_self, ht⟩
      · rintro ⟨rfl, _⟩
        rfl
    · -- The query changes, but whether the others are refused does not depend on it.
      obtain ⟨next, hnext⟩ := q.exists_returnTerm ht
      rw [hnext]
      refine ih.trans (and_congr_right fun _ => ?_)
      simp [ht]

theorem returningItems_of_change (hmode : q.info.action ≠ .select) (items : List SelectItem) :
    q.returningItems items = (q.returnedTerms items).foldlM returnTerm q := by
  rw [returningItems]
  split
  · next h => exact absurd h hmode
  · rfl

/-- **Aggregate functions are not returned.** A statement that changes rows refuses to return items
if a term among them calls an aggregate function, in a place that counts, and has no field or star
outside of such calls. It refuses them for an aggregate among them only, with that one error, and a
term that is an aggregate calls an aggregate function. -/
theorem returning_refuses (hmode : q.info.action ≠ .select) (items : List SelectItem) :
    ((∃ t ∈ q.returnedTerms items, t.contents = ⟨true, false⟩) →
      q.returningItems items = .error (.configuration .aggregateReturned)) ∧
    (∀ e, q.returningItems items = .error e ↔ e = .configuration .aggregateReturned ∧
      ∃ t ∈ q.returnedTerms items, t.aggregation = .aggregate) ∧
    ∀ t ∈ q.returnedTerms items, t.aggregation = .aggregate → t.contents.aggregate = true := by
  rw [returningItems_of_change hmode]
  refine ⟨fun ⟨t, ht, hcontents⟩ => foldlM_returnTerm_error.mpr ⟨rfl, t, ht, ?_⟩,
    fun e => foldlM_returnTerm_error, fun t _ => (Term.contents_fits t).sound⟩
  rw [(Term.contents_fits t).settled (by rw [hcontents]), hcontents]
  rfl

/-- A sum is returned beside a column. -/
theorem returning_refuses_sum :
    let abc : Table := { id := ⟨0⟩, name := "abc" }
    let q : Query := (start ⟨1⟩ .postgres).updating abc
    let items : List SelectItem := [.column "a", .term (Function.sum (abc.field "b"))]
    q.info.action ≠ .select ∧
      (Function.sum (abc.field "b") ∈ q.returnedTerms items ∧
        (Function.sum (abc.field "b")).contents = ⟨true, false⟩) ∧
      q.returningItems items = .error (.configuration .aggregateReturned) := by
  intro abc q items
  have hmem : Function.sum (abc.field "b") ∈ q.returnedTerms items :=
    List.mem_cons_of_mem _ List.mem_cons_self
  have hcontents : (Function.sum (abc.field "b")).contents = ⟨true, false⟩ := rfl
  have hmode : q.info.action ≠ .select := by
    intro h
    cases h
  exact ⟨hmode, ⟨hmem, hcontents⟩, (returning_refuses hmode items).1 ⟨_, hmem, hcontents⟩⟩

/-- A sum is returned with a column added to it, and in a list that a number is looked for in. -/
theorem returning_accepts :
    let abc : Table := { id := ⟨0⟩, name := "abc" }
    let sum := Function.sum (abc.field "b")
    let q := ((start ⟨1⟩ .postgres).updating abc).assign (.column "a") (Term.int 1)
    let text (t : Term) : Option String :=
      (q.returningItems [.term t]).toOption.bind fun q => (render q {}).toOption
    text (sum + abc.field "c") =
        some "UPDATE \"abc\" SET \"a\"=1 RETURNING SUM(\"b\")+\"c\"" ∧
      text ⟨.condition (.isIn false (Term.int 1) [sum]), none⟩ =
        some "UPDATE \"abc\" SET \"a\"=1 RETURNING 1 IN (SUM(\"b\"))" := by
  decide +kernel

end Query

end SqlScribe
