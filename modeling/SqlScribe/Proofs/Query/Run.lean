import SqlScribe.Proofs.Nesting.Clause
import SqlScribe.Query.Step
/-! # Programs of steps

A query is begun in one of a few ways and grows by steps.

* `Query.Begun`, `Query.Reachable`: the queries that are begun, and those that steps lead to.
* `Query.run`: a query after a program of steps.
* `Yields.foldlM`: what every step of a fold keeps, the whole fold keeps.
* `Yields.guarded`: a call that may be refused. -/

namespace SqlScribe

/-- A relation that each step of a fold keeps to holds between the start of the fold and its
result. -/
theorem Yields.foldlM {α β : Type} {r : β → β → Prop} {f : β → α → Except QueryError β}
    (refl : ∀ b, r b b) (trans : ∀ {a b c}, r a b → r b c → r a c)
    (step : ∀ b a, Yields (r b) (f b a)) (l : List α) (b : β) : Yields (r b) (l.foldlM f b) := by
  induction l generalizing b with
  | nil => exact .pure (refl b)
  | cons a l ih =>
    rw [List.foldlM_cons]
    exact (step b a).bind fun b' hb => (ih b').mono fun _ h => trans hb h

/-- What may be refused has a property if what is granted has it. -/
theorem Yields.guarded {α : Type} {p : α → Prop} {c : Prop} [Decidable c] {a : α} {e : QueryError}
    (h : p a) : Yields p (if c then .ok a else .error e) := by
  split
  · exact .ok h
  · exact .error _

namespace Query

/-- The ways in which a query is begun: with nothing in it, as an insertion into a table or an
update of one, or by a table handle. -/
inductive Begun : Query → Prop where
  /-- Nothing is staged. -/
  | start (id : SourceId) (d : Dialect) : Begun (start id d)
  /-- An insertion into a table. -/
  | into (id : SourceId) (t : Table) : Begun ((start id .ansi).insertingInto t)
  /-- An update of a table. -/
  | update (id : SourceId) (t : Table) : Begun ((start id .ansi).updating t)
  /-- A selection from the table of a handle. -/
  | tableSelect (t : Table) (id : SourceId) (items : List SelectItem) {q : Query}
      (h : t.select id items = .ok q) : Begun q
  /-- An update of the table of a handle. -/
  | tableUpdate (t : Table) (id : SourceId) : Begun (t.update id)
  /-- An insertion of a row into the table of a handle. -/
  | tableInsert (t : Table) (id : SourceId) (row : List Term) {q : Query}
      (h : t.insert id row = .ok q) : Begun q

/-- The queries that steps lead to. -/
inductive Reachable : Query → Prop where
  /-- A query that was just begun. -/
  | begun {q : Query} (h : q.Begun) : Reachable q
  /-- A query after one more step. -/
  | step {q q' : Query} {fresh : SourceId} {s : Step} (h : Reachable q)
      (hs : q.step fresh s = .ok q') : Reachable q'

/-- The query after some steps, each with the identity that it may give the query. -/
def run (q : Query) (steps : List (SourceId × Step)) : Except QueryError Query :=
  steps.foldlM (fun q s => q.step s.1 s.2) q

theorem run_cons {q q' : Query} {s : SourceId × Step} {steps : List (SourceId × Step)}
    (h : q.run (s :: steps) = .ok q') :
    ∃ next, q.step s.1 s.2 = .ok next ∧ next.run steps = .ok q' := by
  rw [run, List.foldlM_cons] at h
  cases hs : q.step s.1 s.2 with
  | error e =>
    rw [hs] at h
    cases h
  | ok next =>
    rw [hs] at h
    exact ⟨next, rfl, h⟩

theorem Reachable.run {q q' : Query} {steps : List (SourceId × Step)} (h : q.Reachable)
    (hrun : q.run steps = .ok q') : q'.Reachable := by
  induction steps generalizing q with
  | nil =>
    cases hrun
    exact h
  | cons s steps ih =>
    obtain ⟨next, hs, hrest⟩ := run_cons hrun
    exact ih (h.step hs) hrest

end Query

end SqlScribe
