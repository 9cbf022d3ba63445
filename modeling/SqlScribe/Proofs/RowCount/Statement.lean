import SqlScribe.Proofs.Occurrence.Statement
import SqlScribe.Proofs.RowCount.Place
/-! # Numbers that a statement adds

A statement puts the parts of a query together and adds the numbers of its own: `TOP` and the row
window of what it selects, and the limit of what it changes.

* `Query.Showing`: the numbers that the statement of a query adds stand in the tokens.
* `Statement.whole_shows`: they stand in its statement. -/

namespace SqlScribe

open Tokens

/-- The numbers that the statement of a query adds stand in the tokens, each in its clause. -/
structure Query.Showing (d : Dialect) (q : Query) (ts : Tokens) : Prop where
  top : q.selectsRows = true → ∀ t ∈ q.info.top,
    CountPlace.top.clause d (writtenCount t.count) <:+: ts
  window : q.selectsRows = true → d.window q.info.limit (properOffset q.info.offset) <:+: ts
  limit : q.info.action.isChange = true → ∀ n ∈ q.info.limit,
    CountPlace.changeLimit.clause d (writtenCount n) <:+: ts

namespace Query.Showing

variable {d : Dialect} {q : Query} {ts us : Tokens}

theorem mono (h : q.Showing d ts) (hts : ts <:+: us) : q.Showing d us :=
  ⟨fun hq t ht => (h.top hq t ht).trans hts, fun hq => (h.window hq).trans hts,
    fun hq n hn => (h.limit hq n hn).trans hts⟩

/-- A statement that changes no rows has no limit of its own. -/
theorem of_selects (hchange : q.info.action.isChange = false)
    (htop : q.selectsRows = true → ∀ t ∈ q.info.top,
      CountPlace.top.clause d (writtenCount t.count) <:+: ts)
    (hwindow : q.selectsRows = true → d.window q.info.limit (properOffset q.info.offset) <:+: ts) :
    q.Showing d ts :=
  ⟨htop, hwindow, fun hq => absurd (hchange.symm.trans hq) Bool.false_ne_true⟩

/-- A statement that changes rows selects none. -/
theorem of_changes (hselects : q.selectsRows = false)
    (hlimit : ∀ n ∈ q.info.limit, CountPlace.changeLimit.clause d (writtenCount n) <:+: ts) :
    q.Showing d ts :=
  ⟨fun hq => absurd (hselects.symm.trans hq) Bool.false_ne_true,
    fun hq => absurd (hselects.symm.trans hq) Bool.false_ne_true, fun _ => hlimit⟩

end Query.Showing

namespace Statement

variable (s : Scope) (q : Query) (parts : QueryParts)

theorem topClause_shows (d : Dialect) (top : Option Top) : Yields
    (fun ts => ∀ t ∈ top, CountPlace.top.clause d (writtenCount t.count) <:+: ts)
    (topClause d top) := by
  cases top with
  | none => exact .ok nofun
  | some t =>
    refine iteInduction (fun _ => .ok ?_) fun _ => .error _
    intro t' ht
    cases ht
    exact List.infix_append_of_infix_left List.infix_append_left

theorem selectClause_shows (d : Dialect) : Yields
    (fun ts => ∀ t ∈ q.info.top, CountPlace.top.clause d (writtenCount t.count) <:+: ts)
    (selectClause d q parts) :=
  (Yields.self _).bind fun _ _ => (topClause_shows d q.info.top).bind fun _ htop =>
    (Yields.self parts.selects).bind fun _ _ => .pure fun t ht =>
      List.infix_append_of_infix_left (List.infix_append_of_infix_right (htop t ht))

theorem windowClause_shows (d : Dialect) (unordered : Bool) (limit offset : Option UInt64) :
    d.window limit (properOffset offset) <:+: windowClause d unordered limit offset :=
  List.infix_append_right

theorem selectTail_shows : Yields
    (s.dialect.window q.info.limit (properOffset q.info.offset) <:+: ·)
    (selectTail s q parts) := by
  refine (Yields.self _).bind fun _ _ => (Yields.self _).bind fun _ _ => (Yields.self _).bind
    fun _ _ => (Yields.self _).bind fun _ _ => (Yields.self _).bind fun _ _ =>
    (Yields.self _).bind fun _ _ => (Yields.self (lockClause s q.info.lock)).bind
    fun lock _ => .pure ?_
  exact List.infix_append_of_infix_left
    (List.infix_append_of_infix_right (windowClause_shows _ _ _ _))

theorem changeTail_shows : Yields
    (fun ts => ∀ n ∈ q.info.limit, CountPlace.changeLimit.clause s.dialect (writtenCount n) <:+: ts)
    (changeTail s q parts) := by
  refine (Yields.self _).bind fun _ _ => (Yields.self _).bind fun _ _ =>
    (Yields.self (returningClause s.dialect q parts.returning)).bind fun returning _ => .pure ?_
  intro n hn
  rw [Option.mem_def.mp hn]
  exact List.infix_append_of_infix_left List.infix_append_right

theorem selection_shows (target : Option Table) (hq : q.info.action.isChange = false) :
    Yields (q.Showing s.dialect) (selection s q parts target) :=
  (selectClause_shows q parts s.dialect).bind fun _ htop =>
    (selectTail_shows s q parts).bind fun _ hwindow => .pure (.of_selects hq
      (fun _ t ht => List.infix_append_of_infix_left
        (List.infix_append_of_infix_left (htop t ht)))
      fun _ => List.infix_append_of_infix_right hwindow)

theorem insertion_shows (target : Table) (hq : q.info.action = .insert target false) :
    Yields (q.Showing s.dialect) (insertion s q parts target) := by
  have hchange : q.info.action.isChange = false := by rw [hq]; rfl
  have hadded : Yields (q.Showing s.dialect) (addedRows s q parts) := by
    refine iteInduction (fun _ => ?_) fun hrows => ?_
    · exact (selectClause_shows q parts s.dialect).bind fun _ htop =>
        (selectTail_shows s q parts).bind fun _ hwindow => .pure (.of_selects hchange
          (fun _ t ht => List.infix_append_of_infix_left (List.infix_cons (htop t ht)))
          fun _ => List.infix_append_of_infix_right hwindow)
    · -- Given rows are not selected.
      have hselects : ¬ q.selectsRows = true := by simpa [Query.selectsRows, hq] using hrows
      exact (Yields.self _).mono fun _ _ => .of_selects hchange
        (fun h => absurd h hselects) fun h => absurd h hselects
  refine (Yields.self _).bind fun _ _ => (Yields.self _).bind fun _ _ => hadded.bind
    fun added hshows => (Yields.self _).bind fun _ _ => (Yields.self _).bind fun _ _ =>
    (Yields.self _).bind fun _ _ => .pure (hshows.mono ?_)
  iterate 3 refine List.infix_append_of_infix_left ?_
  exact List.infix_append_right

theorem update_shows (target : Table) (hq : q.info.action = .update target) :
    Yields (q.Showing s.dialect) (update s q parts target) := by
  have hselects : q.selectsRows = false := by simp [Query.selectsRows, hq]
  exact (Yields.self _).bind fun _ _ => (Yields.self _).bind fun _ _ => (Yields.self _).bind
    fun _ _ => (changeTail_shows s q parts).bind fun _ hlimit =>
      .pure (.of_changes hselects fun n hn => List.infix_append_of_infix_right (hlimit n hn))

theorem deletion_shows (hq : q.info.action = .delete) :
    Yields (q.Showing s.dialect) (deletion s q parts) := by
  have hselects : q.selectsRows = false := by simp [Query.selectsRows, hq]
  exact (Yields.self _).bind fun _ _ => (Yields.self _).bind fun _ _ =>
    (changeTail_shows s q parts).bind fun _ hlimit =>
      .pure (.of_changes hselects fun n hn => List.infix_append_of_infix_right (hlimit n hn))

theorem body_shows : Yields (q.Showing s.dialect) (body s q parts) := by
  cases hq : q.info.action with
  | select =>
    simp only [body, hq]
    exact selection_shows s q parts none (by rw [hq]; rfl)
  | insert target fromList =>
    cases fromList with
    | true =>
      simp only [body, hq]
      exact selection_shows s q parts (some target) (by rw [hq]; rfl)
    | false =>
      simp only [body, hq]
      exact insertion_shows s q parts target hq
  | update target =>
    simp only [body, hq]
    exact update_shows s q parts target hq
  | delete =>
    simp only [body, hq]
    exact deletion_shows s q parts hq

/-- A statement shows the numbers that it adds. -/
theorem whole_shows : Yields (q.Showing s.dialect) (whole s q parts) :=
  (Yields.self _).bind fun _ _ => (body_shows s q parts).bind fun _ hshows =>
    .pure (hshows.mono List.infix_append_right)

end Statement

end SqlScribe
