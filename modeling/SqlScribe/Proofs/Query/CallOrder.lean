import SqlScribe.Proofs.Combination.Query
import SqlScribe.Proofs.Query.SelectionText
/-! # The order of calls

Once the sources of a query are settled, each call that fills another clause fills that clause only.
So such calls may be made in any order, as long as those of one kind keep theirs: what is written is
the same, clause by clause in the one order that statements have.

* `Query.ClauseCall`, `Query.ClauseCall.Kind`: the calls, and the kinds of them.
* `Query.Reordered`: lists of calls that differ in how calls of different kinds are mingled.
* `Query.filled_comm`: two calls of different kinds commute.
* `Query.Reordered.foldl_filled`: so reordered calls fill a query alike.
* `Query.calls_reordered`: and what comes of them is written alike, in the order of the clauses. -/

namespace SqlScribe.Query

/-! ## Calls -/

/-- A call that fills a clause of a query whose sources are settled. -/
inductive ClauseCall where
  /-- Drops repeated rows. -/
  | distinct
  /-- Keeps one row for equal values of some items. -/
  | distinctOn (items : List SelectItem)
  /-- Keeps the rows of which a condition holds too. -/
  | filter (c : Condition)
  /-- Keeps the groups of which a condition holds too. -/
  | having (c : Condition)
  /-- Groups the rows by some items too. -/
  | groupBy (items : List SelectItem)
  /-- Orders the rows by some items too. -/
  | orderBy (items : List SelectItem) (order : Option SortOrder)
  /-- Keeps so many rows. -/
  | limit (n : UInt64)
  /-- Passes over so many rows. -/
  | offset (n : UInt64)
  /-- Locks the rows. -/
  | lock (l : Lock)

namespace ClauseCall

/-- The kinds of calls: one for each method. -/
inductive Kind where
  | distinct | distinctOn | filter | having | groupBy | orderBy | limit | offset | lock
deriving Repr, DecidableEq

/-- The kind of a call. -/
def kind : ClauseCall → Kind
  | .distinct => .distinct
  | .distinctOn _ => .distinctOn
  | .filter _ => .filter
  | .having _ => .having
  | .groupBy _ => .groupBy
  | .orderBy _ _ => .orderBy
  | .limit _ => .limit
  | .offset _ => .offset
  | .lock _ => .lock

/-- The call as a step of a program. -/
def step : ClauseCall → Step
  | .distinct => .distinct
  | .distinctOn items => .distinctOn items
  | .filter c => .filter c
  | .having c => .having c
  | .groupBy items => .groupBy items
  | .orderBy items order => .orderBy items order
  | .limit n => .limit n
  | .offset n => .offset n
  | .lock l => .lock l

end ClauseCall

/-- The second list has the calls of the first one in another order, in which the calls of each kind
keep theirs. -/
structure Reordered (xs ys : List ClauseCall) : Prop where
  perm : xs.Perm ys
  kept : ∀ k, xs.filter (·.kind = k) = ys.filter (·.kind = k)

/-- The query with its clause filled by a call, under the identity that it has. -/
def filled (q : Query) : ClauseCall → Query
  | .distinct => q.distinct
  | .distinctOn items => q.distinctOver items
  | .filter c => q.restrict c
  | .having c => q.restrictGroups c
  | .groupBy items => q.group items
  | .orderBy items order => q.order items order
  | .limit n => q.limit n
  | .offset n => q.offset n
  | .lock l => q.lock l

variable (q : Query)

/-- A call looks at the sources of the query, which no call touches, and at its own clause. -/
theorem filled_comm {a b : ClauseCall} (h : a.kind ≠ b.kind) :
    (q.filled a).filled b = (q.filled b).filled a := by
  cases a <;> cases b <;> first | rfl | exact absurd rfl h

theorem filled_fork (id : SourceId) (c : ClauseCall) :
    (q.fork id).filled c = (q.filled c).fork id := by
  cases c <;> rfl

theorem kind_filled (c : ClauseCall) : (q.filled c).kind = q.kind := by
  cases c <;> rfl

/-- A call never fails. -/
theorem change_clauseCall (c : ClauseCall) : q.change c.step = .ok (q.filled c) := by
  cases c <;> rfl

theorem fork_self : q.fork q.info.id = q := by
  cases q
  rfl

theorem touched_fork (fresh : SourceId) : ∃ id, q.touched fresh = q.fork id := by
  rw [touched]
  split
  · exact ⟨fresh, rfl⟩
  · exact ⟨q.info.id, q.fork_self.symm⟩

theorem step_clauseCall (fresh : SourceId) (c : ClauseCall) :
    ∃ id, q.step fresh c.step = .ok ((q.filled c).fork id) := by
  have hsettled : (q.filled c).settled fresh c.step = (q.filled c).touched fresh := by
    cases c <;> rfl
  obtain ⟨id, hid⟩ := (q.filled c).touched_fork fresh
  refine ⟨id, ?_⟩
  rw [step, change_clauseCall, ← hid, ← hsettled]
  rfl

/-! ## Programs of calls -/

theorem foldl_filled_fork (id : SourceId) (calls : List ClauseCall) :
    calls.foldl filled (q.fork id) = (calls.foldl filled q).fork id := by
  induction calls generalizing q with
  | nil => rfl
  | cons c calls ih => rw [List.foldl_cons, List.foldl_cons, filled_fork, ih]

theorem kind_foldl_filled (calls : List ClauseCall) : (calls.foldl filled q).kind = q.kind := by
  induction calls generalizing q with
  | nil => rfl
  | cons c calls ih => rw [List.foldl_cons, ih, kind_filled]

/-- A program of calls fills the clauses; which identities the calls are given has a share in the
identity of the result only. -/
theorem run_clauseCalls (calls : List (SourceId × ClauseCall)) :
    ∃ id, q.run (calls.map fun c => (c.1, c.2.step)) =
      .ok (((calls.map Prod.snd).foldl filled q).fork id) := by
  induction calls generalizing q with
  | nil => exact ⟨q.info.id, congrArg Except.ok q.fork_self.symm⟩
  | cons c calls ih =>
    obtain ⟨id, hstep⟩ := q.step_clauseCall c.1 c.2
    obtain ⟨last, hrun⟩ := ih ((q.filled c.2).fork id)
    refine ⟨last, ?_⟩
    rw [foldl_filled_fork] at hrun
    rw [List.map_cons, run, List.foldlM_cons, hstep]
    exact hrun

/-- A call may be made before calls of other kinds. -/
theorem foldl_filled_early (c : ClauseCall) {before : List ClauseCall} (after : List ClauseCall)
    (h : ∀ b ∈ before, b.kind ≠ c.kind) :
    (before ++ c :: after).foldl filled q = (c :: (before ++ after)).foldl filled q := by
  induction before generalizing q with
  | nil => rfl
  | cons b before ih =>
    obtain ⟨hb, hbefore⟩ := List.forall_mem_cons.mp h
    rw [List.cons_append, List.foldl_cons, ih (q.filled b) hbefore, List.foldl_cons,
      q.filled_comm hb]
    rfl

/-- The first of some calls is somewhere among the reordered ones, behind calls of other kinds only.
Without it, the rest is reordered too. -/
theorem Reordered.exists_append {c : ClauseCall} {xs ys : List ClauseCall}
    (h : Reordered (c :: xs) ys) :
    ∃ before after, ys = before ++ c :: after ∧ (∀ b ∈ before, b.kind ≠ c.kind) ∧
      Reordered xs (before ++ after) := by
  have hfirst := (h.kept c.kind).symm
  rw [List.filter_cons_of_pos (by simp), List.filter_eq_cons_iff] at hfirst
  obtain ⟨before, after, rfl, hbefore, -, hafter⟩ := hfirst
  have hbefore (b : ClauseCall) (hb : b ∈ before) : b.kind ≠ c.kind := by
    simpa using hbefore b hb
  refine ⟨before, after, rfl, hbefore, (h.perm.trans List.perm_middle).cons_inv, fun k => ?_⟩
  by_cases hk : c.kind = k
  · subst hk
    have hnone : before.filter (·.kind = c.kind) = [] := by
      simpa [List.filter_eq_nil_iff] using hbefore
    rw [List.filter_append, hnone, List.nil_append, hafter]
  · have hkept := h.kept k
    rw [List.filter_append, List.filter_cons_of_neg (by simpa using hk),
      List.filter_cons_of_neg (by simpa using hk), ← List.filter_append] at hkept
    exact hkept

/-- Reordered calls fill a query alike. -/
theorem Reordered.foldl_filled {xs ys : List ClauseCall} (h : Reordered xs ys) (q : Query) :
    xs.foldl filled q = ys.foldl filled q := by
  induction xs generalizing q ys with
  | nil => rw [List.nil_perm.mp h.perm]
  | cons c xs ih =>
    obtain ⟨before, after, rfl, hbefore, hrest⟩ := h.exists_append
    rw [q.foldl_filled_early c after hbefore, List.foldl_cons, List.foldl_cons, ih hrest]

/-! ## What is written -/

/-- Identities alone make no difference to what is written. -/
theorem alike_fork (id id' : SourceId) : (q.fork id).Alike (q.fork id') :=
  q.alike_restricted id id' (.refl q.filter) (.refl q.having)

/-- **Calls may be made in any order.** From any query on, a program of calls that fill clauses
never fails, and neither does any program of the same calls in which those of each kind come in the
same order. What comes of the two has the same text under every dialect and all options, or the
same error; this goes for placeholders and what is bound to them as well, and wherever the queries
stand in other statements. A selection is written clause by clause: what drops repeated rows, the
select list, the sources, the joins, the conditions on rows, the groups, the conditions on groups,
the order, the row window and the lock. -/
theorem calls_reordered (q : Query) {xs ys : List (SourceId × ClauseCall)}
    (h : Reordered (xs.map Prod.snd) (ys.map Prod.snd)) :
    ∃ q₁ q₂, q.run (xs.map fun c => (c.1, c.2.step)) = .ok q₁ ∧
      q.run (ys.map fun c => (c.1, c.2.step)) = .ok q₂ ∧ q₁.Alike q₂ ∧
      (∀ o, render q₁ o = render q₂ o) ∧
      (∀ o style, renderParameters q₁ o style = renderParameters q₂ o style) ∧
      (q.kind = "select" → q₁.isBlank = false → ∀ o, Yields (fun ts => ∃ l,
          q₁.LaysSelection ((Scope.ofOptions (renderDialect q₁ o) o).inside q₁) l ∧ ts = l.tokens)
        (renderTokens q₁ o)) := by
  obtain ⟨id₁, hrun₁⟩ := q.run_clauseCalls xs
  obtain ⟨id₂, hrun₂⟩ := q.run_clauseCalls ys
  rw [← h.foldl_filled q] at hrun₂
  have halike := ((xs.map Prod.snd).foldl filled q).alike_fork id₁ id₂
  refine ⟨_, _, hrun₁, hrun₂, halike, halike.render_eq, halike.renderParameters_eq,
    fun hkind hblank o => renderTokens_selection ?_ hblank o⟩
  exact (q.kind_foldl_filled (xs.map Prod.snd)).trans hkind

/-- A limit before or behind two conditions and an order, for which the query has other identities
on the way. -/
theorem calls_reordered_limited :
    let abc : Table := { id := ⟨1⟩, name := "abc" }
    let q : Query :=
      { Query.start ⟨2⟩ .mssql with sources := [.table abc], selects := [Term.field "a"] }
    let positive := (Term.field "a").greater (Term.int 0)
    let known := (Term.field "b").equals (Term.field "c")
    let early := [.limit 5, .filter positive, .orderBy [.column "a"] (some .desc), .filter known]
    let late := [.filter positive, .orderBy [.column "a"] (some .desc), .filter known, .limit 5]
    let xs : List (SourceId × ClauseCall) := [⟨3⟩, ⟨4⟩, ⟨5⟩, ⟨6⟩].zip early
    let ys : List (SourceId × ClauseCall) := [⟨7⟩, ⟨8⟩, ⟨9⟩, ⟨10⟩].zip late
    let sql := "SELECT \"a\" FROM \"abc\" WHERE \"a\">0 AND \"b\"=\"c\" " ++
      "ORDER BY \"a\" DESC OFFSET 0 ROWS FETCH NEXT 5 ROWS ONLY"
    Reordered (xs.map Prod.snd) (ys.map Prod.snd) ∧
      ∃ q₁ q₂, q.run (xs.map fun c => (c.1, c.2.step)) = .ok q₁ ∧
        q.run (ys.map fun c => (c.1, c.2.step)) = .ok q₂ ∧ q₁.info.id = ⟨6⟩ ∧ q₂.info.id = ⟨10⟩ ∧
        (render q₁ {}).toOption = some sql ∧ (render q₂ {}).toOption = some sql := by
  intro abc q positive known early late xs ys sql
  have htext : ((q.run (xs.map fun c => (c.1, c.2.step))).bind (render · {})).toOption =
      some sql := by decide +kernel +revert
  have hreordered : Reordered (xs.map Prod.snd) (ys.map Prod.snd) :=
    ⟨@List.perm_append_comm _ [ClauseCall.limit 5] _, fun k => by cases k <;> rfl⟩
  obtain ⟨q₁, q₂, hrun₁, hrun₂, -, hrender, -⟩ := q.calls_reordered hreordered
  rw [hrun₁] at htext
  have hid₁ : q₁.info.id = ⟨6⟩ := by
    cases hrun₁
    rfl
  have hid₂ : q₂.info.id = ⟨10⟩ := by
    cases hrun₂
    rfl
  exact ⟨hreordered, q₁, q₂, hrun₁, hrun₂, hid₁, hid₂, htext, (hrender {}) ▸ htext⟩

end SqlScribe.Query
