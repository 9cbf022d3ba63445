import SqlScribe.Case
import SqlScribe.Lowering
import SqlScribe.Proofs.Occurrence.Operand
/-! # Terms without their aliases

An alias is shown where a term stands by itself and nowhere else: an operand is written as if it had
none.

* `Term.unaliased`, `Condition.unaliased`: the same without the alias of any term inside. A nested
  query keeps its own.
* `Piece.Inside.alias?_unaliased`: no term that is inside has an alias then.
* `Expr.lower_unaliased`, `Condition.lower_unaliased`: what is written does not change.
* `alias_shown_outermost`: all of this, with the alias of a term that shows its own. -/

namespace SqlScribe

mutual

/-- The term without an alias, neither its own nor one inside. -/
def Term.unaliased : Term → Term
  | ⟨expr, _⟩ => ⟨expr.unaliased, none⟩

/-- The expression without aliases inside. -/
def Expr.unaliased : Expr → Expr
  | .field q name => .field q name
  | .star q => .star q
  | .value v => .value v
  | .named name v => .named name v
  | .null => .null
  | .parameter text => .parameter text
  | .raw sql => .raw sql
  | .tuple items => .tuple (Term.unaliasedAll items)
  | .array items => .array (Term.unaliasedAll items)
  | .interval i => .interval i
  | .arithmetic op left right => .arithmetic op left.unaliased right.unaliased
  | .negative t => .negative t.unaliased
  | .call c => .call c.unaliased
  | .case branches otherwise =>
    .case (Branch.unaliasedAll branches)
      (match otherwise with
        | none => none
        | some t => some t.unaliased)
  | .subquery q => .subquery q
  | .condition c => .condition c.unaliased

/-- The call without aliases inside. -/
def Call.unaliased : Call → Call
  | ⟨name, form, aggregate, distinct, ignoreNulls, args, filter, window⟩ =>
    ⟨name, form, aggregate, distinct, ignoreNulls, Term.unaliasedAll args,
      (match filter with
        | none => none
        | some c => some c.unaliased),
      (match window with
        | none => none
        | some w => some w.unaliased)⟩

/-- The window without aliases inside. -/
def Window.unaliased : Window → Window
  | ⟨partitionBy, orderBy, frame⟩ =>
    ⟨Term.unaliasedAll partitionBy, OrderItem.unaliasedAll orderBy, frame⟩

/-- The condition without aliases inside. -/
def Condition.unaliased : Condition → Condition
  | .empty => .empty
  | .compare op left right => .compare op left.unaliased right.unaliased
  | .matches op negated term pattern escape =>
    .matches op negated term.unaliased pattern.unaliased escape
  | .json op left right => .json op left.unaliased right.unaliased
  | .search op term value => .search op term.unaliased value.unaliased
  | .isNull negated term => .isNull negated term.unaliased
  | .isIn negated term items => .isIn negated term.unaliased (Term.unaliasedAll items)
  | .isInRows negated term rows => .isInRows negated term.unaliased rows
  | .between negated term low high =>
    .between negated term.unaliased low.unaliased high.unaliased
  | .hasRows negated rows => .hasRows negated rows
  | .combined op left right => .combined op left.unaliased right.unaliased
  | .not c => .not c.unaliased
  | .term t => .term t.unaliased

/-- The terms without aliases. -/
def Term.unaliasedAll : List Term → List Term
  | [] => []
  | t :: ts => t.unaliased :: Term.unaliasedAll ts

/-- The ordering terms without aliases. -/
def OrderItem.unaliasedAll : List OrderItem → List OrderItem
  | [] => []
  | ⟨t, order⟩ :: items => ⟨t.unaliased, order⟩ :: OrderItem.unaliasedAll items

/-- The branches without aliases. -/
def Branch.unaliasedAll : List Branch → List Branch
  | [] => []
  | ⟨condition, result⟩ :: branches =>
    ⟨condition.unaliased, result.unaliased⟩ :: Branch.unaliasedAll branches

end

/-- The choice without aliases inside. -/
def Case.unaliased (c : Case) : Case :=
  { branches := Branch.unaliasedAll c.branches
    otherwise := c.otherwise.map Term.unaliased }

@[simp] theorem Term.unaliasedAll_eq_map (ts : List Term) :
    Term.unaliasedAll ts = ts.map Term.unaliased := by
  induction ts with
  | nil => rfl
  | cons t ts ih => rw [Term.unaliasedAll, ih, List.map_cons]

/-! ## What else is asked of a term

An alias does not count for how an operation around a term is written. -/

namespace Term

variable (t : Term)

@[simp] theorem alias?_unaliased : t.unaliased.alias? = none := by
  cases t
  rfl

@[simp] theorem isNull_unaliased : t.unaliased.isNull = t.isNull := by
  obtain ⟨expr, alias?⟩ := t
  cases expr <;> rfl

@[simp] theorem operator?_unaliased : t.unaliased.operator? = t.operator? := by
  obtain ⟨expr, alias?⟩ := t
  cases expr <;> rfl

@[simp] theorem isOperation_unaliased : t.unaliased.isOperation = t.isOperation := by
  obtain ⟨expr, alias?⟩ := t
  cases expr <;> rfl

end Term

@[simp] theorem Condition.connective?_unaliased (c : Condition) :
    c.unaliased.connective? = c.connective? := by
  cases c <;> rfl

@[simp] theorem Branch.isEmpty_unaliasedAll (branches : List Branch) :
    (Branch.unaliasedAll branches).isEmpty = branches.isEmpty := by
  cases branches with
  | nil => rfl
  | cons branch branches =>
    cases branch
    rfl

/-! ## No alias is left inside -/

/-- The piece without aliases inside; a query stays as it is. -/
def Piece.unaliased : Piece → Piece
  | .term t => .term t.unaliased
  | .expr e => .expr e.unaliased
  | .call c => .call c.unaliased
  | .window w => .window w.unaliased
  | .condition c => .condition c.unaliased
  | .query q => .query q
  | .compound c => .compound c

section Operands

variable {p p' : Piece}

theorem OrderItem.map_term_unaliasedAll (items : List OrderItem) :
    (OrderItem.unaliasedAll items).map (Piece.term ·.term) =
      (items.map (Piece.term ·.term)).map Piece.unaliased := by
  induction items with
  | nil => rfl
  | cons item items ih =>
    obtain ⟨t, order⟩ := item
    rw [OrderItem.unaliasedAll, List.map_cons, ih]
    rfl

theorem Branch.flatMap_unaliasedAll (branches : List Branch) :
    (Branch.unaliasedAll branches).flatMap
        (fun b => [Piece.condition b.condition, Piece.term b.result]) =
      (branches.flatMap fun b => [Piece.condition b.condition, Piece.term b.result]).map
        Piece.unaliased := by
  induction branches with
  | nil => rfl
  | cons b branches ih =>
    obtain ⟨condition, result⟩ := b
    rw [Branch.unaliasedAll, List.flatMap_cons, ih]
    rfl

theorem Expr.operands_unaliased (e : Expr) :
    e.unaliased.operands = e.operands.map Piece.unaliased := by
  cases e with
  | tuple items => simp [Expr.unaliased, operands, Function.comp_def, Piece.unaliased]
  | array items => simp [Expr.unaliased, operands, Function.comp_def, Piece.unaliased]
  | case branches otherwise =>
    have hbranches := Branch.flatMap_unaliasedAll branches
    cases otherwise with
    | none => simp [Expr.unaliased, operands, hbranches]
    | some t => simp [Expr.unaliased, operands, hbranches, Piece.unaliased]
  | _ => rfl

theorem Call.operands_unaliased (c : Call) :
    c.unaliased.operands = c.operands.map Piece.unaliased := by
  obtain ⟨name, form, aggregate, distinct, ignoreNulls, args, filter, window⟩ := c
  cases filter <;> cases window <;>
    simp [Call.unaliased, operands, Function.comp_def, Piece.unaliased]

theorem Window.operands_unaliased (w : Window) :
    w.unaliased.operands = w.operands.map Piece.unaliased := by
  obtain ⟨partitionBy, orderBy, frame⟩ := w
  rw [Window.unaliased, operands, operands, List.map_append, OrderItem.map_term_unaliasedAll]
  simp [Function.comp_def, Piece.unaliased]

theorem Condition.operands_unaliased (c : Condition) :
    c.unaliased.operands = c.operands.map Piece.unaliased := by
  cases c with
  | isIn negated t items =>
    simp [Condition.unaliased, operands, Function.comp_def, Piece.unaliased]
  | _ => rfl

theorem Piece.operands_unaliased (p : Piece) :
    p.unaliased.operands = p.operands.map Piece.unaliased := by
  cases p with
  | term t =>
    cases t
    rfl
  | expr e => exact e.operands_unaliased
  | call c => exact c.operands_unaliased
  | window w => exact w.operands_unaliased
  | condition c => exact c.operands_unaliased
  | query q => rfl
  | compound c => rfl

/-- What is inside a piece without aliases is a piece without aliases. -/
theorem Piece.Inside.unaliased (h : p.unaliased.Inside p') : ∃ q, p' = Piece.unaliased q := by
  induction h with
  | refl => exact ⟨p, rfl⟩
  | tail _ hoperand ih =>
    obtain ⟨q, rfl⟩ := ih
    rw [Piece.operands_unaliased] at hoperand
    obtain ⟨q', -, rfl⟩ := List.mem_map.mp hoperand
    exact ⟨q', rfl⟩

/-- No term inside has an alias. -/
theorem Piece.Inside.alias?_unaliased {t : Term} (h : p.unaliased.Inside (.term t)) :
    t.alias? = none := by
  obtain ⟨q, hq⟩ := h.unaliased
  cases q with
  | term u =>
    cases hq
    exact u.alias?_unaliased
  | _ => cases hq

end Operands

/-! ## What is written -/

/-- The tokens that show the alias of a term. -/
def Term.shownAlias (s : Scope) (t : Term) : Tokens :=
  if s.showsAlias then (t.alias?.map s.aliasSuffix).getD [] else []

theorem Term.lower_eq (s : Scope) (t : Term) :
    t.lower s = (t.expr.lower s).map (· ++ t.shownAlias s) := by
  obtain ⟨expr, alias?⟩ := t
  rw [Term.lower]
  cases expr.lower s <;> rfl

/-- Without a name that counts, no term of a list is written by its alias. -/
theorem filter_contains_nil (alias? : Option String) :
    alias?.filter ([] : List String).contains = none := by
  cases alias? <;> rfl

mutual

/-- A term that does not show its alias is written as if it had none. -/
theorem Term.lower_unaliased (s : Scope) :
    ∀ t : Term, t.unaliased.lower s.quiet = t.lower s.quiet
  | ⟨expr, alias?⟩ => by
    rw [Term.unaliased, Term.lower, Term.lower, Expr.lower_unaliased s.quiet expr]
    rfl

theorem Expr.lower_unaliased (s : Scope) : ∀ e : Expr, e.unaliased.lower s = e.lower s
  | .field q name => rfl
  | .star q => rfl
  | .value v => rfl
  | .named name v => rfl
  | .null => rfl
  | .parameter text => rfl
  | .raw sql => rfl
  | .tuple items => by
    rw [Expr.unaliased, Expr.lower, Expr.lower, Term.lowerAll_unaliased s items]
  | .array items => by
    have hempty : (Term.unaliasedAll items).isEmpty = items.isEmpty := by simp
    rw [Expr.unaliased, Expr.lower, Expr.lower, Term.lowerAll_unaliased s items, hempty]
  | .interval i => rfl
  | .arithmetic op left right => by
    rw [Expr.unaliased, Expr.lower, Expr.lower, Term.lower_unaliased s left,
      Term.lower_unaliased s right, left.operator?_unaliased, right.operator?_unaliased]
  | .negative t => by
    rw [Expr.unaliased, Expr.lower, Expr.lower, Term.lower_unaliased s t,
      t.isOperation_unaliased]
  | .call c => by
    rw [Expr.unaliased, Expr.lower, Expr.lower, Call.lower_unaliased s.quiet c]
  | .case branches none => by
    rw [Expr.unaliased, Expr.lower, Expr.lower, Branch.lowerAll_unaliased s branches,
      Branch.isEmpty_unaliasedAll]
  | .case branches (some t) => by
    rw [Expr.unaliased, Expr.lower, Expr.lower, Branch.lowerAll_unaliased s branches,
      Branch.isEmpty_unaliasedAll, Term.lower_unaliased s t]
  | .subquery q => rfl
  | .condition c => by
    rw [Expr.unaliased, Expr.lower, Expr.lower, Condition.lower_unaliased s.quiet c]

theorem Call.lower_unaliased (s : Scope) : ∀ c : Call, c.unaliased.lower s = c.lower s
  | ⟨name, form, aggregate, distinct, ignoreNulls, args, none, none⟩ => by
    rw [Call.unaliased, Call.lower, Call.lower, Term.lowerAll_unaliased s args]
  | ⟨name, form, aggregate, distinct, ignoreNulls, args, none, some w⟩ => by
    rw [Call.unaliased, Call.lower, Call.lower, Term.lowerAll_unaliased s args,
      Window.lower_unaliased s w]
  | ⟨name, form, aggregate, distinct, ignoreNulls, args, some c, none⟩ => by
    rw [Call.unaliased, Call.lower, Call.lower, Term.lowerAll_unaliased s args,
      Condition.lower_unaliased s.quiet c]
  | ⟨name, form, aggregate, distinct, ignoreNulls, args, some c, some w⟩ => by
    rw [Call.unaliased, Call.lower, Call.lower, Term.lowerAll_unaliased s args,
      Condition.lower_unaliased s.quiet c, Window.lower_unaliased s w]

theorem Window.lower_unaliased (s : Scope) : ∀ w : Window, w.unaliased.lower s = w.lower s
  | ⟨partitionBy, orderBy, frame⟩ => by
    rw [Window.unaliased, Window.lower, Window.lower, Term.lowerAll_unaliased s partitionBy,
      OrderItem.lowerAll_unaliased s orderBy]

theorem Condition.lower_unaliased (s : Scope) :
    ∀ c : Condition, c.unaliased.lower s = c.lower s
  | .empty => rfl
  | .compare op left right => by
    rw [Condition.unaliased, Condition.lower, Condition.lower, Term.lower_unaliased s left,
      Term.lower_unaliased s right, left.isNull_unaliased, right.isNull_unaliased]
  | .matches op negated t pattern escape => by
    rw [Condition.unaliased, Condition.lower, Condition.lower, Term.lower_unaliased s t,
      Term.lower_unaliased s pattern]
  | .json op left right => by
    rw [Condition.unaliased, Condition.lower, Condition.lower, Term.lower_unaliased s left,
      Term.lower_unaliased s right]
  | .search op t value => by
    rw [Condition.unaliased, Condition.lower, Condition.lower, Term.lower_unaliased s t,
      Term.lower_unaliased s value]
  | .isNull negated t => by
    rw [Condition.unaliased, Condition.lower, Condition.lower, Term.lower_unaliased s t]
  | .isIn negated t items => by
    have hempty : (Term.unaliasedAll items).isEmpty = items.isEmpty := by simp
    rw [Condition.unaliased, Condition.lower, Condition.lower, Term.lower_unaliased s t,
      Term.lowerAll_unaliased s items, hempty]
  | .isInRows negated t rows => by
    rw [Condition.unaliased, Condition.lower, Condition.lower, Term.lower_unaliased s t]
  | .between negated t low high => by
    rw [Condition.unaliased, Condition.lower, Condition.lower, Term.lower_unaliased s t,
      Term.lower_unaliased s low, Term.lower_unaliased s high]
  | .hasRows negated rows => rfl
  | .combined op left right => by
    rw [Condition.unaliased, Condition.lower, Condition.lower,
      Condition.lower_unaliased s.quiet left, Condition.lower_unaliased s.quiet right,
      left.connective?_unaliased, right.connective?_unaliased]
  | .not c => by
    rw [Condition.unaliased, Condition.lower, Condition.lower,
      Condition.lower_unaliased s.quiet c, c.connective?_unaliased]
  | .term t => by
    rw [Condition.unaliased, Condition.lower, Condition.lower, Term.lower_unaliased s t]

theorem Term.lowerAll_unaliased (s : Scope) : ∀ ts : List Term,
    Term.lowerAll s.quiet (Term.unaliasedAll ts) = Term.lowerAll s.quiet ts
  | [] => rfl
  | t :: ts => by
    rw [Term.unaliasedAll, Term.lowerAll, Term.lowerAll, Term.lower_unaliased s t,
      Term.lowerAll_unaliased s ts]

theorem OrderItem.lowerAll_unaliased (s : Scope) : ∀ items : List OrderItem,
    OrderItem.lowerAll s.quiet [] (OrderItem.unaliasedAll items) =
      OrderItem.lowerAll s.quiet [] items
  | [] => rfl
  | ⟨⟨expr, alias?⟩, order⟩ :: items => by
    rw [OrderItem.unaliasedAll, Term.unaliased, OrderItem.lowerAll, OrderItem.lowerAll,
      filter_contains_nil, filter_contains_nil, Expr.lower_unaliased s.quiet expr,
      OrderItem.lowerAll_unaliased s items]

theorem Branch.lowerAll_unaliased (s : Scope) : ∀ branches : List Branch,
    Branch.lowerAll s.quiet (Branch.unaliasedAll branches) = Branch.lowerAll s.quiet branches
  | [] => rfl
  | ⟨condition, result⟩ :: branches => by
    rw [Branch.unaliasedAll, Branch.lowerAll, Branch.lowerAll,
      Condition.lower_unaliased s.quiet condition, Term.lower_unaliased s result,
      Branch.lowerAll_unaliased s branches]

end

theorem Case.lower_unaliased (s : Scope) (c : Case) :
    c.unaliased.toExpr.lower s = c.toExpr.lower s := by
  obtain ⟨branches, otherwise⟩ := c
  have h := Expr.lower_unaliased s (.case branches otherwise)
  cases otherwise with
  | none => exact h
  | some t => exact h

/-- **Aliases are shown where a term stands by itself only.** In a scope that does not show aliases,
a term is written as if neither it nor any term inside had one, with the same tokens or the same
error; in one that does, what shows its own alias comes behind that. A condition, a choice, a
function call and a window are written as if no term inside had an alias, whatever the scope is. -/
theorem alias_shown_outermost (s : Scope) :
    (s.showsAlias = false → ∀ t : Term, t.unaliased.lower s = t.lower s) ∧
    (s.showsAlias = true → ∀ t : Term, t.lower s =
      (t.unaliased.lower s).map (· ++ (t.alias?.map s.aliasSuffix).getD [])) ∧
    (∀ c : Condition, c.unaliased.lower s = c.lower s) ∧
    (∀ c : Case, c.unaliased.toExpr.lower s = c.toExpr.lower s) ∧
    (∀ c : Call, c.unaliased.lower s = c.lower s) ∧
    ∀ w : Window, w.unaliased.lower s = w.lower s := by
  have hexpr : ∀ t : Term, t.unaliased.expr.lower s = t.expr.lower s := fun t => by
    cases t with
    | mk expr alias? => exact expr.lower_unaliased s
  refine ⟨fun hs t => ?_, fun hs t => ?_, Condition.lower_unaliased s, Case.lower_unaliased s,
    Call.lower_unaliased s, Window.lower_unaliased s⟩
  · have hshown : ∀ t : Term, t.shownAlias s = [] := fun t => by simp [Term.shownAlias, hs]
    rw [Term.lower_eq, Term.lower_eq, hexpr, hshown, hshown]
  · have hnone : t.unaliased.shownAlias s = [] := by simp [Term.shownAlias]
    have hshown : t.shownAlias s = (t.alias?.map s.aliasSuffix).getD [] := by
      simp [Term.shownAlias, hs]
    rw [Term.lower_eq, Term.lower_eq s t.unaliased, hexpr, hnone, hshown]
    cases t.expr.lower s with
    | error e => rfl
    | ok ts => simp [Except.map]

/-- A sum of a field under an alias and another field, then the sum under an alias. -/
theorem alias_shown_outermost_sum :
    ((Term.field "a").aliased "x" + Term.field "b").unaliased.lower { dialect := .ansi } =
      ((Term.field "a").aliased "x" + Term.field "b").lower { dialect := .ansi } ∧
    (((Term.field "a").aliased "x" + Term.field "b").aliased "y").lower
        { dialect := .ansi, showsAlias := true } =
      (((Term.field "a").aliased "x" + Term.field "b").unaliased.lower
        { dialect := .ansi, showsAlias := true }).map (· ++ [.space, .aliasName "y"]) :=
  ⟨(alias_shown_outermost { dialect := .ansi }).1 rfl _,
    (alias_shown_outermost { dialect := .ansi, showsAlias := true }).2.1 rfl
      (((Term.field "a").aliased "x" + Term.field "b").aliased "y")⟩

end SqlScribe
