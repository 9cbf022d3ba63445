import SqlScribe.Syntax.Shape
/-! # Equality

Terms are equal when their expressions are, whatever their aliases. Queries and set operations are
equal when they have the same identity, so equality never looks into them. -/

namespace SqlScribe

/-- Nested queries are equal when they are of one kind and have the same identity. -/
def Subquery.same : Subquery → Subquery → Bool
  | .query a, .query b => a.info.id == b.info.id
  | .compound a, .compound b => a.id == b.id
  | _, _ => false

instance : BEq Subquery := ⟨Subquery.same⟩

mutual

/-- Terms are equal when their expressions are. -/
def Term.same : Term → Term → Bool
  | ⟨a, _⟩, ⟨b, _⟩ => a.same b
termination_by structural a => a

/-- Equality of expressions. -/
def Expr.same : Expr → Expr → Bool
  | .field p a, .field q b => a == b && p == q
  | .star p, .star q => p == q
  | .value a, .value b => a == b
  | .named m a, .named n b => m == n && a == b
  | .null, .null => true
  | .parameter a, .parameter b => a == b
  | .raw a, .raw b => a == b
  | .tuple as, .tuple bs => Term.sameAll as bs
  | .array as, .array bs => Term.sameAll as bs
  | .interval a, .interval b => a == b
  | .arithmetic op a b, .arithmetic op' a' b' => op == op' && a.same a' && b.same b'
  | .negative a, .negative b => a.same b
  | .call a, .call b => a.same b
  | .case as a, .case bs b =>
    Branch.sameAll as bs &&
      match a, b with
      | none, none => true
      | some a, some b => a.same b
      | _, _ => false
  | .subquery a, .subquery b => a == b
  | .condition a, .condition b => a.same b
  | _, _ => false
termination_by structural a => a

/-- Equality of calls. -/
def Call.same : Call → Call → Bool
  | ⟨name, form, aggregate, distinct, ignoreNulls, args, filter, window⟩, d =>
    name == d.name && form == d.form && aggregate == d.aggregate && distinct == d.distinct
      && ignoreNulls == d.ignoreNulls && Term.sameAll args d.args
      && (match filter, d.filter with
        | none, none => true
        | some a, some b => a.same b
        | _, _ => false)
      && (match window, d.window with
        | none, none => true
        | some a, some b => a.same b
        | _, _ => false)
termination_by structural a => a

/-- Equality of windows. -/
def Window.same : Window → Window → Bool
  | ⟨partitionBy, orderBy, frame⟩, w =>
    Term.sameAll partitionBy w.partitionBy && OrderItem.sameAll orderBy w.orderBy
      && frame == w.frame
termination_by structural a => a

/-- Equality of conditions. -/
def Condition.same : Condition → Condition → Bool
  | .empty, .empty => true
  | .compare op a b, .compare op' a' b' => op == op' && a.same a' && b.same b'
  | .matches op n a b e, .matches op' n' a' b' e' =>
    op == op' && n == n' && a.same a' && b.same b' && e == e'
  | .json op a b, .json op' a' b' => op == op' && a.same a' && b.same b'
  | .search op a b, .search op' a' b' => op == op' && a.same a' && b.same b'
  | .isNull n a, .isNull n' a' => n == n' && a.same a'
  | .isIn n a items, .isIn n' a' items' => n == n' && a.same a' && Term.sameAll items items'
  | .isInRows n a rows, .isInRows n' a' rows' => n == n' && a.same a' && rows == rows'
  | .between n a b c, .between n' a' b' c' => n == n' && a.same a' && b.same b' && c.same c'
  | .hasRows n rows, .hasRows n' rows' => n == n' && rows == rows'
  | .combined op a b, .combined op' a' b' => op == op' && a.same a' && b.same b'
  | .not a, .not b => a.same b
  | .term a, .term b => a.same b
  | _, _ => false
termination_by structural a => a

/-- Equality of lists of terms. -/
def Term.sameAll : List Term → List Term → Bool
  | [], [] => true
  | a :: as, b :: bs => a.same b && Term.sameAll as bs
  | _, _ => false
termination_by structural a => a

/-- Equality of lists of ordering terms. -/
def OrderItem.sameAll : List OrderItem → List OrderItem → Bool
  | [], [] => true
  | ⟨a, o⟩ :: as, ⟨b, p⟩ :: bs => a.same b && o == p && OrderItem.sameAll as bs
  | _, _ => false
termination_by structural a => a

/-- Equality of lists of branches. -/
def Branch.sameAll : List Branch → List Branch → Bool
  | [], [] => true
  | ⟨c, a⟩ :: as, ⟨d, b⟩ :: bs => c.same d && a.same b && Branch.sameAll as bs
  | _, _ => false
termination_by structural a => a

end

instance : BEq Term := ⟨Term.same⟩

instance : BEq Condition := ⟨Condition.same⟩

instance : BEq Call := ⟨Call.same⟩

end SqlScribe
