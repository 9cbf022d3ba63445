import SqlScribe.Term
/-! # Conditions

Building conditions from terms and other conditions. The empty condition is neutral: joined to
another by a connective it disappears. -/

namespace SqlScribe

namespace Condition

instance : Inhabited Condition := ⟨.empty⟩

/-- The condition that a term holds. The truth value of a condition is that condition. -/
def ofTerm (t : Term) : Condition :=
  match t.expr with
  | .condition c => c
  | e => .term (Term.ofExpr e)

/-- Two conditions under a connective. -/
def combine (op : Connective) : Condition → Condition → Condition
  | .empty, right => right
  | left, .empty => left
  | left, right => .combined op left right

/-- Both conditions. -/
def and (left right : Condition) : Condition := combine .and left right

/-- One condition or the other or both. -/
def or (left right : Condition) : Condition := combine .or left right

/-- One condition or the other, not both. -/
def xor (left right : Condition) : Condition := combine .xor left right

/-- All conditions of a list. -/
def all (cs : List Condition) : Condition := cs.foldl and .empty

/-- Some condition of a list. -/
def any (cs : List Condition) : Condition := cs.foldl or .empty

@[simp] theorem combine_empty_left (op : Connective) (c : Condition) :
    combine op .empty c = c := by cases c <;> rfl

@[simp] theorem combine_empty_right (op : Connective) (c : Condition) :
    combine op c .empty = c := by cases c <;> rfl

theorem combine_of_ne_empty (op : Connective) {left right : Condition} (hleft : left ≠ .empty)
    (hright : right ≠ .empty) : combine op left right = .combined op left right := by
  unfold combine
  split
  · exact absurd rfl hleft
  · exact absurd rfl hright
  · rfl

end Condition

namespace Term

/-! ## Comparisons -/

/-- The terms are equal. -/
def equals (t other : Term) : Condition := .compare .eq t other

/-- The terms are not equal; null is not equal to anything. -/
def differsStrictly (t other : Term) : Condition := .compare .ne t other

/-- The terms are not equal, or the first is null. -/
def differs (t other : Term) : Condition := (t.differsStrictly other).or (.isNull false t)

/-- The first term is greater. -/
def greater (t other : Term) : Condition := .compare .gt t other

/-- The first term is greater or equal. -/
def greaterOrEqual (t other : Term) : Condition := .compare .ge t other

/-- The first term is less. -/
def less (t other : Term) : Condition := .compare .lt t other

/-- The first term is less or equal. -/
def lessOrEqual (t other : Term) : Condition := .compare .le t other

/-! ## Membership and ranges -/

/-- What a term is looked for in. -/
inductive Members where
  /-- A list of terms. -/
  | listed (items : List Term)
  /-- The rows of a query. -/
  | rows (s : Subquery)

/-- The term is, or is not, one of some members. -/
def membership (negated : Bool) (t : Term) : Members → Condition
  | .listed items => .isIn negated t items
  | .rows s => .isInRows negated t s

/-- The term is one of some members. -/
def isOneOf (t : Term) (members : Members) : Condition := membership false t members

/-- The term is none of some members; null is in no such set. -/
def isNoneOfStrictly (t : Term) (members : Members) : Condition := membership true t members

/-- The term is none of some members, or it is null. -/
def isNoneOf (t : Term) (members : Members) : Condition :=
  (t.isNoneOfStrictly members).or (.isNull false t)

/-- What a term is indexed by. -/
inductive Key where
  /-- A range of values. -/
  | range (low high : Term)
  /-- A single value. -/
  | index (value : Term)

/-- The term lies in a range; it cannot be indexed by a single value. -/
def item (t : Term) : Key → Except QueryError Condition
  | .range low high => .ok (.between false t low high)
  | .index _ => .error (.usage .indexByValue)

/-! ## Searches -/

/-- The search of a name for a value in the term. -/
def search (t : Term) (name : String) (value : Term) : Except QueryError Condition :=
  match Search.ofName? name with
  | some op => .ok (.search op t value)
  | none => .error (.unknownSearch name)

/-! ## Aggregated rows -/

/-- The aggregate over the rows of which a condition holds, beside those it was given before. -/
def filtered (t : Term) (condition : Condition) : Except QueryError Term :=
  t.mapCall .filter fun c =>
    if c.aggregate then
      .ok { c with filter := some ((c.filter.map (·.and condition)).getD condition) }
    else .error (.usage (.filterOnScalar c.name))

end Term

end SqlScribe
