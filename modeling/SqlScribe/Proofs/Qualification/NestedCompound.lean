import Mathlib.Algebra.Order.BigOperators.Group.List
import Mathlib.Algebra.Order.Ring.Nat
import SqlScribe.Proofs.Occurrence.Placed
import SqlScribe.Proofs.Qualification.Column
import SqlScribe.Proofs.Qualification.Nested
import SqlScribe.Proofs.SetOperation.Operands
/-! # Set operations within queries

The operands of a set operation are written as they are written alone, wherever the set operation
stands. Its own `ORDER BY` is written in the scope around it.

* `Compound.front`, `Compound.back`: what stands before and behind the ordering terms.
* `OrderItem.fieldTokens`: an ordering term that is a field, where fields are qualified or not.
* `Compound.lower_ordered`: the tokens of a set operation from these.
* `Item.Asks.settled_scope`: the options have settled the same at each place of a query.
* `Compound.placed_text`: the text of a set operation in a place, and its text alone. -/

namespace SqlScribe

open Tokens (parens parensIf text listed headed)

/-! ## Operands -/

/-- In its operands only the names from around are left of the place of a set operation. -/
theorem Query.lower_operands {s s₀ : Scope} (hs : s.settled = s₀.settled) {q : Query}
    (hnames : ∀ id, .lookup id ∈ q.mentions → s.alias? id = s₀.alias? id) :
    q.lower s.operands = q.lower s₀.operands := by
  have hdialect : s.settled.dialect = s₀.settled.dialect := congrArg Scope.dialect hs
  have hnested : s.operands.nested = s₀.operands.nested :=
    congrArg (fun d => d.profile.wrapsOperands) hdialect
  have hplaced : ∀ body, Statement.placed s.operands q.info.id q.info.alias? body =
      Statement.placed (s₀.operands.under s.aliases) q.info.id q.info.alias? body := by
    intro body
    rw [Statement.placed, Statement.placed, hnested]
    rfl
  have hinside : s.operands.inside q = (s₀.operands.under s.aliases).inside q :=
    Query.inside_eq_of_settled hs q
  -- Two scopes with the same settings differ in the names around them only.
  have hunder : q.lower (s₀.operands.under s.aliases) = q.lower s₀.operands :=
    q.lower_under s₀.operands hnames fun hshows => absurd hshows Bool.false_ne_true
  rw [← hunder, Query.lower_eq, Query.lower_eq, hinside]
  simp only [hplaced]

theorem Operand.lowerAll_operands {s s₀ : Scope} (hs : s.settled = s₀.settled) (width : Nat)
    {l : List Operand}
    (hnames : ∀ id, .lookup id ∈ Operand.mentionsAll l → s.alias? id = s₀.alias? id) :
    Operand.lowerAll s.operands width l = Operand.lowerAll s₀.operands width l := by
  induction l with
  | nil => rw [Operand.lowerAll, Operand.lowerAll]
  | cons o l ih =>
    obtain ⟨op, q⟩ := o
    rw [Operand.mentionsAll] at hnames
    rw [Operand.lowerAll, Operand.lowerAll,
      Query.lower_operands hs fun id hid => hnames id (List.mem_append_left _ hid),
      ih fun id hid => hnames id (List.mem_append_right _ hid)]

/-! ## Ordering terms -/

/-- A field of a table, or one that belongs to nothing. -/
def Expr.isTableField : Expr → Bool
  | .field none _ => true
  | .field (some (.table _)) _ => true
  | _ => false

/-- The tokens of a field where fields of tables are qualified or not; a table with an alias goes by
it everywhere. -/
def Expr.fieldTokens (qualifies : Bool) : Expr → Tokens
  | .field (some (.table t)) name =>
    (if t.alias?.isSome || qualifies then [.ident t.shownName, .mark .dot] else []) ++ [.ident name]
  | .field _ name => [.ident name]
  | _ => []

theorem Expr.lower_tableField {s : Scope} {e : Expr} (h : e.isTableField = true)
    (hnames : ∀ id, .lookup id ∈ e.mentions → s.alias? id = none) :
    e.lower s = .ok (e.fieldTokens s.qualifies) := by
  cases e with
  | field q name =>
    rw [lower]
    cases q with
    | none => rfl
    | some q =>
      cases q with
      | table t =>
        have halias : t.alias?.or (s.alias? t.id) = t.alias? := by
          cases hnamed : t.alias? with
          | some a => rfl
          | none =>
            rw [Option.none_or]
            refine hnames t.id ?_
            simp [mentions, Qualifier.mentions, Mention.unnamed, hnamed]
        rw [Scope.qualification_table, Scope.renames, Scope.shownName, halias]
        rfl
      | subquery id alias? => cases h
      | raw text => cases h
  | _ => cases h

namespace OrderItem

/-- The tokens of an ordering term that is a field, where fields are qualified or not. It goes by
its alias if that is one of the names. -/
def fieldTokens (names : List String) (qualifies : Bool) (i : OrderItem) : Tokens :=
  (match i.term.alias?.filter names.contains with
    | some a => [.aliasName a]
    | none => i.term.expr.fieldTokens qualifies) ++ Tokens.direction i.order

/-- The ordering term is written with the name of its table where fields are qualified, and alone
elsewhere: it does not go by its alias, and is a field of a table that has none. -/
def followsScope (names : List String) (i : OrderItem) : Bool :=
  (i.term.alias?.filter names.contains).isNone &&
    match i.term.expr with
    | .field (some (.table t)) _ => t.alias?.isNone
    | _ => false

theorem lowerAll_fields {s : Scope} (names : List String) {l : List OrderItem}
    (h : ∀ i ∈ l, i.term.expr.isTableField = true)
    (hnames : ∀ id, .lookup id ∈ OrderItem.mentionsAll l → s.alias? id = none) :
    OrderItem.lowerAll s names l = .ok (l.map (fieldTokens names s.qualifies)) := by
  induction l with
  | nil => rw [OrderItem.lowerAll, List.map_nil]
  | cons i l ih =>
    obtain ⟨⟨expr, alias?⟩, order⟩ := i
    rw [OrderItem.mentionsAll, Term.mentions] at hnames
    obtain ⟨hexpr, hrest⟩ := List.forall_mem_cons.mp h
    have htokens := Expr.lower_tableField hexpr fun id hid =>
      hnames id (List.mem_append_left _ hid)
    rw [OrderItem.lowerAll, htokens, ih hrest fun id hid => hnames id (List.mem_append_right _ hid),
      List.map_cons]
    cases hname : alias?.filter names.contains <;> simp only [fieldTokens, hname] <;> rfl

end OrderItem

/-! ## Tokens of a set operation -/

namespace Compound

/-- What stands before the clauses of the result: the operands with the operators between them. -/
def front (s : Scope) (c : Compound) : Lowered := do
  let base ← c.base.lower s.operands
  let operands ← Operand.lowerAll s.operands c.base.selectCount c.operands
  return base ++ operands.flatten

/-- What stands behind the ordering terms: the row window of the result. -/
def back (s : Scope) (c : Compound) : Tokens :=
  Statement.windowClause s.dialect c.orderBy.isEmpty c.limit c.offset

/-- The ordering terms of a set operation that are fields, where fields are qualified or not. -/
def orderingTokens (s : Scope) (c : Compound) (qualifies : Bool) : Tokens :=
  headed .ORDER_BY (c.orderBy.map (OrderItem.fieldTokens (s.orderNames c.base) qualifies))

variable {s s₀ : Scope} {c : Compound}

theorem front_eq_of_settled (hs : s.settled = s₀.settled)
    (hnames : ∀ id, .lookup id ∈ c.mentions → s.alias? id = s₀.alias? id) :
    c.front s = c.front s₀ := by
  obtain ⟨id, base, operands, orderBy, limit, offset, alias?⟩ := c
  rw [mentions] at hnames
  rw [front, front, Query.lower_operands hs fun id hid =>
      hnames id (List.mem_append_left _ (List.mem_append_left _ hid)),
    Operand.lowerAll_operands hs _ fun id hid =>
      hnames id (List.mem_append_left _ (List.mem_append_right _ hid))]

theorem back_eq_of_settled (hs : s.settled = s₀.settled) : c.back s = c.back s₀ := by
  show c.back s.settled = c.back s₀.settled
  rw [hs]

theorem orderingTokens_eq_of_settled (hs : s.settled = s₀.settled) :
    c.orderingTokens s = c.orderingTokens s₀ := by
  show c.orderingTokens s.settled = c.orderingTokens s₀.settled
  rw [hs]

/-- A set operation that is ordered by fields is written as its operands, its ordering terms as its
scope says, and its row window. -/
theorem lower_ordered (hfields : ∀ i ∈ c.orderBy, i.term.expr.isTableField = true)
    (hnames : ∀ id, .lookup id ∈ c.mentions → s.alias? id = none) :
    c.lower s.standalone =
      (c.front s).map fun front => front ++ c.orderingTokens s s.qualifies ++ c.back s := by
  obtain ⟨id, base, operands, orderBy, limit, offset, alias?⟩ := c
  rw [mentions] at hnames
  have horder := OrderItem.lowerAll_fields (s := s.standalone) (s.orderNames base) hfields
    fun id hid => hnames id (List.mem_append_right _ hid)
  have hoperands : s.standalone.operands = s.operands := rfl
  have hstandalone : s.standalone.standalone = s.standalone := rfl
  have hnames' : s.standalone.orderNames base = s.orderNames base := rfl
  rw [lower, hoperands, hstandalone, hnames', horder, Statement.compound, Statement.listClause_eq,
    front]
  simp only [Statement.placed_standalone, bind_pure]
  cases base.lower s.operands with
  | error e => rfl
  | ok us =>
    cases Operand.lowerAll s.operands base.selectCount operands with
    | error e => rfl
    | ok l => rfl

end Compound

/-! ## Texts of ordering terms -/

/-- A list is as long as its items and the separators together. -/
theorem Tokens.length_text_listed (p : Spelling) (ts : Tokens) (l : List Tokens) :
    (text p (listed (ts :: l))).length + 1 =
      ((ts :: l).map fun ts => (text p ts).length + 1).sum := by
  induction l generalizing ts with
  | nil => simp [listed]
  | cons us l ih =>
    have hlisted : listed (ts :: us :: l) = ts ++ .mark .comma :: listed (us :: l) := rfl
    have hcomma : (Token.text p (.mark .comma)).length = 1 :=
      (by decide : ",".length = 1)
    rw [hlisted, Tokens.text_append, text, String.length_append, String.length_append, hcomma,
      List.map_cons, List.sum_cons, ← ih us]
    omega

namespace OrderItem

variable {names : List String} {i : OrderItem}

theorem fieldTokens_of_not_followsScope (h : i.followsScope names = false) :
    i.fieldTokens names true = i.fieldTokens names false := by
  obtain ⟨⟨expr, alias?⟩, order⟩ := i
  rw [fieldTokens, fieldTokens]
  cases hname : alias?.filter names.contains with
  | some a => rfl
  | none =>
    rw [followsScope, hname, Option.isNone_none, Bool.true_and] at h
    cases expr with
    | field q name =>
      cases q with
      | none => rfl
      | some q =>
        cases q with
        | table t =>
          have halias : t.alias?.isSome = true := by simpa using h
          simp [Expr.fieldTokens, halias]
        | subquery id alias? => rfl
        | raw text => rfl
    | _ => rfl

theorem length_fieldTokens_lt (p : Spelling) (h : i.followsScope names = true) :
    (text p (i.fieldTokens names false)).length < (text p (i.fieldTokens names true)).length := by
  obtain ⟨⟨expr, alias?⟩, order⟩ := i
  rw [followsScope, Bool.and_eq_true, Option.isNone_iff_eq_none] at h
  obtain ⟨hname, htable⟩ := h
  rw [fieldTokens, fieldTokens, hname]
  cases expr with
  | field q name =>
    cases q with
    | none => cases htable
    | some q =>
      cases q with
      | table t =>
        have halias : t.alias?.isSome = false := by simpa using htable
        have hdot : (Token.text p (.mark .dot)).length = 1 :=
          (by decide : ".".length = 1)
        simp only [Expr.fieldTokens, halias, Tokens.text_append, String.length_append, text]
        simp [text, hdot]
      | subquery id alias? => cases htable
      | raw text => cases htable
  | _ => cases htable

end OrderItem

/-- A clause of listed items is longer where one of the items is and none is shorter. -/
theorem Tokens.length_text_headed_lt {α : Type} (p : Spelling) (k : Keyword) {f g : α → Tokens}
    {l : List α} (hle : ∀ a ∈ l, (text p (f a)).length ≤ (text p (g a)).length)
    (hlt : ∃ a ∈ l, (text p (f a)).length < (text p (g a)).length) :
    (text p (headed k (l.map f))).length < (text p (headed k (l.map g))).length := by
  cases l with
  | nil =>
    obtain ⟨a, ha, -⟩ := hlt
    cases ha
  | cons b l =>
    have hsum := List.sum_lt_sum (l := b :: l) (fun a => (text p (f a)).length + 1)
      (fun a => (text p (g a)).length + 1) (fun a ha => Nat.succ_le_succ (hle a ha))
      (hlt.imp fun a ha => ⟨ha.1, Nat.succ_lt_succ ha.2⟩)
    have hf := Tokens.length_text_listed p (f b) (l.map f)
    have hg := Tokens.length_text_listed p (g b) (l.map g)
    rw [List.map_cons, List.map_cons, List.sum_cons, List.sum_cons] at hsum
    rw [List.map_cons, List.sum_cons, List.map_map] at hf hg
    have hheaded (us : Tokens) (vs : List Tokens) : text p (headed k (us :: vs)) =
        " " ++ (k.text ++ (" " ++ text p (listed (us :: vs)))) := rfl
    rw [List.map_cons, List.map_cons, hheaded, hheaded]
    simp only [String.length_append]
    simp only [Function.comp_def] at hf hg
    omega

theorem Compound.text_orderingTokens_iff (p : Spelling) (s : Scope) (c : Compound) :
    text p (c.orderingTokens s false) = text p (c.orderingTokens s true) ↔
      ∀ i ∈ c.orderBy, i.followsScope (s.orderNames c.base) = false := by
  constructor
  · intro htext i hi
    by_contra hfollows
    rw [Bool.not_eq_false] at hfollows
    -- A qualified term is longer, and none is shorter that could make up for it.
    refine Nat.ne_of_lt ?_ (congrArg String.length htext)
    refine Tokens.length_text_headed_lt p .ORDER_BY (fun j _ => ?_)
      ⟨i, hi, OrderItem.length_fieldTokens_lt p hfollows⟩
    cases hj : j.followsScope (s.orderNames c.base) with
    | true => exact Nat.le_of_lt (OrderItem.length_fieldTokens_lt p hj)
    | false => rw [OrderItem.fieldTokens_of_not_followsScope hj]
  · intro h
    have hitems : c.orderBy.map (OrderItem.fieldTokens (s.orderNames c.base) true) =
        c.orderBy.map (OrderItem.fieldTokens (s.orderNames c.base) false) :=
      List.map_congr_left fun i hi => OrderItem.fieldTokens_of_not_followsScope (h i hi)
    rw [orderingTokens, orderingTokens, hitems]

/-- Ordering terms have the same text under two flags if and only if the flags are the same or none
of the terms follows the scope. -/
theorem Compound.text_orderingTokens_eq_iff (p : Spelling) (s : Scope) (c : Compound)
    (b b' : Bool) :
    text p (c.orderingTokens s b) = text p (c.orderingTokens s b') ↔
      b = b' ∨ ∀ i ∈ c.orderBy, i.followsScope (s.orderNames c.base) = false := by
  rw [← c.text_orderingTokens_iff p s]
  cases b <;> cases b' <;> simp [eq_comm]

/-! ## Places -/

section Places

variable {s s' : Scope} {x : Item} {p : QueryPlace} {y : Subquery} {c : Compound}

theorem Occurrence.Asks.settled_scope {a : Occurrence} (h : a.Asks p s y) :
    s.settled = a.scope.settled := by
  cases h <;> rfl

/-- What the options have settled is the same at every place of an item. -/
theorem Item.Asks.settled_scope (h : x.Asks s p s' y) : s'.settled = s.settled := by
  cases h with
  | newTable h => rfl
  | within ha hab h =>
    rw [h.settled_scope, hab.settled_scope]
    cases x with
    | table t | interval i | drop d => cases ha
    | term t | condition c | call c | case c | query q | compound c | subquery y =>
      cases List.mem_singleton.mp ha
      rfl
    | create c =>
      rw [Item.occurrences] at ha
      split at ha
      · cases List.mem_singleton.mp ha
        rfl
      · obtain ⟨column, _, hcolumn⟩ := List.mem_flatMap.mp ha
        obtain ⟨t, _, rfl⟩ := List.mem_map.mp hcolumn
        rfl

/-- Operands are queries. -/
theorem Item.Asks.not_operand (h : x.Asks s p s' (.compound c)) : ∀ op, p ≠ .operand op := by
  cases h with
  | newTable h => exact nofun
  | within ha hab h =>
    generalize hy : Subquery.compound c = y at h
    cases h with
    | base s c => cases hy
    | operand h => cases hy
    | _ => exact nofun

/-- Wherever a query is not an operand, its statement stands in parentheses. -/
theorem QueryPlace.parens_infix (hp : ∀ op, p ≠ .operand op) (s : Scope) (y : Subquery)
    (body : Tokens) : parens body <:+: p.dress (p.fill s y body) := by
  cases p with
  | source | scalar => exact List.infix_append_left
  | commonTable =>
    have hfill : QueryPlace.commonTable.fill s y body = body := List.append_nil body
    rw [hfill]
    exact List.infix_cons (List.infix_cons List.infix_rfl)
  | joined | membership | existence | newTable =>
    exact List.infix_cons (List.infix_cons List.infix_append_left)
  | operand op => exact absurd rfl (hp op)

end Places

/-- **A set operation in its place.** A set operation that is ordered by columns or fields of tables
stands at some depth in an item, as a source, a common table, a term, behind a test, or as the rows
of a new table, and nothing around it has named a source that it looks up. There its text stands in
parentheses, and it is the one that it has alone, save that its ordering terms are written as the
scope around it says: the two texts are the same if the scope qualifies fields as the options do, or
no ordering term follows the scope, and differ otherwise. -/
theorem Compound.placed_text {x : Item} {c : Compound} {o : RenderOptions}
    (hd : renderDialect c o = renderDialect x o) {p : QueryPlace} {s : Scope}
    (hplace : x.Asks (Scope.ofOptions (renderDialect x o) o) p s (.compound c))
    (hfields : ∀ i ∈ c.orderBy, i.term.expr.isTableField = true)
    (hfree : ∀ id, .lookup id ∈ c.mentions → s.alias? id = none) {sql : String}
    (hsql : render x o = .ok sql) :
    ∃ front back before behind : String,
      let order (qualifies : Bool) :=
        text (o.spelling (renderDialect x o)) (c.orderingTokens s qualifies)
      let alone := front ++ order o.qualify ++ back
      let placed := front ++ order s.qualifies ++ back
      render c o = .ok alone ∧
        (c.lower s.standalone).map (text (o.spelling (renderDialect x o))) = .ok placed ∧
        sql = before ++ ("(" ++ placed ++ ")") ++ behind ∧
        (placed = alone ↔ s.qualifies = o.qualify ∨
          ∀ i ∈ c.orderBy, i.followsScope (s.orderNames c.base) = false) := by
  obtain ⟨ts, hts, rfl⟩ := Query.render_eq_ok hsql
  obtain ⟨us, hus, hsub⟩ := hplace.writes ts hts
  let s₀ := Scope.ofOptions (renderDialect x o) o
  let spelling := o.spelling (renderDialect x o)
  have hs : s.settled = s₀.settled := hplace.settled_scope
  have hown : renderTokens c o = c.lower s₀ := by
    rw [renderTokens, hd]
    rfl
  -- The parts of the text are the same in both places, apart from the flag of the scope.
  have hfront : c.front s₀ = c.front s := (front_eq_of_settled hs hfree).symm
  have halone : c.lower s₀ =
      (c.front s).map fun front => front ++ c.orderingTokens s o.qualify ++ c.back s := by
    rw [← hfront, back_eq_of_settled hs, orderingTokens_eq_of_settled hs]
    exact lower_ordered (s := s₀) hfields fun _ _ => rfl
  have hthere := lower_ordered hfields hfree
  rw [Subquery.lower, p.lower_compound, hthere] at hus
  cases hlower : c.front s with
  | error e =>
    rw [hlower] at hus
    cases hus
  | ok front =>
    rw [hlower] at hus halone hthere
    cases hus
    obtain ⟨before, behind, hts⟩ :=
      (QueryPlace.parens_infix hplace.not_operand s (.compound c) _).trans hsub
    refine ⟨text spelling front, text spelling (c.back s), text spelling before,
      text spelling behind, ?_, ?_, ?_, ?_⟩
    · rw [render, hown, halone, hd]
      show Except.ok _ = Except.ok _
      rw [Tokens.text_append, Tokens.text_append]
    · rw [hthere]
      show Except.ok _ = Except.ok _
      rw [Tokens.text_append, Tokens.text_append]
    · rw [← hts, Tokens.text_append, Tokens.text_append, Tokens.text_parens, Tokens.text_append,
        Tokens.text_append]
    · refine Iff.trans ?_ (c.text_orderingTokens_eq_iff spelling s s.qualifies o.qualify)
      simp [spelling]

/-- A set operation that is ordered by a column of a table, among whose rows a column is looked
for. -/
theorem Compound.placed_text_membership :
    let abc : Table := { id := ⟨0⟩, name := "abc" }
    let efg : Table := { id := ⟨1⟩, name := "efg" }
    let hij : Table := { id := ⟨2⟩, name := "hij" }
    let first : Query :=
      { Query.start ⟨3⟩ .ansi with sources := [.table abc], selects := [abc.field "x"] }
    let second : Query :=
      { Query.start ⟨4⟩ .ansi with sources := [.table efg], selects := [efg.field "x"] }
    let c : Compound :=
      (first.combine ⟨5⟩ .union second).order [.term (abc.field "x")] none
    let q : Query :=
      { Query.start ⟨6⟩ .ansi with
        sources := [.table hij], selects := [hij.field "y"]
        filter := .isInRows false (hij.field "z") (.compound c) }
    let s := ((Scope.ofOptions .ansi {}).inside q).quiet
    let own := "(SELECT \"x\" FROM \"abc\") UNION (SELECT \"x\" FROM \"efg\") ORDER BY \"x\""
    let sql := "SELECT \"y\" FROM \"hij\" WHERE \"z\" IN (" ++ own ++ ")"
    render c {} = .ok own ∧ render (Item.query q) {} = .ok sql ∧
      (Item.query q).Asks (Scope.ofOptions .ansi {}) .membership s (.compound c) ∧
      s.qualifies = false ∧
      ∃ before behind, (c.lower s.standalone).map (text Dialect.ansi.spelling) = .ok own ∧
        sql = before ++ ("(" ++ own ++ ")") ++ behind := by
  intro abc efg hij first second c q s own sql
  have htexts : (render c {}).toOption = some own ∧
      (render (Item.query q) {}).toOption = some sql := by
    decide +kernel +revert
  have hown : render c {} = .ok own := Query.eq_ok_of_toOption htexts.1
  have hsql : render (Item.query q) {} = .ok sql := Query.eq_ok_of_toOption htexts.2
  have hpart : Occurrence.Part ⟨Scope.ofOptions .ansi {}, .query q⟩ ⟨s, .condition q.filter⟩ :=
    Occurrence.part_of_clause (c := .filter) rfl rfl (List.mem_singleton_self _)
  have hplace : (Item.query q).Asks (Scope.ofOptions .ansi {}) .membership s (.compound c) :=
    .within (List.mem_singleton_self _) (Relation.ReflTransGen.single hpart)
      (.membership s false _ _)
  obtain ⟨front, back, before, behind, halone, hthere, hplaced, hsame⟩ :=
    Compound.placed_text (x := .query q) (o := {}) rfl hplace
      (List.forall_mem_singleton.mpr rfl) (fun _ _ => rfl) hsql
  have heq := Except.ok.inj (halone.symm.trans hown)
  have hbody := (hsame.mpr (.inl rfl)).trans heq
  exact ⟨hown, hsql, hplace, rfl, before, behind, hbody ▸ hthere, hbody ▸ hplaced⟩

/-- The set operation is selected from, and its ordering term is qualified there. -/
theorem Compound.placed_text_source :
    let abc : Table := { id := ⟨0⟩, name := "abc" }
    let efg : Table := { id := ⟨1⟩, name := "efg" }
    let first : Query :=
      { Query.start ⟨3⟩ .ansi with sources := [.table abc], selects := [abc.field "x"] }
    let second : Query :=
      { Query.start ⟨4⟩ .ansi with sources := [.table efg], selects := [efg.field "x"] }
    let c : Compound :=
      (first.combine ⟨5⟩ .union second).order [.term (abc.field "x")] none
    let q : Query :=
      { (Query.start ⟨6⟩ .ansi).addSource (.subquery (.compound c)) with selects := [c.field "x"] }
    let operands := "(SELECT \"x\" FROM \"abc\") UNION (SELECT \"x\" FROM \"efg\")"
    (render c {}).toOption = some (operands ++ " ORDER BY \"x\"") ∧
      (render q {}).toOption = some ("SELECT \"sq0\".\"x\" FROM (" ++ operands ++
        " ORDER BY \"abc\".\"x\") \"sq0\"") := by
  decide +kernel

end SqlScribe
