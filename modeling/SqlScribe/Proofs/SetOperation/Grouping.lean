import Mathlib.Data.List.Induction
import SqlScribe.Proofs.SetOperation.Operands
import SqlScribe.Render
/-! # Grouping of set operations

Set operators stand in a row between operands in parentheses. SQL reads them with `INTERSECT`
binding more tightly than the others, and from the left otherwise; the calls that build a set
operation mean each operator to take in all that stands before it.

* `SetTree.standard`, `SetTree.leftNested`: operands grouped by the precedence of the operators, and
  from the left.
* `SetTree.standard_eq_leftNested_iff`: the two agree unless `INTERSECT` comes behind another
  operator.
* `Tokens.setTree?`: tokens read as a set operation.
* `Compound.chain_read`: what a set operation is read as. -/

namespace SqlScribe

open Tokens

/-! ## Trees of operators -/

/-- The operator takes its operands before the others do. -/
def SetOperator.isTight : SetOperator → Bool
  | .intersect => true
  | .union | .unionAll | .except | .minus => false

/-- Operands with operators between them, grouped two by two. -/
inductive SetTree (α : Type) where
  /-- An operand. -/
  | operand (a : α)
  /-- Two groups under an operator. -/
  | combined (op : SetOperator) (left right : SetTree α)

namespace SetTree

variable {α : Type}

/-- What is read behind a loose operator, under the operator and what stands before it. -/
def close : Option (SetTree α × SetOperator) → SetTree α → SetTree α
  | none, t => t
  | some (left, op), t => .combined op left t

/-- The group of operators and operands, where `before` is what stands before the last loose
operator, with this operator, and `t` what was read behind it. -/
def regroup (before : Option (SetTree α × SetOperator)) (t : SetTree α) :
    List (SetOperator × α) → SetTree α
  | [] => close before t
  | (op, a) :: rest =>
    if op.isTight then regroup before (.combined op t (.operand a)) rest
    else regroup (some (close before t, op)) (.operand a) rest

/-- Operands grouped by precedence: `INTERSECT` first, then the other operators, each from the
left. -/
def standard (first : α) (rest : List (SetOperator × α)) : SetTree α :=
  regroup none (.operand first) rest

/-- Operands grouped from the left, whatever the operators are. -/
def leftNested (first : α) (rest : List (SetOperator × α)) : SetTree α :=
  rest.foldl (fun t r => .combined r.1 t (.operand r.2)) (.operand first)

theorem leftNested_snoc (first : α) (rest : List (SetOperator × α)) (op : SetOperator) (a : α) :
    leftNested first (rest ++ [(op, a)]) = .combined op (leftNested first rest) (.operand a) := by
  rw [leftNested, List.foldl_append]
  rfl

/-- A loose operator takes in all that stands before it. -/
theorem regroup_snoc_loose {op : SetOperator} (h : op.isTight = false)
    (before : Option (SetTree α × SetOperator)) (t : SetTree α) (rest : List (SetOperator × α))
    (a : α) :
    regroup before t (rest ++ [(op, a)]) = .combined op (regroup before t rest) (.operand a) := by
  induction rest generalizing before t with
  | nil =>
    simp only [List.nil_append, regroup, h]
    rfl
  | cons r rest ih =>
    obtain ⟨op', b⟩ := r
    rw [List.cons_append, regroup, regroup]
    split
    · exact ih _ _
    · exact ih _ _

/-- Among tight operators the last one takes in all that stands before it. -/
theorem regroup_tight {rest : List (SetOperator × α)} (h : ∀ r ∈ rest, r.1.isTight = true)
    (t : SetTree α) :
    regroup none t rest = rest.foldl (fun t r => .combined r.1 t (.operand r.2)) t := by
  induction rest generalizing t with
  | nil => rfl
  | cons r rest ih =>
    obtain ⟨hr, hrest⟩ := List.forall_mem_cons.mp h
    rw [regroup, if_pos hr]
    exact ih hrest _

/-- Behind a loose operator a tight one leaves all that stands before the loose one outside. -/
theorem regroup_snoc_tight {op : SetOperator} (h : op.isTight = true)
    (before : Option (SetTree α × SetOperator)) {rest : List (SetOperator × α)}
    (hbefore : ∀ b ∈ before, b.2.isTight = false)
    (hloose : before.isSome = true ∨ ∃ r ∈ rest, r.1.isTight = false) (t : SetTree α) (a : α) :
    ∃ op' left right, op'.isTight = false ∧
      regroup before t (rest ++ [(op, a)]) = .combined op' left right := by
  induction rest generalizing before t with
  | nil =>
    rw [List.nil_append, regroup, if_pos h, regroup]
    cases before with
    | none => simp at hloose
    | some b => exact ⟨b.2, b.1, _, hbefore b rfl, rfl⟩
  | cons r rest ih =>
    obtain ⟨op', b⟩ := r
    rw [List.cons_append, regroup]
    cases hop : op'.isTight with
    | true =>
      rw [if_pos rfl]
      refine ih _ hbefore ?_ _
      rcases hloose with hsome | ⟨r, hr, hloose⟩
      · exact .inl hsome
      · rcases List.mem_cons.mp hr with rfl | hr
        · rw [hop] at hloose
          cases hloose
        · exact .inr ⟨r, hr, hloose⟩
    | false =>
      rw [if_neg Bool.false_ne_true]
      exact ih _ (fun c hc => Option.some.inj hc ▸ hop) (.inl rfl) _

/-- **When precedence groups from the left.** It does just if no `INTERSECT` stands behind another
operator. -/
theorem standard_eq_leftNested_iff (first : α) (rest : List (SetOperator × α)) :
    standard first rest = leftNested first rest ↔
      rest.Pairwise fun r r' => r'.1.isTight = true → r.1.isTight = true := by
  -- The root of a tree that is nested to the left is the last operator, so the induction is on the
  -- list from its end.
  induction rest using List.reverseRecOn with
  | nil => exact iff_of_true rfl .nil
  | append_singleton rest r ih =>
    obtain ⟨op, a⟩ := r
    rw [List.pairwise_append, leftNested_snoc]
    cases hop : op.isTight with
    | false =>
      rw [standard, regroup_snoc_loose hop]
      constructor
      · intro h
        injection h with _ h _
        refine ⟨ih.mp h, List.pairwise_singleton _ _, fun r _ r' hr' htight => ?_⟩
        cases List.mem_singleton.mp hr'
        rw [hop] at htight
        cases htight
      · intro h
        exact congrArg (SetTree.combined op · _) (ih.mpr h.1)
    | true =>
      constructor
      · intro h
        by_cases hall : ∀ r ∈ rest, r.1.isTight = true
        · refine ⟨?_, List.pairwise_singleton _ _, fun r hr _ _ _ => hall r hr⟩
          exact List.pairwise_of_forall_mem_list fun r hr _ _ _ => hall r hr
        · -- A loose operator before the tight one is at the root, and the tight one is not.
          push Not at hall
          obtain ⟨r, hr, hloose⟩ := hall
          obtain ⟨op', left, right, hop', hroot⟩ := regroup_snoc_tight hop none
            (by simp) (.inr ⟨r, hr, Bool.eq_false_iff.mpr hloose⟩)
            (.operand first) a
          rw [standard, hroot] at h
          injection h with h _ _
          rw [h, hop] at hop'
          cases hop'
      · rintro ⟨-, -, hall⟩
        have htight : ∀ r ∈ rest ++ [(op, a)], r.1.isTight = true := by
          intro r hr
          rcases List.mem_append.mp hr with hr | hr
          · exact hall r hr _ (List.mem_singleton_self _) hop
          · cases List.mem_singleton.mp hr
            exact hop
        rw [← leftNested_snoc]
        exact regroup_tight htight _

end SetTree

/-! ## Reading -/

namespace Forest

/-- The operators that trees begin with, each before an operand in parentheses, and the trees behind
them. -/
def setOperands : Forest → List (SetOperator × Forest) × Forest
  | .token (.word .UNION) :: .token (.word .ALL) :: .group .round g :: f =>
    ((.unionAll, g) :: (setOperands f).1, (setOperands f).2)
  | .token (.word .UNION) :: .group .round g :: f =>
    ((.union, g) :: (setOperands f).1, (setOperands f).2)
  | .token (.word .INTERSECT) :: .group .round g :: f =>
    ((.intersect, g) :: (setOperands f).1, (setOperands f).2)
  | .token (.word .EXCEPT) :: .group .round g :: f =>
    ((.except, g) :: (setOperands f).1, (setOperands f).2)
  | .token (.word .MINUS) :: .group .round g :: f =>
    ((.minus, g) :: (setOperands f).1, (setOperands f).2)
  | f => ([], f)

/-- The trees of a set operator. -/
def ofOperator (op : SetOperator) : Forest :=
  match op with
  | .union => [.token (.word .UNION)]
  | .unionAll => [.token (.word .UNION), .token (.word .ALL)]
  | .intersect => [.token (.word .INTERSECT)]
  | .except => [.token (.word .EXCEPT)]
  | .minus => [.token (.word .MINUS)]

/-- The trees of operators with operands in parentheses. -/
def ofOperands (rest : List (SetOperator × Forest)) : Forest :=
  rest.flatMap fun r => ofOperator r.1 ++ [.group .round r.2]

theorem setOperands_ofOperator (op : SetOperator) (g f : Forest) :
    setOperands (ofOperator op ++ .group .round g :: f) =
      ((op, g) :: (setOperands f).1, (setOperands f).2) := by
  cases op <;> rfl

/-- Operators with operands in parentheses are read as they are, if the trees behind them begin with
no operator. -/
theorem setOperands_ofOperands (rest : List (SetOperator × Forest)) {f : Forest}
    (hf : setOperands f = ([], f)) : setOperands (ofOperands rest ++ f) = (rest, f) := by
  induction rest with
  | nil => exact hf
  | cons r rest ih =>
    rw [ofOperands, List.flatMap_cons, List.append_assoc, List.append_assoc, List.singleton_append,
      setOperands_ofOperator, ← ofOperands, ih]

end Forest

/-- Tokens read as a set operation with its operands in parentheses: their group by precedence, and
the trees behind them. -/
def Tokens.setTree? (ts : Tokens) : Option (SetTree Forest × Forest) :=
  match forest? ts with
  | some (.group .round g :: f) =>
    some (.standard g (Forest.setOperands f).1, (Forest.setOperands f).2)
  | _ => none

/-! ## Clauses behind the operands -/

/-- The keyword begins a clause of the result of a set operation. -/
def Keyword.followsOperands : Keyword → Bool
  | .ORDER_BY | .LIMIT | .OFFSET | .FETCH => true
  | _ => false

/-- The brackets of the tokens fit, and they are none, or the first is a keyword that begins a
clause of the result. -/
def Tokens.Follows (ts : Tokens) : Prop :=
  ∃ f, Forms ts f ∧ (f = [] ∨ ∃ k g, f = .token (.word k) :: g ∧ k.followsOperands = true)

namespace Tokens.Follows

variable {ts us : Tokens}

theorem nil : Follows [] := ⟨[], .nil, .inl rfl⟩

theorem word {k : Keyword} (hk : k.followsOperands = true) (h : Nests ts) :
    Follows (.space :: .word k :: ts) := by
  obtain ⟨f, hf, -⟩ := h
  have hrole : (Token.word k).role = .plain := by
    cases k <;> first | rfl | cases hk
  exact ⟨.token (.word k) :: f, (hf.plain hrole).blank, .inr ⟨k, f, rfl, hk⟩⟩

theorem append (hts : Follows ts) (hus : Follows us) : Follows (ts ++ us) := by
  obtain ⟨f, hf, hhead⟩ := hts
  obtain ⟨g, hg, hhead'⟩ := hus
  refine ⟨f ++ g, hf.append hg, ?_⟩
  rcases hhead with rfl | ⟨k, f, rfl, hk⟩
  · exact hhead'
  · exact .inr ⟨k, f ++ g, rfl, hk⟩

theorem headed {l : List Tokens} (hl : AllNest l) : Follows (headed .ORDER_BY l) := by
  cases l with
  | nil => exact nil
  | cons ts l => exact word rfl (Shows.listed hl trivial).blank

/-- No operator is read in the clauses of the result. -/
theorem setOperands {f : Forest}
    (h : f = [] ∨ ∃ k g, f = .token (.word k) :: g ∧ k.followsOperands = true) :
    Forest.setOperands f = ([], f) := by
  rcases h with rfl | ⟨k, g, rfl, hk⟩
  · rfl
  · cases k <;> first | rfl | cases hk

end Tokens.Follows

theorem Dialect.window_follows (d : Dialect) (limit offset : Option UInt64) :
    Follows (d.window limit offset) := by
  have hlimit : ∀ t : Token, t.role = .plain → Follows (PaginationStyle.limitClause t) :=
    fun t ht => .word rfl (.blank (.cons ht trivial .nil))
  have hoffset : ∀ t : Token, t.role = .plain → Follows (PaginationStyle.offsetClause t) :=
    fun t ht => .word rfl (.blank (.cons ht trivial .nil))
  have hrows : ∀ t : Token, t.role = .plain → Follows (PaginationStyle.offsetRows t) :=
    fun t ht => .word rfl (.blank (.cons ht trivial (.blank (.cons rfl trivial .nil))))
  have hfetch : ∀ t : Token, t.role = .plain → Follows (PaginationStyle.fetchNext t) :=
    fun t ht => .word rfl (.blank (.word rfl (.cons ht trivial
      (.blank (.word rfl (.cons rfl trivial .nil))))))
  have hclause : ∀ {write : Token → Tokens} (n : Option UInt64),
      (∀ t : Token, t.role = .plain → Follows (write t)) →
        Follows (PaginationStyle.clause write n) := by
    intro write n h
    cases n with
    | none => exact .nil
    | some n => exact h _ rfl
  unfold Dialect.window PaginationStyle.window
  split
  · exact (hclause _ hlimit).append (hclause _ hoffset)
  · split
    · exact (hlimit _ rfl).append (hoffset _ rfl)
    · exact (hclause _ hlimit).append (hclause _ hoffset)
  · exact .nil
  · exact (hrows _ rfl).append (hclause _ hfetch)
  · exact (hclause _ hrows).append (hclause _ hfetch)

theorem Statement.windowClause_follows (d : Dialect) (unordered : Bool)
    (limit offset : Option UInt64) : Follows (Statement.windowClause d unordered limit offset) := by
  refine .append ?_ (d.window_follows _ _)
  split
  · exact .word rfl (.blank (.raw _))
  · exact .nil

namespace Compound

variable {s : Scope} {c : Compound}

theorem ResultClauses.follows {ts : Tokens} (h : c.ResultClauses s ts) : Follows ts := by
  obtain ⟨l, hl, rfl⟩ := h
  exact (Follows.headed (OrderItem.lowerAll_nest _ _ _ l hl)).append
    (Statement.windowClause_follows _ _ _ _)

end Compound

/-! ## What is read -/

theorem SetOperator.forms (op : SetOperator) : Forms op.tokens (Forest.ofOperator op) := by
  cases op with
  | unionAll => exact .plain rfl (.blank (.plain rfl .nil))
  | _ => exact .plain rfl .nil

theorem SetOperator.isTight_iff (op : SetOperator) : op.isTight = true ↔ op = .intersect := by
  cases op <;> simp [isTight]

/-- A query is written by itself, in some dialect, with these trees. -/
def Query.HasTrees (d : Dialect) (o : RenderOptions) (q : Query) (f : Forest) : Prop :=
  ∃ ts, renderTokens q { o with dialect := some d } = .ok ts ∧ forest? ts = some f

theorem Query.Wrapped.hasTrees {d : Dialect} {o : RenderOptions} {q : Query} {ts : Tokens}
    (h : q.Wrapped (Scope.ofOptions d o) ts) (hblank : q.isBlank = false) :
    ∃ f, Forms ts [.group .round f] ∧ q.HasTrees d o f := by
  rcases h with ⟨h, -⟩ | ⟨-, body, hbody, ⟨f, hf, -⟩, rfl⟩
  · rw [hblank] at h
    cases h
  · exact ⟨f, hf.parens, body, hbody, hf.forest?_eq⟩

namespace Compound

variable {d : Dialect} {o : RenderOptions}

/-- Operands that are not blank, with their operators, form the groups of the operands. -/
theorem operands_form {operands : List Operand} {rest : List (SetOperator × Tokens)}
    (h : List.Forall₂ (Operand.Wrapped (Scope.ofOptions d o)) operands rest)
    (hblank : ∀ a ∈ operands, a.query.isBlank = false) :
    ∃ trees, Forms (rest.flatMap operandTokens) (Forest.ofOperands trees) ∧
      List.Forall₂ (fun a r => r.1 = a.operator ∧ a.query.HasTrees d o r.2) operands trees := by
  induction h with
  | nil => exact ⟨[], .nil, .nil⟩
  | @cons a r operands rest har _ ih =>
    obtain ⟨op, ts⟩ := r
    obtain ⟨rfl, hwrapped⟩ := har
    obtain ⟨hblank, hblanks⟩ := List.forall_mem_cons.mp hblank
    obtain ⟨f, hf, hquery⟩ := hwrapped.hasTrees hblank
    obtain ⟨trees, htrees, hqueries⟩ := ih hblanks
    refine ⟨(a.operator, f) :: trees, ?_, .cons ⟨rfl, hquery⟩ hqueries⟩
    exact (a.operator.forms.append hf.blank).blank.append htrees

/-- `INTERSECT` stands behind other operators among operands just if it does among their trees. -/
theorem pairwise_tight_iff {operands : List Operand} {p : Operand → Forest → Prop}
    {trees : List (SetOperator × Forest)}
    (h : List.Forall₂ (fun a r => r.1 = a.operator ∧ p a r.2) operands trees) :
    (trees.Pairwise fun r r' => r'.1.isTight = true → r.1.isTight = true) ↔
      operands.Pairwise fun a b => b.operator = .intersect → a.operator = .intersect := by
  have hnames : trees.map Prod.fst = operands.map Operand.operator := by
    induction h with
    | nil => rfl
    | cons har _ ih => rw [List.map_cons, List.map_cons, ih, har.1]
  let behind (op op' : SetOperator) : Prop := op' = .intersect → op = .intersect
  simp only [SetOperator.isTight_iff]
  calc trees.Pairwise (fun r r' => behind r.1 r'.1)
      ↔ (trees.map Prod.fst).Pairwise behind := List.pairwise_map.symm
    _ ↔ (operands.map Operand.operator).Pairwise behind := by rw [hnames]
    _ ↔ operands.Pairwise (fun a b => behind a.operator b.operator) := List.pairwise_map

/-- **How a chain of set operators is read.** A set operation whose operands are not blank, in a
dialect that puts operands in parentheses, is read as its operands in the order of the calls that
added them, each as it is written by itself, with their operators, grouped by precedence. This is
the grouping from the left, which takes each operator to be applied to all that came before it, just
if no `INTERSECT` was added behind another operator. -/
theorem chain_read {q other : Query} {id : SourceId} {op : SetOperator} {steps : List Step}
    {c : Compound} {ts : Tokens} (hc : c = (q.combine id op other).run steps)
    (hwraps : (renderDialect c o).profile.wrapsOperands = true) (hbase : q.isBlank = false)
    (hoperands : ∀ a ∈ ⟨op, other⟩ :: steps.filterMap Step.operand?, a.query.isBlank = false)
    (h : renderTokens c o = .ok ts) :
    ∃ first rest clauses, q.HasTrees (renderDialect c o) o first ∧
      List.Forall₂ (fun a r => r.1 = a.operator ∧ a.query.HasTrees (renderDialect c o) o r.2)
        (⟨op, other⟩ :: steps.filterMap Step.operand?) rest ∧
      ts.setTree? = some (.standard first rest, clauses) ∧
      (SetTree.standard first rest = .leftNested first rest ↔
        (⟨op, other⟩ :: steps.filterMap Step.operand?).Pairwise fun a b =>
          b.operator = .intersect → a.operator = .intersect) := by
  have hops : c.operands = ⟨op, other⟩ :: steps.filterMap Step.operand? := by
    rw [hc, run_operands]
    rfl
  have hfirst : c.base = q := by
    rw [hc, run_base]
    rfl
  obtain ⟨first, rest, clauses, hlaid, hts⟩ :=
    lower_laid (s := Scope.ofOptions (renderDialect c o) o) hwraps c ts h
  have hts : ts = first ++ rest.flatMap operandTokens ++ clauses := hts.trans (List.append_nil _)
  have hwrapped := hlaid.first
  rw [hfirst] at hwrapped
  have hrest := hlaid.rest
  rw [hops] at hrest
  obtain ⟨f, hf, hquery⟩ := hwrapped.hasTrees hbase
  obtain ⟨trees, htrees, hqueries⟩ := operands_form hrest hoperands
  obtain ⟨g, hg, hends⟩ := hlaid.clauses.follows
  refine ⟨f, trees, g, hquery, hqueries, ?_, ?_⟩
  · have hforest : forest? ts = some (.group .round f :: (Forest.ofOperands trees ++ g)) := by
      rw [hts]
      exact ((hf.append htrees).append hg).forest?_eq
    rw [setTree?, hforest]
    dsimp only
    rw [Forest.setOperands_ofOperands trees (Follows.setOperands hends)]
  · rw [SetTree.standard_eq_leftNested_iff]
    exact pairwise_tight_iff hqueries

/-- A union of two queries and what a third one has in common with it, and three queries in
common. -/
theorem chain_read_intersect :
    let a : Query := { Query.start ⟨1⟩ .ansi with selects := [Term.field "x"] }
    let b : Query := { Query.start ⟨2⟩ .ansi with selects := [Term.field "y"] }
    let c := (a.combine ⟨3⟩ .intersect b).run [.combine .union a, .keep 1]
    ∃ ts first rest clauses, renderTokens c {} = .ok ts ∧
      ts.setTree? = some (.standard first rest, clauses) ∧
      SetTree.standard first rest = .leftNested first rest := by
  intro a b c
  have hc : c = (a.combine ⟨3⟩ .intersect b).run [.combine .union a, .keep 1] := rfl
  have htokens : ∃ ts, renderTokens c {} = .ok ts := ⟨_, rfl⟩
  obtain ⟨ts, hts⟩ := htokens
  have hoperands : ∀ p ∈ [(⟨.intersect, b⟩ : Operand), ⟨.union, a⟩], p.query.isBlank = false := by
    intro p hp
    simp only [List.mem_cons, List.not_mem_nil, or_false] at hp
    rcases hp with rfl | rfl <;> rfl
  obtain ⟨first, rest, clauses, -, -, hread, hgroups⟩ :=
    chain_read hc rfl rfl hoperands hts
  refine ⟨ts, first, rest, clauses, hts, hread, hgroups.mpr ?_⟩
  exact List.pairwise_pair.mpr fun h => by cases h

/-- A union of two queries that a third one is to be intersected with is read as a union with an
intersection. Blank queries leave their operator without operands. -/
theorem chain_misread :
    let a : Query := { Query.start ⟨1⟩ .ansi with selects := [Term.field "x"] }
    let b : Query := { Query.start ⟨2⟩ .ansi with selects := [Term.field "y"] }
    let leaf (name : String) : Forest := [.token (.word .SELECT), .token (.ident name)]
    let blank : Query := Query.start ⟨4⟩ .ansi
    (∃ ts, renderTokens ((a.combine ⟨3⟩ .union b).combine .intersect a) {} = .ok ts ∧
      ts.setTree? = some (.combined .union (.operand (leaf "x"))
        (.combined .intersect (.operand (leaf "y")) (.operand (leaf "x"))), []) ∧
      ts.setTree? ≠ some
        (.leftNested (leaf "x") [(.union, leaf "y"), (.intersect, leaf "x")], [])) ∧
    ∃ ts, renderTokens (blank.combine ⟨3⟩ .union blank) {} = .ok ts ∧ ts.setTree? = none := by
  intro a b leaf blank
  refine ⟨⟨_, rfl, rfl, fun h => ?_⟩, _, rfl, rfl⟩
  cases h

end Compound

end SqlScribe
