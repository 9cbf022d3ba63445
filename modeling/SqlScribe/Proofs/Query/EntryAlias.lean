import Mathlib.Data.List.Pairwise
import SqlScribe.Proofs.Query.SelectionText
import SqlScribe.Proofs.Reading.Atom
import SqlScribe.Query.Select
import SqlScribe.Syntax.Equality
/-! # Entries by their aliases

An entry of `GROUP BY` or `ORDER BY` that has the alias of an item of the select list is written by
that alias, where options and dialect let it. If the one item that has the alias is equal to the
entry, then the alias stands for the entry.

* `Term.Entered`: what is written for an entry.
* `Term.StandsFor`: the alias of an entry stands for the entry.
* `Term.Discerned`: each alias of a select list is that of one item.
* `Query.LaysEntries`, `Compound.LaysEntries`: the entries of a selection or of a set operation,
  beside the select list.
* `Term.entries_laid`: every selection and every set operation is written so.
* `Term.entry_captured`: an entry that has the alias of another expression. -/

namespace SqlScribe

open Tokens

/-! ## Entries -/

/-- What is written for an entry of a clause beside a select list: its alias alone, if the clause
names aliases and an item of the list has it too, and the expression of the entry otherwise. -/
inductive Term.Entered (s : Scope) (named : Bool) (selects : List Term) (t : Term) : Tokens → Prop
  where
  /-- By its alias. -/
  | byAlias {a : String} {u : Term} (hnamed : named = true) (ht : t.alias? = some a)
    (hu : u ∈ selects) (hua : u.alias? = some a) : Entered s named selects t [.aliasName a]
  /-- By its expression. -/
  | byExpression {ts : Tokens}
    (h : named = true → ∀ a, t.alias? = some a → ∀ u ∈ selects, u.alias? ≠ some a)
    (hts : t.expr.lower s = .ok ts) : Entered s named selects t ts

/-- What is written for an ordering term: its entry, and the direction behind it. -/
def OrderItem.Entered (s : Scope) (named : Bool) (selects : List Term) (i : OrderItem)
    (ts : Tokens) : Prop :=
  ∃ us, i.term.Entered s named selects us ∧ ts = us ++ direction i.order

/-- The aliases that entries beside a select list may be named by. -/
def Term.names (named : Bool) (selects : List Term) : List String :=
  if named then selects.filterMap (·.alias?) else []

namespace Term

variable {s : Scope} {named : Bool} {selects : List Term} {t : Term}

theorem mem_names {a : String} :
    a ∈ names named selects ↔ named = true ∧ ∃ u ∈ selects, u.alias? = some a := by
  cases named with
  | false => simp [names]
  | true => simp [names, List.mem_filterMap]

/-- An entry is looked up among the aliases, and is written by its expression if it is not found. -/
theorem entered (s : Scope) (named : Bool) (selects : List Term) (t : Term) :
    Yields (t.Entered s named selects)
      ((t.alias?.filter (names named selects).contains).elim (t.expr.lower s.quiet)
        fun a => .ok [.aliasName a]) := by
  cases hfound : t.alias?.filter (names named selects).contains with
  | some a =>
    obtain ⟨ht, ha⟩ := Option.filter_eq_some_iff.mp hfound
    obtain ⟨hnamed, u, hu, hua⟩ := mem_names.mp (List.contains_iff_mem.mp ha)
    exact .ok (.byAlias hnamed ht hu hua)
  | none =>
    rw [Expr.lower_quiet]
    refine (Yields.self _).mono fun ts hts => .byExpression (fun hnamed a ht u hu hua => ?_) hts
    have hmem : a ∈ names named selects := mem_names.mpr ⟨hnamed, u, hu, hua⟩
    exact Option.filter_eq_none_iff.mp hfound a ht (List.contains_iff_mem.mpr hmem)

end Term

/-- The items of a list that is lowered item by item are written one by one. -/
theorem Yields.lowered_pairs {α : Type} {f : α → Lowered} {g : List α → LoweredList}
    {r : α → Tokens → Prop} (hnil : g [] = .ok [])
    (hcons : ∀ a l, g (a :: l) = do let t ← f a; let ts ← g l; return t :: ts)
    (h : ∀ a, Yields (r a) (f a)) (l : List α) : Yields (List.Forall₂ r l) (g l) := by
  induction l with
  | nil =>
    rw [hnil]
    exact .ok .nil
  | cons a l ih =>
    rw [hcons]
    exact (h a).bind fun _ ht => ih.bind fun _ hts => .pure (.cons ht hts)

theorem Term.lowerAllNamed_entered (s : Scope) (named : Bool) (selects terms : List Term) :
    Yields (List.Forall₂ (Term.Entered s named selects) terms)
      (Term.lowerAllNamed s.quiet (names named selects) terms) :=
  .lowered_pairs (by rw [lowerAllNamed]) (lowerAllNamed_cons s.quiet _) (entered s named selects)
    terms

theorem OrderItem.lowerAll_entered (s : Scope) (named : Bool) (selects : List Term)
    (items : List OrderItem) :
    Yields (List.Forall₂ (OrderItem.Entered s named selects) items)
      (OrderItem.lowerAll s.quiet (Term.names named selects) items) :=
  .lowered_pairs (by rw [lowerAll]) (lowerAll_cons s.quiet _)
    (fun i => (i.term.entered s named selects).bind fun us hus => .pure ⟨us, hus, rfl⟩) items

/-! ## Select lists -/

/-- An item of a select list: its expression, and its alias behind it if it has one. -/
def Term.Listed (s : Scope) (t : Term) (ts : Tokens) : Prop :=
  ∃ us, t.expr.lower s = .ok us ∧ ts = us ++ (t.alias?.map s.aliasSuffix).getD []

theorem Term.lowerAll_listed (s : Scope) (terms : List Term) :
    Yields (List.Forall₂ (Term.Listed s) terms) (Term.lowerAll s.labelled terms) := by
  refine .lowered_pairs (by rw [lowerAll]) (fun t ts => by rw [lowerAll]) (fun t => ?_) terms
  obtain ⟨expr, alias?⟩ := t
  have hexpr : expr.lower s.labelled = expr.lower s :=
    (expr.lower_quiet s.labelled).symm.trans (expr.lower_quiet s)
  rw [lower, hexpr]
  exact (Yields.self _).bind fun us hus => .pure ⟨us, hus, rfl⟩

/-- The alias of an entry stands for the entry: each item of the select list that has the alias is
equal to the entry. -/
def Term.StandsFor (selects : List Term) (t : Term) : Prop :=
  ∀ u ∈ selects, ∀ a, t.alias? = some a → u.alias? = some a → (u == t) = true

/-- If the aliases of a select list differ, then there is one item for each. -/
theorem Term.eq_of_alias {selects : List Term} {t u : Term} {a : String}
    (h : (selects.filterMap (·.alias?)).Nodup) (ht : t ∈ selects) (hu : u ∈ selects)
    (hta : t.alias? = some a) (hua : u.alias? = some a) : u = t := by
  have : Std.Symm fun t u : Term =>
      ∀ a, t.alias? = some a → ∀ b, u.alias? = some b → a ≠ b :=
    ⟨fun _ _ h b hb a ha => (h a ha b hb).symm⟩
  by_contra hne
  exact (List.pairwise_filterMap.mp h).forall hu ht hne a hua a hta rfl

/-- If the aliases of a select list differ, then an alias of the list stands for an entry exactly if
the item that has it is equal to the entry. -/
theorem Term.standsFor_iff {selects : List Term} {t : Term} {a : String}
    (h : (selects.filterMap (·.alias?)).Nodup) (hta : t.alias? = some a)
    (hselected : ∃ u ∈ selects, u.alias? = some a) :
    t.StandsFor selects ↔ ∃ u ∈ selects, u.alias? = some a ∧ (u == t) = true := by
  constructor
  · intro hstands
    obtain ⟨u, hu, hua⟩ := hselected
    exact ⟨u, hu, hua, hstands u hu a hta hua⟩
  · rintro ⟨u, hu, hua, heq⟩ v hv b htb hvb
    obtain rfl : a = b := Option.some.inj (hta.symm.trans htb)
    rw [eq_of_alias h hu hv hua hvb]
    exact heq

/-- Each alias of a select list is that of one item: it stands for an entry exactly if this item is
equal to the entry, and it is the alias of no other item. -/
structure Term.Discerned (selects : List Term) : Prop where
  stands : ∀ t a, t.alias? = some a → (∃ u ∈ selects, u.alias? = some a) →
    (t.StandsFor selects ↔ ∃ u ∈ selects, u.alias? = some a ∧ (u == t) = true)
  unique : ∀ t ∈ selects, ∀ u ∈ selects, ∀ a, t.alias? = some a → u.alias? = some a → u = t

theorem Term.discerned {selects : List Term} (h : (selects.filterMap (·.alias?)).Nodup) :
    Discerned selects where
  stands _ _ := standsFor_iff h
  unique _ ht _ hu _ := eq_of_alias h ht hu

/-! ## Layouts -/

/-- The entries of a selection are written beside its select list; if the aliases there differ, they
are discerned. -/
structure Query.LaysEntries (s : Scope) (q : Query) (l : SelectionTokens) : Prop where
  selects : List.Forall₂ (Term.Listed s) q.selects l.selects
  groupBy : List.Forall₂
    (Term.Entered s (s.groupByAlias && s.dialect.profile.groupByAlias) q.selects)
    q.groupBy l.groupBy
  orderBy : List.Forall₂ (OrderItem.Entered s s.orderByAlias q.selects) q.orderBy l.orderBy
  discerned : (q.selects.filterMap (·.alias?)).Nodup → Term.Discerned q.selects

theorem Query.LaysSelection.entries {s : Scope} {q : Query} {l : SelectionTokens}
    (h : q.LaysSelection s l) : q.LaysEntries s l where
  selects := Term.lowerAll_listed s q.selects l.selects h.selects
  groupBy := Term.lowerAllNamed_entered s _ q.selects q.groupBy l.groupBy h.groupBy
  orderBy := OrderItem.lowerAll_entered s _ q.selects q.orderBy l.orderBy h.orderBy
  discerned := Term.discerned

/-- The entries of the order of a set operation are written beside the select list of its first
query; if the aliases there differ, they are discerned. -/
structure Compound.LaysEntries (s : Scope) (c : Compound) (ts : Tokens) : Prop where
  orderBy : ∃ operands l,
    ts = operands ++ headed .ORDER_BY l
      ++ Statement.windowClause s.dialect c.orderBy.isEmpty c.limit c.offset ∧
    List.Forall₂ (OrderItem.Entered s s.orderByAlias c.base.selects) c.orderBy l
  discerned : (c.base.selects.filterMap (·.alias?)).Nodup → Term.Discerned c.base.selects

theorem Compound.lower_entries (s : Scope) (c : Compound) :
    Yields (fun ts => ∃ body, c.LaysEntries s.standalone body ∧
        ts = Statement.placed s c.id c.alias? body) (c.lower s) := by
  obtain ⟨id, base, operands, orderBy, limit, offset, alias?⟩ := c
  rw [Compound.lower]
  refine Yields.bind (p := LaysEntries s.standalone ⟨id, base, operands, orderBy, limit, offset,
    alias?⟩) ?_ fun body hbody => .pure ⟨body, hbody, rfl⟩
  refine (Yields.self _).bind fun first _ => (Yields.self _).bind fun rest _ =>
    (Statement.listClause_laid .ORDER_BY _).bind fun ts h => .pure ?_
  obtain ⟨l, hl, rfl⟩ := h
  have hentries := OrderItem.lowerAll_entered s.standalone s.orderByAlias base.selects orderBy l hl
  exact ⟨⟨_, l, rfl, hentries⟩, Term.discerned⟩

/-- **Aliases of selected entries stand for their expressions.** Under all options and in every
dialect, an entry of `GROUP BY` or `ORDER BY` of a selection is written by its alias alone exactly
if the clause may name aliases and an item of the select list has the alias too; otherwise it is
written by its own expression. If the aliases of the select list differ, then the alias stands for
the entry exactly if the item that has the alias is equal to the entry; in particular, no other item
has the alias of an entry that is an item itself. The same goes for the order of a set operation and
the select list of its first query. -/
theorem Term.entries_laid (o : RenderOptions) :
    (∀ (q : Query) (ts : Tokens), q.kind = "select" → q.isBlank = false →
      renderTokens q o = .ok ts →
        let s := (Scope.ofOptions (renderDialect q o) o).inside q
        ∃ l, q.LaysSelection s l ∧ ts = l.tokens ∧ q.LaysEntries s l) ∧
    ∀ (c : Compound) (ts : Tokens), renderTokens c o = .ok ts →
      c.LaysEntries (Scope.ofOptions (renderDialect c o) o) ts := by
  refine ⟨fun q ts hkind hblank h => ?_, fun c ts h => ?_⟩
  · obtain ⟨l, hl, rfl⟩ := Query.renderTokens_selection hkind hblank o ts h
    exact ⟨l, hl, rfl, hl.entries⟩
  · obtain ⟨body, hbody, rfl⟩ := c.lower_entries _ ts h
    rw [Statement.placed]
    exact (List.append_nil body).symm ▸ hbody

/-- A selection that is grouped by one of its items, and ordered by another one without an alias. -/
theorem Term.entries_laid_grouped :
    let abc : Table := { id := ⟨1⟩, name := "abc" }
    let a := (Term.field "a").aliased "x"
    let q : Query :=
      { Query.start ⟨2⟩ .ansi with
        sources := [.table abc], selects := [a, Term.field "b"], groupBy := [a],
        orderBy := [⟨Term.field "b", some .desc⟩] }
    let s := (Scope.ofOptions .ansi {}).inside q
    (render q {}).toOption =
        some "SELECT \"a\" \"x\",\"b\" FROM \"abc\" GROUP BY \"x\" ORDER BY \"b\" DESC" ∧
      ∃ ts l, renderTokens q {} = .ok ts ∧ ts = l.tokens ∧ q.LaysEntries s l ∧
        l.groupBy = [[.aliasName "x"]] ∧ a.StandsFor q.selects := by
  intro abc a q s
  have htext : (render q {}).toOption =
      some "SELECT \"a\" \"x\",\"b\" FROM \"abc\" GROUP BY \"x\" ORDER BY \"b\" DESC" := by
    decide +kernel +revert
  obtain ⟨ts, hts⟩ : ∃ ts, renderTokens q {} = .ok ts := ⟨_, rfl⟩
  obtain ⟨l, hl, heq, hentries⟩ := (entries_laid {}).1 q ts rfl rfl hts
  have hgroup : l.groupBy = [[.aliasName "x"]] := (Except.ok.inj hl.groupBy).symm
  exact ⟨htext, ts, l, hts, heq, hentries, hgroup,
    ((hentries.discerned (by decide)).stands a "x" rfl ⟨a, List.mem_cons_self, rfl⟩).mpr
      ⟨a, List.mem_cons_self, rfl, by decide +kernel⟩⟩

/-- A column under the alias that another one has in the select list: grouping and ordering by it
goes by the other column, in a selection and in the order of a set operation. -/
theorem Term.entry_captured :
    let abc : Table := { id := ⟨1⟩, name := "abc" }
    let a := (Term.field "a").aliased "x"
    let b := (Term.field "b").aliased "x"
    let q : Query := { Query.start ⟨2⟩ .ansi with sources := [.table abc], selects := [a] }
    let r : Query := { q with info.id := ⟨3⟩ }
    let c : Compound := ⟨⟨4⟩, q, [⟨.union, r⟩], [⟨b, none⟩], none, none, none⟩
    (a == b) = false ∧ a.alias? = b.alias? ∧
      (render (q.group [.term b]) {}).toOption =
        some "SELECT \"a\" \"x\" FROM \"abc\" GROUP BY \"x\"" ∧
      (render (q.order [.term b] none) {}).toOption =
        some "SELECT \"a\" \"x\" FROM \"abc\" ORDER BY \"x\"" ∧
      (render c {}).toOption = some ("(SELECT \"a\" \"x\" FROM \"abc\") UNION " ++
        "(SELECT \"a\" \"x\" FROM \"abc\") ORDER BY \"x\"") := by
  decide +kernel

end SqlScribe
