import SqlScribe.Proofs.Occurrence.Lowering
import SqlScribe.Proofs.Qualification.Surroundings
import SqlScribe.Query.Step
import SqlScribe.Render
/-! # Queries within queries

A query that mentions its own sources only is written within another as it is written alone, unless
one of its sources has been given a name by a query around it.

* `Scope.settled`: what the options settle for a whole statement.
* `Occurrence.Within.settled_scope`: it is the same throughout.
* `Query.lower_placed_eq`: the tokens of a query where it stands, from its tokens alone.
* `Query.nested_text`: its text between parentheses.
* `Query.nested_captured`: a handle that the query around has named is taken for its source. -/

namespace SqlScribe

open Tokens (parens parensIf text)

/-! ## What is settled for a statement -/

/-- The part of a scope that is the same in a whole statement. -/
def Scope.settled (s : Scope) : Scope :=
  { s with showsAlias := false, nested := false, qualifies := false, aliases := [] }

namespace Occurrence

/-- All occurrences of a list stand in scopes with one settled part. -/
def Settled (s : Scope) (l : List Occurrence) : Prop := ∀ b ∈ l, b.scope.settled = s.settled

variable {s s' : Scope} {l m : List Occurrence} {b : Occurrence}

@[simp] theorem settled_nil : Settled s [] := by simp [Settled]

@[simp] theorem settled_cons :
    Settled s (b :: l) ↔ b.scope.settled = s.settled ∧ Settled s l := by
  simp [Settled]

@[simp] theorem settled_append : Settled s (l ++ m) ↔ Settled s l ∧ Settled s m := by
  simp [Settled, or_imp, forall_and]

theorem settled_map {α : Type} {f : α → Occurrence} {l : List α}
    (h : ∀ a, (f a).scope.settled = s.settled) : Settled s (l.map f) := by
  intro b hb
  obtain ⟨a, _, rfl⟩ := List.mem_map.mp hb
  exact h a

theorem settled_flatMap {α : Type} {f : α → List Occurrence} {l : List α}
    (h : ∀ a, Settled s (f a)) : Settled s (l.flatMap f) := by
  intro b hb
  obtain ⟨a, _, hb⟩ := List.mem_flatMap.mp hb
  exact h a b hb

@[simp] theorem settled_terms {ts : List Term} (h : s'.settled = s.settled) :
    Settled s (Term.occurrences s' ts) := settled_map fun _ => h

@[simp] theorem settled_items {names : List String} {items : List OrderItem}
    (h : s'.settled = s.settled) : Settled s (OrderItem.occurrences s' names items) :=
  settled_map fun _ => h

theorem settled_columnParts {t : Term} (h : s'.settled = s.settled) :
    Settled s (t.columnParts s') := by
  obtain ⟨expr, alias?⟩ := t
  cases expr with
  | field q name => exact settled_nil
  | _ => exact settled_cons.mpr ⟨h, settled_nil⟩

theorem settled_expr (s : Scope) (e : Expr) : Settled s (e.parts s) := by
  cases e with
  | case branches otherwise =>
    refine settled_append.mpr ⟨settled_flatMap fun b => ?_, settled_terms rfl⟩
    exact settled_cons.mpr ⟨rfl, settled_cons.mpr ⟨rfl, settled_nil⟩⟩
  | tuple items => exact settled_terms rfl
  | array items => exact settled_terms rfl
  | arithmetic op left right => exact settled_terms rfl
  | negative t => exact settled_terms rfl
  | call c => exact settled_cons.mpr ⟨rfl, settled_nil⟩
  | subquery q => exact settled_cons.mpr ⟨rfl, settled_nil⟩
  | condition c => exact settled_cons.mpr ⟨rfl, settled_nil⟩
  | _ => exact settled_nil

theorem settled_call (s : Scope) (c : Call) : Settled s (c.parts s) :=
  settled_append.mpr ⟨settled_append.mpr ⟨settled_terms rfl, settled_map fun _ => rfl⟩,
    settled_map fun _ => rfl⟩

theorem settled_window (s : Scope) (w : Window) : Settled s (w.parts s) :=
  settled_append.mpr ⟨settled_terms rfl, settled_items rfl⟩

theorem settled_condition (s : Scope) (c : Condition) : Settled s (c.parts s) := by
  have hpair : ∀ {a b : Occurrence}, a.scope.settled = s.settled → b.scope.settled = s.settled →
      Settled s [a, b] := fun ha hb => settled_cons.mpr ⟨ha, settled_cons.mpr ⟨hb, settled_nil⟩⟩
  cases c with
  | empty => exact settled_nil
  | isIn negated t items =>
    rw [Condition.parts]
    split
    · exact settled_nil
    · exact settled_terms rfl
  | isInRows negated t rows => exact hpair rfl rfl
  | between negated t low high => exact settled_terms rfl
  | hasRows negated rows => exact settled_cons.mpr ⟨rfl, settled_nil⟩
  | combined op left right => exact hpair rfl rfl
  | not c => exact settled_cons.mpr ⟨rfl, settled_nil⟩
  | term t => exact settled_cons.mpr ⟨rfl, settled_nil⟩
  | isNull negated t => exact settled_terms rfl
  | compare op left right => exact settled_terms rfl
  | «matches» op negated t pattern escape => exact settled_terms rfl
  | json op left right => exact settled_terms rfl
  | search op t value => exact settled_terms rfl

theorem settled_compound (s : Scope) (c : Compound) : Settled s (c.parts s) :=
  settled_cons.mpr ⟨rfl, settled_append.mpr ⟨settled_map fun _ => rfl, settled_items rfl⟩⟩

theorem settled_query (s : Scope) (q : Query) (c : QueryClause) : Settled s (q.partsIn s c) := by
  have hclause : Settled s (q.clauseParts (s.inside q) c) := by
    -- A clause may ask for qualifiers or labels of its own, which is nothing that is settled.
    cases c with
    | commonTables => exact settled_map fun _ => rfl
    | sources =>
      refine settled_flatMap fun x => ?_
      cases x with
      | table t => exact settled_nil
      | subquery x => exact settled_cons.mpr ⟨rfl, settled_nil⟩
    | joined =>
      refine settled_flatMap fun j => ?_
      cases j.source with
      | table t => exact settled_nil
      | subquery x => exact settled_cons.mpr ⟨rfl, settled_nil⟩
    | on =>
      refine settled_flatMap fun j => ?_
      cases j.condition with
      | all => exact settled_nil
      | on c => exact settled_cons.mpr ⟨rfl, settled_nil⟩
      | sharing columns => exact settled_nil
    | selectList => exact settled_terms rfl
    | distinctOn => exact settled_terms rfl
    | filter => exact settled_cons.mpr ⟨rfl, settled_nil⟩
    | groupBy => exact settled_map fun _ => rfl
    | having => exact settled_cons.mpr ⟨rfl, settled_nil⟩
    | orderBy => exact settled_items rfl
    | columns => exact settled_flatMap fun _ => settled_columnParts rfl
    | rows => exact settled_flatMap fun _ => settled_terms rfl
    | conflictTargets =>
      exact settled_flatMap fun _ => settled_flatMap fun _ => settled_columnParts rfl
    | conflictFilter => exact settled_map fun _ => rfl
    | conflictColumns =>
      exact settled_flatMap fun _ => settled_flatMap fun _ => settled_columnParts rfl
    | conflictSet => exact settled_flatMap fun _ => settled_map fun _ => rfl
    | conflictWhere => exact settled_map fun _ => rfl
    | duplicateColumns => exact settled_flatMap fun _ => settled_columnParts rfl
    | duplicateSet => exact settled_map fun _ => rfl
    | setColumns => exact settled_flatMap fun _ => settled_columnParts rfl
    | set => exact settled_map fun _ => rfl
    | returning => exact settled_terms rfl
  unfold Query.partsIn
  split
  · exact settled_nil
  · split
    · exact hclause
    · exact settled_nil

variable {a : Occurrence}

theorem Part.settled_scope (h : Part a b) : b.scope.settled = a.scope.settled := by
  obtain ⟨s, piece⟩ := a
  cases piece with
  | term t =>
    cases h
    rfl
  | expr e => exact settled_expr s e b h
  | call c => exact settled_call s c b h
  | window w => exact settled_window s w b h
  | condition c => exact settled_condition s c b h
  | query q =>
    obtain ⟨c, hb⟩ := h
    exact settled_query s q c b hb
  | compound c => exact settled_compound s c b h

/-- What the options have settled is the same at every place of a statement. -/
theorem Within.settled_scope (h : Within a b) : b.scope.settled = a.scope.settled := by
  induction h with
  | refl => rfl
  | tail _ hpart ih => exact hpart.settled_scope.trans ih

end Occurrence

/-! ## A query in its place -/

theorem Tokens.text_append (p : Spelling) (ts us : Tokens) :
    text p (ts ++ us) = text p ts ++ text p us := by
  induction ts with
  | nil => simp [text]
  | cons t ts ih => rw [List.cons_append, text, text, ih, String.append_assoc]

theorem Tokens.text_parens (p : Spelling) (ts : Tokens) :
    text p (parens ts) = "(" ++ text p ts ++ ")" := by
  rw [parens, List.cons_append, text, text_append]
  simp [text, Token.text, Mark.text, String.append_assoc]

/-- Where queries stand in parentheses, a statement stands in them, followed by its name where it is
shown. -/
theorem Statement.placed_of_nested {s : Scope} (h : s.nested = true) (id : SourceId)
    (alias? : Option String) :
    ∃ name, ∀ body, Statement.placed s id alias? body = parens body ++ name := by
  cases hshows : s.showsAlias with
  | false => exact ⟨[], fun body => by simp [placed, parensIf, h, hshows]⟩
  | true =>
    cases hname : alias?.or (s.alias? id) with
    | none => exact ⟨[], fun body => by simp [placed, parensIf, h, hshows, hname]⟩
    | some a => exact ⟨s.aliasSuffix a, fun body => by simp [placed, parensIf, h, hshows, hname]⟩

namespace Query

variable {s s₀ : Scope} {q : Query}

/-- Inside a query only the names from around are left of the place that it stands in. -/
theorem inside_eq_of_settled (h : s.settled = s₀.settled) (q : Query) :
    s.inside q = (s₀.under s.aliases).inside q := by
  show (s.settled.under s.aliases).inside q = (s₀.settled.under s.aliases).inside q
  rw [h]

/-- A query has the tokens that it has alone, in parentheses and with its name as its place asks
for, if the sources that it looks up go by the same names in both places. -/
theorem lower_placed_eq (hs : s.settled = s₀.settled)
    (hnames : ∀ id, .lookup id ∈ q.mentions → s.alias? id = s₀.alias? id)
    (hnested : s₀.nested = false) (hshows : s₀.showsAlias = false) (hblank : q.isBlank = false) :
    q.lower s = do
      let body ← q.lower s₀
      return Statement.placed s q.info.id q.info.alias? body := by
  -- First other names are put around the query where it stands alone; then, as nothing else is
  -- left of a place inside the query, only the dress of the statement differs.
  have hunder : q.lower (s₀.under s.aliases) = q.lower s₀ :=
    q.lower_under s₀ hnames fun h => absurd (hshows.symm.trans h) Bool.false_ne_true
  have hplaced : ∀ body : Tokens,
      Statement.placed (s₀.under s.aliases) q.info.id q.info.alias? body = body := by
    intro body
    simp [Statement.placed, Scope.under, hnested, hshows, Tokens.parensIf]
  rw [← hunder, lower_eq, lower_eq, if_neg (by simp [hblank]), if_neg (by simp [hblank]),
    inside_eq_of_settled hs]
  simp only [hplaced, bind_pure]

theorem eq_ok_of_toOption {ε α : Type} {x : Except ε α} {a : α} (h : x.toOption = some a) :
    x = .ok a := by
  cases x with
  | error e => cases h
  | ok b => exact congrArg Except.ok (Option.some.inj h)

/-- A text is that of the tokens. -/
theorem render_eq_ok {α : Type} [Renderable α] {x : α} {o : RenderOptions} {text : String}
    (h : render x o = .ok text) :
    ∃ ts, renderTokens x o = .ok ts ∧ text = ts.text (o.spelling (renderDialect x o)) := by
  rw [render] at h
  cases hts : renderTokens x o with
  | error err => rw [hts] at h; cases h
  | ok ts =>
    rw [hts] at h
    cases h
    exact ⟨ts, rfl, rfl⟩

/-- A query that looks up its own sources only, in a place where queries stand in parentheses: as a
source, as a term, or in a condition. If no query around it has named a source that it looks up, its
text there is in parentheses the text that it has alone, followed by its name where it is shown. A
query of which there is nothing to write is not written in either place. -/
theorem nested_text {e q : Query} {o : RenderOptions}
    (hd : renderDialect q o = renderDialect e o) {s : Scope}
    (hin : Occurrence.Within ⟨Scope.ofOptions (renderDialect e o) o, .query e⟩ ⟨s, .query q⟩)
    (hnested : s.nested = true) (hself : q.SelfContained)
    (hfree : ∀ id, .lookup id ∈ q.mentions → .source id ∈ q.mentions → s.alias? id = none)
    {sql : String} (hsql : render e o = .ok sql) :
    (q.isBlank = false → ∃ own name before behind, render q o = .ok own ∧
      (q.lower s).map (Tokens.text (o.spelling (renderDialect e o))) =
        .ok ("(" ++ own ++ ")" ++ name) ∧
      sql = before ++ ("(" ++ own ++ ")" ++ name) ++ behind) ∧
    (q.isBlank = true → render q o = .ok "" ∧ q.lower s = .ok []) := by
  obtain ⟨ts, hts, rfl⟩ := render_eq_ok hsql
  obtain ⟨us, hus, before, behind, rfl⟩ := hin.holds ts hts
  -- The spelling is one for the whole text, so that the text falls apart as the tokens do.
  let p := o.spelling (renderDialect e o)
  rw [Occurrence.lower_query] at hus
  have hown : renderTokens q o = q.lower (Scope.ofOptions (renderDialect e o) o) := by
    rw [renderTokens, hd]
    rfl
  refine ⟨fun hblank => ?_, fun hblank => ?_⟩
  · have hplaced := lower_placed_eq hin.settled_scope (fun id hid => hfree id hid (hself id hid))
      rfl rfl hblank
    rw [hus, ← hown] at hplaced
    cases hbody : renderTokens q o with
    | error err => rw [hbody] at hplaced; cases hplaced
    | ok body =>
      obtain ⟨name, hname⟩ :=
        Statement.placed_of_nested hnested q.info.id q.info.alias?
      rw [hbody] at hplaced
      have hus' : us = parens body ++ name := (Except.ok.inj hplaced).trans (hname body)
      have htext : us.text p = "(" ++ body.text p ++ ")" ++ name.text p := by
        rw [hus', Tokens.text_append, Tokens.text_parens]
      refine ⟨body.text p, name.text p, text p before, text p behind, ?_, ?_, ?_⟩
      · rw [render, hbody, hd]
        rfl
      · rw [hus, ← htext]
        rfl
      · rw [Tokens.text_append, Tokens.text_append, htext]
  · have hlower : ∀ s' : Scope, q.lower s' = .ok [] := by
      intro s'
      rw [lower_eq, if_pos hblank]
    refine ⟨?_, hlower s⟩
    rw [render, hown, hlower]
    rfl

/-- A query under `EXISTS` that has a source of its own. -/
theorem nested_text_exists :
    let a : Table := { id := ⟨0⟩, name := "a" }
    let b : Table := { id := ⟨1⟩, name := "b" }
    let q : Query :=
      { Query.start ⟨2⟩ .ansi with sources := [.table b], selects := [b.field "x"] }
    let e : Query :=
      { Query.start ⟨3⟩ .ansi with
        sources := [.table a], selects := [a.field "y"], filter := .hasRows false (.query q) }
    let s := ((Scope.ofOptions .ansi {}).inside e).quiet.embedded
    let sql := "SELECT \"y\" FROM \"a\" WHERE EXISTS (SELECT \"x\" FROM \"b\")"
    render e {} = .ok sql ∧
      ∃ own name before behind, render q {} = .ok own ∧
        (q.lower s).map (text Dialect.ansi.spelling) = .ok ("(" ++ own ++ ")" ++ name) ∧
        sql = before ++ ("(" ++ own ++ ")" ++ name) ++ behind := by
  intro a b q e s sql
  have htext : (render e {}).toOption = some sql := by decide +kernel +revert
  have hin : Occurrence.Within ⟨Scope.ofOptions .ansi {}, .query e⟩ ⟨s, .query q⟩ :=
    have hfilter : Occurrence.Part ⟨Scope.ofOptions .ansi {}, .query e⟩
      ⟨((Scope.ofOptions .ansi {}).inside e).quiet, .condition e.filter⟩ :=
      ⟨.filter, List.mem_singleton.mpr rfl⟩
    Relation.ReflTransGen.tail (Relation.ReflTransGen.single hfilter) (List.mem_singleton.mpr rfl)
  have hmentions : q.mentions = [.source ⟨1⟩, .lookup ⟨1⟩] := by decide
  have hself : q.SelfContained := by
    intro id hid
    rw [hmentions] at hid ⊢
    simpa using hid
  have hsql : render e {} = .ok sql := eq_ok_of_toOption htext
  exact ⟨hsql, (nested_text (e := e) (q := q) (o := {}) (s := s) rfl hin rfl hself
    (fun _ _ _ => rfl) hsql).1 rfl⟩

/-- A handle that the query around has joined to its own table is the source of a query within. Its
column goes by the name that the handle has been given outside. -/
theorem nested_captured :
    let a : Table := { id := ⟨0⟩, name := "abc" }
    let a' : Table := { id := ⟨1⟩, name := "abc" }
    let q : Query :=
      { Query.start ⟨2⟩ .ansi with sources := [.table a'], selects := [a'.field "x"] }
    let e : Query :=
      { (Query.addSource (.start ⟨3⟩ .ansi) (.table a)).addJoin .inner (.table a')
          (.on ((a.field "id").equals (a'.field "id"))) with
        selects := [a.field "y"], filter := .hasRows false (.query q) }
    let s := ((Scope.ofOptions .ansi {}).inside e).quiet.embedded
    q.SelfContained ∧
      Occurrence.Within ⟨Scope.ofOptions .ansi {}, .query e⟩ ⟨s, .query q⟩ ∧ s.nested = true ∧
      renderTokens q {} =
        .ok [.word .SELECT, .space, .ident "x", .space, .word .FROM, .space, .ident "abc"] ∧
      q.lower s = .ok (parens [.word .SELECT, .space, .ident "abc2", .mark .dot, .ident "x", .space,
        .word .FROM, .space, .ident "abc"]) := by
  intro a a' q e s
  have hfilter : Occurrence.Part ⟨Scope.ofOptions .ansi {}, .query e⟩
      ⟨((Scope.ofOptions .ansi {}).inside e).quiet, .condition e.filter⟩ :=
    ⟨.filter, List.mem_singleton.mpr rfl⟩
  have hmentions : q.mentions = [.source ⟨1⟩, .lookup ⟨1⟩] := by decide
  have hself : q.SelfContained := by
    intro id hid
    rw [hmentions] at hid ⊢
    simpa using hid
  exact ⟨hself, .tail (.single hfilter) (List.mem_singleton.mpr rfl), rfl, rfl, rfl⟩

end Query

end SqlScribe
