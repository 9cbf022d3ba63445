import SqlScribe.Proofs.Fragment.Lowering
import SqlScribe.Proofs.Identity.Reference
import SqlScribe.Proofs.Occurrence.Operand
import SqlScribe.Proofs.Qualification.Surroundings
import SqlScribe.Render
/-! # Collected qualifiers

What stands before the dots of a term or a condition without queries comes from its qualifiers, and
so does all that names from around can change.

* `Piece.QueryFree`: no query stands in a piece.
* `Piece.agree_mentions`: names that agree on the qualifiers of a piece agree on its mentions.
* `Occurrence.Within.inside`: what is written of a piece is inside of it.
* `Tokens.Qualified`: what stands before the dots in tokens comes from some qualifiers.
* `Occurrence.lower_qualified`: the tokens of a piece are qualified by its qualifiers.
* `qualifiers_complete`: both for terms and conditions. -/

namespace SqlScribe

open Tokens Relation

/-! ## Pieces without queries -/

namespace Piece

/-- The piece is a query, or one stands in it directly. -/
def nests : Piece → Bool
  | .expr (.subquery _) => true
  | .condition (.isInRows _ _ _) => true
  | .condition (.hasRows _ _) => true
  | p => p.isQuery

/-- No query stands in the piece at any depth. -/
def QueryFree (p : Piece) : Prop := ∀ p', p.Inside p' → p'.nests = false

variable {p p' : Piece}

theorem QueryFree.inside (h : p.QueryFree) (hp : p.Inside p') : p'.QueryFree :=
  fun x hx => h x (hp.trans hx)

theorem queryFree_iff : p.QueryFree ↔ p.nests = false ∧ ∀ x ∈ p.operands, x.QueryFree := by
  refine ⟨fun h => ⟨h p .refl, fun x hx => h.inside (.single hx)⟩, fun ⟨hp, hops⟩ p' hp' => ?_⟩
  rcases ReflTransGen.cases_head hp' with rfl | ⟨x, hx, hrest⟩
  · exact hp
  · exact hops x hx p' hrest

/-- No query stands in the piece down to some depth, and nothing stands below. -/
def freeTo : Nat → Piece → Bool
  | 0, _ => false
  | n + 1, p => !p.nests && p.operands.all (freeTo n)

theorem QueryFree.of_freeTo {n : Nat} (h : p.freeTo n = true) : p.QueryFree := by
  induction n generalizing p with
  | zero => cases h
  | succ n ih =>
    rw [freeTo, Bool.and_eq_true, Bool.not_eq_true', List.all_eq_true] at h
    exact queryFree_iff.mpr ⟨h.1, fun x hx => ih (h.2 x hx)⟩

theorem QueryFree.isQuery (h : p.QueryFree) : p.isQuery = false := by
  have hp := h p .refl
  cases p with
  | query q => exact hp
  | compound c => exact hp
  | term _ | expr _ | call _ | window _ | condition _ => rfl

end Piece

/-! ## Mentions -/

section Mentions

variable {m : Mention}

theorem Term.mem_mentionsAll {ts : List Term} :
    m ∈ Term.mentionsAll ts ↔ ∃ t ∈ ts, m ∈ t.mentions := by
  induction ts with
  | nil => simp [mentionsAll]
  | cons t ts ih => simp [mentionsAll, ih]

theorem OrderItem.mem_mentionsAll {items : List OrderItem} :
    m ∈ OrderItem.mentionsAll items ↔ ∃ i ∈ items, m ∈ i.term.mentions := by
  induction items with
  | nil => simp [mentionsAll]
  | cons i items ih =>
    obtain ⟨t, order⟩ := i
    simp [mentionsAll, ih]

theorem Branch.mem_mentionsAll {branches : List Branch} :
    m ∈ Branch.mentionsAll branches ↔
      ∃ b ∈ branches, m ∈ b.condition.mentions ∨ m ∈ b.result.mentions := by
  induction branches with
  | nil => simp [mentionsAll]
  | cons b branches ih =>
    obtain ⟨condition, result⟩ := b
    simp [mentionsAll, ih, or_assoc]

namespace Piece

/-- The mentions in a piece. -/
def mentions : Piece → List Mention
  | .term t => t.mentions
  | .expr e => e.mentions
  | .call c => c.mentions
  | .window w => w.mentions
  | .condition c => c.mentions
  | .query q => q.mentions
  | .compound c => c.mentions

@[simp] theorem mentions_term (t : Term) : (term t).mentions = t.mentions := rfl

@[simp] theorem mentions_expr (e : Expr) : (expr e).mentions = e.mentions := rfl

@[simp] theorem mentions_call (c : Call) : (call c).mentions = c.mentions := rfl

@[simp] theorem mentions_window (w : Window) : (window w).mentions = w.mentions := rfl

@[simp] theorem mentions_condition (c : Condition) : (condition c).mentions = c.mentions := rfl

variable {p : Piece}

theorem column_mentions {e : Expr} {q : Option Qualifier} {tok : Token}
    (he : e.column? = q.map (·, tok)) (hm : m ∈ q.toList.flatMap (·.mentions)) :
    ∃ q, (Piece.expr e).RefersTo q ∧ m ∈ q.mentions := by
  obtain ⟨q', hq, hmem⟩ := List.mem_flatMap.mp hm
  rw [Option.mem_toList.mp hq] at he
  exact ⟨q', .of_column he, hmem⟩

/-- What a piece mentions, the qualifier of a column or an operand mentions. -/
theorem mem_mentions (hp : p.nests = false) (hm : m ∈ p.mentions) :
    (∃ q, p.RefersTo q ∧ m ∈ q.mentions) ∨ m ∈ p.operands.flatMap mentions := by
  cases p with
  | term t =>
    obtain ⟨expr, alias?⟩ := t
    right
    simpa [operands, Term.mentions] using hm
  | expr e =>
    cases e with
    | field q name =>
      left
      rw [mentions_expr, Expr.mentions] at hm
      exact column_mentions rfl hm
    | star q =>
      left
      rw [mentions_expr, Expr.mentions] at hm
      exact column_mentions rfl hm
    | subquery _ => cases hp
    | value _ | named _ _ | null | parameter _ | raw _ | interval _ =>
      simp [Expr.mentions] at hm
    | case branches otherwise =>
      right
      cases otherwise <;>
        simpa [operands, Expr.operands, Expr.mentions, Branch.mem_mentionsAll,
          List.flatMap_assoc] using hm
    | tuple _ | array _ | arithmetic _ _ _ | negative _ | call _ | condition _ =>
      right
      simpa [operands, Expr.operands, Expr.mentions, Term.mem_mentionsAll,
        List.flatMap_map] using hm
  | call c =>
    -- Arguments that the call leaves out are operands too, so all mentions are in operands.
    obtain ⟨name, form, aggregate, distinct, ignoreNulls, args, filter, window⟩ := c
    right
    cases filter <;> cases window <;>
      simpa [operands, Call.operands, Call.mentions, Term.mem_mentionsAll,
        List.flatMap_map] using hm
  | window w =>
    obtain ⟨partitionBy, orderBy, frame⟩ := w
    right
    simpa [operands, Window.operands, Window.mentions, Term.mem_mentionsAll,
      OrderItem.mem_mentionsAll, List.flatMap_map] using hm
  | condition c =>
    cases c with
    | isInRows _ _ _ | hasRows _ _ => cases hp
    | empty => simp [Condition.mentions] at hm
    | _ =>
      right
      simpa [operands, Condition.operands, Condition.mentions, Term.mem_mentionsAll,
        List.flatMap_map] using hm
  | query q => cases hp
  | compound c => cases hp

/-- Without queries, the mentions of a piece are those of its qualifiers. -/
theorem mentions_of_qualifiers (h : p.QueryFree) (hm : m ∈ p.mentions) :
    ∃ q ∈ p.qualifiers, m ∈ q.mentions := by
  -- The induction goes by what pieces refer to: the whole refers to all that an operand does.
  suffices hrefers : ∃ q, p.RefersTo q ∧ m ∈ q.mentions by
    obtain ⟨q, hq, hm⟩ := hrefers
    exact ⟨q, hq.mem_qualifiers, hm⟩
  induction p using Piece.induction with
  | h p ih =>
    obtain ⟨hnests, hoperands⟩ := queryFree_iff.mp h
    rcases mem_mentions hnests hm with hcolumn | hoperand
    · exact hcolumn
    · obtain ⟨x, hx, hm⟩ := List.mem_flatMap.mp hoperand
      obtain ⟨q, hq, hm⟩ := ih x hx (hoperands x hx) hm
      exact ⟨q, hq.of_operand hx, hm⟩

end Piece

end Mentions

/-- Two lists of names name all sources of some qualifiers alike. -/
def Qualifier.Agree (as bs : List (SourceId × String)) (qs : List Qualifier) : Prop :=
  ∀ q ∈ qs, ∀ id ∈ q.references, as.lookup id = bs.lookup id

instance (as bs : List (SourceId × String)) (qs : List Qualifier) :
    Decidable (Qualifier.Agree as bs qs) :=
  inferInstanceAs (Decidable (∀ q ∈ qs, ∀ id ∈ q.references, as.lookup id = bs.lookup id))

theorem Qualifier.mem_references {q : Qualifier} {id : SourceId} (h : .lookup id ∈ q.mentions) :
    id ∈ q.references := by
  cases q with
  | table t =>
    rw [mentions, Mention.unnamed] at h
    split at h
    · cases h
    · cases List.mem_singleton.mp h
      exact List.mem_singleton_self _
  | subquery id alias? =>
    rw [mentions, Mention.unnamed] at h
    split at h
    · cases h
    · cases List.mem_singleton.mp h
      exact List.mem_singleton_self _
  | raw text => cases h

/-- Names that agree on the qualifiers of a piece agree on its mentions. -/
theorem Piece.agree_mentions {p : Piece} {as bs : List (SourceId × String)} (h : p.QueryFree)
    (hqs : Qualifier.Agree as bs p.qualifiers) : Mention.Agree as bs p.mentions := by
  intro id hid
  obtain ⟨q, hq, hm⟩ := mentions_of_qualifiers h hid
  exact hqs q hq id (Qualifier.mem_references hm)

/-! ## What is written -/

namespace Occurrence

theorem piece_mem_terms {s : Scope} {ts : List Term} {b : Occurrence}
    (h : b ∈ Term.occurrences s ts) : b.piece ∈ ts.map Piece.term := by
  obtain ⟨t, ht, rfl⟩ := List.mem_map.mp h
  exact List.mem_map_of_mem ht

variable {a b : Occurrence}

/-- What is written of a piece is inside of it, if it is no query. -/
theorem Part.inside (h : Part a b) (ha : a.piece.nests = false) : a.piece.Inside b.piece := by
  obtain ⟨s, piece⟩ := a
  cases piece with
  | term t =>
    cases h
    exact .single (List.mem_singleton_self _)
  | expr e =>
    refine .single ?_
    cases e with
    | subquery _ => cases ha
    | field _ _ | star _ | value _ | named _ _ | null | parameter _ | raw _ | interval _ => cases h
    | tuple _ | array _ | arithmetic _ _ _ | negative _ => exact piece_mem_terms h
    | call _ | condition _ =>
      cases List.mem_singleton.mp h
      exact List.mem_singleton_self _
    | case branches otherwise =>
      rcases List.mem_append.mp h with h | h
      · obtain ⟨branch, hbranch, hb⟩ := List.mem_flatMap.mp h
        refine List.mem_append_left _ (List.mem_flatMap.mpr ⟨branch, hbranch, ?_⟩)
        exact List.mem_map_of_mem (f := Occurrence.piece) hb
      · exact List.mem_append_right _ (piece_mem_terms h)
  | call c =>
    refine .single ?_
    rcases List.mem_append.mp h with h | h
    · rcases List.mem_append.mp h with h | h
      · obtain ⟨t, ht, rfl⟩ := List.mem_map.mp h
        exact List.mem_append_left _ (List.mem_append_left _
          (List.mem_map_of_mem (c.form.mem_of_mem_taken ht)))
      · obtain ⟨d, hd, rfl⟩ := List.mem_map.mp h
        exact List.mem_append_left _ (List.mem_append_right _ (List.mem_map_of_mem hd))
    · obtain ⟨w, hw, rfl⟩ := List.mem_map.mp h
      exact List.mem_append_right _ (List.mem_map_of_mem hw)
  | window w =>
    rcases List.mem_append.mp h with h | h
    · exact .single (List.mem_append_left _ (piece_mem_terms h))
    · -- Of an ordering term the expression is written by itself.
      obtain ⟨i, hi, rfl⟩ := List.mem_map.mp h
      have hterm : Piece.term i.term ∈ w.operands :=
        List.mem_append_right _ (List.mem_map.mpr ⟨i, (List.mem_filter.mp hi).1, rfl⟩)
      exact .tail (.single hterm) (List.mem_singleton_self _)
  | condition c =>
    refine .single ?_
    cases c with
    | isInRows _ _ _ | hasRows _ _ => cases ha
    | empty => cases h
    | isIn negated t items =>
      cases items with
      | nil => cases h
      | cons item items =>
        have hterms : b ∈ Term.occurrences s.quiet (t :: item :: items) := h
        exact piece_mem_terms hterms
    | combined _ _ _ => exact List.mem_map_of_mem (f := Occurrence.piece) h
    | not _ | term _ =>
      cases List.mem_singleton.mp h
      exact List.mem_singleton_self _
    | _ => exact piece_mem_terms h
  | query q => cases ha
  | compound c => cases ha

/-- Without queries, all that is written of a piece is inside of it, and no query of its own. -/
theorem Within.inside (h : Within a b) (ha : a.piece.QueryFree) :
    a.piece.Inside b.piece ∧ Own a b := by
  induction h with
  | refl => exact ⟨.refl, .refl⟩
  | tail _ hpart ih =>
    -- A query could only stand in something that nests one.
    obtain ⟨hinside, hown⟩ := ih
    have hb := hinside.trans (hpart.inside (ha _ hinside))
    exact ⟨hb, hown.tail ⟨hpart, (ha.inside hb).isQuery⟩⟩

end Occurrence

/-! ## Dots -/

/-- In front of each dot in the tokens stands what is written for one of some qualifiers, and behind
it the name of a field or a star. -/
def Tokens.Qualified (s : Scope) (qs : List Qualifier) (ts : Tokens) : Prop :=
  ∀ front back, ts = front ++ .mark .dot :: back →
    ∃ q ∈ qs, ∃ t tok, s.qualifier? q = some t ∧ [t] <:+ front ∧ [tok] <+: back ∧
      (tok = .mark .star ∨ ∃ name, tok = .ident name)

namespace Tokens.Qualified

variable {s s' : Scope} {qs qs' : List Qualifier} {ts us : Tokens}

theorem of_not_mem (h : .mark .dot ∉ ts) : Qualified s qs ts := by
  rintro front back rfl
  exact absurd (List.mem_append_right _ List.mem_cons_self) h

theorem append (h : Qualified s qs ts) (h' : Qualified s qs us) : Qualified s qs (ts ++ us) := by
  intro front back heq
  rcases List.append_eq_append_iff.mp heq with ⟨m, rfl, hus⟩ | ⟨m, hts, hback⟩
  · obtain ⟨q, hq, t, tok, ht, hfront, hrest⟩ := h' m back hus
    exact ⟨q, hq, t, tok, ht, hfront.trans (List.suffix_append _ _), hrest⟩
  · cases m with
    | nil =>
      -- A dot at the start of the second list would have nothing in front of it.
      obtain ⟨q, hq, t, tok, ht, hfront, hrest⟩ := h' [] back hback.symm
      exact ⟨q, hq, t, tok, ht, hfront.trans (List.nil_suffix), hrest⟩
    | cons x m =>
      obtain ⟨rfl, rfl⟩ := List.cons.inj hback
      obtain ⟨q, hq, t, tok, ht, hfront, hrest, hname⟩ := h front m hts
      exact ⟨q, hq, t, tok, ht, hfront, hrest.trans (List.prefix_append _ _), hname⟩

theorem column {q : Qualifier} {t tok : Token} (hq : q ∈ qs) (ht : s.qualifier? q = some t)
    (hplain : t.standsAlone = true) (htok : tok = .mark .star ∨ ∃ name, tok = .ident name) :
    Qualified s qs [t, .mark .dot, tok] := by
  have hdot : Token.mark .dot ∉ [tok] := by
    rcases htok with rfl | ⟨name, rfl⟩ <;> simp
  intro front back heq
  match front with
  | [] =>
    obtain ⟨rfl, -⟩ := List.cons.inj heq
    cases hplain
  | [x] =>
    obtain ⟨rfl, hrest⟩ := List.cons.inj heq
    obtain ⟨-, rfl⟩ := List.cons.inj hrest
    exact ⟨q, hq, t, tok, ht, List.suffix_rfl, List.prefix_rfl, htok⟩
  | x :: y :: front =>
    obtain ⟨-, hrest⟩ := List.cons.inj heq
    obtain ⟨-, hrest⟩ := List.cons.inj hrest
    exact absurd (hrest ▸ List.mem_append_right _ List.mem_cons_self) hdot

theorem mono (h : Qualified s qs ts) (hs : s.quiet = s'.quiet) (hqs : qs ⊆ qs') :
    Qualified s' qs' ts := by
  intro front back heq
  obtain ⟨q, hq, t, tok, ht, hrest⟩ := h front back heq
  have hsame : s.qualifier? q = s'.qualifier? q := by
    change s.quiet.qualifier? q = s'.quiet.qualifier? q
    rw [hs]
  exact ⟨q, hqs hq, t, tok, hsame ▸ ht, hrest⟩

end Tokens.Qualified

namespace Occurrence

/-- A fragment that a piece writes itself is qualified by its qualifiers, if it is no query. -/
theorem Adds.qualified {a : Occurrence} {ts : Tokens} (h : a.Adds ts)
    (ha : a.piece.isQuery = false) : ts.Qualified a.scope a.piece.qualifiers := by
  cases h with
  | @column s e q tok h =>
    have hname := Expr.name_column h
    rcases s.qualification_cases q with ⟨-, hnone⟩ | ⟨t, hq, ht, hsome⟩
    · rw [hnone]
      refine .of_not_mem ?_
      rcases hname with rfl | ⟨name, rfl⟩ <;> simp
    · rw [hsome]
      exact .column (Expr.mem_qualifiers_of_column h) hq ht hname
  | @bound _ _ _ b _ _ =>
    refine .of_not_mem ?_
    cases b <;> simp [Clause.frameBound]
  | schema _ | selected _ _ | top _ _ _ | changed _ _ _ | result => cases ha

/-- The tokens of a piece without queries are qualified by its qualifiers. -/
theorem lower_qualified {a : Occurrence} (ha : a.piece.QueryFree) :
    Yields (Tokens.Qualified a.scope a.piece.qualifiers) a.lower := by
  have hmade := a.lower_made (F := Tokens.Qualified a.scope a.piece.qualifiers)
    fun b hab ts hts => by
      obtain ⟨hinside, hown⟩ := hab.inside ha
      obtain ⟨hscope, hqualifiers⟩ := hown.keeps ha.isQuery
      exact (hts.qualified (ha.inside hinside).isQuery).mono hscope hqualifiers
  refine hmade.mono fun ts hts => hts.elim (.of_not_mem List.not_mem_nil) (fun t ht => ?_)
    (fun _ => id) fun _ _ => .append
  -- No plain token is a dot.
  refine .of_not_mem fun hdot => ?_
  rw [← List.mem_singleton.mp hdot] at ht
  cases ht

end Occurrence

/-- **The qualifiers of an expression are complete.** If no query stands in a term or a condition,
then names that the queries around have given to sources other than those of its qualifiers make no
difference: it is written by the same tokens, or fails with the same error. And in front of each dot
in its tokens stands what is written for one of its qualifiers, with the name of a field or a star
behind the dot. -/
theorem qualifiers_complete (s : Scope) :
    (∀ t : Term, (Piece.term t).QueryFree →
      (∀ as, Qualifier.Agree as s.aliases t.qualifiers → t.lower (s.under as) = t.lower s) ∧
        ∀ ts, t.lower s = .ok ts → ts.Qualified s t.qualifiers) ∧
    ∀ c : Condition, (Piece.condition c).QueryFree →
      (∀ as, Qualifier.Agree as s.aliases c.qualifiers → c.lower (s.under as) = c.lower s) ∧
        ∀ ts, c.lower s = .ok ts → ts.Qualified s c.qualifiers :=
  ⟨fun t ht => ⟨fun _ has => Term.lower_under s t (Piece.agree_mentions ht has),
      Occurrence.lower_qualified (a := ⟨s, .term t⟩) ht⟩,
    fun c hc => ⟨fun _ has => Condition.lower_under s c (Piece.agree_mentions hc has),
      Occurrence.lower_qualified (a := ⟨s, .condition c⟩) hc⟩⟩

/-- A sum with a condition and a window, of which one table has a name from around. -/
theorem qualifiers_complete_windowed :
    let abc : Table := { id := ⟨1⟩, name := "abc" }
    let efg : Table := { id := ⟨2⟩, name := "efg", alias? := some "e" }
    let w : Window :=
      { partitionBy := [efg.field "k"], orderBy := [⟨abc.field "id", some .desc⟩] }
    let c : Call :=
      { name := "SUM", aggregate := true, args := [abc.field "x"],
        filter := some ((efg.field "y").equals (Term.int 1)), window := some w }
    let t : Term := ⟨.call c, none⟩
    let s : Scope := { Scope.ofOptions .ansi {} with aliases := [(⟨1⟩, "abc2")] }
    let text := "SUM(\"abc2\".\"x\") FILTER(WHERE \"e\".\"y\"=1) " ++
      "OVER(PARTITION BY \"e\".\"k\" ORDER BY \"abc2\".\"id\" DESC)"
    (Piece.term t).QueryFree ∧
      ∃ ts, t.lower s = .ok ts ∧ t.lower (s.under [(⟨3⟩, "sq0"), (⟨1⟩, "abc2")]) = .ok ts ∧
        Tokens.text (({} : RenderOptions).spelling .ansi) ts = text ∧
        ts.Qualified s t.qualifiers := by
  intro abc efg w c t s text
  have hfree : (Piece.term t).QueryFree := .of_freeTo (n := 8) (by decide +kernel)
  obtain ⟨hsame, hqualified⟩ := (qualifiers_complete s).1 t hfree
  exact ⟨hfree, _, rfl, hsame _ (by decide +kernel), by decide +kernel, hqualified _ rfl⟩

end SqlScribe
