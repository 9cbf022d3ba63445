import SqlScribe.Proofs.Masking.Rendering
import SqlScribe.Proofs.Parameter.Named
/-! # Bindings behind a failed rendering

Several statements can bind their values in one sink, one after the other, and some of them may
fail. A statement that cannot be lowered binds nothing; one with a name that stands for another
value already binds what its text has before that name. Nothing that was bound is lost, changed or
moved, and a later statement finds a sink like any other of that content.

* `Bindings.added`: what a run of calls adds, computed without binding anything.
* `Tokens.textBound_outcome`: tokens are written whole or up to a name that is refused, and what was
  written is bound.
* `Item.renderAll`: renderings of several items, one after the other.
* `Item.renderBound_recovers`: what a failed rendering leaves, and what later ones make of it. -/

namespace SqlScribe

namespace Bindings

/-- The bindings with more of them behind. -/
def extended (b : Bindings) (new : List (String × Value)) : Bindings :=
  { b with entries := b.entries ++ new }

/-- What a call adds unless it is refused: its value under its name, or nothing where names serve
again and this one is taken. -/
def addition (b : Bindings) (c : BindingCall) : List (String × Value) :=
  if b.style.isNamed && b.names.contains (b.key c) then [] else [(b.key c, c.value)]

/-- What a run of calls adds, if none of them is refused. -/
def added (b : Bindings) : List BindingCall → List (String × Value)
  | [] => []
  | c :: calls => b.addition c ++ (b.extended (b.addition c)).added calls

theorem extended_nil (b : Bindings) : b.extended [] = b := by
  rw [extended, List.append_nil]

theorem extended_append (b : Bindings) (new later : List (String × Value)) :
    b.extended (new ++ later) = (b.extended new).extended later := by
  rw [extended, extended, extended, List.append_assoc]

/-- A call adds what it should, or gives a name that stands for another value and is refused. -/
theorem bind_outcome (b : Bindings) (name : Option String) (v : Value) :
    (∃ text, b.bind name v = .ok (text, b.extended (b.addition ⟨name, v⟩))) ∨
      ∃ key bound, name = some key ∧ b.entries.lookup key = some bound ∧ (bound == v) = false ∧
        b.bind name v = .error (.configuration (.parameterTaken key)) := by
  cases hstyle : b.style.isNamed with
  | false => exact .inl ⟨b.placeholder ⟨name, v⟩, by
      simp [bind, addition, extended, hstyle, key, placeholder]⟩
  | true =>
    cases hlookup : b.entries.lookup (b.key ⟨name, v⟩) with
    | none =>
      have hnew := lookup_eq_none.mp hlookup
      rw [key] at hlookup hnew
      exact .inl ⟨b.placeholder ⟨name, v⟩, by
        simp [bind, addition, extended, hstyle, key, placeholder, hlookup, hnew]⟩
    | some bound =>
      -- A name that is made up is new, so the name was given.
      cases name with
      | none => simp [b.lookup_key_of_none (c := ⟨none, v⟩) rfl] at hlookup
      | some given =>
        have hlookup : b.entries.lookup given = some bound := hlookup
        have htaken : given ∈ b.names := List.mem_map_of_mem (mem_of_lookup hlookup)
        cases hsame : bound == v with
        | true =>
          exact .inl ⟨b.placeholder ⟨some given, v⟩, by
            simp [bind, addition, extended_nil, hstyle, key, placeholder, hlookup, htaken, hsame]⟩
        | false =>
          exact .inr ⟨given, bound, rfl, hlookup, hsame, by simp [bind, hstyle, hlookup, hsame]⟩

end Bindings

namespace Tokens

/-- The calls by which the values of tokens are bound, in the order of the text. -/
def calls (ts : Tokens) : List BindingCall :=
  ts.filterMap fun t => t.value?.map fun bound => ⟨bound.1, bound.2⟩

theorem calls_cons_of_none {t : Token} (h : t.value? = none) (ts : Tokens) :
    calls (t :: ts) = calls ts := by
  simp [calls, h]

theorem calls_cons_of_some {t : Token} {name : Option String} {v : Value}
    (h : t.value? = some (name, v)) (ts : Tokens) : calls (t :: ts) = ⟨name, v⟩ :: calls ts := by
  simp [calls, h]

/-- Tokens are written as a whole and all their values are bound, or they are written up to a name
that stands for another value, and the values before it are bound. -/
theorem textBound_outcome (s : Spelling) (ts : Tokens) (b : Bindings) :
    (∃ text, textBound s ts b = (.ok text, b.extended (b.added ts.calls))) ∨
      ∃ (before : Tokens) (key : String) (v : Value) (behind : Tokens) (bound : Value),
        ts = before ++ .named key v :: behind ∧
        (∃ text, textBound s before b = (.ok text, b.extended (b.added before.calls))) ∧
        (b.extended (b.added before.calls)).entries.lookup key = some bound ∧
        (bound == v) = false ∧
        textBound s ts b =
          (.error (.configuration (.parameterTaken key)), b.extended (b.added before.calls)) := by
  induction ts generalizing b with
  | nil => exact .inl ⟨"", by rw [textBound, calls, List.filterMap_nil, Bindings.added,
      Bindings.extended_nil]⟩
  | cons t ts ih =>
    cases ht : t.value? with
    | none =>
      rcases ih b with
        ⟨text, htext⟩ | ⟨before, key, v, behind, bound, rfl, ⟨text, hbefore⟩, hlookup, hv, htext⟩
      · refine .inl ⟨t.text s ++ text, ?_⟩
        simp only [textBound, Token.textBound, ht, htext, calls_cons_of_none ht]
      · refine .inr ⟨t :: before, key, v, behind, bound, rfl, ⟨t.text s ++ text, ?_⟩, ?_, hv, ?_⟩
        · simp only [textBound, Token.textBound, ht, hbefore, calls_cons_of_none ht]
        · rwa [calls_cons_of_none ht]
        · simp only [textBound, Token.textBound, ht, htext, calls_cons_of_none ht]
    | some call =>
      obtain ⟨name, v⟩ := call
      rcases b.bind_outcome name v with ⟨piece, hbind⟩ | ⟨key, bound, rfl, hlookup, hv, hbind⟩
      · rcases ih (b.extended (b.addition ⟨name, v⟩)) with
          ⟨text, htext⟩ | ⟨before, key, w, behind, bound, rfl, ⟨text, hbefore⟩, hlookup, hw, htext⟩
        · refine .inl ⟨piece ++ text, ?_⟩
          simp only [textBound, Token.textBound, ht, hbind, htext, calls_cons_of_some ht,
            Bindings.added, Bindings.extended_append]
        · refine .inr ⟨t :: before, key, w, behind, bound, rfl, ⟨piece ++ text, ?_⟩, ?_, hw, ?_⟩
          · simp only [textBound, Token.textBound, ht, hbind, hbefore, calls_cons_of_some ht,
              Bindings.added, Bindings.extended_append]
          · rwa [calls_cons_of_some ht, Bindings.added, Bindings.extended_append]
          · simp only [textBound, Token.textBound, ht, hbind, htext, calls_cons_of_some ht,
              Bindings.added, Bindings.extended_append]
      · -- The first token is the one that is refused.
        have hnamed : t = .named key v := by
          cases t <;> simp_all [Token.value?]
        refine .inr ⟨[], key, v, ts, bound, by rw [hnamed, List.nil_append], ⟨"", ?_⟩, ?_, hv, ?_⟩
        · simp only [textBound, calls, List.filterMap_nil, Bindings.added, Bindings.extended_nil]
        · rwa [calls, List.filterMap_nil, Bindings.added, Bindings.extended_nil]
        · simp only [textBound, Token.textBound, ht, hbind, calls, List.filterMap_nil,
            Bindings.added, Bindings.extended_nil]

end Tokens

namespace Item

/-- The texts of some items under their options, one after the other, and the bindings behind them.
An item that fails does not keep the others from being written. -/
def renderAll (b : Bindings) : List (Item × RenderOptions) →
    List (Except QueryError String) × Bindings
  | [] => ([], b)
  | (x, o) :: items =>
    let first := renderBound x o b
    let rest := renderAll first.2 items
    (first.1 :: rest.1, rest.2)

/-- A rendering only adds bindings, whether it fails or not. -/
theorem renderBound_extends (x : Item) (o : RenderOptions) (b : Bindings) :
    ∃ new, (renderBound x o b).2 = b.extended new := by
  rw [renderBound]
  cases renderTokens x o with
  | error e => exact ⟨[], b.extended_nil.symm⟩
  | ok ts =>
    rcases ts.textBound_outcome (o.spelling (renderDialect x o)) b with
      ⟨text, htext⟩ | ⟨before, key, v, behind, bound, -, -, -, -, htext⟩
    · exact ⟨_, congrArg Prod.snd htext⟩
    · exact ⟨_, congrArg Prod.snd htext⟩

/-- So does a run of renderings. -/
theorem renderAll_extends (b : Bindings) (items : List (Item × RenderOptions)) :
    ∃ new, (renderAll b items).2 = b.extended new := by
  induction items generalizing b with
  | nil => exact ⟨[], b.extended_nil.symm⟩
  | cons item items ih =>
    obtain ⟨x, o⟩ := item
    obtain ⟨new, hnew⟩ := renderBound_extends x o b
    obtain ⟨later, hlater⟩ := ih (renderBound x o b).2
    refine ⟨new ++ later, ?_⟩
    rw [renderAll, hlater, hnew, Bindings.extended_append]

theorem renderAll_append (b : Bindings) (items later : List (Item × RenderOptions)) :
    renderAll b (items ++ later) =
      ((renderAll b items).1 ++ (renderAll (renderAll b items).2 later).1,
        (renderAll (renderAll b items).2 later).2) := by
  induction items generalizing b with
  | nil => rfl
  | cons item items ih =>
    obtain ⟨x, o⟩ := item
    rw [List.cons_append, renderAll, ih]
    rfl

/-- **A failed rendering leaves the sink consistent.** An item that cannot be lowered leaves the
bindings as they are. One that gives a name another value leaves behind them what the tokens before
that name add, as if these were all, and nothing else. Whatever has been rendered before and failed
or not, the bindings have only grown, and later items are written and bound as they are into any
other bindings of the same style and content. -/
theorem renderBound_recovers (x : Item) (o : RenderOptions) (b : Bindings) :
    (∀ e, renderTokens x o = .error e → renderBound x o b = (.error e, b)) ∧
    (∀ ts e, renderTokens x o = .ok ts → (renderBound x o b).1 = .error e →
      ∃ (before : Tokens) (key : String) (v : Value) (behind : Tokens) (bound : Value),
        ts = before ++ .named key v :: behind ∧
        (∃ text, Tokens.textBound (o.spelling (renderDialect x o)) before b =
          (.ok text, b.extended (b.added before.calls))) ∧
        renderBound x o b =
          (.error (.configuration (.parameterTaken key)), b.extended (b.added before.calls)) ∧
        (b.extended (b.added before.calls)).entries.lookup key = some bound ∧
        (bound == v) = false) ∧
    ∀ items : List (Item × RenderOptions),
      (∃ new, (renderAll b items).2 = ⟨b.style, b.entries ++ new⟩) ∧
      ∀ other : Bindings, other.style = b.style → other.entries = (renderAll b items).2.entries →
        ∀ later, renderAll b (items ++ later) =
          ((renderAll b items).1 ++ (renderAll other later).1, (renderAll other later).2) := by
  refine ⟨fun e he => ?_, fun ts e hts he => ?_, fun items => ?_⟩
  · rw [renderBound, he]
  · rw [renderBound, hts] at he ⊢
    rcases ts.textBound_outcome (o.spelling (renderDialect x o)) b with
      ⟨text, htext⟩ | ⟨before, key, v, behind, bound, hsplit, hbefore, hlookup, hv, htext⟩
    · simp only [htext] at he
      cases he
    · exact ⟨before, key, v, behind, bound, hsplit, hbefore, htext, hlookup, hv⟩
  · obtain ⟨new, hnew⟩ := renderAll_extends b items
    refine ⟨⟨new, hnew⟩, fun other hstyle hentries later => ?_⟩
    -- The style and the entries are all there is to a sink.
    have hother : other = (renderAll b items).2 := by
      obtain ⟨style, entries⟩ := other
      rw [hnew] at hentries ⊢
      cases hstyle
      cases hentries
      rfl
    rw [hother, renderAll_append]

/-- An item that names the value 2 `id`. -/
def idTwo : Item :=
  .condition
    (((Term.field "a").equals (Term.int 5)).and ((Term.field "b").equals (.bound "id" (.int 2))))

/-- An item with one value under no name of its own. -/
def unnamedSeven : Item :=
  .condition ((Term.field "c").equals (Term.int 7))

/-- The sink knows `id` as 1: the item that says 2 fails behind the value it has bound before, and
the next statement goes on from there. -/
theorem renderBound_recovers_taken :
    (∃ (before : Tokens) (key : String) (v : Value) (behind : Tokens) (bound : Value),
      renderTokens idTwo {} = .ok (before ++ .named key v :: behind) ∧
      renderBound idTwo {} ⟨.named, [("id", .int 1)]⟩ =
        (.error (.configuration (.parameterTaken key)),
          (Bindings.mk .named [("id", .int 1)]).extended
            ((Bindings.mk .named [("id", .int 1)]).added before.calls)) ∧
      (bound == v) = false) ∧
    renderAll ⟨.named, [("id", .int 1)]⟩
        ([(idTwo, ({} : RenderOptions))] ++ [(unnamedSeven, ({} : RenderOptions))]) =
      ([.error (.configuration (.parameterTaken "id")), .ok "\"c\"=:param3"],
        ⟨.named, [("id", .int 1), ("param2", .int 5), ("param3", .int 7)]⟩) := by
  have hleft : renderBound idTwo {} ⟨.named, [("id", .int 1)]⟩ =
      (.error (.configuration (.parameterTaken "id")),
        ⟨.named, [("id", .int 1), ("param2", .int 5)]⟩) := by rfl
  have hnext : renderBound unnamedSeven {} ⟨.named, [("id", .int 1), ("param2", .int 5)]⟩ =
      (.ok "\"c\"=:param3",
        ⟨.named, [("id", .int 1), ("param2", .int 5), ("param3", .int 7)]⟩) := by rfl
  have h := renderBound_recovers idTwo {} ⟨.named, [("id", .int 1)]⟩
  constructor
  · obtain ⟨before, key, v, behind, bound, hsplit, -, hbound, -, hv⟩ :=
      h.2.1 _ _ rfl (congrArg Prod.fst hleft)
    exact ⟨before, key, v, behind, bound, congrArg Except.ok hsplit, hbound, hv⟩
  · refine ((h.2.2 [(idTwo, {})]).2 ⟨.named, [("id", .int 1), ("param2", .int 5)]⟩ rfl
      (by simp only [renderAll, hleft]) [(unnamedSeven, {})]).trans ?_
    simp only [renderAll, hleft, hnext, List.singleton_append]

end Item

end SqlScribe
