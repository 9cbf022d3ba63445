import SqlScribe.Proofs.Parameter.FreshName
/-! # Named placeholders

In the styles whose placeholders carry names a name is bound once, for all its placeholders. A run
of calls on one sink keeps the names apart (`Bindings.names_nodup_after`) and never changes what a
name stands for (`Bindings.lookup_after`), so that behind the whole run every placeholder stands
for a value equal to the one that its call was given (`Bindings.after_sound`). -/

namespace SqlScribe

/-! ## Values that are equal to themselves -/

mutual

/-- A number of the document is not-a-number. No JSON text has such a number. -/
def Json.hasNaN : Json → Bool
  | .null => false
  | .bool _ => false
  | .int _ => false
  | .float x => x.isNaN
  | .text _ => false
  | .array items => itemsHaveNaN items
  | .object members => membersHaveNaN members

/-- A number of the items is not-a-number. -/
def Json.itemsHaveNaN : List Json → Bool
  | [] => false
  | item :: items => item.hasNaN || itemsHaveNaN items

/-- A number of the members is not-a-number. -/
def Json.membersHaveNaN : List (String × Json) → Bool
  | [] => false
  | (_, value) :: members => value.hasNaN || membersHaveNaN members

end

/-- The value is not-a-number, or a document with one in it. -/
def Value.hasNaN : Value → Bool
  | .float x => x.isNaN
  | .json j => j.hasNaN
  | .int _ => false
  | .text _ => false
  | .bool _ => false
  | .date _ => false
  | .time _ => false
  | .dateTime _ => false
  | .timestamp _ => false
  | .uuid _ => false

theorem Binary64.beq_self {x : Binary64} (h : x.isNaN = false) : (x == x) = true := by
  show x.sameNumber x = true
  simp [sameNumber, h]

mutual

/-- A document without a not-a-number is equal to itself. -/
theorem Json.same_self : ∀ {j : Json}, j.hasNaN = false → j.same j = true
  | .null, _ => by rw [same]
  | .bool _, _ => by rw [same, beq_self_eq_true]
  | .int _, _ => by rw [same, beq_self_eq_true]
  | .float _, h => by
    rw [hasNaN] at h
    rw [same, Binary64.beq_self h]
  | .text _, _ => by rw [same, beq_self_eq_true]
  | .array items, h => by
    rw [hasNaN] at h
    rw [same, sameItems_self h]
  | .object members, h => by
    rw [hasNaN] at h
    rw [same, sameMembers_self h]

theorem Json.sameItems_self : ∀ {items : List Json}, itemsHaveNaN items = false →
    sameItems items items = true
  | [], _ => by rw [sameItems]
  | item :: items, h => by
    rw [itemsHaveNaN, Bool.or_eq_false_iff] at h
    rw [sameItems, same_self h.1, sameItems_self h.2, Bool.and_self]

theorem Json.sameMembers_self : ∀ {members : List (String × Json)},
    membersHaveNaN members = false → sameMembers members members = true
  | [], _ => by rw [sameMembers]
  | (key, value) :: members, h => by
    rw [membersHaveNaN, Bool.or_eq_false_iff] at h
    rw [sameMembers, same_self h.1, sameMembers_self h.2, beq_self_eq_true, Bool.and_self,
      Bool.and_self]

end

/-- A value without a not-a-number is equal to itself. -/
theorem Value.beq_self {v : Value} (h : v.hasNaN = false) : (v == v) = true := by
  show v.same v = true
  cases v with
  | float x => exact Binary64.beq_self h
  | json j => exact Json.same_self h
  | timestamp t => exact (Timestamp.beq_iff t t).mpr rfl
  | int | text | bool | date | time | dateTime | uuid => exact beq_self_eq_true _

/-! ## Names inside placeholders -/

/-- The name inside a placeholder of a style whose placeholders carry names. -/
def ParameterStyle.nameIn? (style : ParameterStyle) (text : String) : Option String :=
  match style, text.toList with
  | .named, ':' :: name => some (String.ofList name)
  | .pyformat, '%' :: '(' :: rest =>
    match rest.reverse with
    | 's' :: ')' :: name => some (String.ofList name.reverse)
    | _ => none
  | _, _ => none

/-- The name that a placeholder was made with is the name inside it. -/
theorem ParameterStyle.nameIn?_placeholder {style : ParameterStyle} (h : style.isNamed = true)
    (n : Nat) (name : String) : style.nameIn? (style.placeholder n name) = some name := by
  cases style with
  | named => simp [nameIn?, placeholder, String.toList_append]
  | pyformat => simp [nameIn?, placeholder, String.toList_append]
  | qmark | numeric | dollar | format => simp [isNamed] at h

/-! ## One call -/

/-- A call that binds a value, under a given name or one that is made up. -/
structure BindingCall where
  /-- The given name. -/
  name : Option String
  /-- The value. -/
  value : Value

namespace Bindings

/-- The answer to a call, and the bindings after it: a call that is refused leaves them. -/
def answer (b : Bindings) (c : BindingCall) : Except QueryError String × Bindings :=
  match b.bind c.name c.value with
  | .ok (text, b') => (.ok text, b')
  | .error e => (.error e, b)

/-- The name that a call binds its value under. -/
def key (b : Bindings) (c : BindingCall) : String := c.name.getD b.freshName

/-- The placeholder of a call that is not refused. -/
def placeholder (b : Bindings) (c : BindingCall) : String :=
  b.style.placeholder (b.size + 1) (b.key c)

/-- What a call can do in a style with names. -/
inductive Outcome (b : Bindings) (c : BindingCall) : Prop where
  /-- The name stands for an equal value already, and serves again. -/
  | reused (bound : Value) (hlookup : b.entries.lookup (b.key c) = some bound)
      (hsame : (bound == c.value) = true) (hanswer : b.answer c = (.ok (b.placeholder c), b))
  /-- The name stands for another value, and the call is refused. -/
  | refused (bound : Value) (hlookup : b.entries.lookup (b.key c) = some bound)
      (hsame : (bound == c.value) = false)
      (hanswer : b.answer c = (.error (.configuration (.parameterTaken (b.key c))), b))
  /-- The name is new, and is bound to the value. -/
  | added (hnew : b.entries.lookup (b.key c) = none)
      (hanswer : b.answer c =
        (.ok (b.placeholder c), { b with entries := b.entries ++ [(b.key c, c.value)] }))

/-- Every call in a style with names has one of the three outcomes. -/
theorem outcome {b : Bindings} (hb : b.style.isNamed = true) (c : BindingCall) : b.Outcome c := by
  cases hlookup : b.entries.lookup (b.key c) with
  | none =>
    refine .added hlookup ?_
    rw [key] at hlookup
    simp [answer, bind, hb, hlookup, placeholder, key]
  | some bound =>
    cases hsame : bound == c.value with
    | true =>
      refine .reused bound hlookup hsame ?_
      rw [key] at hlookup
      simp [answer, bind, hb, hlookup, hsame, placeholder, key]
    | false =>
      refine .refused bound hlookup hsame ?_
      rw [key] at hlookup
      simp [answer, bind, hb, hlookup, hsame, key]

/-- A name is not taken if and only if it is not found. -/
theorem lookup_eq_none {b : Bindings} {name : String} :
    b.entries.lookup name = none ↔ name ∉ b.names := by
  simp only [List.lookup_eq_none_iff, names, List.mem_map, not_exists, not_and]
  constructor
  · intro h e he hname
    simpa [hname] using h e he
  · intro h e he
    simpa using fun hname => h e he hname.symm

/-- A value that is found under a name is an entry of the name. -/
theorem mem_of_lookup {b : Bindings} {name : String} {v : Value}
    (h : b.entries.lookup name = some v) : (name, v) ∈ b.entries := by
  obtain ⟨before, later, heq, -⟩ := List.lookup_eq_some_iff.mp h
  rw [heq]
  exact List.mem_append_right before List.mem_cons_self

/-- Where names are apart an entry of a name is what is found under it. -/
theorem lookup_of_mem {b : Bindings} (hb : b.names.Nodup) {name : String} {v : Value}
    (h : (name, v) ∈ b.entries) : b.entries.lookup name = some v := by
  obtain ⟨before, later, heq⟩ := List.append_of_mem h
  refine List.lookup_eq_some_iff.mpr ⟨before, later, heq, fun e he => ?_⟩
  rw [names, heq, List.map_append, List.map_cons] at hb
  have hapart := (List.nodup_append.mp hb).2.2 e.1 (List.mem_map_of_mem he) name List.mem_cons_self
  simpa using Ne.symm hapart

/-- A call with a made-up name is never refused and never uses a name again: the name is new. -/
theorem lookup_key_of_none (b : Bindings) {c : BindingCall} (hc : c.name = none) :
    b.entries.lookup (b.key c) = none := by
  rw [lookup_eq_none, key, hc]
  exact b.freshName_not_mem

/-- A call keeps the style. -/
theorem answer_style {b : Bindings} (hb : b.style.isNamed = true) (c : BindingCall) :
    (b.answer c).2.style = b.style := by
  cases b.outcome hb c with
  | reused _ _ _ hanswer | refused _ _ _ hanswer | added _ hanswer => rw [hanswer]

/-- A call keeps names apart. -/
theorem names_nodup_answer {b : Bindings} (hb : b.style.isNamed = true) (hnodup : b.names.Nodup)
    (c : BindingCall) : (b.answer c).2.names.Nodup := by
  cases b.outcome hb c with
  -- Only a new name is added to the names.
  | reused _ _ _ hanswer | refused _ _ _ hanswer =>
    rw [hanswer]
    exact hnodup
  | added hnew hanswer =>
    rw [hanswer]
    rw [lookup_eq_none] at hnew
    simp only [names, List.map_append, List.map_cons, List.map_nil]
    refine List.nodup_append.mpr ⟨hnodup, List.pairwise_singleton _ _, fun name hname last hlast => ?_⟩
    rw [List.mem_singleton] at hlast
    rintro rfl
    rw [← hlast] at hnew
    exact hnew hname

/-- A call does not change what a name stands for. -/
theorem lookup_answer {b : Bindings} (hb : b.style.isNamed = true) (c : BindingCall) {name : String}
    {v : Value} (h : b.entries.lookup name = some v) :
    (b.answer c).2.entries.lookup name = some v := by
  cases b.outcome hb c with
  | reused _ _ _ hanswer | refused _ _ _ hanswer => rw [hanswer, h]
  | added _ hanswer =>
    rw [hanswer]
    simp only
    rw [List.lookup_append, h, Option.some_or]

/-- A call is refused if and only if it gives a name that stands for another value. -/
theorem answer_refused_iff {b : Bindings} (hb : b.style.isNamed = true) (hnodup : b.names.Nodup)
    (c : BindingCall) :
    (∃ e, (b.answer c).1 = .error e) ↔
      ∃ name bound, c.name = some name ∧ (name, bound) ∈ b.entries ∧ (bound == c.value) = false := by
  constructor
  · rintro ⟨e, he⟩
    cases b.outcome hb c with
    | reused _ _ _ hanswer | added _ hanswer =>
      rw [hanswer] at he
      cases he
    | refused bound hlookup hsame _ =>
      cases hname : c.name with
      | none =>
        rw [b.lookup_key_of_none hname] at hlookup
        cases hlookup
      | some name =>
        rw [key, hname, Option.getD_some] at hlookup
        exact ⟨name, bound, rfl, mem_of_lookup hlookup, hsame⟩
  · rintro ⟨name, bound, hname, hmem, hdiffers⟩
    have hfound : b.entries.lookup (b.key c) = some bound := by
      rw [key, hname, Option.getD_some]
      exact lookup_of_mem hnodup hmem
    cases b.outcome hb c with
    | reused other hlookup hsame _ =>
      rw [hfound, Option.some_inj] at hlookup
      rw [← hlookup, hdiffers] at hsame
      cases hsame
    | refused _ _ _ hanswer => exact ⟨_, congrArg Prod.fst hanswer⟩
    | added hnew _ =>
      rw [hfound] at hnew
      cases hnew

/-- Behind a call that is not refused its name stands for a value equal to the one it was given. -/
theorem answer_placeholder {b : Bindings} (hb : b.style.isNamed = true) {c : BindingCall}
    (hself : (c.value == c.value) = true) {text : String} (h : (b.answer c).1 = .ok text) :
    text = b.placeholder c ∧
      ∃ bound, (b.answer c).2.entries.lookup (b.key c) = some bound ∧ (bound == c.value) = true := by
  cases b.outcome hb c with
  | reused bound hlookup hsame hanswer =>
    rw [hanswer] at h ⊢
    cases h
    exact ⟨rfl, bound, hlookup, hsame⟩
  | refused _ _ _ hanswer =>
    rw [hanswer] at h
    cases h
  | added hnew hanswer =>
    rw [hanswer] at h ⊢
    cases h
    refine ⟨rfl, c.value, ?_, hself⟩
    simp only
    rw [List.lookup_append, hnew, Option.none_or, List.lookup_cons_self]

/-! ## A run of calls -/

/-- The bindings after a run of calls. -/
def after (b : Bindings) (calls : List BindingCall) : Bindings :=
  calls.foldl (fun b c => (b.answer c).2) b

theorem after_append (b : Bindings) (calls later : List BindingCall) :
    b.after (calls ++ later) = (b.after calls).after later := by
  simp only [after, List.foldl_append]

theorem after_style {b : Bindings} (hb : b.style.isNamed = true) (calls : List BindingCall) :
    (b.after calls).style = b.style := by
  induction calls generalizing b with
  | nil => rfl
  | cons c calls ih =>
    have hstyle := answer_style hb c
    have hafter := ih (b := (b.answer c).2) (hstyle ▸ hb)
    rw [← hstyle]
    exact hafter

/-- What the bound values of a style with names give for a name is what is found under it. -/
theorem get?_finish {b : Bindings} (hb : b.style.isNamed = true) (name : String) :
    b.finish.get? name = b.entries.lookup name := by
  rw [finish, if_pos hb, BoundValues.get?]

/-- A run keeps names apart. -/
theorem names_nodup_after {b : Bindings} (hb : b.style.isNamed = true) (hnodup : b.names.Nodup)
    (calls : List BindingCall) : (b.after calls).names.Nodup := by
  induction calls generalizing b with
  | nil => exact hnodup
  | cons c calls ih =>
    exact ih (answer_style hb c ▸ hb) (names_nodup_answer hb hnodup c)

/-- A run does not change what a name stands for. -/
theorem lookup_after {b : Bindings} (hb : b.style.isNamed = true) (calls : List BindingCall)
    {name : String} {v : Value} (h : b.entries.lookup name = some v) :
    (b.after calls).entries.lookup name = some v := by
  induction calls generalizing b with
  | nil => exact h
  | cons c calls ih => exact ih (answer_style hb c ▸ hb) (lookup_answer hb c h)

/-- **Binding by names is sound over whole runs.** In a style with names, after any run of calls
with values that are equal to themselves, on a sink that was empty, names are apart. Every call of
the run was refused if and only if it gave a name that stood for another value, and then left the
bindings as they were; and what is bound in the end under the name inside the placeholder of a call
that was not refused is equal to the value of the call. -/
theorem after_sound (style : ParameterStyle) (hstyle : style.isNamed = true)
    (calls : List BindingCall) (hvalues : ∀ c ∈ calls, c.value.hasNaN = false) :
    (after { style } calls).names.Nodup ∧
    ∀ before c later, calls = before ++ c :: later →
      ((∃ e, ((after { style } before).answer c).1 = .error e) ↔
        ∃ name bound, c.name = some name ∧ (name, bound) ∈ (after { style } before).entries ∧
          (bound == c.value) = false) ∧
      (∀ e, ((after { style } before).answer c).1 = .error e →
        ((after { style } before).answer c).2 = after { style } before) ∧
      ∀ text, ((after { style } before).answer c).1 = .ok text →
        ∃ name bound, style.nameIn? text = some name ∧
          (after { style } calls).finish.get? name = some bound ∧ (bound == c.value) = true := by
  -- The sink that a call finds is that of the calls before it, where all invariants hold.
  have hempty : ({ style } : Bindings).names.Nodup := List.nodup_nil
  refine ⟨names_nodup_after hstyle hempty calls, ?_⟩
  rintro before c later rfl
  have hsink : (after { style } before).style = style := after_style hstyle before
  have hnamed : (after { style } before).style.isNamed = true := by rw [hsink, hstyle]
  refine ⟨answer_refused_iff hnamed (names_nodup_after hstyle hempty before) c, fun e he => ?_,
    fun text htext => ?_⟩
  · cases outcome hnamed c with
    | reused _ _ _ hanswer | refused _ _ _ hanswer => rw [hanswer]
    | added _ hanswer =>
      rw [hanswer] at he
      cases he
  · have hself : (c.value == c.value) = true := Value.beq_self (hvalues c (by simp))
    obtain ⟨rfl, bound, hlookup, hsame⟩ := answer_placeholder hnamed hself htext
    refine ⟨(after { style } before).key c, bound, ?_, ?_, hsame⟩
    · rw [placeholder, hsink]
      exact ParameterStyle.nameIn?_placeholder hstyle _ _
    · -- What the call found or bound is still there after the later calls.
      have hafter : (((after { style } before).answer c).2.after later).entries.lookup
          ((after { style } before).key c) = some bound :=
        lookup_after ((answer_style hnamed c).symm ▸ hnamed) later hlookup
      have hfinal : (after { style } (before ++ c :: later)).style.isNamed = true := by
        rw [after_style hstyle, hstyle]
      rw [get?_finish hfinal, after_append]
      exact hafter

/-- A made-up name passes over one that was given, and a name given again for an equal value serves
again. -/
theorem after_sound_mixed :
    ∃ name bound, ParameterStyle.named.nameIn? ":param3" = some name ∧
      (after { style := .named } [⟨some "param2", .int 100⟩, ⟨none, .int 5⟩,
        ⟨some "param2", .int 100⟩]).finish.get? name = some bound ∧ (bound == .int 5) = true :=
  ((after_sound .named rfl [⟨some "param2", .int 100⟩, ⟨none, .int 5⟩, ⟨some "param2", .int 100⟩]
    (by decide)).2 [⟨some "param2", .int 100⟩] ⟨none, .int 5⟩ [⟨some "param2", .int 100⟩] rfl).2.2
    ":param3" (by rfl)

end Bindings

end SqlScribe
