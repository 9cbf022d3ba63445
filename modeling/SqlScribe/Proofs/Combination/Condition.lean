import SqlScribe.Condition
import SqlScribe.Lowering
/-! # Conditions under one connective

How conditions under one connective are bracketed is not written: they are alike, though their trees
are not equal. The empty condition disappears. So conditions form a monoid under each connective.

* `Condition.Alike`: conditions that nothing that is written of them tells apart.
* `Condition.combine_assoc`: brackets under one connective may be moved.
* `Condition.foldl_combine`: conditions that are joined to another one by one are joined to it
  together.
* `Condition.Bracketing`: brackets around conditions, in any order and with empty conditions
  between them.
* `Condition.Bracketing.alike`: they are alike whatever the brackets are. -/

namespace SqlScribe

namespace Condition

/-- Conditions that are the same wherever they are written, and in whatever they are put: they have
the same tokens or the same error, are both empty or not, have the same connective, and mention the
same sources. -/
structure Alike (c d : Condition) : Prop where
  lower : ∀ s, c.lower s = d.lower s
  isEmpty : c.isEmpty = d.isEmpty
  connective : c.connective? = d.connective?
  qualifiers : c.qualifiers = d.qualifiers

namespace Alike

variable {a b c d : Condition}

theorem refl (c : Condition) : Alike c c := ⟨fun _ => rfl, rfl, rfl, rfl⟩

theorem symm (h : Alike c d) : Alike d c :=
  ⟨fun s => (h.lower s).symm, h.isEmpty.symm, h.connective.symm, h.qualifiers.symm⟩

theorem trans (h : Alike a b) (h' : Alike b c) : Alike a c :=
  ⟨fun s => (h.lower s).trans (h'.lower s), h.isEmpty.trans h'.isEmpty,
    h.connective.trans h'.connective, h.qualifiers.trans h'.qualifiers⟩

theorem eq_empty (h : Alike c .empty) : c = .empty := by
  cases c with
  | empty => rfl
  | _ => cases h.isEmpty

/-- Conditions that are alike may be put for each other under a connective. -/
theorem combined (op : Connective) (hleft : Alike a b) (hright : Alike c d) :
    Alike (.combined op a c) (.combined op b d) where
  lower s := by
    rw [Condition.lower, Condition.lower, hleft.connective, hright.connective, hleft.lower,
      hright.lower]
  isEmpty := rfl
  connective := rfl
  qualifiers := by rw [Condition.qualifiers, Condition.qualifiers, hleft.qualifiers,
    hright.qualifiers]

theorem combine (op : Connective) (hleft : Alike a b) (hright : Alike c d) :
    Alike (Condition.combine op a c) (Condition.combine op b d) := by
  by_cases ha : a = .empty
  · subst ha
    rwa [hleft.symm.eq_empty, combine_empty_left, combine_empty_left]
  · by_cases hc : c = .empty
    · subst hc
      rwa [hright.symm.eq_empty, combine_empty_right, combine_empty_right]
    · have hb : b ≠ .empty := fun hb => ha (hb ▸ hleft).eq_empty
      have hd : d ≠ .empty := fun hd => hc (hd ▸ hright).eq_empty
      rw [combine_of_ne_empty op ha hc, combine_of_ne_empty op hb hd]
      exact hleft.combined op hright

end Alike

/-! ## Brackets -/

/-- Three conditions under one connective are written in one way. -/
theorem combined_assoc (op : Connective) (a b c : Condition) :
    Alike (.combined op (.combined op a b) c) (.combined op a (.combined op b c)) where
  lower s := by
    -- What is under the connective already stands in no parentheses under it again.
    have hopen : ∀ ts, Tokens.parensIf ((some op).any (· != op)) ts = ts := fun ts => by
      rw [Option.any_some, bne_self_eq_false]
      rfl
    have hquiet : s.quiet.quiet = s.quiet := rfl
    rw [lower, lower, lower, lower, hquiet, connective?, connective?]
    simp only [Clause.combined, hopen]
    cases a.lower s.quiet with
    | error e => rfl
    | ok as =>
      cases b.lower s.quiet with
      | error e => rfl
      | ok bs =>
        cases c.lower s.quiet with
        | error e => rfl
        | ok cs => exact congrArg Except.ok (by simp only [List.append_assoc])
  isEmpty := rfl
  connective := rfl
  qualifiers := List.append_assoc _ _ _

/-- Brackets under one connective may be moved. -/
theorem combine_assoc (op : Connective) (a b c : Condition) :
    Alike (combine op (combine op a b) c) (combine op a (combine op b c)) := by
  by_cases ha : a = .empty
  · subst ha
    rw [combine_empty_left, combine_empty_left]
    exact .refl _
  · by_cases hb : b = .empty
    · subst hb
      rw [combine_empty_right, combine_empty_left]
      exact .refl _
    · by_cases hc : c = .empty
      · subst hc
        rw [combine_empty_right, combine_empty_right]
        exact .refl _
      · have hleft := combine_of_ne_empty op ha hb
        have hright := combine_of_ne_empty op hb hc
        rw [hleft, hright, combine_of_ne_empty op (fun h => by cases h) hc,
          combine_of_ne_empty op ha fun h => by cases h]
        exact combined_assoc op a b c

/-- Conditions that are joined to another one by one are joined to it together. -/
theorem foldl_combine (op : Connective) (a : Condition) (cs : List Condition) :
    Alike (cs.foldl (combine op) a) (combine op a (cs.foldl (combine op) .empty)) := by
  induction cs generalizing a with
  | nil =>
    rw [List.foldl_nil, List.foldl_nil, combine_empty_right]
    exact .refl a
  | cons c cs ih =>
    rw [List.foldl_cons, List.foldl_cons, combine_empty_left]
    exact (ih (combine op a c)).trans
      ((combine_assoc op a c _).trans (.combine op (.refl a) (ih c).symm))

/-- Brackets around some conditions, which are joined two and two. -/
inductive Bracketing where
  /-- No condition. -/
  | none
  /-- A condition by itself. -/
  | one (c : Condition)
  /-- Brackets around two parts. -/
  | pair (left right : Bracketing)

namespace Bracketing

/-- The conditions within the brackets, in their order. -/
def leaves : Bracketing → List Condition
  | .none => []
  | .one c => [c]
  | .pair left right => left.leaves ++ right.leaves

/-- The conditions under a connective as the brackets say. -/
def condition (op : Connective) : Bracketing → Condition
  | .none => .empty
  | .one c => c
  | .pair left right => combine op (left.condition op) (right.condition op)

/-- Conditions under a connective are alike whatever the brackets around them are. -/
theorem alike (op : Connective) (b : Bracketing) :
    Alike (b.condition op) (b.leaves.foldl (combine op) .empty) := by
  induction b with
  | none => exact .refl _
  | one c =>
    rw [leaves, List.foldl_cons, List.foldl_nil, combine_empty_left]
    exact .refl c
  | pair left right hleft hright =>
    rw [leaves, List.foldl_append]
    exact (hleft.combine op hright).trans (foldl_combine op _ _).symm

end Bracketing

end Condition

end SqlScribe
