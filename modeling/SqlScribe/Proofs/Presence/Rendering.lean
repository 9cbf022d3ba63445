import SqlScribe.Proofs.Presence.Lowering
import SqlScribe.Proofs.Presence.Step
import SqlScribe.Query.Step
import SqlScribe.Render
/-! # Conditions in what is rendered

A query built by calls whose conditions are made of leaves is written with a condition behind every
`WHERE`, `HAVING`, `ON`, `WHEN`, `NOT`, `AND`, `OR` and `XOR` (`Query.conditions_behind_keywords`).
None at all is passed over by connectives, by clauses and by joins; it is not passed over where it
is negated, nor in a choice or a filter (`Query.conditions_missing`). -/

namespace SqlScribe

open Tokens

namespace Query

/-- **Every keyword is followed by its condition.** A complete query, such as one that was just
begun, is complete after any calls whose conditions are built from leaves and from none at all by
connectives, over lists and by negation of what is there; terms among the arguments may be filtered
aggregates and choices with such conditions, as long as they are there, and queries among them are
complete. However the query is written then, a condition, or what else belongs to the keyword,
stands behind each keyword that introduces one. -/
theorem conditions_behind_keywords {q q' : Query} {steps : List (SourceId × Step)}
    (hq : q.isComplete = true) (hsteps : ∀ s ∈ steps, s.2.Sound) (hrun : q.run steps = .ok q') :
    q'.isComplete = true ∧
      ∀ (o : RenderOptions) (ts : Tokens), renderTokens q' o = .ok ts → Backed ts := by
  have hq' : q'.isComplete = true :=
    q'.complete_iff.mpr (run_complete (q.complete_iff.mp hq) hsteps q' hrun)
  exact ⟨hq', fun o ts h => (q'.lower_presents _ hq' ts h).1⟩

/-- A choice and a filtered aggregate, selected where a condition holds, beside conditions of which
nothing is left. -/
theorem conditions_behind_keywords_selection :
    let abc : Table := { id := ⟨1⟩, name := "abc" }
    let holds : Condition := (Term.field "b").equals (Term.int 1)
    let choice : Term := Case.toTerm { branches := [⟨.not holds, Term.int 2⟩] }
    let count : Call := { name := "COUNT", args := [Term.star], aggregate := true }
    let filtered : Term := Term.ofCall { count with filter := some holds }
    let q : Query := { start ⟨5⟩ .ansi with
      sources := [.table abc], selects := [choice, filtered], filter := holds }
    let ts : Tokens := [.word .SELECT, .space, .word .CASE, .space, .word .WHEN, .space, .word .NOT,
      .space, .ident "b", .mark .eq, .literal (.int 1), .space, .word .THEN, .space,
      .literal (.int 2), .space, .word .END, .mark .comma, .functionName "COUNT",
      .mark .openParen, .mark .star, .mark .closeParen, .space, .word .FILTER, .mark .openParen,
      .word .WHERE, .space, .ident "b", .mark .eq, .literal (.int 1), .mark .closeParen, .space,
      .word .FROM, .space, .ident "abc", .space, .word .WHERE, .space, .ident "b", .mark .eq,
      .literal (.int 1)]
    (start ⟨0⟩ .ansi).run [(⟨2⟩, .source (.table abc)),
        (⟨3⟩, .select [.term choice, .term filtered]),
        (⟨4⟩, .filter (.any [.empty, .and .empty holds])), (⟨5⟩, .having (.all [.empty]))] =
          .ok q ∧
      renderTokens q {} = .ok ts ∧ Backed ts := by
  intro abc holds choice count filtered q ts
  have hleaf : holds.Composed := .leaf rfl ⟨rfl, rfl⟩
  have hchoice : choice.Composed := by
    refine .choice (fun b hb => ?_) (fun b hb => ?_) (fun b hb => ?_) fun t ht => by cases ht
    all_goals cases List.mem_singleton.mp hb
    · exact .not hleaf rfl
    · rfl
    · exact .complete rfl
  have hfiltered : filtered.Composed :=
    .filtered (.complete (t := Term.ofCall count) rfl) hleaf rfl rfl
  have hany : Condition.Composed (.any [.empty, .and .empty holds]) :=
    .any (List.forall_mem_cons.mpr
      ⟨.empty, List.forall_mem_singleton.mpr (.combine .and .empty hleaf)⟩)
  have hall : Condition.Composed (.all [.empty]) := .all (List.forall_mem_singleton.mpr .empty)
  have hrun : (start ⟨0⟩ .ansi).run [(⟨2⟩, .source (.table abc)),
      (⟨3⟩, .select [.term choice, .term filtered]),
      (⟨4⟩, .filter (.any [.empty, .and .empty holds])), (⟨5⟩, .having (.all [.empty]))] =
        .ok q := rfl
  have htokens : renderTokens q {} = .ok ts := rfl
  have hbacked := conditions_behind_keywords (start_isComplete ⟨0⟩ .ansi) (fun s hs => by
    simp only [List.mem_cons, List.not_mem_nil, or_false] at hs
    rcases hs with rfl | rfl | rfl | rfl
    · exact rfl
    · exact List.forall_mem_cons.mpr ⟨hchoice, List.forall_mem_singleton.mpr hfiltered⟩
    · exact hany
    · exact hall) hrun
  exact ⟨hrun, htokens, hbacked.2 {} ts htokens⟩

/-- Keywords without a condition: none at all is negated in a clause, taken up by a choice, and
taken up by a filter. -/
theorem conditions_missing :
    let abc : Table := { id := ⟨1⟩, name := "abc" }
    let count : Call := { name := "COUNT", args := [Term.star], aggregate := true }
    let filtered : Term := Term.ofCall { count with filter := some .empty }
    let choice : Term := (Case.branch {} .empty (Term.int 2)).toTerm
    let q : Query := { start ⟨3⟩ .ansi with sources := [.table abc], selects := [abc.field "x"] }
    let source : SourceId × Step := (⟨2⟩, .source (.table abc))
    let rows : Tokens := [.word .FROM, .space, .ident "abc"]
    let negation : Tokens := [.word .SELECT, .space, .ident "x", .space] ++ rows ++
      [.space, .word .WHERE, .space, .word .NOT, .space]
    let branch : Tokens := [.word .SELECT, .space, .word .CASE, .space, .word .WHEN, .space, .space,
      .word .THEN, .space, .literal (.int 2), .space, .word .END, .space] ++ rows
    let filter : Tokens := [.word .SELECT, .space, .functionName "COUNT", .mark .openParen,
      .mark .star, .mark .closeParen, .space, .word .FILTER, .mark .openParen, .word .WHERE, .space,
      .mark .closeParen, .space] ++ rows
    (Term.ofCall count).filtered .empty = .ok filtered ∧
    ((start ⟨0⟩ .ansi).run [source, (⟨3⟩, .filter (.not .empty)),
          (⟨3⟩, .select [.column "x"])] = .ok { q with filter := .not .empty } ∧
      renderTokens { q with filter := .not .empty } {} = .ok negation ∧ ¬Backed negation) ∧
    ((start ⟨0⟩ .ansi).run [source, (⟨3⟩, .select [.term choice])] =
        .ok { q with selects := [choice] } ∧
      renderTokens { q with selects := [choice] } {} = .ok branch ∧ ¬Backed branch) ∧
    (start ⟨0⟩ .ansi).run [source, (⟨3⟩, .select [.term filtered])] =
        .ok { q with selects := [filtered] } ∧
      renderTokens { q with selects := [filtered] } {} = .ok filter ∧ ¬Backed filter := by
  intro abc count filtered choice q source rows negation branch filter
  refine ⟨rfl, ⟨rfl, rfl, fun h => ?_⟩, ⟨rfl, rfl, fun h => ?_⟩, rfl, rfl, fun h => ?_⟩
  · have hfaces : Faces (Keyword.admits .NOT) [.space] :=
      h.faces_of_append ([.word .SELECT, .space, .ident "x", .space] ++ rows ++
        [.space, .word .WHERE, .space]) rfl
    exact hfaces
  · have hfaces : Faces (Keyword.admits .WHEN) ([.space, .space, .word .THEN, .space,
        .literal (.int 2), .space, .word .END, .space] ++ rows) :=
      h.faces_of_append [.word .SELECT, .space, .word .CASE, .space] rfl
    exact Bool.false_ne_true hfaces
  · have hfaces : Faces (Keyword.admits .WHERE) ([.space, .mark .closeParen, .space] ++ rows) :=
      h.faces_of_append [.word .SELECT, .space, .functionName "COUNT", .mark .openParen,
        .mark .star, .mark .closeParen, .space, .word .FILTER, .mark .openParen] rfl
    exact Bool.false_ne_true hfaces

end Query

end SqlScribe
