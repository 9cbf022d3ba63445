import SqlScribe.Proofs.RowCount.Rendering
import SqlScribe.Query.Step
/-! # Limits where rows are fetched

MSSQL and Oracle fetch rows instead of limiting them: their row windows are written as `FETCH NEXT`
and `OFFSET … ROWS`, whatever they are the windows of. The limit of an update or a deletion is
written without a look at the dialect.

* `PaginationStyle.limit_not_mem_window`: no row window that fetches has the word `LIMIT`.
* `Occurrence.Adds.counts_of_limit`: a fragment with the word is the limit of a change.
* `Item.limit_iff_changes`: where rows are fetched, there is a `LIMIT` exactly if something that is
  changed has a limit.
* `Item.change_limited`: an update with a limit in MSSQL and a deletion with one in Oracle. -/

namespace SqlScribe

open Tokens PaginationStyle

/-! ## The word -/

/-- The token is the word that limits rows. -/
def Token.isLimit : Token → Bool
  | .word .LIMIT => true
  | _ => false

theorem Tokens.limit_mem_iff {ts : Tokens} : .word .LIMIT ∈ ts ↔ ts.any Token.isLimit = true := by
  refine ⟨fun h => List.any_eq_true.mpr ⟨_, h, rfl⟩, fun h => ?_⟩
  obtain ⟨t, ht, hlimit⟩ := List.any_eq_true.mp h
  unfold Token.isLimit at hlimit
  split at hlimit
  · exact ht
  · cases hlimit

instance (ts : Tokens) : Decidable (.word .LIMIT ∈ ts) := decidable_of_iff' _ limit_mem_iff

/-! ## Row windows -/

theorem PaginationStyle.limit_not_mem_window {style : PaginationStyle}
    (h : style.fetches = true) (limit offset : Option UInt64) :
    .word .LIMIT ∉ style.window limit offset := by
  have hrows (n : UInt64) : .word .LIMIT ∉ offsetRows (countToken n) := by
    simp [offsetRows, offsetClause, countToken]
  have hfetch (limit : Option UInt64) : .word .LIMIT ∉ clause fetchNext limit := by
    cases limit <;> simp [clause, fetchNext, countToken]
  have hoffset (offset : Option UInt64) : .word .LIMIT ∉ clause offsetRows offset := by
    cases offset with
    | none => exact List.not_mem_nil
    | some n => exact hrows n
  cases style with
  | limitOffset => cases h
  | limitRequired unbounded => cases h
  | offsetFetch =>
    cases limit <;> cases offset <;> simp [window, hrows, hfetch]
  | fetchOnly => simp [window, hoffset, hfetch]

theorem Dialect.fetches_of_mssql_or_oracle {d : Dialect} (h : d = .mssql ∨ d = .oracle) :
    d.profile.pagination.fetches = true := by
  rcases h with rfl | rfl <;> rfl

/-! ## Occurrences -/

/-- Where rows are fetched, a fragment with the word `LIMIT` is the limit of a change. -/
theorem Occurrence.Adds.counts_of_limit {a : Occurrence} {ts : Tokens} (h : a.Adds ts)
    (hfetches : a.scope.dialect.profile.pagination.fetches = true) (hlimit : .word .LIMIT ∈ ts) :
    ∃ n, a.Counts .changeLimit n := by
  cases h with
  | @column s e q tok h =>
    have hplain {t : Token} (ht : t.standsAlone = true) : .word .LIMIT ≠ t := by
      rintro rfl
      cases ht
    have htok := hplain (Expr.standsAlone_column h)
    rcases s.qualification_cases q with ⟨-, hnone⟩ | ⟨t, -, ht, hsome⟩
    · simp [hnone, htok] at hlimit
    · simp [hsome, htok, hplain ht] at hlimit
  | schema part => simp at hlimit
  | selected _ _ => exact absurd hlimit (limit_not_mem_window hfetches _ _)
  | top _ _ _ => simp [countToken] at hlimit
  | changed hblank hchange h => exact ⟨_, .changed hblank hchange h⟩
  | result => exact absurd hlimit (limit_not_mem_window hfetches _ _)
  | @bound _ _ _ b _ _ => cases b <;> simp [Clause.frameBound] at hlimit

namespace Item

/-- **Only changes are limited where rows are fetched.** However an item is written for MSSQL or
Oracle, the word `LIMIT` is among its tokens if and only if there is an update or a deletion with a
limit in it, at any depth. The limit of each stands in the tokens, whereas the limits and offsets of
selections and set operations are written as `FETCH NEXT` and `OFFSET … ROWS`. -/
theorem limit_iff_changes {x : Item} {o : RenderOptions} {ts : Tokens}
    (h : renderTokens x o = .ok ts)
    (hd : renderDialect x o = .mssql ∨ renderDialect x o = .oracle) :
    let s := Scope.ofOptions (renderDialect x o) o
    (.word .LIMIT ∈ ts ↔ ∃ n, x.Counts s .changeLimit n) ∧
    (∀ n, x.Counts s .changeLimit n → limitClause (countToken n) <:+: ts) ∧
    (∀ n, x.Counts s .limit n → fetchNext (countToken n) <:+: ts) ∧
    ∀ n, x.Counts s .offset n → offsetRows (countToken n) <:+: ts := by
  intro s
  have hfetches : s.dialect.profile.pagination.fetches = true :=
    Dialect.fetches_of_mssql_or_oracle hd
  have hchanged (n : UInt64) (hn : x.Counts s .changeLimit n) :
      limitClause (countToken n) <:+: ts := hn.writes ts h
  refine ⟨⟨fun hlimit => ?_, fun ⟨n, hn⟩ => ?_⟩, hchanged, fun n hn => ?_, fun n hn => ?_⟩
  · -- Each fragment is looked through for the word; no plain token is it.
    have hmade : Made (.word .LIMIT ∈ · → ∃ n, x.Counts s .changeLimit n) ts := by
      refine x.lower_made (fun part hpart => by simp at hpart)
        (fun a ha b hab us hus hmem => ?_) ts h
      have hdialect : b.scope.dialect = s.dialect := hab.dialect.trans (occurrences_dialect ha)
      obtain ⟨n, hn⟩ := hus.counts_of_limit (by rw [hdialect]; exact hfetches) hmem
      exact ⟨n, a, ha, b, hab, hn⟩
    refine hmade.elim (fun hmem => absurd hmem List.not_mem_nil) (fun t ht hmem => ?_)
      (fun _ => id) (fun us vs hus hvs hmem => (List.mem_append.mp hmem).elim hus hvs) hlimit
    rw [← List.mem_singleton.mp hmem] at ht
    cases ht
  · exact (hchanged n hn).subset (List.mem_cons_of_mem _ List.mem_cons_self)
  · have hclause := hn.writes ts h
    rwa [CountPlace.clause, if_pos hfetches] at hclause
  · have hclause := hn.writes ts h
    rwa [CountPlace.clause, if_pos hfetches] at hclause

/-- A set operation of Oracle, with a limit and an offset, of which one selection has a limit. -/
theorem limit_iff_changes_fetched :
    let abc : Table := { id := ⟨1⟩, name := "abc" }
    let q : Query :=
      { Query.start ⟨2⟩ .oracle with sources := [.table abc], selects := [Term.field "a"] }
    let r : Query := { q with info.id := ⟨3⟩ }
    let x : Item := .compound ⟨⟨4⟩, q.limit 3, [⟨.union, r⟩], [], some 5, some 2, none⟩
    (render x {}).toOption = some ("(SELECT a FROM abc FETCH NEXT 3 ROWS ONLY) UNION " ++
      "(SELECT a FROM abc) OFFSET 2 ROWS FETCH NEXT 5 ROWS ONLY") ∧
    ∃ ts, renderTokens x {} = .ok ts ∧ .word .LIMIT ∉ ts ∧
      (¬∃ n, x.Counts (Scope.ofOptions .oracle {}) .changeLimit n) ∧
      fetchNext (countToken 3) <:+: ts ∧ fetchNext (countToken 5) <:+: ts ∧
      offsetRows (countToken 2) <:+: ts := by
  intro abc q r x
  have htext : (render x {}).toOption = some ("(SELECT a FROM abc FETCH NEXT 3 ROWS ONLY) UNION " ++
      "(SELECT a FROM abc) OFFSET 2 ROWS FETCH NEXT 5 ROWS ONLY") := by decide +kernel +revert
  obtain ⟨ts, hts, hlimit⟩ : ∃ ts, renderTokens x {} = .ok ts ∧ .word .LIMIT ∉ ts :=
    ⟨_, rfl, by decide +kernel⟩
  let s := Scope.ofOptions .oracle {}
  have hfirst : x.Counts s .limit 3 :=
    ⟨_, List.mem_singleton_self _, _, .single List.mem_cons_self, .selected rfl rfl (.limit rfl)⟩
  have hwhole : x.Counts s .limit 5 :=
    ⟨_, List.mem_singleton_self _, _, .refl, .result (.limit rfl)⟩
  have hpassed : x.Counts s .offset 2 :=
    ⟨_, List.mem_singleton_self _, _, .refl, .result (.offset rfl (by decide))⟩
  obtain ⟨hchanges, -, hfetched, hrows⟩ := limit_iff_changes hts (.inr rfl)
  exact ⟨htext, ts, hts, hlimit, fun hchange => hlimit (hchanges.mpr hchange),
    hfetched 3 hfirst, hfetched 5 hwhole, hrows 2 hpassed⟩

/-- An update with a limit in MSSQL, and a deletion with one in Oracle. -/
theorem change_limited :
    let abc : Table := { id := ⟨1⟩, name := "abc" }
    (∃ q ts, (Query.start ⟨2⟩ .mssql).run [(⟨3⟩, .update abc),
          (⟨4⟩, .assign (.column "a") (Term.int 1)), (⟨5⟩, .limit 5)] = .ok q ∧
        (render q {}).toOption = some "UPDATE \"abc\" SET \"a\"=1 LIMIT 5" ∧
        renderTokens q {} = .ok ts ∧ .word .LIMIT ∈ ts) ∧
      ∃ q ts, (Query.start ⟨2⟩ .oracle).run [(⟨3⟩, .source (.table abc)), (⟨4⟩, .delete),
          (⟨5⟩, .limit 5)] = .ok q ∧
        (render q {}).toOption = some "DELETE FROM abc LIMIT 5" ∧
        renderTokens q {} = .ok ts ∧ .word .LIMIT ∈ ts := by
  intro abc
  exact ⟨⟨_, _, rfl, by decide +kernel, rfl, by decide +kernel⟩,
    _, _, rfl, by decide +kernel, rfl, by decide +kernel⟩

end Item

end SqlScribe
