import SqlScribe.Proofs.SetOperation.Pagination
import SqlScribe.Proofs.RowWindow.Unarranged
import SqlScribe.Text.Digits
/-! # Reading row windows

Dialects have four grammars for the rows of a result that are kept. Read by the grammar of its
dialect, the tail of a selection or set operation gives back the offset and the limit it was written
for, as far as counts are written.

* `RowWindow`: how many rows are passed over, and how many are kept behind these.
* `Forest.rowWindow?`: the row window that trees show, by the grammar of a dialect.
* `Dialect.rowWindow?_window`: the clauses of a limit and an offset are read as these. -/

namespace SqlScribe

open Tokens

/-- The rows of a result that are kept. -/
structure RowWindow where
  /-- The number of rows passed over. -/
  skip : Nat
  /-- The number of rows kept behind these, unless all are. -/
  take : Option Nat
deriving Repr, DecidableEq

/-- The rows that a limit and an offset keep. No count is beyond the greatest signed number of 64
bits. -/
def RowWindow.ofCounts (limit offset : Option UInt64) : RowWindow where
  skip := min (offset.getD 0).toNat (2 ^ 63 - 1)
  take := limit.map fun n => min n.toNat (2 ^ 63 - 1)

/-- An offset passes over rows just if it is proper. -/
theorem RowWindow.ofCounts_eq (limit offset : Option UInt64) :
    ofCounts limit offset =
      ⟨(properOffset offset).elim 0 fun n => min n.toNat (2 ^ 63 - 1),
        limit.map fun n => min n.toNat (2 ^ 63 - 1)⟩ := by
  cases offset with
  | none => rfl
  | some n =>
    by_cases hn : 0 < n
    · have hproper : properOffset (some n) = some n := if_pos (decide_eq_true hn)
      rw [hproper]
      rfl
    · have hzero : n = 0 := by simpa using hn
      subst hzero
      rfl

/-! ## Counts -/

/-- The number that some decimal digits stand for. -/
def Text.natural? (digits : List Char) : Option Nat :=
  if digits ≠ [] ∧ digits.all Char.isDigit then some (Text.numberOf 10 digits) else none

/-- The number that decimal digits stand for, behind a minus sign if it is negative. -/
def Text.integer? : List Char → Option Int
  | '-' :: digits => (natural? digits).map fun n => -(n : Int)
  | digits => (natural? digits).map fun n => (n : Int)

/-- The number that a token stands for. -/
def Token.integer? : Token → Option Int
  | .count n => some n
  | .raw text => Text.integer? text.toList
  | _ => none

/-- The number of rows that a token stands for. -/
def Token.natural? (t : Token) : Option Nat :=
  t.integer?.bind fun n => if 0 ≤ n then some n.toNat else none

namespace Dialect

/-- Limits that keep all rows: negative ones in SQLite, and in MySQL the greatest unsigned number of
64 bits, which has no other way to ask for all rows behind an offset. -/
def keepsAll : Dialect → Int → Bool
  | .mysql, n => n = 2 ^ 64 - 1
  | .sqlite, n => n < 0
  | _, _ => false

/-- The number of rows that a limit keeps, unless it keeps all. -/
def limit? (d : Dialect) (t : Token) : Option (Option Nat) :=
  if t.integer?.any d.keepsAll then some none else t.natural?.map some

theorem natural?_countToken (n : UInt64) :
    (countToken n).natural? = some (min n.toNat (2 ^ 63 - 1)) := by
  have hcount : 0 ≤ writtenCount n ∧ (writtenCount n).toNat = min n.toNat (2 ^ 63 - 1) := by
    unfold writtenCount greatestCount
    omega
  rw [countToken, Token.natural?, Token.integer?, Option.bind_some, if_pos hcount.1, hcount.2]

/-- Counts that are written are no limits that keep all rows. -/
theorem limit?_countToken (d : Dialect) (n : UInt64) :
    d.limit? (countToken n) = some (some (min n.toNat (2 ^ 63 - 1))) := by
  have hcount : 0 ≤ writtenCount n ∧ writtenCount n < 2 ^ 63 := by
    unfold writtenCount greatestCount
    omega
  have hkeeps : (countToken n).integer?.any d.keepsAll = false := by
    have hne : writtenCount n ≠ 18446744073709551615 := by omega
    have hpositive : ¬writtenCount n < 0 := by omega
    cases d <;> simp [countToken, Token.integer?, keepsAll, hne, hpositive]
  rw [limit?, hkeeps, if_neg Bool.false_ne_true, natural?_countToken, Option.map_some]

end Dialect

/-! ## Grammars -/

/-- A clause for the order or the row window begins with the tree. -/
def TokenTree.arranges : TokenTree → Bool
  | .token t => t.arranges
  | .group _ _ => false

namespace Forest

/-- The count of a `LIMIT` clause at the beginning of trees, and the trees behind it. -/
def readLimit : Forest → Option Token × Forest
  | .token (.word .LIMIT) :: .token t :: f => (some t, f)
  | f => (none, f)

/-- The count of an `OFFSET` clause at the beginning of trees, and the trees behind it. -/
def readOffset : Forest → Option Token × Forest
  | .token (.word .OFFSET) :: .token t :: f => (some t, f)
  | f => (none, f)

/-- The count of an `OFFSET … ROWS` clause at the beginning of trees, and the trees behind it. -/
def readOffsetRows : Forest → Option Token × Forest
  | .token (.word .OFFSET) :: .token t :: .token (.word .ROWS) :: f => (some t, f)
  | f => (none, f)

/-- The count of a `FETCH NEXT … ROWS ONLY` clause at the beginning of trees, and the trees behind
it. -/
def readFetch : Forest → Option Token × Forest
  | .token (.word .FETCH) :: .token (.word .NEXT) :: .token t :: .token (.word .ROWS) ::
      .token (.word .ONLY) :: f => (some t, f)
  | f => (none, f)

end Forest

/-- The counts of the clauses for a row window, and the trees behind these clauses. -/
structure WindowClauses where
  /-- The limit. -/
  limit : Option Token
  /-- The offset. -/
  offset : Option Token
  /-- The trees behind the clauses. -/
  rest : Forest

namespace Dialect

/-- The clauses for a row window at the beginning of trees. In MySQL and SQLite an offset needs a
limit before it; in SQL Server a fetch needs an offset, and an offset needs an order. -/
def windowClauses (d : Dialect) (ordered : Bool) (f : Forest) : WindowClauses :=
  match d with
  | .ansi | .postgres | .redshift =>
    let (limit, f) := f.readLimit
    let (offset, f) := f.readOffset
    ⟨limit, offset, f⟩
  | .mysql | .sqlite =>
    match f.readLimit with
    | (some t, f) =>
      let (offset, f) := f.readOffset
      ⟨some t, offset, f⟩
    | (none, f) => ⟨none, none, f⟩
  | .mssql =>
    match if ordered then f.readOffsetRows else (none, f) with
    | (some t, f) =>
      let (limit, f) := f.readFetch
      ⟨limit, some t, f⟩
    | (none, f) => ⟨none, none, f⟩
  | .oracle =>
    let (offset, f) := f.readOffsetRows
    let (limit, f) := f.readFetch
    ⟨limit, offset, f⟩

/-- The row window of the clauses at the beginning of trees. No such clause may be left behind
them. -/
def rowWindow? (d : Dialect) (ordered : Bool) (f : Forest) : Option RowWindow :=
  let clauses := d.windowClauses ordered f
  if clauses.rest.any (·.arranges) then none
  else do
    let skip ← clauses.offset.elim (some 0) Token.natural?
    let take ← clauses.limit.elim (some none) d.limit?
    return ⟨skip, take⟩

end Dialect

/-- The row window that trees show outside their brackets, behind an order if there is one. -/
def Forest.rowWindow? (d : Dialect) (f : Forest) : Option RowWindow :=
  match f.dropWhile (!·.arranges) with
  | .token (.word .ORDER_BY) :: items => d.rowWindow? true (items.dropWhile (!·.arranges))
  | f => d.rowWindow? false f

/-! ## Trees of the clauses -/

/-- No clause for the order or the row window begins outside brackets. -/
def Forest.Calm (f : Forest) : Prop := ∀ tree ∈ f, tree.arranges = false

/-- The trees are none, or those of an `ORDER BY` clause. -/
def Forest.Orders (f : Forest) : Prop :=
  f = [] ∨ ∃ items, f = .token (.word .ORDER_BY) :: items ∧ Forest.Calm items

theorem Tokens.Shows.calm {ts : Tokens} (h : Unarranged ts) : ∃ f, Forms ts f ∧ Forest.Calm f := by
  obtain ⟨f, hf, hcalm⟩ := h
  refine ⟨f, hf, fun tree htree => ?_⟩
  cases tree with
  | token t => exact hcalm t htree
  | group b inner => rfl

/-- There are no brackets among the tokens. -/
def Tokens.Flat (ts : Tokens) : Prop := ∀ t ∈ ts, t = .space ∨ t.role = .plain

/-- The trees of tokens among which there are no brackets. -/
def Forest.ofTokens (ts : Tokens) : Forest :=
  ts.filterMap fun t => if t.role = .plain then some (.token t) else none

theorem Forest.ofTokens_cons {t : Token} (ht : t.role = .plain) (ts : Tokens) :
    ofTokens (t :: ts) = .token t :: ofTokens ts := by
  rw [ofTokens, List.filterMap_cons, if_pos ht]
  rfl

theorem Forest.ofTokens_append (ts us : Tokens) :
    ofTokens (ts ++ us) = ofTokens ts ++ ofTokens us := List.filterMap_append

theorem Tokens.Flat.forms {ts : Tokens} (h : Flat ts) : Forms ts (Forest.ofTokens ts) := by
  induction ts with
  | nil => exact .nil
  | cons t ts ih =>
    obtain ⟨ht, hts⟩ := List.forall_mem_cons.mp h
    rcases ht with rfl | ht
    · exact (ih hts).blank
    · rw [Forest.ofTokens_cons ht]
      exact (ih hts).plain ht

theorem PaginationStyle.window_flat (style : PaginationStyle) (limit offset : Option UInt64) :
    Flat (style.window limit offset) := by
  have hword : ∀ k ∈ [Keyword.LIMIT, .OFFSET, .ROWS, .FETCH, .NEXT, .ONLY],
      (Token.word k).role = .plain := by decide
  have hlimit : ∀ t : Token, t.role = .plain → Flat (limitClause t) :=
    fun t ht => by simp [Flat, limitClause, hword, ht]
  have hoffset : ∀ t : Token, t.role = .plain → Flat (offsetClause t) :=
    fun t ht => by simp [Flat, offsetClause, hword, ht]
  have hrows : ∀ t : Token, t.role = .plain → Flat (offsetRows t) := fun t ht =>
    List.forall_mem_append.mpr ⟨hoffset t ht, by simp [hword]⟩
  have hfetch : ∀ t : Token, t.role = .plain → Flat (fetchNext t) :=
    fun t ht => by simp [Flat, fetchNext, hword, ht]
  have hclause : ∀ {write : Token → Tokens} (n : Option UInt64),
      (∀ t : Token, t.role = .plain → Flat (write t)) → Flat (clause write n) := by
    intro write n h
    cases n with
    | none => exact List.forall_mem_nil _
    | some n => exact h _ rfl
  unfold window
  split
  · exact List.forall_mem_append.mpr ⟨hclause _ hlimit, hclause _ hoffset⟩
  · split
    · exact List.forall_mem_append.mpr ⟨hlimit _ rfl, hoffset _ rfl⟩
    · exact List.forall_mem_append.mpr ⟨hclause _ hlimit, hclause _ hoffset⟩
  · exact List.forall_mem_nil _
  · exact List.forall_mem_append.mpr ⟨hrows _ rfl, hclause _ hfetch⟩
  · exact List.forall_mem_append.mpr ⟨hclause _ hrows, hclause _ hfetch⟩

namespace Forest

variable {f : Forest}

namespace Calm

theorem nil : Calm [] := nofun

theorem any (h : Calm f) : f.any (·.arranges) = false :=
  List.any_eq_false.mpr fun tree htree => Bool.eq_false_iff.mp (h tree htree)

theorem dropWhile (h : Calm f) : f.dropWhile (!·.arranges) = [] :=
  List.dropWhile_eq_nil_iff.mpr fun tree htree => by rw [h tree htree, Bool.not_false]

theorem dropWhile_append (h : Calm f) (g : Forest) :
    (f ++ g).dropWhile (!·.arranges) = g.dropWhile (!·.arranges) :=
  List.dropWhile_append_of_pos fun tree htree => by rw [h tree htree, Bool.not_false]

theorem readLimit (h : Calm f) : f.readLimit = (none, f) := by
  unfold Forest.readLimit
  split
  · cases h _ List.mem_cons_self
  · rfl

theorem readOffset (h : Calm f) : f.readOffset = (none, f) := by
  unfold Forest.readOffset
  split
  · cases h _ List.mem_cons_self
  · rfl

theorem readOffsetRows (h : Calm f) : f.readOffsetRows = (none, f) := by
  unfold Forest.readOffsetRows
  split
  · cases h _ List.mem_cons_self
  · rfl

theorem readFetch (h : Calm f) : f.readFetch = (none, f) := by
  unfold Forest.readFetch
  split
  · cases h _ List.mem_cons_self
  · rfl

end Calm

/-! ### Clauses that are read -/

open PaginationStyle

theorem readLimit_clause (h : f.readLimit = (none, f)) (n : Option UInt64) :
    (ofTokens (clause limitClause n) ++ f).readLimit = (n.map countToken, f) := by
  cases n with
  | none => exact h
  | some n => rfl

theorem readOffset_clause (h : f.readOffset = (none, f)) (n : Option UInt64) :
    (ofTokens (clause offsetClause n) ++ f).readOffset = (n.map countToken, f) := by
  cases n with
  | none => exact h
  | some n => rfl

theorem readOffsetRows_clause (h : f.readOffsetRows = (none, f)) (n : Option UInt64) :
    (ofTokens (clause offsetRows n) ++ f).readOffsetRows = (n.map countToken, f) := by
  cases n with
  | none => exact h
  | some n => rfl

theorem readFetch_clause (h : f.readFetch = (none, f)) (n : Option UInt64) :
    (ofTokens (clause fetchNext n) ++ f).readFetch = (n.map countToken, f) := by
  cases n with
  | none => exact h
  | some n => rfl

end Forest

namespace Dialect

open Forest PaginationStyle

variable (d : Dialect) (limit offset : Option UInt64)

/-- The trees of the clauses of a limit and an offset. -/
def windowTrees : Forest := Forest.ofTokens (d.window limit (properOffset offset))

theorem window_forms :
    Forms (d.window limit (properOffset offset)) (d.windowTrees limit offset) :=
  (PaginationStyle.window_flat _ _ _).forms

variable {d limit offset} {ordered : Bool} {rest : Forest}

theorem rowWindow?_of_clauses {f : Forest} {l o : Option Token} {w : RowWindow}
    (h : d.windowClauses ordered f = ⟨l, o, rest⟩) (hrest : rest.Calm)
    (ho : o.elim (some 0) Token.natural? = some w.skip)
    (hl : l.elim (some none) d.limit? = some w.take) : d.rowWindow? ordered f = some w := by
  simp [rowWindow?, h, hrest.any, ho, hl]

theorem elim_natural? (n : Option UInt64) : (n.map countToken).elim (some 0) Token.natural? =
    some (n.elim 0 fun n => min n.toNat (2 ^ 63 - 1)) := by
  cases n with
  | none => rfl
  | some n => exact natural?_countToken n

theorem elim_limit? (d : Dialect) (n : Option UInt64) :
    (n.map countToken).elim (some none) d.limit? =
      some (n.map fun n => min n.toNat (2 ^ 63 - 1)) := by
  cases n with
  | none => rfl
  | some n => exact d.limit?_countToken n

/-- Where a limit and an offset are written on their own, these are read. -/
theorem windowClauses_limitOffset (hrest : rest.Calm)
    (h : d = .ansi ∨ d = .postgres ∨ d = .redshift) :
    d.windowClauses ordered (d.windowTrees limit offset ++ rest) =
      ⟨limit.map countToken, (properOffset offset).map countToken, rest⟩ := by
  have htrees : d.windowTrees limit offset ++ rest = ofTokens (clause limitClause limit) ++
      (ofTokens (clause offsetClause (properOffset offset)) ++ rest) := by
    have hwindow : d.window limit (properOffset offset) =
        clause limitClause limit ++ clause offsetClause (properOffset (properOffset offset)) := by
      rcases h with rfl | rfl | rfl <;> rfl
    rw [windowTrees, hwindow, properOffset_idem, ofTokens_append, List.append_assoc]
  have hoffset : (ofTokens (clause offsetClause (properOffset offset)) ++ rest).readLimit =
      (none, ofTokens (clause offsetClause (properOffset offset)) ++ rest) := by
    cases properOffset offset with
    | none => exact hrest.readLimit
    | some n => rfl
  have hclauses (f : Forest) : d.windowClauses ordered f =
      ⟨f.readLimit.1, f.readLimit.2.readOffset.1, f.readLimit.2.readOffset.2⟩ := by
    rcases h with rfl | rfl | rfl <;> rfl
  rw [hclauses, htrees, readLimit_clause hoffset, readOffset_clause hrest.readOffset]

/-- Where a fetch and an offset are written on their own, these are read. -/
theorem windowClauses_fetchOnly (hrest : rest.Calm) :
    windowClauses .oracle ordered (windowTrees .oracle limit offset ++ rest) =
      ⟨limit.map countToken, (properOffset offset).map countToken, rest⟩ := by
  have htrees : windowTrees .oracle limit offset ++ rest =
      ofTokens (clause offsetRows (properOffset offset)) ++
        (ofTokens (clause fetchNext limit) ++ rest) := by
    have hwindow : window .oracle limit (properOffset offset) =
        clause offsetRows (properOffset (properOffset offset)) ++ clause fetchNext limit := rfl
    rw [windowTrees, hwindow, properOffset_idem, ofTokens_append, List.append_assoc]
  have hfetch : (ofTokens (clause fetchNext limit) ++ rest).readOffsetRows =
      (none, ofTokens (clause fetchNext limit) ++ rest) := by
    cases limit with
    | none => exact hrest.readOffsetRows
    | some n => rfl
  have hclauses (f : Forest) : windowClauses .oracle ordered f =
      ⟨f.readOffsetRows.2.readFetch.1, f.readOffsetRows.1, f.readOffsetRows.2.readFetch.2⟩ := rfl
  rw [hclauses, htrees, readOffsetRows_clause hfetch, readFetch_clause hrest.readFetch]

/-- Where an offset needs a limit, one that keeps all rows is written before it if there is no
other. -/
theorem windowClauses_limitRequired (hrest : rest.Calm) {unbounded : String}
    (h : d = .mysql ∨ d = .sqlite) (hstyle : d.profile.pagination = .limitRequired unbounded) :
    d.windowClauses ordered (d.windowTrees limit offset ++ rest) =
      ⟨(limit.map countToken).or ((properOffset offset).map fun _ => .raw unbounded),
        (properOffset offset).map countToken, rest⟩ := by
  have hclauses (f : Forest) : d.windowClauses ordered f =
      match f.readLimit with
      | (some t, f) => ⟨some t, f.readOffset.1, f.readOffset.2⟩
      | (none, f) => ⟨none, none, f⟩ := by
    rcases h with rfl | rfl <;> rfl
  -- Behind a limit an offset is read if there is one.
  have hlimited {t : Token} (ht : t.role = .plain) (n : Option UInt64) :
      d.windowClauses ordered (ofTokens (limitClause t ++ clause offsetClause n) ++ rest) =
        ⟨some t, n.map countToken, rest⟩ := by
    have hlimit : ofTokens (limitClause t) = [.token (.word .LIMIT), .token t] :=
      congrArg (List.cons (TokenTree.token (.word .LIMIT))) (ofTokens_cons ht [])
    have hoffset := readOffset_clause hrest.readOffset n
    simp [hclauses, ofTokens_append, hlimit, Forest.readLimit, hoffset]
  have hidem := properOffset_idem offset
  rw [windowTrees, window, hstyle]
  generalize properOffset offset = proper at *
  cases limit with
  | some n =>
    have hwindow : (PaginationStyle.limitRequired unbounded).window (some n) proper =
        limitClause (countToken n) ++ clause offsetClause proper := by
      rw [PaginationStyle.window, hidem]
      · rfl
      · simp
    rw [hwindow, hlimited rfl]
    rfl
  | none =>
    cases proper with
    | some m =>
      have hwindow : (PaginationStyle.limitRequired unbounded).window none (some m) =
          limitClause (.raw unbounded) ++ clause offsetClause (some m) := by
        simp [PaginationStyle.window, hidem, clause]
      rw [hwindow, hlimited rfl]
      rfl
    | none =>
      rw [hclauses]
      show (match Forest.readLimit rest with
        | (some t, f) => _
        | (none, f) => _) = _
      rw [hrest.readLimit]
      rfl

/-- Where a fetch needs an offset and an offset an order, an offset is written if there is a fetch,
and read if there is an order. -/
theorem windowClauses_offsetFetch (hrest : rest.Calm)
    (hordered : ordered = true ∨ limit = none ∧ properOffset offset = none) :
    windowClauses .mssql ordered (windowTrees .mssql limit offset ++ rest) =
      ⟨limit.map countToken,
        if limit.isSome || (properOffset offset).isSome then
          some (countToken ((properOffset offset).getD 0)) else none, rest⟩ := by
  have hnone : windowClauses .mssql ordered rest = ⟨none, none, rest⟩ := by
    rw [windowClauses]
    cases ordered with
    | false => rfl
    | true => rw [if_pos rfl, hrest.readOffsetRows]
  have hoffset (n : UInt64) (limit : Option UInt64) :
      windowClauses .mssql true (ofTokens (offsetRows (countToken n) ++ clause fetchNext limit) ++
        rest) = ⟨limit.map countToken, some (countToken n), rest⟩ := by
    have hclauses : windowClauses .mssql true
        (ofTokens (offsetRows (countToken n)) ++ (ofTokens (clause fetchNext limit) ++ rest)) =
        ⟨(ofTokens (clause fetchNext limit) ++ rest).readFetch.1, some (countToken n),
          (ofTokens (clause fetchNext limit) ++ rest).readFetch.2⟩ := rfl
    rw [ofTokens_append, List.append_assoc, hclauses, readFetch_clause hrest.readFetch]
  rw [windowTrees]
  generalize properOffset offset = proper at *
  cases limit with
  | some n =>
    rw [hordered.resolve_right fun h => nomatch h.1]
    exact hoffset _ (some n)
  | none =>
    cases proper with
    | some m =>
      rw [hordered.resolve_right fun h => nomatch h.2]
      exact hoffset m none
    | none => exact hnone

/-- **The clauses of a limit and an offset are read as these**, whatever of them is missing, if an
order is before them where SQL Server needs one. -/
theorem rowWindow?_window (hrest : rest.Calm)
    (hordered : d = .mssql → ordered = true ∨ limit = none ∧ properOffset offset = none) :
    d.rowWindow? ordered (d.windowTrees limit offset ++ rest) =
      some (.ofCounts limit offset) := by
  have hlimit := elim_limit? d limit
  have hoffset := elim_natural? (properOffset offset)
  rw [RowWindow.ofCounts_eq]
  have hrequired {unbounded : String} (h : d = .mysql ∨ d = .sqlite)
      (hstyle : d.profile.pagination = .limitRequired unbounded)
      (hall : d.limit? (.raw unbounded) = some none) :
      d.rowWindow? ordered (d.windowTrees limit offset ++ rest) =
        some ⟨(properOffset offset).elim 0 fun n => min n.toNat (2 ^ 63 - 1),
          limit.map fun n => min n.toNat (2 ^ 63 - 1)⟩ := by
    refine rowWindow?_of_clauses (windowClauses_limitRequired hrest h hstyle) hrest hoffset ?_
    cases limit with
    | some n => exact hlimit
    | none =>
      cases properOffset offset with
      | some m => exact hall
      | none => rfl
  cases d with
  | ansi | postgres | redshift =>
    exact rowWindow?_of_clauses (windowClauses_limitOffset hrest (by simp)) hrest hoffset hlimit
  | mysql => exact hrequired (.inl rfl) rfl (by decide)
  | sqlite => exact hrequired (.inr rfl) rfl (by decide)
  | oracle => exact rowWindow?_of_clauses (windowClauses_fetchOnly hrest) hrest hoffset hlimit
  | mssql =>
    refine rowWindow?_of_clauses (windowClauses_offsetFetch hrest (hordered rfl)) hrest ?_ hlimit
    cases properOffset offset with
    | some m =>
      rw [Option.isSome_some, Bool.or_true, if_pos rfl]
      exact natural?_countToken m
    | none =>
      cases limit with
      | some n => rfl
      | none => rfl

end Dialect

end SqlScribe
