import SqlScribe.Dialect.Profile
import SqlScribe.Token
/-! # Row windows

The clauses that keep some rows of a result: a limit and an offset. Counts are written as signed
numbers of 64 bits, and a larger count as the largest of them. An offset of zero is no offset,
except that a dialect which cannot fetch without one writes it. -/

namespace SqlScribe

/-- The largest signed number of 64 bits. -/
def greatestCount : Nat := 0x7fffffffffffffff

/-- A count as it is written: at most the greatest one. -/
def writtenCount (n : UInt64) : Int := min n.toNat greatestCount

/-- The token of a count. -/
def countToken (n : UInt64) : Token := .count (writtenCount n)

/-- An offset that passes over some row. -/
def properOffset (offset : Option UInt64) : Option UInt64 := offset.filter (0 < ·)

namespace PaginationStyle

/-- A `LIMIT` clause. -/
def limitClause (count : Token) : Tokens := [.space, .word .LIMIT, .space, count]

/-- An `OFFSET` clause. -/
def offsetClause (count : Token) : Tokens := [.space, .word .OFFSET, .space, count]

/-- An `OFFSET … ROWS` clause. -/
def offsetRows (count : Token) : Tokens := offsetClause count ++ [.space, .word .ROWS]

/-- A `FETCH NEXT … ROWS ONLY` clause. -/
def fetchNext (count : Token) : Tokens :=
  [.space, .word .FETCH, .space, .word .NEXT, .space, count, .space, .word .ROWS, .space,
    .word .ONLY]

/-- A clause for a count, if there is one. -/
def clause (write : Token → Tokens) : Option UInt64 → Tokens
  | none => []
  | some n => write (countToken n)

/-- The clauses of a limit and an offset. -/
def window : PaginationStyle → Option UInt64 → Option UInt64 → Tokens
  | .limitOffset, limit, offset =>
    clause limitClause limit ++ clause offsetClause (properOffset offset)
  | .limitRequired unbounded, limit, offset =>
    match limit, properOffset offset with
    | none, some n => limitClause (.raw unbounded) ++ offsetClause (countToken n)
    | limit, offset => clause limitClause limit ++ clause offsetClause offset
  | .offsetFetch, none, none => []
  | .offsetFetch, limit, offset =>
    offsetRows (countToken (offset.getD 0)) ++ clause fetchNext limit
  | .fetchOnly, limit, offset =>
    clause offsetRows (properOffset offset) ++ clause fetchNext limit

end PaginationStyle

/-- The clauses of a limit and an offset in a dialect. -/
def Dialect.window (d : Dialect) (limit offset : Option UInt64) : Tokens :=
  d.profile.pagination.window limit offset

end SqlScribe
