/-! # Window frames

The rows around a row that a window function looks at. A frame must not start after it ends. -/

namespace SqlScribe

/-- An end of a window frame. -/
inductive FrameBound where
  /-- The first row of the partition. -/
  | unboundedPreceding
  /-- So many rows before the row. -/
  | preceding (n : UInt64)
  /-- The row itself. -/
  | currentRow
  /-- So many rows after the row. -/
  | following (n : UInt64)
  /-- The last row of the partition. -/
  | unboundedFollowing
deriving Repr, DecidableEq

namespace FrameBound

/-- The rank of a bound among the kinds of bounds, from the first row to the last. -/
def rank : FrameBound → Nat
  | .unboundedPreceding => 0
  | .preceding _ => 1
  | .currentRow => 2
  | .following _ => 3
  | .unboundedFollowing => 4

/-- The bound as it is named in a message. -/
def description : FrameBound → String
  | .unboundedPreceding => "UnboundedPreceding"
  | .preceding n => "Preceding(" ++ toString n.toNat ++ ")"
  | .currentRow => "CurrentRow"
  | .following n => "Following(" ++ toString n.toNat ++ ")"
  | .unboundedFollowing => "UnboundedFollowing"

end FrameBound

/-- What the distance of a frame bound counts. -/
inductive FrameUnit where
  /-- Rows. -/
  | rows
  /-- Values of the ordering term. -/
  | range
deriving Repr, DecidableEq

/-- A window frame. -/
structure Frame where
  /-- What is counted. -/
  unit : FrameUnit
  /-- Where the frame starts. -/
  start : FrameBound
  /-- Where it ends; without an end it ends at the row itself. -/
  stop : Option FrameBound
deriving Repr, DecidableEq

namespace Frame

/-- The frame starts at the last row of the partition although it has no end. -/
def startsUnbounded (f : Frame) : Bool := f.stop.isNone && f.start == .unboundedFollowing

/-- The frame has an end that its start cannot come before. -/
def isReversed (start stop : FrameBound) : Bool :=
  start == .unboundedFollowing || stop == .unboundedPreceding || stop.rank < start.rank

end Frame

end SqlScribe
