import SqlScribe.Binary64
/-! # Shortest decimal digits

Each finite floating-point number stands for all real numbers that round to it. Among the decimals
in that range the ones with the fewest digits are its shortest spellings, and of these the nearest
to the number itself is chosen, an even last digit settling a tie. The search works with exact
integers: on the grid of all decimals of a given number of digits only the two neighbours of the
number can be the nearest point. -/

namespace SqlScribe.Decimal

/-- The real numbers that round to a given positive one, as fractions over one denominator. -/
structure Neighbourhood where
  /-- Numerator of the lower end. -/
  low : Nat
  /-- Numerator of the number itself. -/
  value : Nat
  /-- Numerator of the upper end. -/
  high : Nat
  /-- The common denominator. -/
  unit : Nat
  /-- Whether the two ends themselves round to the number. -/
  closed : Bool
deriving Repr

/-- The decimal `0.d₁d₂… · 10 ^ point` of the digits of `digits`. -/
structure Digits where
  /-- The digits as a number. -/
  digits : Nat
  /-- The place of the decimal point, counted from before the first digit. -/
  point : Int
deriving Repr, DecidableEq

/-- The neighbourhood of a finite positive number: half the distance to its neighbours on either
side, a quarter below where the numbers become twice as dense. Ends round to even significands. -/
def Neighbourhood.of (x : Binary64) : Neighbourhood :=
  let m := x.mantissa
  let q := x.exponent - 2
  let below := if x.fractionBits = 0 ∧ 1 < x.exponentBits then 1 else 2
  { low := (4 * m - below) <<< q.toNat
    value := (4 * m) <<< q.toNat
    high := (4 * m + 2) <<< q.toNat
    unit := 1 <<< (-q).toNat
    closed := m % 2 == 0 }

/-- The number `d · 10 ^ e` lies in the neighbourhood. -/
def Neighbourhood.contains (n : Neighbourhood) (d : Nat) (e : Int) : Bool :=
  let point := d * Nat.pow 10 e.toNat * n.unit
  let grid := Nat.pow 10 (-e).toNat
  if n.closed then n.low * grid ≤ point && point ≤ n.high * grid
  else n.low * grid < point && point < n.high * grid

/-- The place of the decimal point of the number: it is at least `10 ^ (place - 1)` and below
`10 ^ place`. -/
def Neighbourhood.place (n : Neighbourhood) : Int :=
  if n.unit ≤ n.value then ((Nat.toDigits 10 (n.value / n.unit)).length : Int)
  else
    let zeros := (Nat.toDigits 10 (n.unit / n.value)).length
    if n.unit ≤ n.value * Nat.pow 10 (zeros - 1) then 2 - zeros else 1 - zeros

/-- The nearest decimal of `count` digits to the number, if one of its two neighbours on the grid of
these decimals lies in the neighbourhood. -/
def Neighbourhood.onGrid (n : Neighbourhood) (place : Int) (count : Nat) : Option Nat :=
  let e := place - count
  let step := Nat.pow 10 e.toNat * n.unit
  let scaled := n.value * Nat.pow 10 (-e).toNat
  let below := scaled / step
  match n.contains below e, n.contains (below + 1) e with
  | true, true =>
    let twice := 2 * scaled
    let middle := (2 * below + 1) * step
    if twice < middle ∨ (twice = middle ∧ below % 2 = 0) then some below else some (below + 1)
  | true, false => some below
  | false, true => some (below + 1)
  | false, false => none

/-- The shortest digits that read back as a finite number other than zero: the first grid with a
point in the neighbourhood gives them, and seventeen digits always suffice. -/
def shortest (x : Binary64) : Digits :=
  let n := Neighbourhood.of x
  let place := n.place
  let candidate (count : Nat) : Option Digits :=
    (n.onGrid place count).map fun d => ⟨d, if d = Nat.pow 10 count then place + 1 else place⟩
  ((List.range' 1 17).findSome? candidate).getD ⟨0, place⟩

end SqlScribe.Decimal
