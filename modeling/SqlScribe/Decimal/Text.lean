import SqlScribe.Decimal.Shortest
/-! # Text of floating-point numbers

A finite number is written with its shortest digits. A layout says up to which sizes the point
stands among the digits, always with a fraction behind it; beyond them the digits are followed by
an exponent. -/

namespace SqlScribe.Decimal

/-- How the digits of a number are laid out. -/
structure Layout where
  /-- The lowest place of the point that is written without an exponent. -/
  lowest : Int
  /-- The highest place of the point that is written without an exponent. -/
  highest : Int
  /-- A plus sign stands before an exponent without a minus sign. -/
  plus : Bool

/-- Numbers are written without an exponent from `0.00001` up to sixteen integer digits, and an
exponent has a sign only if it is negative. -/
def plainLayout : Layout := ⟨-4, 16, false⟩

/-- The characters of an exponent behind its mark. -/
def Layout.exponent (layout : Layout) (e : Int) : List Char :=
  (if layout.plus && 0 ≤ e then ['+'] else []) ++ (toString e).toList

/-- The significant digits as characters, without zeros at the end. -/
def Digits.chars (d : Digits) : List Char :=
  ((Nat.toDigits 10 d.digits).reverse.dropWhile (· == '0')).reverse

/-- Writes digits with a point among them, or with an exponent behind them. -/
def Layout.write (layout : Layout) (digits : List Char) (point : Int) : List Char :=
  if layout.lowest ≤ point ∧ point ≤ layout.highest then
    if point ≤ 0 then '0' :: '.' :: List.replicate (-point).toNat '0' ++ digits
    else
      let whole := digits.take point.toNat
      let fraction := digits.drop point.toNat
      let zeros := List.replicate (point.toNat - digits.length) '0'
      whole ++ zeros ++ '.' :: (if fraction.isEmpty then ['0'] else fraction)
  else
    let tail := layout.exponent (point - 1)
    match digits with
    | [] => []
    | [d] => d :: 'e' :: tail
    | d :: ds => d :: '.' :: ds ++ 'e' :: tail

end SqlScribe.Decimal

namespace SqlScribe.Binary64

/-- The text of a number in a layout. The special values are spelt `NaN`, `inf` and `-inf`, and zero
keeps its sign. -/
def textIn (layout : Decimal.Layout) (x : Binary64) : String :=
  if x.isNaN then "NaN"
  else
    let magnitude :=
      if !x.isFinite then "inf"
      else if x.isZero then "0.0"
      else
        let d := Decimal.shortest x
        String.ofList (layout.write d.chars d.point)
    if x.isNegative then "-" ++ magnitude else magnitude

/-- The text of a number. -/
def text (x : Binary64) : String := x.textIn Decimal.plainLayout

end SqlScribe.Binary64
