import SqlScribe.Dialect.Profile
/-! # Intervals

A length of time given by components from years down to microseconds, or as a number of quarters or
weeks. Its literal spells the components from the largest to the smallest one that is not zero, with
the separators of a date and time between them, and names the units of the two. -/

namespace SqlScribe

/-- A length of time. -/
structure Interval where
  /-- Years. -/
  years : Int := 0
  /-- Months. -/
  months : Int := 0
  /-- Days. -/
  days : Int := 0
  /-- Hours. -/
  hours : Int := 0
  /-- Minutes. -/
  minutes : Int := 0
  /-- Seconds. -/
  seconds : Int := 0
  /-- Microseconds. -/
  microseconds : Int := 0
  /-- Quarters; if there are any, they are the whole interval. -/
  quarters : Int := 0
  /-- Weeks; if there are any but no quarters, they are the whole interval. -/
  weeks : Int := 0
  /-- The dialect that the literal is written for, if it is not that of the statement. -/
  dialect : Option Dialect := none
deriving Repr, DecidableEq, Inhabited

namespace Interval

/-- The interval with another number of some unit. -/
def set (i : Interval) (unit : DatePart) (n : Int) : Interval :=
  match unit with
  | .year => { i with years := n }
  | .quarter => { i with quarters := n }
  | .month => { i with months := n }
  | .week => { i with weeks := n }
  | .day => { i with days := n }
  | .hour => { i with hours := n }
  | .minute => { i with minutes := n }
  | .second => { i with seconds := n }
  | .microsecond => { i with microseconds := n }

/-- The components with the names of their units, the largest unit first. -/
def components (i : Interval) : List (Int × String) :=
  [(i.years, "YEAR"), (i.months, "MONTH"), (i.days, "DAY"), (i.hours, "HOUR"),
    (i.minutes, "MINUTE"), (i.seconds, "SECOND"), (i.microseconds, "MICROSECOND")]

/-- The size of a component in decimal. -/
def digits (n : Int) : List Char := Nat.toDigits 10 n.natAbs

/-- All components without their signs, in the form of a date and time. -/
def fullText (i : Interval) : List Char :=
  digits i.years ++ '-' :: digits i.months ++ '-' :: digits i.days ++ ' ' :: digits i.hours
    ++ ':' :: digits i.minutes ++ ':' :: digits i.seconds ++ '.' :: digits i.microseconds

/-- A zero or a separator. -/
def isFiller (c : Char) : Bool := c == '0' || c == '-' || c == '.' || c == ':' || c == ' '

/-- A separator before a component other than the last. -/
def endsComponent (c : Char) : Bool := c == '-' || c == ':' || c == ' '

/-- A separator. -/
def isSeparator (c : Char) : Bool := c == '-' || c == ':' || c == '.' || c == ' '

/-- Drops the zero components at the start of a text: the zeros and separators that it begins with,
up to the last one that ends a component. -/
def trimStart (cs : List Char) : List Char :=
  let filler := cs.takeWhile isFiller
  (filler.reverse.takeWhile fun c => !endsComponent c).reverse ++ cs.dropWhile isFiller

/-- Drops the zero components at the end of a text: everything from the first separator that only
zeros and separators follow. -/
def trimEnd : List Char → List Char
  | [] => []
  | c :: cs =>
    if isSeparator c && !cs.isEmpty && cs.all isFiller then [] else c :: trimEnd cs

/-- The amount of an interval and its unit. -/
def amount (i : Interval) : String × String :=
  if i.quarters ≠ 0 then (toString i.quarters, "QUARTER")
  else if i.weeks ≠ 0 then (toString i.weeks, "WEEK")
  else
    let present := i.components.filter (·.1 ≠ 0)
    match present.head?, present.getLast? with
    | some (largest, largestUnit), some (_, smallestUnit) =>
      if largestUnit = "MICROSECOND" then (toString i.microseconds, "MICROSECOND")
      else
        let trimmed := trimEnd (trimStart i.fullText)
        let signed := if largest < 0 then '-' :: trimmed else trimmed
        let unit :=
          if largestUnit = smallestUnit then largestUnit else largestUnit ++ "_" ++ smallestUnit
        (String.ofList signed, unit)
    | _, _ => ("0", "DAY")

/-- The literal of an interval in a dialect, unless the interval has a dialect of its own. -/
def literal (i : Interval) (d : Dialect) : String :=
  let (amount, unit) := i.amount
  match (i.dialect.getD d).profile.intervals with
  | .aroundAll => "INTERVAL '" ++ amount ++ " " ++ unit ++ "'"
  | .aroundAmount => "INTERVAL '" ++ amount ++ "' " ++ unit

end Interval

end SqlScribe
