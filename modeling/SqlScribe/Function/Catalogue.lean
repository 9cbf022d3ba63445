import SqlScribe.Function.Registry
/-! # Functions

A constructor for each function that is common to the dialects. -/

namespace SqlScribe.Function

/-! ## Aggregates -/

/-- The number of rows in which a term is not null; the string `*` counts all rows. -/
def count (t : Term) : Term := Term.aggregate "COUNT" [starOr t]

/-- The sum. -/
def sum (t : Term) : Term := Term.aggregate "SUM" [t]

/-- The mean. -/
def avg (t : Term) : Term := Term.aggregate "AVG" [t]

/-- The least value. -/
def min (t : Term) : Term := Term.aggregate "MIN" [t]

/-- The greatest value. -/
def max (t : Term) : Term := Term.aggregate "MAX" [t]

/-- The standard deviation. -/
def std (t : Term) : Term := Term.aggregate "STD" [t]

/-- The standard deviation, by its other name. -/
def stddev (t : Term) : Term := Term.aggregate "STDDEV" [t]

/-- The first value. -/
def first (t : Term) : Term := Term.aggregate "FIRST" [t]

/-- The last value. -/
def last (t : Term) : Term := Term.aggregate "LAST" [t]

/-- The median. -/
def median (t : Term) : Term := Term.aggregate "MEDIAN" [t]

/-! ## Window functions -/

/-- The number of the row. -/
def rowNumber : Term := Term.aggregate "ROW_NUMBER" []

/-- The rank, with gaps behind ties. -/
def rank : Term := Term.aggregate "RANK" []

/-- The rank, without gaps. -/
def denseRank : Term := Term.aggregate "DENSE_RANK" []

/-- The rank as a share. -/
def percentRank : Term := Term.aggregate "PERCENT_RANK" []

/-- The share of rows up to this one. -/
def cumeDist : Term := Term.aggregate "CUME_DIST" []

/-- The number of the bucket among so many of equal size. -/
def ntile (buckets : UInt32) : Term := Term.aggregate "NTILE" [Term.int buckets.toNat]

/-- The value in the first row of the window. -/
def firstValue (t : Term) : Term := Term.aggregate "FIRST_VALUE" [t]

/-- The value in the last row of the window. -/
def lastValue (t : Term) : Term := Term.aggregate "LAST_VALUE" [t]

/-- A term, the distance of the row it is taken from and a value for where there is none. A value
needs a distance, which is one if it is not given. -/
def offsetArguments (t : Term) (distance : Option Int) (otherwise : Option Term) : List Term :=
  match distance, otherwise with
  | some n, some other => [t, Term.int n, other]
  | some n, none => [t, Term.int n]
  | none, some other => [t, Term.int 1, other]
  | none, none => [t]

/-- The value in an earlier row. -/
def lag (t : Term) (distance : Option Int) (otherwise : Option Term) : Term :=
  Term.aggregate "LAG" (offsetArguments t distance otherwise)

/-- The value in a later row. -/
def lead (t : Term) (distance : Option Int) (otherwise : Option Term) : Term :=
  Term.aggregate "LEAD" (offsetArguments t distance otherwise)

/-! ## Nulls -/

/-- The first term that is not null. -/
def coalesce (terms : List Term) : Term := Term.invoke "COALESCE" terms

/-- A term, or another where it is null. -/
def ifNull (t other : Term) : Term := Term.invoke "IFNULL" [t, other]

/-- A term, or null where it equals another. -/
def nullIf (t other : Term) : Term := Term.invoke "NULLIF" [t, other]

/-- A term, or another where it is null, by its other name. -/
def nvl (t other : Term) : Term := Term.invoke "NVL" [t, other]

/-! ## Strings -/

/-- Terms one after the other. -/
def concat (terms : List Term) : Term := Term.invoke "CONCAT" terms

/-- A text in upper case. -/
def upper (t : Term) : Term := Term.invoke "UPPER" [t]

/-- A text in lower case. -/
def lower (t : Term) : Term := Term.invoke "LOWER" [t]

/-- The length of a text. -/
def length (t : Term) : Term := Term.invoke "LENGTH" [t]

/-- The length of a text in characters. -/
def charLength (t : Term) : Term := Term.invoke "CHAR_LENGTH" [t]

/-- A part of a text from a position on, of some length if one is given. -/
def substring (t : Term) (start : Int) (length : Option Int) : Term :=
  Term.invoke "SUBSTRING" (t :: Term.int start :: (length.map Term.int).toList)

/-- A text without blanks around it. -/
def trim (t : Term) : Term := Term.invoke "TRIM" [t]

/-- A text with one part of it replaced by another. -/
def replace (t old new : Term) : Term := Term.invoke "REPLACE" [t, old, new]

/-- A text backwards. -/
def reverse (t : Term) : Term := Term.invoke "REVERSE" [t]

/-- The code of the first character. -/
def ascii (t : Term) : Term := Term.invoke "ASCII" [t]

/-- A number in binary. -/
def bin (t : Term) : Term := Term.invoke "BIN" [t]

/-- A text with the part at a position replaced. -/
def insert (t start length new : Term) : Term := Term.invoke "INSERT" [t, start, length, new]

/-- A part of a text between delimiters. -/
def splitPart (t delimiter : Term) (index : Int) : Term :=
  Term.invoke "SPLIT_PART" [t, delimiter, Term.int index]

/-- A text with the matches of a regular expression replaced. -/
def regexpReplace (t pattern replacement : Term) : Term :=
  Term.invoke "REGEXP_REPLACE" [t, pattern, replacement]

/-! ## Numbers -/

/-- The absolute value. -/
def abs (t : Term) : Term := Term.invoke "ABS" [t]

/-- The least integer that is not less. -/
def ceil (t : Term) : Term := Term.invoke "CEIL" [t]

/-- The greatest integer that is not greater. -/
def floor (t : Term) : Term := Term.invoke "FLOOR" [t]

/-- A number rounded, to some decimals if they are given. -/
def round (t : Term) (decimals : Option Int) : Term :=
  Term.invoke "ROUND" (t :: (decimals.map Term.int).toList)

/-- The square root. -/
def sqrt (t : Term) : Term := Term.invoke "SQRT" [t]

/-- The sign. -/
def sign (t : Term) : Term := Term.invoke "SIGN" [t]

/-- The exponential. -/
def exp (t : Term) : Term := Term.invoke "EXP" [t]

/-- The natural logarithm. -/
def ln (t : Term) : Term := Term.invoke "LN" [t]

/-- The logarithm to a base. -/
def log (base t : Term) : Term := Term.invoke "LOG" [base, t]

/-- A power. -/
def pow (t exponent : Term) : Term := Term.invoke "POW" [t, exponent]

/-- The remainder. -/
def modulo (t modulus : Term) : Term := Term.invoke "MOD" [t, modulus]

/-- A random number, from a seed if one is given. -/
def rand (seed : Option Int) : Term := Term.invoke "RAND" (seed.map Term.int).toList

/-! ## Dates and times -/

/-- The present moment. -/
def now : Term := Term.invoke "NOW" []

/-- The present moment in universal time. -/
def utcTimestamp : Term := Term.invoke "UTC_TIMESTAMP" []

/-- A function that is called without parentheses. -/
def bare (name : String) : Term := Term.ofCall { name, args := [], form := .bare }

/-- The present day. -/
def currentDate : Term := bare "CURRENT_DATE"

/-- The present time of day. -/
def currentTime : Term := bare "CURRENT_TIME"

/-- The present moment, by its standard name. -/
def currentTimestamp : Term := bare "CURRENT_TIMESTAMP"

/-- The day of a moment. -/
def date (t : Term) : Term := Term.invoke "DATE" [t]

/-- A moment. -/
def timestamp (t : Term) : Term := Term.invoke "TIMESTAMP" [t]

/-- A date moved by some units. -/
def dateAdd (part : DatePart) (amount : Int) (t : Term) : Term :=
  Term.invoke "DATE_ADD" [Term.raw part.name, Term.int amount, t]

/-- A moment moved by some units. -/
def timestampAdd (part : DatePart) (amount : Int) (t : Term) : Term :=
  Term.invoke "TIMESTAMPADD" [Term.raw part.name, Term.int amount, t]

/-- The number of units between two dates. -/
def dateDiff (part : DatePart) (start stop : Term) : Term :=
  Term.invoke "DATEDIFF" [Term.raw part.name, start, stop]

/-- A date as text in a format. -/
def toChar (t format : Term) : Term := Term.invoke "TO_CHAR" [t, format]

/-- A text in a format as a date. -/
def toDate (t format : Term) : Term := Term.invoke "TO_DATE" [t, format]

/-- A part of a date. -/
def extract (part : DatePart) (t : Term) : Term :=
  Term.ofCall { name := "EXTRACT", args := [t], form := .extract part }

/-! ## Conversions -/

/-- A term as a value of a type. -/
def cast (t : Term) (type : DataType) : Term :=
  Term.ofCall { name := "CAST", args := [t], form := .cast type }

/-- A text in a character set. -/
def convert (t : Term) (charset : String) : Term :=
  Term.ofCall { name := "CONVERT", args := [t], form := .convert charset }

end SqlScribe.Function
