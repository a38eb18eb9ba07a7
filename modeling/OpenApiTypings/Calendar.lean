/-!
# Calendar dates of time stamps

The text of a moment in the form of RFC 3339, in universal time and without
fractions of a second.  Years from 0 to 9999 have four digits; years outside carry
a sign.
-/

namespace OpenApiTypings

/-- A moment: seconds since the start of 1970, and billionths of a second.  A second
billion stands for a leap second. -/
structure Moment where
  seconds : Int
  nanos : Nat
  deriving DecidableEq, Repr

structure Day where
  year : Int
  month : Nat
  day : Nat
  deriving DecidableEq, Repr

namespace Day

/-- The day that lies `n` days after the first of January 1970.  Years are counted
from the first of March, so that the leap day comes last, in eras of 400 years. -/
def ofEpochDays (n : Int) : Day :=
  let shifted := n + 719468
  let era := shifted.fdiv 146097
  let dayOfEra := (shifted.fmod 146097).toNat
  let yearOfEra :=
    (dayOfEra - dayOfEra / 1460 + dayOfEra / 36524 - dayOfEra / 146096) / 365
  let dayOfYear := dayOfEra - (365 * yearOfEra + yearOfEra / 4 - yearOfEra / 100)
  let shiftedMonth := (5 * dayOfYear + 2) / 153
  let day := dayOfYear - (153 * shiftedMonth + 2) / 5 + 1
  let month := if shiftedMonth < 10 then shiftedMonth + 3 else shiftedMonth - 9
  let year : Int := era * 400 + yearOfEra
  ⟨if month ≤ 2 then year + 1 else year, month, day⟩

end Day

def padded (width n : Nat) : String :=
  let digits := Nat.repr n
  String.ofList (List.replicate (width - digits.length) '0') ++ digits

/-- A year: four digits, with a sign outside the years 0 to 9999. -/
def yearText (year : Int) : String :=
  if 0 ≤ year ∧ year ≤ 9999 then padded 4 year.toNat
  else (if year < 0 then "-" else "+") ++ padded 4 year.natAbs

def Moment.text (moment : Moment) : String :=
  let day := Day.ofEpochDays (moment.seconds.fdiv 86400)
  let rest := (moment.seconds.fmod 86400).toNat
  let second := rest % 60 + moment.nanos / 1000000000
  yearText day.year ++ "-" ++ padded 2 day.month ++ "-" ++ padded 2 day.day ++ "T" ++
    padded 2 (rest / 3600) ++ ":" ++ padded 2 (rest / 60 % 60) ++ ":" ++
    padded 2 second ++ "Z"

end OpenApiTypings
