/-! The proleptic Gregorian calendar in UTC, counted from 1970-01-01. -/
namespace MultiCluster.Calendar

structure Date where
  year : Int
  month : Nat
  day : Nat
  deriving DecidableEq, Repr

/-- A second of the calendar; `second` is 60 within a leap second. -/
structure Instant where
  date : Date
  hour : Nat
  minute : Nat
  second : Nat
  deriving DecidableEq, Repr

/-- The date a number of days after 1970-01-01. Days are counted in eras of 400 years that begin
on the first of March, so that the leap day is the last of its year. -/
def Date.ofDays (days : Int) : Date :=
  let z := days + 719468
  let era := z.fdiv 146097
  let dayOfEra := (z - era * 146097).toNat
  let yearOfEra := (dayOfEra - dayOfEra / 1460 + dayOfEra / 36524 - dayOfEra / 146096) / 365
  let dayOfYear := dayOfEra - (365 * yearOfEra + yearOfEra / 4 - yearOfEra / 100)
  let shifted := (5 * dayOfYear + 2) / 153
  let day := dayOfYear - (153 * shifted + 2) / 5 + 1
  let month := if shifted < 10 then shifted + 3 else shifted - 9
  let year := era * 400 + yearOfEra
  ⟨if month ≤ 2 then year + 1 else year, month, day⟩

/-- The instant `unix` seconds after the epoch; `nanos` from 10⁹ on lies within a leap second. -/
def Instant.ofUnix (unix : Int) (nanos : Nat) : Instant :=
  let days := unix.fdiv 86400
  let s := (unix - days * 86400).toNat
  ⟨Date.ofDays days, s / 3600, s / 60 % 60, s % 60 + nanos / 1000000000⟩

def padded (width n : Nat) : List Char :=
  let digits := Nat.toDigits 10 n
  List.replicate (width - digits.length) '0' ++ digits

/-- Four digits; a sign in front of years before 0 and after 9999. -/
def yearText (year : Int) : List Char :=
  if year < 0 then '-' :: padded 4 year.natAbs
  else if year > 9999 then '+' :: padded 4 year.natAbs
  else padded 4 year.natAbs

def Instant.stamp (i : Instant) : String :=
  String.ofList (yearText i.date.year ++ padded 2 i.date.month ++ padded 2 i.date.day ++
    padded 2 i.hour ++ padded 2 i.minute ++ padded 2 i.second)

end MultiCluster.Calendar
