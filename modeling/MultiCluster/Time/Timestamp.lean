import MultiCluster.Time.Calendar
import MultiCluster.Text.Numeral

/-! Internet timestamps (RFC 3339), brought to UTC and a fixed number of decimal places. -/
namespace MultiCluster.Timestamp

/-- Days from 1970-01-01 to a date of the proleptic Gregorian calendar. -/
def daysOf (year : Int) (month day : Nat) : Int :=
  let y := if month ≤ 2 then year - 1 else year
  let era := y.fdiv 400
  let yearOfEra := (y - era * 400).toNat
  let shifted := if month > 2 then month - 3 else month + 9
  let dayOfYear := (153 * shifted + 2) / 5 + day - 1
  let dayOfEra := yearOfEra * 365 + yearOfEra / 4 - yearOfEra / 100 + dayOfYear
  era * 146097 + dayOfEra - 719468

def isLeap (year : Int) : Bool := year % 4 == 0 && (year % 100 != 0 || year % 400 == 0)

def monthLength (year : Int) (month : Nat) : Nat :=
  if month == 2 then (if isLeap year then 29 else 28)
  else if month == 4 || month == 6 || month == 9 || month == 11 then 30 else 31

/-- The years that a date can lie in. -/
def isYear (year : Int) : Bool := -262143 ≤ year && year ≤ 262142

def isDate (d : Calendar.Date) : Bool :=
  isYear d.year && 1 ≤ d.month && d.month ≤ 12 && 1 ≤ d.day && d.day ≤ monthLength d.year d.month

/-- A fixed number of digits, and what follows. -/
def field (count : Nat) (cs : List Char) : Option (Nat × List Char) :=
  if cs.length < count then none
  else (Text.digits? (cs.take count)).map fun n => (n, cs.drop count)

/-- As many digits as there are, and what follows. -/
def digits (cs : List Char) : Option (Nat × List Char) :=
  (Text.digits? (cs.takeWhile Char.isDigit)).map fun n => (n, cs.dropWhile Char.isDigit)

/-- Four digits, or any number of them behind a sign. -/
def year : List Char → Option (Int × List Char)
  | '+' :: rest => (digits rest).map fun (n, rest) => ((n : Int), rest)
  | '-' :: rest => (digits rest).map fun (n, rest) => (-(n : Int), rest)
  | cs => (field 4 cs).map fun (n, rest) => ((n : Int), rest)

def expect (c : Char) : List Char → Option (List Char)
  | d :: rest => if c == d then some rest else none
  | [] => none

def date (cs : List Char) : Option (Calendar.Date × List Char) := do
  let (year, cs) ← year cs
  let cs ← expect '-' cs
  let (month, cs) ← field 2 cs
  let cs ← expect '-' cs
  let (day, cs) ← field 2 cs
  if isDate ⟨year, month, day⟩ then some (⟨year, month, day⟩, cs) else none

def separator : List Char → Option (List Char)
  | 'T' :: rest => some rest
  | 't' :: rest => some rest
  | ' ' :: rest => some rest
  | _ => none

def fraction : List Char → Option (List Char × List Char)
  | '.' :: rest =>
    let digits := rest.takeWhile Char.isDigit
    if digits.isEmpty then none else some (digits, rest.dropWhile Char.isDigit)
  | cs => some ([], cs)

/-- A time of day. A leap second follows the second that it is counted as. -/
structure Clock where
  seconds : Nat
  leap : Bool
  /-- The decimals of the second. -/
  decimals : List Char

def clock (cs : List Char) : Option (Clock × List Char) := do
  let (hour, cs) ← field 2 cs
  let cs ← expect ':' cs
  let (minute, cs) ← field 2 cs
  let cs ← expect ':' cs
  let (second, cs) ← field 2 cs
  let (decimals, cs) ← fraction cs
  if hour ≤ 23 && minute ≤ 59 && second ≤ 60 then
    some (⟨hour * 3600 + minute * 60 + min second 59, second == 60, decimals⟩, cs)
  else none

def direction (sign : Char) : Option Int :=
  if sign == '+' then some 1 else if sign == '-' then some (-1) else none

/-- Seconds by which a clock is ahead of UTC. -/
def offset : List Char → Option Int
  | ['Z'] => some 0
  | ['z'] => some 0
  | sign :: rest => do
    let s ← direction sign
    let (h, rest) ← field 2 rest
    let rest ← expect ':' rest
    let (m, rest) ← field 2 rest
    if rest.isEmpty && h ≤ 23 && m ≤ 59 then some (s * (h * 3600 + m * 60)) else none
  | [] => none

/-- A second of UTC, counted from 1970-01-01, with its decimals. -/
structure Moment where
  unix : Int
  leap : Bool
  decimals : List Char

namespace Moment

def instant (m : Moment) : Calendar.Instant :=
  .ofUnix m.unix (if m.leap then 1000000000 else 0)

def ofChars? (cs : List Char) : Option Moment := do
  let (date, cs) ← date cs
  let cs ← separator cs
  let (clock, cs) ← clock cs
  let shift ← offset cs
  let m : Moment := {
    unix := daysOf date.year date.month date.day * 86400 + clock.seconds - shift
    leap := clock.leap
    decimals := clock.decimals }
  if isYear m.instant.date.year then some m else none

end Moment

def dateText (d : Calendar.Date) : List Char :=
  Calendar.yearText d.year ++ '-' :: (Calendar.padded 2 d.month ++ '-' :: Calendar.padded 2 d.day)

def clockText (i : Calendar.Instant) : List Char :=
  Calendar.padded 2 i.hour ++ ':' ::
    (Calendar.padded 2 i.minute ++ ':' :: Calendar.padded 2 i.second)

def fractionText (places : Nat) (decimals : List Char) : List Char :=
  if places == 0 then [] else '.' :: (decimals ++ List.replicate places '0').take places

def Moment.text (places : Nat) (m : Moment) : List Char :=
  dateText m.instant.date ++ 'T' ::
    (clockText m.instant ++ (fractionText places m.decimals ++ ['Z']))

/-- The timestamp in UTC with `places` decimals of a second. -/
def normalize (places : Nat) (s : String) : Option String :=
  (Moment.ofChars? s.toList).map fun m => String.ofList (m.text places)

end MultiCluster.Timestamp
