/-! Spans of time in whole nanoseconds, up to the largest that 64-bit seconds can express. -/
namespace MultiCluster

structure Duration where
  nanos : Nat
  deriving DecidableEq, Repr, Inhabited

namespace Duration

def ofSeconds (s : Nat) : Duration := ⟨s * 1000000000⟩
def ofMillis (ms : Nat) : Duration := ⟨ms * 1000000⟩
def ofMicros (us : Nat) : Duration := ⟨us * 1000⟩

def zero : Duration := ⟨0⟩

/-- 2⁶⁴ - 1 seconds and 999999999 nanoseconds. -/
def largest : Duration := ⟨1 <<< 64 * 1000000000 - 1⟩

def add (a b : Duration) : Duration := ⟨a.nanos + b.nanos⟩

/-- A multiple, or the largest duration if that is smaller. -/
def scale (d : Duration) (factor : Nat) : Duration := ⟨min (d.nanos * factor) largest.nanos⟩

def atMost (d cap : Duration) : Duration := ⟨min d.nanos cap.nanos⟩

def trimZeros (cs : List Char) : List Char := (cs.reverse.dropWhile (· == '0')).reverse

/-- A number with `places` decimal places, given in units of the last place, trailing zeros left
out. -/
def fixed (n places : Nat) : List Char :=
  let unit := Nat.pow 10 places
  let digits := Nat.toDigits 10 (n % unit)
  let fraction := trimZeros (List.replicate (places - digits.length) '0' ++ digits)
  Nat.toDigits 10 (n / unit) ++ (if fraction.isEmpty then [] else '.' :: fraction)

/-- The text in the largest unit of s, ms, µs and ns that is not below one. -/
def text (d : Duration) : String :=
  if 1000000000 ≤ d.nanos then String.ofList (fixed d.nanos 9) ++ "s"
  else if 1000000 ≤ d.nanos then String.ofList (fixed d.nanos 6) ++ "ms"
  else if 1000 ≤ d.nanos then String.ofList (fixed d.nanos 3) ++ "µs"
  else String.ofList (Nat.toDigits 10 d.nanos) ++ "ns"

end Duration
end MultiCluster
