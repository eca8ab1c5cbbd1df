import MultiCluster.Json.Basic
import MultiCluster.Text.Numeral

/-! JSON numbers as they are written, and the values they stand for.

Whole numbers of the 64-bit ranges are exact. Every other number becomes a double: its leading
digits are gathered into a 64-bit significand for as long as they fit, the significand is rounded
to a double, and the remaining power of ten is multiplied in or divided out. -/
namespace MultiCluster.Json

/-- Digits of a number, most significant first. -/
structure Numeral where
  negative : Bool
  whole : List Nat
  fraction : List Nat
  /-- Whether the exponent is negative, and its digits. -/
  exponent : Option (Bool × List Nat)
  deriving DecidableEq, Repr

namespace Numeral

def splitDigits : List Char → List Nat × List Char
  | [] => ([], [])
  | c :: rest =>
    match Text.digit? c with
    | some d => let (ds, r) := splitDigits rest; (d :: ds, r)
    | none => ([], c :: rest)

def readExponent (negative : Bool) (cs : List Char) : Option (Option (Bool × List Nat)) :=
  match splitDigits cs with
  | (d :: ds, []) => some (some (negative, d :: ds))
  | _ => none

def exponent? : List Char → Option (Option (Bool × List Nat))
  | [] => some none
  | e :: '+' :: rest => if e == 'e' || e == 'E' then readExponent false rest else none
  | e :: '-' :: rest => if e == 'e' || e == 'E' then readExponent true rest else none
  | e :: rest => if e == 'e' || e == 'E' then readExponent false rest else none

def unsigned? (negative : Bool) (cs : List Char) : Option Numeral :=
  match splitDigits cs with
  | ([], _) => none
  | (0 :: _ :: _, _) => none
  | (whole, '.' :: rest) =>
    match splitDigits rest with
    | ([], _) => none
    | (fraction, rest) => (exponent? rest).map fun e => ⟨negative, whole, fraction, e⟩
  | (whole, rest) => (exponent? rest).map fun e => ⟨negative, whole, [], e⟩

def ofChars? : List Char → Option Numeral
  | '-' :: rest => unsigned? true rest
  | cs => unsigned? false cs

def maxWord : Nat := 1 <<< 64 - 1

/-- Gather digits while the significand fits 64 bits; what is left over comes back. -/
def gather (acc : Nat) : List Nat → Nat × List Nat
  | [] => (acc, [])
  | d :: rest => if 10 * acc + d ≤ maxWord then gather (10 * acc + d) rest else (acc, d :: rest)

/-- The exponent, or `none` if it passes 2³¹ - 1. -/
def exponentValue (ds : List Nat) : Option Nat :=
  let n := ds.foldl (fun acc d => if acc ≤ 1 <<< 31 - 1 then 10 * acc + d else acc) 0
  if n ≤ 1 <<< 31 - 1 then some n else none

def power (n : Nat) : Option Binary64 := Binary64.ofRatio false (Nat.pow 10 n) 1

/-- Divide out a power of ten beyond the range of doubles in steps of 10³⁰⁸. -/
def scaleDown : Nat → Binary64 → Nat → Option Binary64
  | 0, x, _ => some { x with mantissa := 0, exponent := Binary64.minExponent }
  | fuel + 1, x, n =>
    if n ≤ 308 then (power n).bind x.div
    else if x.isZero then some x
    else do
      let big ← power 308
      scaleDown fuel (← x.div big) (n - 308)

/-- `significand · 10 ^ e`, rounded step by step; `none` beyond the largest double. -/
def scale (significand : Nat) (e : Int) : Option Binary64 := do
  let x ← Binary64.ofRatio false significand 1
  if 0 ≤ e then
    if e ≤ 308 then x.mul (← power e.toNat)
    else if x.isZero then some x
    else none
  else scaleDown 4 x (-e).toNat

def signed (negative : Bool) (x : Binary64) : Json := .float (if negative then x.negate else x)

/-- The double of a number with a fraction or an exponent, or of a whole number that is too long. -/
def float? (n : Numeral) : Option Json :=
  let (s, left) := gather 0 n.whole
  let (s, unread) := gather s n.fraction
  let start : Int := (left.length : Int) - ((n.fraction.length : Int) - unread.length)
  match n.exponent with
  | none => (scale s start).map (signed n.negative)
  | some (down, ds) =>
    match exponentValue ds with
    | some e => (scale s (if down then start - e else start + e)).map (signed n.negative)
    | none =>
      if s != 0 && !down then none else some (signed n.negative ⟨false, 0, Binary64.minExponent⟩)

/-- The value of a number; `none` if it lies beyond the largest double. -/
def value? (n : Numeral) : Option Json :=
  if n.fraction.isEmpty && n.exponent.isNone then
    match gather 0 n.whole with
    | (s, []) =>
      if !n.negative then some (.int s)
      else if 0 < s && s ≤ 1 <<< 63 then some (.int (-s))
      else (Binary64.ofRatio false s 1).map (signed true)
    | _ => n.float?
  else n.float?

end Numeral
end MultiCluster.Json
