/-! Finite double-precision numbers as exact values `± mantissa · 2 ^ exponent`, with rounding to
nearest, ties to even, done in whole numbers. -/
namespace MultiCluster

/-- A finite double: 53-bit mantissas, exponents from -1074 to 971. -/
structure Binary64 where
  negative : Bool
  mantissa : Nat
  exponent : Int
  deriving DecidableEq, Repr

namespace Binary64

def minExponent : Int := -1074
def maxExponent : Int := 971

/-- The quotient `num / den` to the nearest whole number, ties to even. -/
def roundQuotient (num den : Nat) : Nat :=
  let q := num / den
  let r := num % den
  if 2 * r < den then q
  else if den < 2 * r then q + 1
  else q + q % 2

/-- The quotient `num / den · 2 ^ -e` to the nearest whole number. -/
def scaledQuotient (num den : Nat) (e : Int) : Nat :=
  if 0 ≤ e then roundQuotient num (den <<< e.toNat)
  else roundQuotient (num <<< (-e).toNat) den

/-- The exponent whose mantissa for `num / den` has 53 bits, unless that is below the least. -/
def exponentFor (num den : Nat) : Int :=
  let guess : Int := (Nat.log2 num : Int) - (Nat.log2 den : Int) - 53
  let e :=
    -- `num / den` lies between 2 ^ (guess + 52) and 2 ^ (guess + 54)
    if (if 0 ≤ guess + 53 then den <<< (guess + 53).toNat ≤ num
        else den ≤ num <<< (-(guess + 53)).toNat) then guess + 1 else guess
  max e minExponent

/-- The double nearest to `num / den`; `none` if that lies beyond the largest double. -/
def ofRatio (negative : Bool) (num den : Nat) : Option Binary64 :=
  if num == 0 then some ⟨negative, 0, minExponent⟩
  else
    let e := exponentFor num den
    let m := scaledQuotient num den e
    let (m, e) := if m == 1 <<< 53 then (1 <<< 52, e + 1) else (m, e)
    if e > maxExponent then none else some ⟨negative, m, e⟩

def ratio (x : Binary64) : Nat × Nat :=
  if 0 ≤ x.exponent then (x.mantissa <<< x.exponent.toNat, 1)
  else (x.mantissa, 1 <<< (-x.exponent).toNat)

def zero : Binary64 := ⟨false, 0, minExponent⟩

def isZero (x : Binary64) : Bool := x.mantissa == 0

def negate (x : Binary64) : Binary64 := { x with negative := !x.negative }

/-- The rounded product; `none` on overflow. -/
def mul (x y : Binary64) : Option Binary64 :=
  let (a, b) := x.ratio
  let (c, d) := y.ratio
  ofRatio (x.negative != y.negative) (a * c) (b * d)

/-- The rounded quotient by a non-zero double; `none` on overflow. -/
def div (x y : Binary64) : Option Binary64 :=
  let (a, b) := x.ratio
  let (c, d) := y.ratio
  ofRatio (x.negative != y.negative) (a * d) (b * c)

end Binary64
end MultiCluster
