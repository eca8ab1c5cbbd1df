import MultiCluster.Number.Binary64
import MultiCluster.Text.Numeral

/-! The shortest decimal text of a double: the fewest digits that round back to it, the nearest
such digits, written positionally between 10⁻⁵ and 10¹⁶ and with a signed exponent elsewhere. -/
namespace MultiCluster.Binary64

structure Decimal where
  digits : Nat
  power : Int
  deriving DecidableEq, Repr

def ofDecimal (negative : Bool) (d : Decimal) : Option Binary64 :=
  if 0 ≤ d.power then ofRatio negative (d.digits * Nat.pow 10 d.power.toNat) 1
  else ofRatio negative d.digits (Nat.pow 10 (-d.power).toNat)

def width (n : Nat) : Nat := (Nat.toDigits 10 n).length

/-- The power of ten of the first digit of `num / den`. -/
def leadingPower (num den : Nat) : Int :=
  let guess : Int := (width num : Int) - (width den : Int)
  if (if 0 ≤ guess then den * Nat.pow 10 guess.toNat ≤ num
      else den ≤ num * Nat.pow 10 (-guess).toNat) then guess else guess - 1

/-- The two neighbours of `num / den` on the grid of decimals with `count` digits, the nearer one
first. -/
def neighbours (num den count : Nat) : Decimal × Decimal :=
  let p := leadingPower num den - (count : Int) + 1
  let (a, b) :=
    if 0 ≤ p then (num, den * Nat.pow 10 p.toNat) else (num * Nat.pow 10 (-p).toNat, den)
  let near := roundQuotient a b
  let other := if near == a / b then near + 1 else a / b
  (⟨near, p⟩, ⟨other, p⟩)

/-- A decimal of the least count from `count` on, within `tries`, that rounds back to `x`. -/
def searchDecimal (x : Binary64) (num den : Nat) : Nat → Nat → Decimal
  | 0, count => (neighbours num den count).1
  | tries + 1, count =>
    let (near, other) := neighbours num den count
    if ofDecimal x.negative near = some x then near
    else if ofDecimal x.negative other = some x then other
    else searchDecimal x num den tries (count + 1)

def Decimal.trim (d : Decimal) : Nat → Decimal
  | 0 => d
  | fuel + 1 => if d.digits % 10 == 0 && d.digits != 0 then
      Decimal.trim ⟨d.digits / 10, d.power + 1⟩ fuel else d

/-- The shortest decimal of a non-zero double; seventeen digits always suffice. -/
def shortest (x : Binary64) : Decimal :=
  let (num, den) := x.ratio
  let d := searchDecimal x num den 16 1
  d.trim (width d.digits)

def zeros (n : Nat) : List Char := List.replicate n '0'

/-- Digits and power of the first digit, laid out. -/
def layout (digits : List Char) (first : Int) : List Char :=
  let n := digits.length
  if -5 ≤ first && first ≤ 15 then
    if 0 ≤ first then
      let whole := first.toNat + 1
      if n ≤ whole then digits ++ zeros (whole - n) ++ ['.', '0']
      else digits.take whole ++ '.' :: digits.drop whole
    else ['0', '.'] ++ zeros ((-first).toNat - 1) ++ digits
  else
    let mantissa := match digits with
      | [] => []
      | [d] => [d]
      | d :: rest => d :: '.' :: rest
    let sign := if first < 0 then '-' else '+'
    mantissa ++ 'e' :: sign :: Nat.toDigits 10 first.natAbs

def text (x : Binary64) : List Char :=
  let sign := if x.negative then ['-'] else []
  if x.isZero then sign ++ ['0', '.', '0']
  else
    let d := x.shortest
    let digits := Nat.toDigits 10 d.digits
    sign ++ layout digits (d.power + digits.length - 1)

end MultiCluster.Binary64
