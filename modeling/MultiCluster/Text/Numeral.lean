/-! Unsigned decimal numerals: an optional plus sign, then one or more digits, leading zeros
allowed. -/
namespace MultiCluster.Text

def digit? (c : Char) : Option Nat :=
  if '0' ≤ c && c ≤ '9' then some (c.toNat - 48) else none

/-- The value of a digit string, most significant digit first, continuing from `acc`. -/
def digitsFrom (acc : Nat) : List Char → Option Nat
  | [] => some acc
  | c :: rest => (digit? c).bind fun d => digitsFrom (10 * acc + d) rest

/-- The value of a non-empty digit string. -/
def digits? : List Char → Option Nat
  | [] => none
  | cs => digitsFrom 0 cs

def unsigned? : List Char → Option Nat
  | '+' :: rest => digits? rest
  | cs => digits? cs

def integer? : List Char → Option Int
  | '-' :: rest => (digits? rest).map fun n => -(n : Int)
  | cs => (unsigned? cs).map Int.ofNat

def boundedUnsigned? (limit : Nat) (s : String) : Option Nat :=
  (unsigned? s.toList).filter (· ≤ limit)

def word32? (s : String) : Option UInt32 :=
  (boundedUnsigned? 0xFFFFFFFF s).map UInt32.ofNat

/-- Decimal digits without leading zeros. -/
def decimal (n : Nat) : String := String.ofList (Nat.toDigits 10 n)

end MultiCluster.Text
