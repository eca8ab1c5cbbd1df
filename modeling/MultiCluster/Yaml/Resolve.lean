import MultiCluster.Number.Binary64
import MultiCluster.Text.Join
import MultiCluster.Text.Numeral

/-! What an unquoted scalar stands for: null, a boolean, a number, or a text. -/
namespace MultiCluster.Yaml

def isNullWord (s : String) : Bool := ["null", "Null", "NULL", "~"].contains s

def isBoolWord (s : String) : Bool :=
  ["true", "True", "TRUE", "false", "False", "FALSE"].contains s

def digitIn? (base : Nat) (c : Char) : Option Nat :=
  let n := c.toNat
  let value := if c.isDigit then n - 48 else if c.isLower then n - 87 else if c.isUpper then n - 55
    else base
  if value < base then some value else none

/-- One or more digits in a base, below a limit. -/
def isDigitsIn (base limit : Nat) (cs : List Char) : Bool :=
  !cs.isEmpty &&
    match cs.foldlM (fun acc c => (digitIn? base c).map fun d => acc * base + d) 0 with
    | some n => n < limit
    | none => false

def dropPlus : List Char → List Char
  | '+' :: rest => rest
  | cs => cs

def dropSign : List Char → List Char
  | '+' :: rest => rest
  | '-' :: rest => rest
  | cs => cs

/-- A leading zero and more digits: a text, in spite of its looks. -/
def isPaddedDigits (cs : List Char) : Bool :=
  match dropSign cs with
  | '0' :: c :: rest => (c :: rest).all Char.isDigit
  | _ => false

/-- A magnitude with a base mark (`0x`, `0o`, `0b`), or decimal without padding. -/
def isMagnitude (limit : Nat) : List Char → Bool
  | '0' :: 'x' :: rest => isDigitsIn 16 limit rest
  | '0' :: 'o' :: rest => isDigitsIn 8 limit rest
  | '0' :: 'b' :: rest => isDigitsIn 2 limit rest
  | cs => !isPaddedDigits cs && isDigitsIn 10 limit cs

/-- A whole number of at most 128 bits. -/
def isInteger (cs : List Char) : Bool :=
  match cs with
  | '-' :: rest => isMagnitude (1 <<< 127 + 1) rest
  | cs => !isPaddedDigits cs && isMagnitude (1 <<< 128) (dropPlus cs)

def mantissa (cs : List Char) : List Char × List Char × List Char :=
  let whole := cs.takeWhile Char.isDigit
  match cs.dropWhile Char.isDigit with
  | '.' :: rest => (whole, rest.takeWhile Char.isDigit, rest.dropWhile Char.isDigit)
  | rest => (whole, [], rest)

def exponent? : List Char → Option Int
  | [] => some 0
  | c :: rest =>
    if c == 'e' || c == 'E' then
      match rest with
      | '-' :: ds => (Text.digits? ds).map fun n => -(n : Int)
      | ds => (Text.digits? (dropPlus ds)).map fun n => (n : Int)
    else none

/-- Whether `digits · 10 ^ scale` rounds to a finite double. -/
def isFinite (digits : Nat) (scale : Int) : Bool :=
  if digits == 0 then true
  else
    let leading : Int := (Nat.toDigits 10 digits).length + scale
    if leading < 300 then true
    else if leading > 320 then false
    else (Binary64.ofRatio false (digits * Nat.pow 10 scale.toNat)
      (Nat.pow 10 (-scale).toNat)).isSome

def isDecimal (cs : List Char) : Bool :=
  let (whole, fraction, rest) := mantissa (dropSign cs)
  if whole.isEmpty && fraction.isEmpty then false
  else match exponent? rest, Text.digits? (whole ++ fraction) with
    | some e, some digits => isFinite digits (e - fraction.length)
    | _, _ => false

def isSpecialNumber (s : String) : Bool :=
  [".inf", ".Inf", ".INF", "+.inf", "+.Inf", "+.INF", "-.inf", "-.Inf", "-.INF", ".nan", ".NaN",
    ".NAN"].contains s

def isNumber (s : String) : Bool :=
  isInteger s.toList || isSpecialNumber s ||
    (!isPaddedDigits s.toList && isDecimal s.toList)

/-- Whether an unquoted scalar is a text and looks like one. -/
def readsAsText (s : String) : Bool :=
  !(s == "" || isNullWord s || isBoolWord s || isNumber s || isPaddedDigits s.toList)

end MultiCluster.Yaml
