import MultiCluster.Json.Numeral
import MultiCluster.Text.Join

/-! Tokens of JSON text. The scanner reads one character at a time; a string keeps its
`\u` escapes as 16-bit code units until they are put together. -/
namespace MultiCluster.Json

/-- A piece of a string: a character as written, or a 16-bit code unit. -/
inductive StringUnit where
  | plain (c : Char)
  | code (n : Nat)
  deriving DecidableEq, Repr

def isHighSurrogate (n : Nat) : Bool := 0xD800 ≤ n && n < 0xDC00
def isLowSurrogate (n : Nat) : Bool := 0xDC00 ≤ n && n < 0xE000

/-- The characters of a string; `none` if a surrogate stands alone. -/
def decodeUnits : List StringUnit → Option (List Char)
  | [] => some []
  | .plain c :: rest => (decodeUnits rest).map (c :: ·)
  | .code a :: rest =>
    if isHighSurrogate a then
      match rest with
      | .code b :: rest =>
        if isLowSurrogate b then
          (decodeUnits rest).map (Char.ofNat (0x10000 + (a - 0xD800) * 0x400 + (b - 0xDC00)) :: ·)
        else none
      | _ => none
    else if isLowSurrogate a then none
    else (decodeUnits rest).map (Char.ofNat a :: ·)

inductive Token where
  | openArray | closeArray | openObject | closeObject | comma | colon
  | null
  | bool (b : Bool)
  | number (n : Numeral)
  | string (units : List StringUnit)
  deriving DecidableEq, Repr

/-- Where the scanner stands. Characters and pieces read so far are kept last first. -/
inductive ScanMode where
  | idle
  | word (acc : List Char)
  | number (acc : List Char)
  | string (acc : List StringUnit)
  | escape (acc : List StringUnit)
  | hex (acc : List StringUnit) (missing value : Nat)
  deriving DecidableEq, Repr

def isNumberChar (c : Char) : Bool :=
  c.isDigit || c == '-' || c == '+' || c == '.' || c == 'e' || c == 'E'

def hexValue? (c : Char) : Option Nat :=
  if '0' ≤ c && c ≤ '9' then some (c.toNat - 48)
  else if 'a' ≤ c && c ≤ 'f' then some (c.toNat - 87)
  else if 'A' ≤ c && c ≤ 'F' then some (c.toNat - 55)
  else none

def ScanMode.finish : ScanMode → Option (List Token)
  | .idle => some []
  | .word ['l', 'l', 'u', 'n'] => some [.null]
  | .word ['e', 'u', 'r', 't'] => some [.bool true]
  | .word ['e', 's', 'l', 'a', 'f'] => some [.bool false]
  | .number acc => (Numeral.ofChars? acc.reverse).map fun n => [.number n]
  | _ => none

def scanIdle (c : Char) : Option (ScanMode × List Token) :=
  if c == ' ' || c == '\n' || c == '\t' || c == '\r' then some (.idle, [])
  else if c == '[' then some (.idle, [.openArray])
  else if c == ']' then some (.idle, [.closeArray])
  else if c == '\x7b' then some (.idle, [.openObject])
  else if c == '\x7d' then some (.idle, [.closeObject])
  else if c == ',' then some (.idle, [.comma])
  else if c == ':' then some (.idle, [.colon])
  else if c == '"' then some (.string [], [])
  else if c == '-' || c.isDigit then some (.number [c], [])
  else if c.isLower then some (.word [c], [])
  else none

def simpleEscape? (c : Char) : Option Char :=
  if c == '"' || c == '\\' || c == '/' then some c
  else if c == 'b' then some '\x08'
  else if c == 'f' then some '\x0c'
  else if c == 'n' then some '\n'
  else if c == 'r' then some '\r'
  else if c == 't' then some '\t'
  else none

/-- One character: the next mode and the tokens it completes; `none` if the text is not JSON. -/
def scanStep : ScanMode → Char → Option (ScanMode × List Token)
  | .idle, c => scanIdle c
  | .word acc, c =>
    if c.isLower then some (.word (c :: acc), [])
    else do
      let done ← (ScanMode.word acc).finish
      let (m, ts) ← scanIdle c
      pure (m, done ++ ts)
  | .number acc, c =>
    if isNumberChar c then some (.number (c :: acc), [])
    else do
      let done ← (ScanMode.number acc).finish
      let (m, ts) ← scanIdle c
      pure (m, done ++ ts)
  | .string acc, c =>
    if c == '"' then some (.idle, [.string acc.reverse])
    else if c == '\\' then some (.escape acc, [])
    else if c.toNat < 0x20 then none
    else some (.string (.plain c :: acc), [])
  | .escape acc, c =>
    if c == 'u' then some (.hex acc 4 0, [])
    else (simpleEscape? c).map fun c => (.string (.plain c :: acc), [])
  | .hex acc missing value, c =>
    (hexValue? c).map fun d =>
      let value := 16 * value + d
      if missing ≤ 1 then (.string (.code value :: acc), []) else (.hex acc (missing - 1) value, [])

def scan : ScanMode → List Char → Option (List Token)
  | m, [] => m.finish
  | m, c :: rest => do
    let (m, ts) ← scanStep m c
    let more ← scan m rest
    pure (ts ++ more)

def tokens? (cs : List Char) : Option (List Token) := scan .idle cs

end MultiCluster.Json
