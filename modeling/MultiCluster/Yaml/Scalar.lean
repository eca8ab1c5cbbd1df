import MultiCluster.Json.Printer
import MultiCluster.Yaml.Resolve

/-! How a text is written: plain where it reads back as itself, in single quotes where it would
read as something else or the syntax forbids plain, in double quotes with escapes where it holds
characters that do not print, and as a literal block if it has line feeds. -/
namespace MultiCluster.Yaml

def isBreak (c : Char) : Bool :=
  c == '\n' || c == '\r' || c == '\u0085' || c == '\u2028' || c == '\u2029'

def isGap (c : Char) : Bool := c == ' ' || c == '\t' || isBreak c

def isPrintable (c : Char) : Bool :=
  let n := c.toNat
  n == 0x0A || (0x20 ≤ n && n ≤ 0x7E) || (0xA0 ≤ n && n ≤ 0xD7FF) ||
    (0xE000 ≤ n && n ≤ 0xFFFD && n != 0xFEFF) || 0x10000 ≤ n

/-- Whether some character and the one after it have two properties. -/
def adjacent (first second : Char → Bool) : List Char → Bool
  | c :: d :: rest => (first c && second d) || adjacent first second (d :: rest)
  | _ => false

def gapFollows : List Char → Bool
  | [] => true
  | c :: _ => isGap c

/-- Characters with a meaning of their own at the start of a scalar. -/
def isIndicator (c : Char) : Bool :=
  ['#', ',', '[', ']', '\x7b', '\x7d', '&', '*', '!', '|', '>', '\'', '"', '%', '@', '\x60'].contains c

/-- Whether the start of a scalar means something else. -/
def startsSpecially : List Char → Bool
  | '-' :: '-' :: '-' :: _ => true
  | '.' :: '.' :: '.' :: _ => true
  | c :: rest =>
    isIndicator c || ((c == '?' || c == ':' || c == '-') && gapFollows rest)
  | [] => false

/-- Whether a colon before a gap, or a number sign after one, stands behind the first character. -/
def hasMark : List Char → Bool
  | c :: d :: rest =>
    (d == ':' && gapFollows rest) || (d == '#' && isGap c) || hasMark (d :: rest)
  | _ => false

def beginsWith (p : Char → Bool) (cs : List Char) : Bool := cs.head?.any p

def endsWith (p : Char → Bool) (cs : List Char) : Bool := cs.getLast?.any p

/-- Breaks after spaces and characters that do not print can only be escaped. -/
def needsEscapes (cs : List Char) : Bool :=
  adjacent (· == ' ') isBreak cs || cs.any fun c => !isPrintable c

def allowsPlain (cs : List Char) : Bool :=
  !(needsEscapes cs || cs.any isBreak || beginsWith (· == ' ') cs || endsWith (· == ' ') cs ||
    startsSpecially cs || hasMark cs)

def allowsQuotes (cs : List Char) : Bool := !(needsEscapes cs || adjacent isBreak (· == ' ') cs)

def allowsBlock (cs : List Char) : Bool := !(needsEscapes cs || endsWith (· == ' ') cs)

inductive Style where
  | plain | quoted | escaped | block
  deriving DecidableEq, Repr

def style (s : String) : Style :=
  let cs := s.toList
  if cs.contains '\n' then if allowsBlock cs then .block else .escaped
  else if readsAsText s && allowsPlain cs then .plain
  else if allowsQuotes cs then .quoted
  else .escaped

def spaces (n : Nat) : List Char := List.replicate n ' '

def lines (indent : Nat) (write : Char → List Char) : Bool → List Char → List Char
  | _, [] => []
  | fresh, c :: rest =>
    if isBreak c then c :: lines indent write true rest
    else (if fresh then spaces indent else []) ++ write c ++ lines indent write false rest

def quoteChar (c : Char) : List Char := if c == '\'' then ['\'', '\''] else [c]

def quotedScalar (indent : Nat) (cs : List Char) : List Char :=
  '\'' :: (lines indent quoteChar false cs ++
    (if endsWith isBreak cs then spaces indent else []) ++ ['\''])

def upperHex (width n : Nat) : List Char :=
  let digits := (Nat.toDigits 16 n).map Char.toUpper
  List.replicate (width - digits.length) '0' ++ digits

def escapeChar (c : Char) : List Char :=
  let n := c.toNat
  if c == '"' || c == '\\' then ['\\', c]
  else if isPrintable c && !isBreak c then [c]
  else if n == 0x00 then ['\\', '0']
  else if n == 0x07 then ['\\', 'a']
  else if n == 0x08 then ['\\', 'b']
  else if n == 0x09 then ['\\', 't']
  else if n == 0x0A then ['\\', 'n']
  else if n == 0x0B then ['\\', 'v']
  else if n == 0x0C then ['\\', 'f']
  else if n == 0x0D then ['\\', 'r']
  else if n == 0x1B then ['\\', 'e']
  else if n == 0x85 then ['\\', 'N']
  else if n == 0x2028 then ['\\', 'L']
  else if n == 0x2029 then ['\\', 'P']
  else if n ≤ 0xFF then '\\' :: 'x' :: upperHex 2 n
  else if n ≤ 0xFFFF then '\\' :: 'u' :: upperHex 4 n
  else '\\' :: 'U' :: upperHex 8 n

def escapedScalar (cs : List Char) : List Char := '"' :: (cs.flatMap escapeChar ++ ['"'])

/-- How line breaks at the end of a block are kept: `-` if there is none, `+` if there are several
or nothing else. -/
def chomping (cs : List Char) : List Char :=
  match cs.reverse with
  | [] => ['-']
  | [c] => if isBreak c then ['+'] else ['-']
  | c :: d :: _ => if !isBreak c then ['-'] else if isBreak d then ['+'] else []

/-- A literal block; a digit states the indentation if the first line would hide it. -/
def blockScalar (indent : Nat) (cs : List Char) : List Char :=
  '|' :: ((if beginsWith (fun c => c == ' ' || isBreak c) cs then ['2'] else []) ++ chomping cs ++
    '\n' :: (lines indent (fun c => [c]) true cs ++ (if endsWith isBreak cs then [] else ['\n'])))

def scalar (indent : Nat) (s : String) : List Char :=
  let cs := s.toList
  match style s with
  | .plain => cs ++ ['\n']
  | .quoted => quotedScalar indent cs ++ ['\n']
  | .escaped => escapedScalar cs ++ ['\n']
  | .block => blockScalar indent cs

end MultiCluster.Yaml
