import MultiCluster.Text.Case
import MultiCluster.Text.Join
import MultiCluster.Text.Numeral

/-! Addresses of servers: `scheme://host:port/path`, or a host and a port alone. -/
namespace MultiCluster.Kubeconfig

structure Address where
  scheme : Option String
  host : Option String
  port : Option Nat
  deriving DecidableEq, Repr

namespace Address

def maxLength : Nat := 65534

def isAuthorityChar (c : Char) : Bool :=
  c.isAlphanum || ['!', '#', '$', '&', '\'', '(', ')', '*', '+', ',', '-', '.', '/', ':', ';',
    '=', '?', '@', '[', ']', '_', '~'].contains c

def isSchemeChar (c : Char) : Bool := c.isAlphanum || c == '+' || c == '-' || c == '.'

def isPathChar (c : Char) : Bool :=
  let n := c.toNat
  n == 0x21 || n == 0x22 || (0x24 ≤ n && n ≤ 0x3B) || n == 0x3D || (0x3F ≤ n && n ≤ 0x5F) ||
    (0x61 ≤ n && n ≤ 0x7E)

/-- Path and query up to a fragment, which is ignored. -/
def isPath (cs : List Char) : Bool := (cs.takeWhile (· != '#')).all isPathChar

def splitScheme (cs : List Char) : Option String × List Char :=
  let name := cs.takeWhile isSchemeChar
  match cs.dropWhile isSchemeChar with
  | ':' :: '/' :: '/' :: rest =>
    if name.isEmpty then (none, cs)
    else
      let text := String.ofList name
      let known := Text.lower text
      (some (if known == "http" || known == "https" then known else text), rest)
  | _ => (none, cs)

def endsAuthority (c : Char) : Bool := c == '/' || c == '?' || c == '#'

structure Scan where
  /-- Colons since the user part and the brackets. -/
  colons : Nat
  opened : Bool
  closed : Bool
  /-- A percent sign since the user part and the brackets. -/
  percent : Bool
  /-- The last character was an at sign. -/
  afterAt : Bool

def scanChar (s : Scan) (c : Char) : Option Scan :=
  if c == ':' then if s.colons ≥ 8 then none else some { s with colons := s.colons + 1, afterAt := false }
  else if c == '[' then
    if s.percent || s.opened then none else some { s with opened := true, afterAt := false }
  else if c == ']' then
    if !s.opened || s.closed then none
    else some { s with closed := true, colons := 0, percent := false, afterAt := false }
  else if c == '@' then some { s with colons := 0, percent := false, afterAt := true }
  else if c == '%' then some { s with percent := true, afterAt := false }
  else if isAuthorityChar c then some { s with afterAt := false }
  else none

def isAuthority (cs : List Char) : Bool :=
  match cs.foldlM scanChar ⟨0, false, false, false, false⟩ with
  | none => false
  | some s => s.opened == s.closed && s.colons ≤ 1 && !s.afterAt && !s.percent

/-- The text behind the last occurrence of a character, or all of it. -/
def behindLast (c : Char) (cs : List Char) : List Char :=
  (cs.reverse.takeWhile (· != c)).reverse

/-- The host of an authority; one in brackets keeps them. -/
def hostOf (authority : List Char) : String :=
  let hostPort := behindLast '@' authority
  match hostPort with
  | '[' :: _ => String.ofList (hostPort.takeWhile (· != ']') ++ [']'])
  | _ => String.ofList (hostPort.takeWhile (· != ':'))

def portOf (authority : List Char) : Option Nat :=
  if authority.contains ':' then
    Text.boundedUnsigned? 65535 (String.ofList (behindLast ':' authority))
  else none

def ofAuthority (scheme : Option String) (authority : List Char) : Address :=
  ⟨scheme, some (hostOf authority), portOf authority⟩

def parse? (s : String) : Option Address :=
  let cs := s.toList
  if s.utf8ByteSize > maxLength then none
  else match cs with
    | [] => none
    | ['*'] => some ⟨none, none, none⟩
    | '/' :: _ => if isPath cs then some ⟨none, none, none⟩ else none
    | _ =>
      match splitScheme cs with
      | (none, _) =>
        if !cs.any endsAuthority && isAuthority cs then some (ofAuthority none cs) else none
      | (some scheme, rest) =>
        let authority := rest.takeWhile fun c => !endsAuthority c
        let path := rest.dropWhile fun c => !endsAuthority c
        if !authority.isEmpty && isAuthority authority && isPath path then
          some (ofAuthority (some scheme) authority)
        else none

end Address
end MultiCluster.Kubeconfig
