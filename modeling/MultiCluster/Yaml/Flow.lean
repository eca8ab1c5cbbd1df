import MultiCluster.Yaml.Node

/-! Reading quoted scalars, and collections in brackets and braces. Line breaks count as white
space in collections and are folded in scalars: one becomes a space, further ones stay. -/
namespace MultiCluster.Yaml

def isSpaceOrTab (c : Char) : Bool := c == ' ' || c == '\t'

def isSpacing (c : Char) : Bool := c == ' ' || c == '\t' || c == '\n'

def spacingFollows : List Char → Bool
  | [] => true
  | c :: _ => isSpacing c

def dropBlanks (cs : List Char) : List Char := cs.dropWhile isSpaceOrTab

/-- A text, last character first, without the blanks at its end. -/
def trimReversed (acc : List Char) : List Char := acc.dropWhile isSpaceOrTab

/-- Behind a line break: the number of further line breaks before more text, and that text. -/
def afterBreak : Nat → List Char → Nat × List Char
  | n, [] => (n, [])
  | n, c :: rest =>
    if c == '\n' then afterBreak (n + 1) rest
    else if isSpaceOrTab c then afterBreak n rest
    else (n, c :: rest)

/-- What folded line breaks leave behind. -/
def folded (further : Nat) : List Char :=
  if further = 0 then [' '] else List.replicate further '\n'

/-- The rest of a single-quoted scalar behind its opening quote; `acc` is last character first. -/
def singleQuoted : Nat → List Char → List Char → Option (String × List Char)
  | 0, _, _ => none
  | fuel + 1, acc, cs =>
    match cs with
    | [] => none
    | '\'' :: '\'' :: rest => singleQuoted fuel ('\'' :: acc) rest
    | '\'' :: rest => some (String.ofList acc.reverse, rest)
    | '\n' :: rest =>
      let (further, rest) := afterBreak 0 rest
      singleQuoted fuel (folded further ++ trimReversed acc) rest
    | c :: rest => singleQuoted fuel (c :: acc) rest

def hexDigits? (cs : List Char) : Option Char := do
  let n ← cs.foldlM (fun acc c => (digitIn? 16 c.toLower).map fun d => acc * 16 + d) 0
  if n.isValidChar then some (Char.ofNat n) else none

/-- The character that an escape stands for, and the text behind it. -/
def escape? : List Char → Option (Char × List Char)
  | [] => none
  | c :: rest =>
    let numbered (width : Nat) : Option (Char × List Char) :=
      if rest.length < width then none
      else (hexDigits? (rest.take width)).map fun d => (d, rest.drop width)
    if c == 'x' then numbered 2
    else if c == 'u' then numbered 4
    else if c == 'U' then numbered 8
    else
      let found := [('0', '\x00'), ('a', '\x07'), ('b', '\x08'), ('t', '\t'), ('\t', '\t'),
        ('n', '\n'), ('v', '\x0b'), ('f', '\x0c'), ('r', '\r'), ('e', '\x1b'), (' ', ' '),
        ('"', '"'), ('/', '/'), ('\\', '\\'), ('N', '\u0085'), ('_', '\u00a0'),
        ('L', '\u2028'), ('P', '\u2029')].find? fun e => e.1 == c
      found.map fun e => (e.2, rest)

/-- The rest of a double-quoted scalar behind its opening quote; `acc` is last character first. -/
def doubleQuoted : Nat → List Char → List Char → Option (String × List Char)
  | 0, _, _ => none
  | fuel + 1, acc, cs =>
    match cs with
    | [] => none
    | '"' :: rest => some (String.ofList acc.reverse, rest)
    | '\\' :: '\n' :: rest => doubleQuoted fuel acc (dropBlanks rest)
    | '\\' :: rest => do
      let (c, rest) ← escape? rest
      doubleQuoted fuel (c :: acc) rest
    | '\n' :: rest =>
      let (further, rest) := afterBreak 0 rest
      doubleQuoted fuel (folded further ++ trimReversed acc) rest
    | c :: rest => doubleQuoted fuel (c :: acc) rest

def quotedScalar? : List Char → Option (Node × List Char)
  | '\'' :: rest => (singleQuoted (rest.length + 1) [] rest).map fun (s, r) => (.scalar s false, r)
  | '"' :: rest => (doubleQuoted (rest.length + 1) [] rest).map fun (s, r) => (.scalar s false, r)
  | _ => none

def isFlowIndicator (c : Char) : Bool := [',', '[', ']', '\x7b', '\x7d'].contains c

/-- Whether a plain scalar may begin so. -/
def startsPlain : List Char → Bool
  | [] => false
  | c :: rest =>
    if c == '-' then !(rest.head?.any isSpaceOrTab)
    else if c == '?' || c == ':' then !spacingFollows rest
    else !(isSpacing c || isFlowIndicator c ||
      ['#', '&', '*', '!', '|', '>', '\'', '"', '%', '@', '\x60'].contains c)

/-- Skip white space and comments; `fresh` tells whether a comment may begin here. -/
def skipSpacing : Nat → Bool → List Char → List Char
  | 0, _, cs => cs
  | fuel + 1, fresh, cs =>
    match cs with
    | [] => []
    | c :: rest =>
      if isSpacing c then skipSpacing fuel true rest
      else if c == '#' && fresh then skipSpacing fuel true (rest.dropWhile (· != '\n'))
      else c :: rest

def skip (cs : List Char) : List Char := skipSpacing (cs.length + 1) true cs

/-- A plain scalar inside brackets or braces; `acc` is last character first. -/
def flowPlain : Nat → List Char → List Char → Option (Node × List Char)
  | 0, _, _ => none
  | fuel + 1, acc, cs =>
    let done : Option (Node × List Char) :=
      some (.scalar (String.ofList (trimReversed acc).reverse) true, cs)
    match cs with
    | [] => done
    | '#' :: _ => if acc.head?.any isSpacing then done else next fuel acc cs
    | ':' :: rest =>
      if spacingFollows rest then done
      else if rest.head?.any fun c => isFlowIndicator c || c == '?' then none
      else next fuel acc cs
    | '\n' :: rest =>
      let (further, rest) := afterBreak 0 rest
      if rest.isEmpty || rest.head? == some '#' then done
      else flowPlain fuel (folded further ++ trimReversed acc) rest
    | c :: _ => if isFlowIndicator c then done else next fuel acc cs
where
  next (fuel : Nat) (acc cs : List Char) : Option (Node × List Char) :=
    match cs with
    | [] => none
    | c :: rest => flowPlain fuel (c :: acc) rest

mutual
def flowNode : Nat → List Char → Option (Node × List Char)
  | 0, _ => none
  | fuel + 1, cs =>
    match cs with
    | '[' :: rest => (flowItems fuel [] (skip rest)).map fun (items, r) => (.sequence items, r)
    | '\x7b' :: rest => (flowEntries fuel [] (skip rest)).map fun (entries, r) => (.mapping entries, r)
    | '\'' :: _ => quotedScalar? cs
    | '"' :: _ => quotedScalar? cs
    | '?' :: _ => none
    | ':' :: _ => none
    | _ => if startsPlain cs then flowPlain (cs.length + 1) [] cs else none
def flowValue : Nat → List Char → Option (Node × List Char)
  | 0, _ => none
  | fuel + 1, cs =>
    match cs with
    | ',' :: _ => some (.nothing, cs)
    | '\x7d' :: _ => some (.nothing, cs)
    | ']' :: _ => some (.nothing, cs)
    | _ => flowNode fuel cs
def flowItems : Nat → List Node → List Char → Option (List Node × List Char)
  | 0, _, _ => none
  | fuel + 1, acc, cs =>
    match cs with
    | ']' :: rest => some (acc.reverse, rest)
    | _ => do
      let (item, rest) ← flowNode fuel cs
      let (item, rest) ← match skip rest with
        | ':' :: rest => (flowValue fuel (skip rest)).map fun (v, r) => (.mapping [(item, v)], r)
        | rest => some (item, rest)
      match skip rest with
      | ',' :: rest => flowItems fuel (item :: acc) (skip rest)
      | ']' :: rest => some ((item :: acc).reverse, rest)
      | _ => none
def flowEntries : Nat → List (Node × Node) → List Char → Option (List (Node × Node) × List Char)
  | 0, _, _ => none
  | fuel + 1, acc, cs =>
    match cs with
    | '\x7d' :: rest => some (acc.reverse, rest)
    | _ => do
      let (key, rest) ← match cs with
        | ':' :: _ => some (.nothing, cs)
        | _ => flowNode fuel cs
      let (v, rest) ← match skip rest with
        | ':' :: rest => flowValue fuel (skip rest)
        | rest => some (.nothing, rest)
      match skip rest with
      | ',' :: rest => flowEntries fuel ((key, v) :: acc) (skip rest)
      | '\x7d' :: rest => some (((key, v) :: acc).reverse, rest)
      | _ => none
end

end MultiCluster.Yaml
