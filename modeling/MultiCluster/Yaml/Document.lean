import MultiCluster.Text.Join
import MultiCluster.Yaml.Flow

/-! A reader of plain YAML documents. Block mappings and sequences are found by the indentation of
lines; scalars and collections in brackets may go on over several lines. Texts with anchors, tags,
block scalars or keys that are not scalars are beyond it. -/
namespace MultiCluster.Yaml

structure Line where
  indent : Nat
  /-- What stands behind the spaces that indent the line. -/
  text : List Char
  deriving Repr

namespace Line

def ofChars (cs : List Char) : Line :=
  ⟨(cs.takeWhile (· == ' ')).length, cs.dropWhile (· == ' ')⟩

/-- A line with nothing but white space or a comment in it. -/
def isVoid (l : Line) : Bool :=
  match dropBlanks l.text with
  | [] => true
  | c :: _ => c == '#'

def isEmpty (l : Line) : Bool := (dropBlanks l.text).isEmpty

end Line

def dropVoid (ls : List Line) : List Line := ls.dropWhile Line.isVoid

/-- Line breaks of all kinds as line feeds. -/
def unifyBreaks : List Char → List Char
  | [] => []
  | '\r' :: '\n' :: rest => '\n' :: unifyBreaks rest
  | '\r' :: rest => '\n' :: unifyBreaks rest
  | c :: rest => c :: unifyBreaks rest

def linesOf (s : String) : List Line :=
  (Text.pieces '\n' (unifyBreaks s.toList)).map Line.ofChars

/-- Whether the rest of a line holds at most a comment; one that follows text needs a blank. -/
def endsHere (cs : List Char) : Bool :=
  match cs with
  | [] => true
  | c :: _ => isSpaceOrTab c && (match dropBlanks cs with | [] => true | d :: _ => d == '#')

/-- The text behind the dash of a sequence item, and how many columns further it begins. -/
def dash? : List Char → Option (Nat × List Char)
  | ['-'] => some (1, [])
  | '-' :: c :: rest =>
    if isSpaceOrTab c then
      some ((c :: rest).length - (dropBlanks rest).length + 1, dropBlanks rest)
    else none
  | _ => none

/-- A plain scalar on one line: the text before a colon or a comment, last character first, and
what follows. -/
def plainLine : List Char → List Char → List Char × List Char
  | acc, [] => (acc, [])
  | acc, c :: rest =>
    if c == ':' && spacingFollows rest then (acc, c :: rest)
    else if c == '#' && acc.head?.any isSpaceOrTab then (acc, c :: rest)
    else plainLine (c :: acc) rest

def key? (cs : List Char) : Option (Node × List Char) :=
  match cs with
  | c :: _ =>
    if c == '"' || c == '\'' then
      match quotedScalar? cs with
      | some (key, rest) =>
        match dropBlanks rest with
        | ':' :: after => if spacingFollows after then some (key, after) else none
        | _ => none
      | none => none
    else if startsPlain cs then
      match plainLine [] cs with
      | (acc, ':' :: after) =>
        some (.scalar (String.ofList (trimReversed acc).reverse) true, after)
      | _ => none
    else none
  | [] => none

/-- A scalar or collection in quotes or brackets, which may go on over the following lines. -/
def enclosed (text : List Char) (rest : List Line) : Option (Node × List Line) := do
  let following := rest.flatMap fun l => '\n' :: (List.replicate l.indent ' ' ++ l.text)
  let all := text ++ following
  let (node, after) ← flowNode (all.length + 1) all
  if endsHere (after.takeWhile (· != '\n')) then
    let left := (after.filter (· == '\n')).length
    pure (node, rest.drop (rest.length - left))
  else none

/-- The lines that continue a plain scalar: at least in column `least`, without a comment before
them. `empty` counts the empty lines since the last text, `acc` is last character first. -/
def plainLines (least : Nat) : Nat → List Char → List Line → Option (List Char × List Line)
  | _, acc, [] => some (acc, [])
  | empty, acc, l :: rest =>
    if l.isEmpty then plainLines least (empty + 1) acc rest
    else if l.isVoid || l.indent < least then some (acc, l :: rest)
    else
      match plainLine (folded empty ++ trimReversed acc) (dropBlanks l.text) with
      | (_, ':' :: _) => none
      | (acc, []) => plainLines least 0 acc rest
      | (acc, _) => some (acc, rest)

def inline (least : Nat) (text : List Char) (rest : List Line) : Option (Node × List Line) :=
  match text with
  | [] => none
  | c :: _ =>
    if ['[', '\x7b', '"', '\''].contains c then enclosed text rest
    else if startsPlain text then
      let finish (acc : List Char) (rest : List Line) : Node × List Line :=
        (.scalar (String.ofList (trimReversed acc).reverse) true, rest)
      match plainLine [] text with
      | (_, ':' :: _) => none
      | (acc, []) => (plainLines least 0 acc rest).map fun (acc, rest) => finish acc rest
      | (acc, _) => some (finish acc rest)
    else none

mutual
/-- The value that begins on the first line; plain scalars go on from column `least`. -/
def block : Nat → Nat → List Line → Option (Node × List Line)
  | 0, _, _ => none
  | _, _, [] => none
  | fuel + 1, least, l :: rest =>
    if (dash? l.text).isSome then blockItems fuel l.indent [] (l :: rest)
    else if (key? l.text).isSome then blockEntries fuel l.indent [] (l :: rest)
    else inline least l.text rest
def blockItems : Nat → Nat → List Node → List Line → Option (Node × List Line)
  | 0, _, _, _ => none
  | fuel + 1, column, acc, ls =>
    match dropVoid ls with
    | [] => some (.sequence acc.reverse, [])
    | l :: rest =>
      if l.indent < column then some (.sequence acc.reverse, l :: rest)
      else if l.indent > column then none
      else match dash? l.text with
        | none => some (.sequence acc.reverse, l :: rest)
        | some (gap, text) =>
          if (Line.mk 0 text).isVoid then
            match nested fuel column (dropVoid rest) with
            | some (item, rest) => blockItems fuel column (item :: acc) rest
            | none => none
          else
            match block fuel (column + 1) (⟨column + gap, text⟩ :: rest) with
            | some (item, rest) => blockItems fuel column (item :: acc) rest
            | none => none
def blockEntries : Nat → Nat → List (Node × Node) → List Line → Option (Node × List Line)
  | 0, _, _, _ => none
  | fuel + 1, column, acc, ls =>
    match dropVoid ls with
    | [] => some (.mapping acc.reverse, [])
    | l :: rest =>
      if l.indent < column then some (.mapping acc.reverse, l :: rest)
      else if l.indent > column then none
      else match key? l.text with
        | none => none
        | some (key, after) =>
          let value :=
            if endsHere after then
              match dropVoid rest with
              | next :: more =>
                if next.indent = column && (dash? next.text).isSome then
                  blockItems fuel column [] (next :: more)
                else nested fuel column (next :: more)
              | [] => some (.nothing, [])
            else inline (column + 1) (dropBlanks after) rest
          match value with
          | some (v, rest) => blockEntries fuel column ((key, v) :: acc) rest
          | none => none
/-- The value on the following lines, if they lie behind the column; nothing otherwise. -/
def nested : Nat → Nat → List Line → Option (Node × List Line)
  | 0, _, _ => none
  | _, _, [] => some (.nothing, [])
  | fuel + 1, column, l :: rest =>
    if l.indent > column then block fuel (column + 1) (l :: rest) else some (.nothing, l :: rest)
end

def ofLines? (ls : List Line) : Option Node :=
  match dropVoid ls with
  | [] => some .nothing
  | l :: rest => do
    let size := ((l :: rest).map fun x => x.indent + x.text.length + 4).foldl (· + ·) 4
    let (node, after) ← block size 0 (l :: rest)
    if (dropVoid after).isEmpty then pure node else none

def marker? (l : Line) : Option (List Char) :=
  match l.indent, l.text with
  | 0, '-' :: '-' :: '-' :: rest => if spacingFollows rest then some rest else none
  | _, _ => none

def isEnd (l : Line) : Bool :=
  match l.indent, l.text with
  | 0, '.' :: '.' :: '.' :: rest => spacingFollows rest
  | _, _ => false

/-- The lines of each document. `current` holds those of the last one so far, last first, if it
has not ended. -/
def splitDocuments (current : Option (List Line)) : List Line → List (List Line)
  | [] => (current.map List.reverse).toList
  | l :: rest =>
    match marker? l with
    | some text =>
      (current.map List.reverse).toList ++
        splitDocuments (some [⟨4, dropBlanks text⟩]) rest
    | none =>
      if isEnd l then (current.map List.reverse).toList ++ splitDocuments none rest
      else match current with
        | some ls => splitDocuments (some (l :: ls)) rest
        | none => if l.isVoid then splitDocuments none rest else splitDocuments (some [l]) rest

def documents? : Reader := fun s => (splitDocuments none (linesOf s)).mapM ofLines?

end MultiCluster.Yaml
