import MultiCluster.Json.Printer
import MultiCluster.Yaml.Resolve

/-! What a YAML document says. Scalars keep their text; whether one is plain, that is unquoted,
decides what the text stands for. -/
namespace MultiCluster.Yaml

inductive Node where
  | scalar (text : String) (plain : Bool)
  | sequence (items : List Node)
  | mapping (entries : List (Node × Node))
  deriving Repr, Inhabited

namespace Node

def nothing : Node := .scalar "" true

def isNothing : Node → Bool
  | .scalar "" true => true
  | _ => false

def isNull : Node → Bool
  | .scalar s true => s == "" || isNullWord s
  | _ => false

/-- The text of a scalar, whatever it stands for. -/
def anyText? : Node → Option String
  | .scalar s _ => some s
  | _ => none

/-- The text of a scalar that stands for a text. -/
def text? : Node → Option String
  | .scalar s plain => if !plain || !(s == "" || isNullWord s || isBoolWord s || isNumber s)
      then some s else none
  | _ => none

def entries? : Node → Option (List (Node × Node))
  | .mapping entries => some entries
  | n => if n.isNothing then some [] else none

/-- The only value under a key, `none` inside if there is none; fails if it is repeated. -/
def only? (key : String) : List (Node × Node) → Option (Option Node)
  | [] => some none
  | (k, v) :: rest => do
    let later ← only? key rest
    if k.anyText? == some key then (match later with | none => some (some v) | some _ => none)
    else some later

mutual
/-- A JSON value as a document; every JSON text is one. -/
def ofJson : Json → Node
  | .null => .scalar "null" true
  | .bool b => .scalar (if b then "true" else "false") true
  | .int n => .scalar (String.ofList (Json.printInt n)) true
  | .float x => .scalar (String.ofList x.text) true
  | .str s => .scalar s false
  | .arr items => .sequence (ofItems items)
  | .obj fields => .mapping (ofFields fields)
def ofItems : List Json → List Node
  | [] => []
  | v :: rest => ofJson v :: ofItems rest
def ofFields : List (String × Json) → List (Node × Node)
  | [] => []
  | (k, v) :: rest => (.scalar k false, ofJson v) :: ofFields rest
end

end Node

/-- Reads the documents that a text consists of, as the library does that the program uses; `none`
if the text is not well-formed. -/
abbrev Reader := String → Option (List Node)

/-- The only document of a text; a text without any says nothing. -/
def Reader.document? (read : Reader) (s : String) : Option Node := do
  match ← read s with
  | [] => some .nothing
  | [node] => some node
  | _ => none

end MultiCluster.Yaml
