import MultiCluster.Json.Printer
import MultiCluster.Yaml.Scalar

/-! JSON values as YAML documents: two spaces of indentation, sequences not indented under their
key, no line wrapping. -/
namespace MultiCluster.Yaml

/-- The longest key, in bytes, that stands on one line with its value. -/
def maxKeyBytes : Nat := 128

def isSimpleKey (key : String) : Bool :=
  !key.toList.any isBreak && key.utf8ByteSize ≤ maxKeyBytes

def keyText (indent : Nat) (key : String) : List Char :=
  if isSimpleKey key then (scalar (indent + 2) key).dropLast ++ [':']
  else '?' :: ' ' :: (scalar (indent + 2) key ++ spaces indent ++ [':'])

mutual
def node (indent : Nat) : Json → List Char
  | .obj [] => ['\x7b', '\x7d', '\n']
  | .obj ((key, v) :: rest) => entry indent key v ++ entries indent rest
  | .arr [] => ['[', ']', '\n']
  | .arr (v :: rest) => '-' :: ' ' :: (node (indent + 2) v ++ items indent rest)
  | .str s => scalar indent s
  | .null => ['n', 'u', 'l', 'l', '\n']
  | .bool b => (if b then ['t', 'r', 'u', 'e'] else ['f', 'a', 'l', 's', 'e']) ++ ['\n']
  | .int n => Json.printInt n ++ ['\n']
  | .float x => x.text ++ ['\n']
def entry (indent : Nat) (key : String) : Json → List Char
  | .obj (f :: rest) =>
    keyText indent key ++
      (if isSimpleKey key then '\n' :: spaces (indent + 2) else [' ']) ++
      (match f with | (k, v) => entry (indent + 2) k v) ++ entries (indent + 2) rest
  | .arr (v :: rest) =>
    if isSimpleKey key then
      keyText indent key ++ '\n' :: spaces indent ++ '-' :: ' ' ::
        (node (indent + 2) v ++ items indent rest)
    else
      keyText indent key ++ ' ' :: '-' :: ' ' ::
        (node (indent + 4) v ++ items (indent + 2) rest)
  | .obj [] => keyText indent key ++ [' ', '\x7b', '\x7d', '\n']
  | .arr [] => keyText indent key ++ [' ', '[', ']', '\n']
  | .str s => keyText indent key ++ ' ' :: scalar (indent + 2) s
  | .null => keyText indent key ++ [' ', 'n', 'u', 'l', 'l', '\n']
  | .bool b =>
    keyText indent key ++ ' ' ::
      ((if b then ['t', 'r', 'u', 'e'] else ['f', 'a', 'l', 's', 'e']) ++ ['\n'])
  | .int n => keyText indent key ++ ' ' :: (Json.printInt n ++ ['\n'])
  | .float x => keyText indent key ++ ' ' :: (x.text ++ ['\n'])
def entries (indent : Nat) : List (String × Json) → List Char
  | [] => []
  | (key, v) :: rest => spaces indent ++ entry indent key v ++ entries indent rest
def items (indent : Nat) : List Json → List Char
  | [] => []
  | v :: rest => spaces indent ++ '-' :: ' ' :: (node (indent + 2) v ++ items indent rest)
end

def document (v : Json) : String :=
  match v with
  | .str s => String.ofList (scalar 2 s)
  | v => String.ofList (node 0 v)

end MultiCluster.Yaml
