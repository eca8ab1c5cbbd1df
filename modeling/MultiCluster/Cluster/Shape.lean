import MultiCluster.Json.Basic
import MultiCluster.Time.Timestamp

/-! Types of API objects, and reading a JSON value at a type.

Reading keeps the fields that the type names and drops the others. An absent or null optional
field is left out, an absent or null required one takes the empty value of its type, and a value
that does not fit is an error. What was read once reads as itself again. -/
namespace MultiCluster.Cluster

inductive Shape where
  /-- Any JSON value. -/
  | any
  | string
  | boolean
  | int32
  | int64
  | intOrString
  /-- Base64 text. -/
  | bytes
  | timestamp
  /-- A timestamp with microseconds. -/
  | microtime
  | list (item : Shape)
  /-- An object with arbitrary keys. -/
  | table (item : Shape)
  /-- An object with these fields, each required or not. -/
  | record (fields : List (String × Bool × Shape))
  deriving Repr, Inhabited

namespace Shape

def opt (name : String) (s : Shape) : String × Bool × Shape := (name, false, s)

def req (name : String) (s : Shape) : String × Bool × Shape := (name, true, s)

def isBase64Char (c : Char) : Bool := c.isAlphanum || c == '+' || c == '/'

def base64Value (c : Char) : Nat :=
  if c.isUpper then c.toNat - 65
  else if c.isLower then c.toNat - 71
  else if c.isDigit then c.toNat + 4
  else if c == '+' then 62 else 63

/-- Groups of four characters, the last padded, with no bits left over. -/
def isBase64 : List Char → Bool
  | [] => true
  | [a, b, '=', '='] => isBase64Char a && isBase64Char b && base64Value b % 16 == 0
  | [a, b, c, '='] =>
    isBase64Char a && isBase64Char b && isBase64Char c && base64Value c % 4 == 0
  | a :: b :: c :: d :: rest =>
    isBase64Char a && isBase64Char b && isBase64Char c && isBase64Char d && isBase64 rest
  | _ => false

mutual
def empty : Shape → Json
  | .any => .null
  | .string => .str ""
  | .boolean => .bool false
  | .int32 => .int 0
  | .int64 => .int 0
  | .intOrString => .int 0
  | .bytes => .str ""
  | .timestamp => .str "1970-01-01T00:00:00Z"
  | .microtime => .str "1970-01-01T00:00:00.000000Z"
  | .list _ => .arr []
  | .table _ => .obj []
  | .record fields => .obj (Fields.ofList (emptyFields fields))
def emptyFields : List (String × Bool × Shape) → Fields
  | [] => []
  | (name, required, s) :: rest =>
    if required then (name, s.empty) :: emptyFields rest else emptyFields rest
end

def mismatch (expected : String) : Except String Json := .error ("expected " ++ expected)

def readInt (low high : Int) : Json → Except String Json
  | .int n => if low ≤ n && n ≤ high then .ok (.int n) else mismatch "an integer in range"
  | _ => mismatch "an integer"

def readText (accepts : String → Option String) : Json → Except String Json
  | .str s =>
    match accepts s with
    | some t => .ok (.str t)
    | none => mismatch "a well-formed string"
  | _ => mismatch "a string"

def readItems (read : Json → Except String Json) : List Json → Except String (List Json)
  | [] => .ok []
  | v :: rest => do
    let v ← read v
    let rest ← readItems read rest
    pure (v :: rest)

def readEntries (read : Json → Except String Json) : Fields → Except String Fields
  | [] => .ok []
  | (key, v) :: rest => do
    let v ← read v
    let rest ← readEntries read rest
    pure ((key, v) :: rest)

mutual
def read : Shape → Json → Except String Json
  | .any, v => .ok v
  | .string, v => readText some v
  | .boolean, v => match v with
    | .bool b => .ok (.bool b)
    | _ => mismatch "a boolean"
  | .int32, v => readInt (-2147483648) 2147483647 v
  | .int64, v => readInt (-9223372036854775808) 9223372036854775807 v
  | .intOrString, v => match v with
    | .str s => .ok (.str s)
    | v => readInt (-2147483648) 2147483647 v
  | .bytes, v => readText (fun s => if isBase64 s.toList then some s else none) v
  | .timestamp, v => readText (Timestamp.normalize 0) v
  | .microtime, v => readText (Timestamp.normalize 6) v
  | .list item, v => match v with
    | .arr items => (readItems item.read items).map Json.arr
    | _ => mismatch "an array"
  | .table item, v => match v with
    | .obj fields => (readEntries item.read fields).map Json.obj
    | _ => mismatch "an object"
  | .record fields, v => match v with
    | .obj given => (readFields given fields).map fun read => Json.obj (Fields.ofList read)
    | _ => mismatch "an object"
def readFields (given : Fields) : List (String × Bool × Shape) → Except String Fields
  | [] => .ok []
  | (name, required, s) :: rest => do
    let here ← match Fields.find? name given with
      | none => pure (if required then [(name, s.empty)] else [])
      | some .null => pure (if required then [(name, s.empty)] else [])
      | some v => do
        let v ← s.read v
        pure [(name, v)]
    let rest ← readFields given rest
    pure (here ++ rest)
end

end Shape
end MultiCluster.Cluster
