import MultiCluster.Json.Token

/-! The structure of a JSON text before it becomes a value: members stay in the order and number
in which they are written, so a reader of records can refuse a repeated one and skip those it does
not know. -/
namespace MultiCluster.Json

/-- A string is `none` if it holds a lone surrogate. -/
inductive Document where
  | null
  | bool (b : Bool)
  | number (n : Numeral)
  | string (s : Option String)
  | array (items : List Document)
  | object (members : List (Option String × Document))
  deriving Repr, Inhabited

namespace Document

inductive Frame where
  | array (items : List Document)
  | member (members : List (Option String × Document)) (key : Option String)

inductive State where
  | value (stack : List Frame)
  | firstItem (stack : List Frame)
  | firstKey (stack : List Frame)
  | key (members : List (Option String × Document)) (stack : List Frame)
  | colon (members : List (Option String × Document)) (key : Option String) (stack : List Frame)
  | afterItem (items : List Document) (stack : List Frame)
  | afterMember (members : List (Option String × Document)) (stack : List Frame)
  | complete (d : Document)

/-- A value is complete: it goes into the innermost open container. -/
def close (d : Document) : List Frame → State
  | [] => .complete d
  | .array items :: stack => .afterItem (d :: items) stack
  | .member members key :: stack => .afterMember ((key, d) :: members) stack

def stringOf (units : List StringUnit) : Option String := (decodeUnits units).map String.ofList

def startValue (stack : List Frame) : Token → Option State
  | .null => some (close .null stack)
  | .bool b => some (close (.bool b) stack)
  | .number n => some (close (.number n) stack)
  | .string units => some (close (.string (stringOf units)) stack)
  | .openArray => some (.firstItem stack)
  | .openObject => some (.firstKey stack)
  | _ => none

def step : State → Token → Option State
  | .value stack, t => startValue stack t
  | .firstItem stack, .closeArray => some (close (.array []) stack)
  | .firstItem stack, t => startValue (.array [] :: stack) t
  | .firstKey stack, .closeObject => some (close (.object []) stack)
  | .firstKey stack, .string units => some (.colon [] (stringOf units) stack)
  | .key members stack, .string units => some (.colon members (stringOf units) stack)
  | .colon members key stack, .colon => some (.value (.member members key :: stack))
  | .afterItem items stack, .comma => some (.value (.array items :: stack))
  | .afterItem items stack, .closeArray => some (close (.array items.reverse) stack)
  | .afterMember members stack, .comma => some (.key members stack)
  | .afterMember members stack, .closeObject => some (close (.object members.reverse) stack)
  | _, _ => none

def run : State → List Token → Option State
  | s, [] => some s
  | s, t :: rest => (step s t).bind fun s => run s rest

/-- The document a text consists of, white space around it aside. -/
def ofChars? (cs : List Char) : Option Document := do
  let ts ← tokens? cs
  match ← run (.value []) ts with
  | .complete d => some d
  | _ => none

def parse? (s : String) : Option Document := ofChars? s.toList

mutual
def depth : Document → Nat
  | .array items => itemsDepth items + 1
  | .object members => membersDepth members + 1
  | _ => 0
def itemsDepth : List Document → Nat
  | [] => 0
  | d :: rest => max d.depth (itemsDepth rest)
def membersDepth : List (Option String × Document) → Nat
  | [] => 0
  | (_, d) :: rest => max d.depth (membersDepth rest)
end

mutual
/-- The value, the last of repeated keys winning; `none` if a surrogate stands alone or a number
is too large. -/
def value? : Document → Option Json
  | .null => some .null
  | .bool b => some (.bool b)
  | .number n => n.value?
  | .string s => s.map Json.str
  | .array items => (itemValues? items).map Json.arr
  | .object members => (memberValues? members).map fun fields => Json.obj (Fields.ofList fields)
def itemValues? : List Document → Option (List Json)
  | [] => some []
  | d :: rest => do
    let v ← d.value?
    let vs ← itemValues? rest
    pure (v :: vs)
def memberValues? : List (Option String × Document) → Option (List (String × Json))
  | [] => some []
  | (key, d) :: rest => do
    let k ← key
    let v ← d.value?
    let vs ← memberValues? rest
    pure ((k, v) :: vs)
end

/-- How deep a text may nest to be read as a value. -/
def maxDepth : Nat := 127

end Document

def parse? (s : String) : Option Json := do
  let d ← Document.parse? s
  if d.depth ≤ Document.maxDepth then d.value? else none

end MultiCluster.Json
