import MultiCluster.Json.Document

/-! Reading records from JSON text. A record is an object, in which unknown members are skipped
and a known one may stand only once, or an array of its fields in order. -/
namespace MultiCluster.Json.Document

/-- The only member of a name, `none` inside if there is none; fails if it is repeated. -/
def onlyMember? (name : String) : List (Option String × Document) → Option (Option Document)
  | [] => some none
  | (key, d) :: rest => do
    let later ← onlyMember? name rest
    if key == some name then (match later with | none => some (some d) | some _ => none)
    else some later

def fieldsOf (members : List (Option String × Document)) : List String → Option (List (Option Document))
  | [] => some []
  | name :: rest => do
    let first ← onlyMember? name members
    let others ← fieldsOf members rest
    pure (first :: others)

/-- The fields of a record, in the order of the names. -/
def record? (names : List String) : Document → Option (List (Option Document))
  | .object members =>
    if members.all fun m => m.1.isSome then fieldsOf members names else none
  | .array items =>
    if items.length ≤ names.length then
      some (items.map some ++ List.replicate (names.length - items.length) none)
    else none
  | _ => none

def string? : Document → Option String
  | .string s => s
  | _ => none

def items? : Document → Option (List Document)
  | .array items => some items
  | _ => none

def strings? (d : Document) : Option (List String) := d.items?.bind fun items => items.mapM string?

end MultiCluster.Json.Document
