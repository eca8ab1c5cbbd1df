import MultiCluster.Json.Basic

/-! JSON merge patches (RFC 7396): null removes a field, objects are merged field by field, and
every other value replaces what is there. -/
namespace MultiCluster.Json

def isNull : Json → Bool
  | .null => true
  | _ => false

mutual
def mergePatch (target : Json) : Json → Json
  | .obj patch => .obj (mergeFields (target.obj?.getD []) patch)
  | .null => .null
  | .bool b => .bool b
  | .int n => .int n
  | .float x => .float x
  | .str s => .str s
  | .arr items => .arr items
def mergeFields (fields : Fields) : List (String × Json) → Fields
  | [] => fields
  | (key, v) :: rest =>
    if v.isNull then mergeFields (Fields.erase key fields) rest
    else mergeFields
      (Fields.insert key (mergePatch ((Fields.find? key fields).getD .null) v) fields) rest
end

end MultiCluster.Json
