import MultiCluster.Gather.LogRedaction
import MultiCluster.Json.Document
import MultiCluster.Json.Printer
import MultiCluster.Text.Case

/-! Masking of credentials in objects: texts under a key that names a credential, the values of
named entries whose name does, the content of secrets, and the configuration that was applied
last, which repeats its object. -/
namespace MultiCluster.Gather

/-- What makes a key the name of a credential. -/
def sensitiveFragments : List String :=
  ["token", "password", "psk", "secret", "credential", "privatekey"]

/-- Keys that hold public material in spite of their name. -/
def publicKeys : List String := ["ca.crt", "secretname"]

/-- Whether a field of this name holds a credential. Case and separators do not matter. -/
def isSensitiveKey (key : String) : Bool :=
  let key := Text.lower key
  !publicKeys.contains key &&
    sensitiveFragments.any fun f =>
      Text.occursIn f.toList (key.toList.filter Char.isAlphanum)

/-- Whether an object is an entry with a text for its value and a credential's name. -/
def isSensitiveEntry (fields : Fields) : Bool :=
  match Fields.find? "name" fields, Fields.find? "value" fields with
  | some (.str name), some (.str _) => isSensitiveKey name
  | _, _ => false

mutual
def maskFields : Json → Json
  | .obj fields => .obj (maskEach (isSensitiveEntry fields) fields)
  | .arr items => .arr (maskItems items)
  | .null => .null
  | .bool b => .bool b
  | .int n => .int n
  | .float x => .float x
  | .str s => .str s
def maskItems : List Json → List Json
  | [] => []
  | v :: rest => maskFields v :: maskItems rest
/-- Mask the fields of an object, which may be an entry with a credential for its value. -/
def maskEach (sensitiveEntry : Bool) : List (String × Json) → List (String × Json)
  | [] => []
  | (key, v) :: rest =>
    (key,
      if v.str?.isSome && (isSensitiveKey key || (sensitiveEntry && key == "value")) then
        .str redacted
      else maskFields v) :: maskEach sensitiveEntry rest
end

/-- The annotation in which a client keeps what it applied last. -/
def lastApplied : String := "kubectl.kubernetes.io/last-applied-configuration"

/-- The annotation without credentials: the embedded object masked, or nothing of it if it cannot
be read or belongs to a secret. -/
def redactLastApplied (kind : String) (applied : Json) : Json :=
  if kind == "Secret" then .str redacted
  else match applied.str?.bind Json.parse? with
    | some embedded => .str (maskFields embedded).compact
    | none => .str redacted

def hideValues : Json → Json
  | .obj fields => .obj (fields.map fun f => (f.1, .str redacted))
  | v => v

def mapField (key : String) (f : Json → Json) : Json → Json
  | .obj fields => .obj (Fields.update key f fields)
  | v => v

def hideSecret (resource : Json) : Json :=
  mapField "stringData" hideValues (mapField "data" hideValues resource)

/-- An object of a kind without its credentials. -/
def redactResource (kind : String) (resource : Json) : Json :=
  let hidden := if kind == "Secret" then hideSecret resource else resource
  maskFields (mapField "metadata"
    (mapField "annotations" (mapField lastApplied (redactLastApplied kind))) hidden)

end MultiCluster.Gather
