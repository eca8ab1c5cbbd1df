import MultiCluster.Error
import MultiCluster.Text.Table

/-! Where the images of the deployed components come from. -/
namespace MultiCluster.Image

def defaultRepository : String := "quay.io/submariner"
def defaultVersion : String := "devel"
def operator : String := "submariner-operator"

def known : List String := [operator, "submariner-gateway", "submariner-route-agent",
  "submariner-globalnet", "submariner-metrics-proxy", "lighthouse-agent", "lighthouse-coredns",
  "nettest"]

structure Source where
  repository : String
  /-- A tag, or a digest that begins with `sha256:`. -/
  version : String
  /-- Full references by image name. -/
  overrides : Text.Table
  deriving DecidableEq, Repr

def dropTrailing (c : Char) (s : String) : String :=
  String.ofList ((s.toList.reverse.dropWhile (· == c)).reverse)

def Source.of (repository version : String) (overrides : Text.Table) : Source where
  repository := if repository == "" then defaultRepository else dropTrailing '/' repository
  version := if version == "" then defaultVersion else version
  overrides := overrides

def isDigest (version : String) : Bool := "sha256:".toList.isPrefixOf version.toList

def Source.resolve (s : Source) (name : String) : String :=
  match s.overrides.find? name with
  | some image => image
  | none => s.repository ++ "/" ++ name ++ (if isDigest s.version then "@" else ":") ++ s.version

/-- The name and the image of an entry `name=image`, neither empty. -/
def splitOverride (entry : String) : Option (String × String) :=
  match Text.splitAtFirst '=' entry.toList with
  | some (c :: name, d :: image) => some (String.ofList (c :: name), String.ofList (d :: image))
  | _ => none

def parseOverride (entry : String) : Except Error (String × String) :=
  match splitOverride entry with
  | none => .error (.invalidConfiguration
      ("invalid image override " ++ Text.quoted entry ++ ", expected <name>=<image>"))
  | some (name, image) =>
    if known.contains name then .ok (name, image)
    else .error (.invalidConfiguration ("unknown image name in override: " ++ name))

/-- The table of the entries, a later one replacing an earlier one of the same name. -/
def overridesFrom (table : Text.Table) : List String → Except Error Text.Table
  | [] => .ok table
  | entry :: rest => do
    let (name, image) ← parseOverride entry
    overridesFrom (table.insert name image) rest

def parseOverrides (entries : List String) : Except Error Text.Table := overridesFrom [] entries

end MultiCluster.Image
