import MultiCluster.Error
import MultiCluster.Text.Blank
import MultiCluster.Text.Ordered
import MultiCluster.Time.Calendar

/-! What to gather, and where to put it. -/
namespace MultiCluster.Gather

def logs : String := "logs"
def resources : String := "resources"

def allTypes : List String := [logs, resources]

def connectivity : String := "connectivity"
def serviceDiscovery : String := "service-discovery"
def brokerModule : String := "broker"
def operatorModule : String := "operator"

def allModules : List String := [connectivity, serviceDiscovery, brokerModule, operatorModule]

/-- The directory of a run that begins at an instant; runs within one second share it. -/
def defaultDirectory (now : Calendar.Instant) : String := "submariner-" ++ now.stamp

structure Options where
  /-- An ordered set. -/
  types : List String
  /-- An ordered set. -/
  modules : List String
  /-- Each cluster has a directory of its own below this one. -/
  directory : String
  /-- Keep credentials as they are. -/
  includeSensitiveData : Bool
  deriving DecidableEq, Repr

namespace Options

def wantsType (o : Options) (name : String) : Bool := o.types.contains name

def wantsModule (o : Options) (name : String) : Bool := o.modules.contains name

def unsupported (what name : String) (known : List String) : Error :=
  .invalidConfiguration (Text.quoted name ++ " is not a supported " ++ what ++
    " (expected one of " ++ Text.join ", " known ++ ")")

def validate (o : Options) : Except Error Unit :=
  match o.types.find? fun t => !allTypes.contains t with
  | some t => .error (unsupported "type" t allTypes)
  | none =>
    match o.modules.find? fun m => !allModules.contains m with
    | some m => .error (unsupported "module" m allModules)
    | none => .ok ()

/-- The requested names without the white space around them; no request selects everything. -/
def select (requested all : List String) : List String :=
  Text.ordered (if requested.isEmpty then all else requested.map Text.trim)

/-- Validated options; the directory defaults to that of a run that begins now. -/
def ofRequest (types modules : List String) (directory : Option String)
    (includeSensitiveData : Bool) (now : Calendar.Instant) : Except Error Options := do
  let o : Options := {
    types := select types allTypes
    modules := select modules allModules
    directory := directory.getD (defaultDirectory now)
    includeSensitiveData := includeSensitiveData }
  o.validate
  pure o

end Options
end MultiCluster.Gather
