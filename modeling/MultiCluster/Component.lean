import MultiCluster.Error
import MultiCluster.Text.Ordered

/-! The components of a deployment. Two can be requested; globalnet comes along with its own
setting and cannot be named. -/
namespace MultiCluster.Component

def serviceDiscovery : String := "service-discovery"
def connectivity : String := "connectivity"
def globalnet : String := "globalnet"

def requestable : List String := [serviceDiscovery, connectivity]

def unknown? (requested : List String) : Option String :=
  requested.find? fun c => !requestable.contains c

/-- Accepts every non-empty request of known names. -/
def validate (requested : List String) : Except Error Unit :=
  if requested.isEmpty then .error (.invalidConfiguration "at least one component required")
  else match unknown? requested with
    | some c => .error (.invalidConfiguration ("unknown component: " ++ c))
    | none => .ok ()

def effective (requested : List String) (globalnetEnabled : Bool) : List String :=
  let set := Text.ordered requested
  if globalnetEnabled then Text.insertOrdered globalnet set else set

end MultiCluster.Component
