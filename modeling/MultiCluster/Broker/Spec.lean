import MultiCluster.Json.Basic
import MultiCluster.Text.Ordered

/-! The desired state of a broker, and its JSON form. -/
namespace MultiCluster

structure BrokerSpec where
  components : List String
  globalnetEnabled : Bool
  globalnetRange : String
  /-- Addresses for each cluster that joins; zero asks for a default. -/
  clusterSize : UInt32
  deriving DecidableEq, Repr

namespace BrokerSpec

def default : BrokerSpec := ⟨[], false, "", 0⟩

/-- Components as an ordered set, and no globalnet settings while globalnet is off. -/
def normalized (s : BrokerSpec) : BrokerSpec :=
  let components := Text.ordered s.components
  if s.globalnetEnabled then { s with components := components }
  else ⟨components, false, "", 0⟩

/-- The range is left out when empty, the size when zero. -/
def toJson (s : BrokerSpec) : Json :=
  .obj ([("components", Json.strings s.components)] ++
    (if s.clusterSize == 0 then []
      else [("defaultGlobalnetClusterSize", Json.int s.clusterSize.toNat)]) ++
    (if s.globalnetRange == "" then [] else [("globalnetCIDRRange", .str s.globalnetRange)]) ++
    [("globalnetEnabled", .bool s.globalnetEnabled)])

def readStrings : Json → Except String (List String)
  | .arr items => items.mapM fun
    | .str s => .ok s
    | _ => .error "expected a string"
  | _ => .error "expected an array"

def readBool : Json → Except String Bool
  | .bool b => .ok b
  | _ => .error "expected a boolean"

def readString : Json → Except String String
  | .str s => .ok s
  | _ => .error "expected a string"

def readWord32 : Json → Except String UInt32
  | .int n =>
    if 0 ≤ n && n ≤ 0xFFFFFFFF then .ok (UInt32.ofNat n.toNat)
    else .error "expected a 32-bit number"
  | _ => .error "expected a number"

def readOr {α : Type} (absent : α) (read : Json → Except String α) :
    Option Json → Except String α
  | none => .ok absent
  | some v => read v

def readParts (components enabled range size : Option Json) : Except String BrokerSpec := do
  let components ← readOr [] readStrings components
  let enabled ← readOr false readBool enabled
  let range ← readOr "" readString range
  let size ← readOr 0 readWord32 size
  pure ⟨components, enabled, range, size⟩

/-- From an object, unknown fields ignored, or from an array of the fields in order. Every field
may be absent, none may be null. -/
def ofJson : Json → Except String BrokerSpec
  | .obj fields => readParts (Fields.find? "components" fields)
      (Fields.find? "globalnetEnabled" fields) (Fields.find? "globalnetCIDRRange" fields)
      (Fields.find? "defaultGlobalnetClusterSize" fields)
  | .arr items =>
    if items.length ≤ 4 then readParts items[0]? items[1]? items[2]? items[3]?
    else .error "too many fields"
  | _ => .error "expected an object"

end BrokerSpec
end MultiCluster
