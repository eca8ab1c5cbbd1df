import MultiCluster.Broker.Spec
import MultiCluster.Globalnet.Block

/-! The globalnet settings of a broker: a range of addresses outside the reserved blocks, cut into
blocks of a power of two, at least two of which fit. -/
namespace MultiCluster.Globalnet

def defaultRange : String := "242.0.0.0/8"

def maxDefaultSize : Nat := 65536

def defaultSlots : Nat := 16

/-- The least power of two that is not below `n`. -/
def powerOfTwoFrom (n : Nat) : Nat := if n ≤ 1 then 1 else 1 <<< (Nat.log2 (n - 1) + 1)

/-- The size of the blocks cut from a range of `total` addresses when none is asked for. -/
def defaultSize (total : Nat) : Nat := min (max (total / defaultSlots) 1) maxDefaultSize

/-- The size of the blocks cut from a range; zero asks for the default. -/
def blockSize (range : String) (requested : UInt32) : Except Error UInt32 := do
  let block ← Block.parse range
  let most := block.size / 2
  if most = 0 then
    throw (.invalidConfiguration
      ("globalnet CIDR " ++ range ++ " is too small to allot cluster blocks"))
  if requested = 0 then return UInt32.ofNat (defaultSize block.size)
  let size := powerOfTwoFrom requested.toNat
  if size > most then
    throw (.invalidConfiguration ("cluster size " ++ Text.decimal requested.toNat ++
      " does not fit in globalnet CIDR " ++ range ++ ": must be <= " ++ Text.decimal most))
  return UInt32.ofNat size

/-- A block that can never carry global addresses. -/
structure Reserved where
  name : String
  block : Block
  deriving Repr

def reserved : List Reserved := [
  ⟨"\"this\" network", ⟨0, 8, by decide, by decide, by decide⟩⟩,
  ⟨"loopback", ⟨127 <<< 24, 8, by decide, by decide, by decide⟩⟩,
  ⟨"link-local", ⟨169 <<< 24 + 254 <<< 16, 16, by decide, by decide, by decide⟩⟩,
  ⟨"multicast", ⟨224 <<< 24, 4, by decide, by decide, by decide⟩⟩,
  ⟨"broadcast", ⟨1 <<< 32 - 1, 32, by decide, by decide, by decide⟩⟩]

def checkRange (range : String) : Except Error Unit := do
  let block ← Block.parse range
  match reserved.find? fun r => block.overlaps r.block with
  | none => pure ()
  | some r => throw (.invalidConfiguration (range ++
      " can't be used as globalnet CIDR: overlaps the " ++ r.name ++ " range " ++ r.block.text))

/-- Validate the globalnet settings of a spec and bring them into their final form: the size that
will be used and the range in canonical text. The second part is the spec as it is left, after an
error too. Without globalnet nothing is looked at. -/
def settle (spec : BrokerSpec) : Except Error Unit × BrokerSpec :=
  if !spec.globalnetEnabled then (.ok (), spec)
  else match blockSize spec.globalnetRange spec.clusterSize with
    | .error e => (.error e, spec)
    | .ok size =>
      let spec := { spec with clusterSize := size }
      match checkRange spec.globalnetRange, Block.parse spec.globalnetRange with
      | .error e, _ => (.error e, spec)
      | .ok (), .error e => (.error e, spec)
      | .ok (), .ok block => (.ok (), { spec with globalnetRange := block.text })

end MultiCluster.Globalnet
