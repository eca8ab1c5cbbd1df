import MultiCluster.Error
import MultiCluster.Text.Blank

/-! Blocks of IPv4 addresses: a network address and the number of leading bits that all addresses
of the block share. The bits below those are zero in the network address. -/
namespace MultiCluster.Globalnet

structure Block where
  address : Nat
  bits : Nat
  bits_le : bits ≤ 32
  address_lt : address < 1 <<< 32
  aligned : address % 1 <<< (32 - bits) = 0
  deriving DecidableEq, Repr

namespace Block

/-- How many addresses share `bits` leading bits. -/
def span (bits : Nat) : Nat := 1 <<< (32 - bits)

def size (b : Block) : Nat := span b.bits

def contains (b : Block) (address : Nat) : Bool := address / b.size == b.address / b.size

/-- Whether two blocks agree on the leading bits of the larger one. -/
def overlaps (a b : Block) : Bool :=
  let larger := span (min a.bits b.bits)
  a.address / larger == b.address / larger

def addressText (address : Nat) : String :=
  Text.join "." ([address >>> 24, address >>> 16 % 256, address >>> 8 % 256, address % 256].map
    Text.decimal)

def text (b : Block) : String := addressText b.address ++ "/" ++ Text.decimal b.bits

/-- One to three digits, at most 255, without a leading zero. -/
def octet? (cs : List Char) : Option Nat :=
  match cs with
  | '0' :: _ :: _ => none
  | cs => if cs.length ≤ 3 then (Text.digits? cs).filter (· ≤ 255) else none

def address? (cs : List Char) : Option Nat :=
  match (Text.pieces '.' cs).map octet? with
  | [some a, some b, some c, some d] => some (a <<< 24 + b <<< 16 + c <<< 8 + d)
  | _ => none

def bits? (cs : List Char) : Option Nat := (Text.unsigned? cs).filter (· ≤ 32)

/-- The first address that shares `bits` leading bits with an address. -/
def network (address bits : Nat) : Nat := address / span bits * span bits

/-- Reads `a.b.c.d/n`, white space around it aside. -/
def parse (s : String) : Except Error Block :=
  let invalid (problem : String) : Except Error Block :=
    .error (.invalidConfiguration (Text.quoted s ++ problem))
  match Text.splitAtFirst '/' (Text.trimChars s.toList) with
  | none => invalid " is not a CIDR (expected a.b.c.d/n)"
  | some (address, bits) =>
    match address? address with
    | none => invalid " has an invalid IPv4 address"
    | some address =>
      match bits? bits with
      | none => invalid " has an invalid prefix length"
      | some bits =>
        if h : bits ≤ 32 ∧ address < 1 <<< 32 ∧ address % 1 <<< (32 - bits) = 0 then
          .ok ⟨address, bits, h.1, h.2.1, h.2.2⟩
        else invalid (" has host bits set; did you mean " ++
          addressText (network address bits) ++ "/" ++ Text.decimal bits ++ "?")

end Block
end MultiCluster.Globalnet
