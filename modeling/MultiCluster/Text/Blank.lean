/-! White space as Unicode's White_Space property has it, and trimming by it. -/
namespace MultiCluster.Text

def isBlank (c : Char) : Bool :=
  let n := c.toNat
  (9 ≤ n && n ≤ 13) || n == 0x20 || n == 0x85 || n == 0xA0 || n == 0x1680 ||
    (0x2000 ≤ n && n ≤ 0x200A) || n == 0x2028 || n == 0x2029 || n == 0x202F || n == 0x205F ||
    n == 0x3000

def trimLeft (cs : List Char) : List Char := cs.dropWhile isBlank

def trimRight (cs : List Char) : List Char := (cs.reverse.dropWhile isBlank).reverse

/-- The characters between the first and the last that are not blank. -/
def trimChars (cs : List Char) : List Char := trimRight (trimLeft cs)

def trim (s : String) : String := String.ofList (trimChars s.toList)

/-- Empty, or made of white space only. -/
def blank (s : String) : Bool := s.toList.all isBlank

/-- A text that is worth something: blank ones count as absent. -/
def present (s : Option String) : Option String := s.filter fun v => !blank v

end MultiCluster.Text
