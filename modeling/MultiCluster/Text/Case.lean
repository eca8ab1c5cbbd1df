/-! Lower case and comparison for the twenty-six ASCII letters; every other character is left
alone. -/
namespace MultiCluster.Text

def lower (s : String) : String := String.ofList (s.toList.map Char.toLower)

def equalsIgnoringCase (a b : String) : Bool := lower a == lower b

def occursIn (part : List Char) : List Char → Bool
  | [] => part.isEmpty
  | c :: rest => part.isPrefixOf (c :: rest) || occursIn part rest

end MultiCluster.Text
