import MultiCluster.Text.Join

/-! Paths as texts. -/
namespace MultiCluster.Files

def isAbsolute (path : String) : Bool := path.toList.head? == some '/'

def join (base part : String) : String :=
  if isAbsolute part || base == "" then part
  else if base.toList.getLast? == some '/' then base ++ part
  else base ++ "/" ++ part

end MultiCluster.Files
