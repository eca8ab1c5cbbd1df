/-! Sets of texts as ascending lists without repetitions. -/
namespace MultiCluster.Text

def insertOrdered (s : String) : List String → List String
  | [] => [s]
  | t :: rest =>
    if s == t then t :: rest
    else if s < t then s :: t :: rest
    else t :: insertOrdered s rest

/-- The members of a list in ascending order, each once. -/
def ordered (items : List String) : List String := items.foldr insertOrdered []

end MultiCluster.Text
