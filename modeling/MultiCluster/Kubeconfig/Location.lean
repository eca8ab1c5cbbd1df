import MultiCluster.Files.Path
import MultiCluster.Text.Join

/-! Where the kubeconfig file is: a path that is given wins over one in the environment, and a
leading `~` stands for the home directory. -/
namespace MultiCluster.Kubeconfig

/-- A piece of a path that leads nowhere else. -/
def isIdle (piece : String) : Bool := piece == "" || piece == "."

def trimIdle (pieces : List String) : List String :=
  ((pieces.dropWhile isIdle).reverse.dropWhile isIdle).reverse

/-- The path with the home directory, if there is one, in place of a first piece `~`. -/
def expandHome (home : Option String) (path : String) : String :=
  match Text.splitOn '/' path, home with
  | "~" :: rest, some h => Files.join h (Text.join "/" (trimIdle rest))
  | _, _ => path

/-- The path of the file, if one is named; an empty text in the environment names none. -/
def location? (home given inEnvironment : Option String) : Option String :=
  (given.or (inEnvironment.filter (· != ""))).map (expandHome home)

end MultiCluster.Kubeconfig
