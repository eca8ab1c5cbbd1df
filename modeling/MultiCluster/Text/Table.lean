/-! Tables from texts to texts, kept in ascending order of their keys. -/
namespace MultiCluster.Text

abbrev Table := List (String × String)

namespace Table

def find? (key : String) : Table → Option String
  | [] => none
  | (k, v) :: rest => if k == key then some v else find? key rest

def insert (key value : String) : Table → Table
  | [] => [(key, value)]
  | (k, v) :: rest =>
    if k == key then (key, value) :: rest
    else if key < k then (key, value) :: (k, v) :: rest
    else (k, v) :: insert key value rest

end Table
end MultiCluster.Text
