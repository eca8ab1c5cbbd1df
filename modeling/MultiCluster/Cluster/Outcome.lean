/-! What applying an object did to the cluster. -/
namespace MultiCluster

inductive Outcome where
  /-- The object did not exist. -/
  | created
  /-- The object existed and changed. -/
  | updated
  /-- The object already matched. -/
  | unchanged
  deriving DecidableEq, Repr

namespace Outcome

/-- From the versions around a write, the first `none` if the object was absent. A write that
changes nothing leaves the version alone. -/
def ofVersions (before : Option (Option String)) (after : Option String) : Outcome :=
  match before with
  | none => .created
  | some previous => if previous.isSome && previous == after then .unchanged else .updated

def isMutation (o : Outcome) : Bool := o != .unchanged

/-- The outcome of several writes as one: created if all were, unchanged if none changed anything,
updated otherwise. -/
def combine (outcomes : List Outcome) : Outcome :=
  match outcomes.contains .created, outcomes.contains .updated, outcomes.contains .unchanged with
  | true, false, false => .created
  | false, false, _ => .unchanged
  | _, _, _ => .updated

def name : Outcome → String
  | .created => "created"
  | .updated => "updated"
  | .unchanged => "unchanged"

end Outcome
end MultiCluster
