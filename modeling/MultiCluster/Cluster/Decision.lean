/-! What to do about an object that may be stored already. -/
namespace MultiCluster

inductive Decision where
  /-- Nothing is stored. -/
  | create
  /-- What is stored has to be replaced. -/
  | update
  /-- What is stored is what is wanted. -/
  | unchanged
  deriving DecidableEq, Repr

end MultiCluster
