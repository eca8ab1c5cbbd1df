import MultiCluster.Cluster.Client
import MultiCluster.Gateway.Nodes
import MultiCluster.Report

/-! Preparing gateways on a cluster, and removing them. On any cluster, workers that exist already
are labelled. -/
namespace MultiCluster.Gateway

open Cluster

abbrev Site : Interface := Calls.plus Reports

abbrev SiteWork (α : Type) := Action Site Error α

def tell (e : Event) : SiteWork Unit := ExceptT.lift (report e).inRight

def onCluster {α : Type} (work : Work α) : SiteWork α := work.inLeft

/-- Work whose failure is reported. -/
def reporting {α : Type} (say : Error → String) (work : SiteWork α) : SiteWork α :=
  tryCatch work fun e => do
    tell (.failure (say e))
    throw e

structure Deployer (I : Interface) where
  /-- Make sure that there are so many gateways. -/
  deploy : Nat → Action I Error Unit
  /-- Remove everything that was made. -/
  cleanup : Action I Error Unit

def nodes : Collection := .clusterWide .node

def labelPatch (value : Option String) : Json :=
  .obj [("metadata", .obj [("labels", .obj [(gatewayLabel, Json.text value)])])]

def setLabel (value : Option String) (node : String) : Work Unit := do
  let _ ← nodes.mergePatch (nodes.label node) node (labelPatch value)
  pure ()

/-- Run work on items in order, up to the first failure. -/
def inOrder {α : Type} (work : α → SiteWork Unit) : List α → SiteWork Unit
  | [] => pure ()
  | a :: rest => do
    work a
    inOrder work rest

def label (node : String) : SiteWork Unit :=
  reporting (fun e => "Failed to label node " ++ node ++ ": " ++ e.message)
    (onCluster (setLabel (some "true") node))

def unlabel (node : String) : SiteWork Unit :=
  reporting (fun e => "Failed to unlabel node " ++ node ++ ": " ++ e.message)
    (onCluster (setLabel none node))

def labelGateways (count : Nat) : SiteWork Unit := do
  tell (.start ("Labelling " ++ Text.decimal count ++ " gateway node(s)"))
  let all ← onCluster (nodes.list "nodes" none)
  let selection ← reporting Error.message (.mk (.done (select all count)))
  inOrder label selection.chosen
  tell (.success (Text.decimal selection.existing.length ++ " existing gateway node(s), " ++
    Text.decimal selection.chosen.length ++ " newly labelled"))

def removeLabels : SiteWork Unit := do
  tell (.start "Removing gateway labels")
  let labelled ← onCluster (nodes.list "nodes" (some (gatewayLabel ++ "=true")))
  let names := labelled.filterMap Object.name?
  inOrder unlabel names
  tell (.success ("Removed the gateway label from " ++ Text.decimal names.length ++ " node(s)"))

/-- Gateways from workers that exist already. -/
def workers : Deployer Site := ⟨labelGateways, removeLabels⟩

end MultiCluster.Gateway
