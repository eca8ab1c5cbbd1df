import MultiCluster.CommandLine.Job
import MultiCluster.Deploy.OnCluster
import MultiCluster.Gather.Fleet

/-! Running a job. Clusters answer calls from a state of their own, files are written into a tree,
and events become lines. A run may never end, because an answer does not arrive. -/
namespace MultiCluster.CommandLine

open Cluster (Call Calls)
open Deploy (Delivery)
open Gateway (GatewayAction Platform Site)

/-- How the cluster of a name answers a call. -/
abbrev Answering (σ : Type) := String → (c : Call) → σ → Delivery (Calls.Answer c) × σ

structure Scene (σ : Type) where
  clusters : σ
  files : Files.Tree
  /-- What has been shown. -/
  lines : List String
  /-- Whether the run has been cancelled. -/
  cancelled : Bool

namespace Scene
variable {σ : Type}

def put (s : Scene σ) (line : Option String) : Scene σ :=
  { s with lines := s.lines ++ line.toList }

/-- Deliver the answer of a cluster. -/
def deliver (h : Answering σ) (cluster : String) (c : Call) (s : Scene σ) :
    Delivery (Calls.Answer c) × Scene σ :=
  let (d, clusters) := h cluster c s.clusters
  (d, { s with clusters := clusters })

def deployment (h : Answering σ) (cluster : String) :
    Program.Handler (Deploy.timed Calls) (Scene σ)
  | .work c, s => let (d, s) := s.deliver h cluster c; (some d, s)
  | .report e, s => (some (), s.put e.line?)

def gateways (h : Answering σ) (cluster : String) : Program.Handler (Deploy.timed Site) (Scene σ)
  | .work (.inl c), s => let (d, s) := s.deliver h cluster c; (some d, s)
  | .work (.inr e), s => (some (.arrived none false ()), s.put e.line?)
  | .report e, s => (some (), s.put e.line?)

/-- Calls of a gathering task. Nothing arrives once the run is cancelled. -/
def calls (h : Answering σ) (cluster : String) : Program.Handler Calls (Scene σ) := fun c s =>
  if s.cancelled then (none, s)
  else match s.deliver h cluster c with
    | (.arrived _ cancels a, s) => (some a, { s with cancelled := cancels })
    | (.interrupted _, s) => (none, { s with cancelled := true })
    | (.lost, s) => (none, s)

def source (h : Answering σ) (cluster : String) : Program.Handler Gather.Source (Scene σ) :=
  fun q s => (Gather.askCluster q).run (calls h cluster) s

def gathering (h : Answering σ) (cluster : String) : Program.Handler Gather.Requests (Scene σ) :=
  ((source h cluster).plus
    (Files.Tree.handler.on (fun s => s.files) fun files s => { s with files := files })).plus
    fun e s => (some (), s.put e.line?)

end Scene

section
variable {σ : Type} (h : Answering σ)

abbrev Finished (σ : Type) := Option (Except Failure Unit) × Scene σ

def runDeployment (o : Deploy.Options) (cluster : String) (s : Scene σ) : Finished σ :=
  match (Deploy.deployBroker o cluster Deploy.clusterAppliers s.cancelled).run
      (Scene.deployment h cluster) s with
  | (none, s) => (none, s)
  | (some (.error e), s) => (some (.error (.operation e)), s)
  | (some (.ok report), s) =>
    (some (.ok ()), s.put (some (if report.mutated then
      "Broker deployed to namespace " ++ o.brokerNamespace ++ " on " ++ cluster
      else "Broker on " ++ cluster ++ " is already up to date")))

/-- Poll the tasks of some indices, which learn of a cancellation first. -/
def pollAll : List Nat → Gather.Fleet → Scene σ → Gather.Fleet × Scene σ
  | [], f, s => (f, s)
  | i :: rest, f, s =>
    let moves := if s.cancelled then [.cancel, .poll i] else [.poll i]
    let (f, s) := Gather.Fleet.run (Scene.gathering h) moves f s
    pollAll rest f s

/-- Poll every task to its end; one that waits is polled again if the run is cancelled. -/
def finishTasks (f : Gather.Fleet) (s : Scene σ) : Gather.Fleet × Scene σ :=
  let indices := List.range f.tasks.length
  let (f, s) := pollAll h indices f s
  if s.cancelled then pollAll h indices f s else (f, s)

def collector (o : Gather.Options) (cluster : String) :
    Program Gather.Requests Gather.Ending :=
  (Gather.collect o cluster).run.bind fun result => .done (.returned result)

def runGathering (o : Gather.Options) (clusters : List String) (s : Scene σ) : Finished σ :=
  match Gather.start o clusters (collector o) with
  | .error e => (some (.error (.operation e)), s)
  | .ok fleet =>
    let (fleet, s) := finishTasks h fleet s
    match fleet.result? with
    | none => (none, s)
    | some (.error e) => (some (.error (.operation e)), s)
    | some (.ok names) =>
      (some (.ok ()), s.put (some ("Gathered data from " ++ Text.decimal names.length ++
        " cluster(s) into " ++ o.directory)))

def runCloud (yaml : Yaml.Reader) (p : Platform) (a : GatewayAction) (searchPath : List String)
    (cluster : String) (s : Scene σ) : Finished σ :=
  let cancelled : Except Failure Unit := .error (.operation (.cancelled ("cloud " ++ p.name)))
  if s.cancelled then (some cancelled, s)
  else match (Deploy.bounded none (Gateway.runOn yaml s.files searchPath p a).run .zero false).run
      (Scene.gateways h cluster) s with
    | (none, s) => (none, s)
    | (some (.finished (.ok ()), _), s) => (some (.ok ()), s)
    | (some (.finished (.error e), _), s) => (some (.error (.operation e)), s)
    | (some (.cancelled, _), s) => (some cancelled, s)
    | (some (.timedOut _, _), s) => (some cancelled, s)

def Job.run (yaml : Yaml.Reader) (j : Job) (s : Scene σ) : Finished σ :=
  match j with
  | .deployBroker o target => runDeployment h o target.name s
  | .gather o targets => runGathering h o (targets.map Target.name) s
  | .cloud p a searchPath target => runCloud h yaml p a searchPath target.name s

/-- Carry out a command line; `cancelled` tells whether the run is cancelled beforehand. -/
def Invocation.run (env : Environment) (i : Invocation) (cancelled : Bool) (clusters : σ) :
    Finished σ :=
  let s : Scene σ := ⟨clusters, env.files, [], cancelled⟩
  match i.job env with
  | .error f => (some (.error f), s)
  | .ok j => j.run h env.yaml s

end

end MultiCluster.CommandLine
