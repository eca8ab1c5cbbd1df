import MultiCluster.Cluster.Outcome
import MultiCluster.Deploy.Options
import MultiCluster.Program
import MultiCluster.Report

/-! The deployment pipeline: four steps in a fixed order, the first failure ending the run.

Each step is a program of requests of its own. While it runs, time passes and the run may be
cancelled; the surroundings say so with every answer. A step ends early when the run is cancelled
before its work is finished, or when its time limit is exceeded. -/
namespace MultiCluster.Deploy

inductive Step where
  | rbac | operator | broker | globalnet
  deriving DecidableEq, Repr

namespace Step

def name : Step → String
  | .rbac => "rbac"
  | .operator => "operator"
  | .broker => "broker"
  | .globalnet => "globalnet"

def description : Step → String
  | .rbac => "Setting up broker RBAC"
  | .operator => "Deploying the Submariner operator"
  | .broker => "Deploying the broker"
  | .globalnet => "Configuring globalnet"

def position : Step → Nat
  | .rbac => 0
  | .operator => 1
  | .broker => 2
  | .globalnet => 3

def compare (a b : Step) : Ordering := Ord.compare a.position b.position

def all : List Step := [.rbac, .operator, .broker, .globalnet]

end Step

inductive State where
  | notStarted
  | rbacDone
  | operatorDone
  | brokerDone
  | globalnetDone
  | failed (step : Step)
  deriving DecidableEq, Repr

namespace State

/-- The step to run next; none in a final state. -/
def next? : State → Option Step
  | .notStarted => some .rbac
  | .rbacDone => some .operator
  | .operatorDone => some .broker
  | .brokerDone => some .globalnet
  | .globalnetDone => none
  | .failed _ => none

def completed : Step → State
  | .rbac => .rbacDone
  | .operator => .operatorDone
  | .broker => .brokerDone
  | .globalnet => .globalnetDone

def isTerminal (s : State) : Bool := s.next?.isNone

end State

/-- What a successful run did: the outcome of every step that ran. -/
structure Report where
  state : State
  outcomes : List (Step × Outcome)
  deriving DecidableEq, Repr

def Report.mutated (r : Report) : Bool := r.outcomes.any fun o => o.2.isMutation

structure Appliers (I : Interface) where
  rbac : Rights → Action I Error Outcome
  operator : Operator → Action I Error Outcome
  broker : String → BrokerSpec → Action I Error Outcome
  /-- Fails if the stored record conflicts with the desired one. -/
  validateRecord : String → Globalnet.Record → Action I Error Unit
  ensureRecord : String → Globalnet.Record → Action I Error Outcome

def work {I : Interface} (appliers : Appliers I) (p : Plan) : Step → Action I Error Outcome
  | .rbac => appliers.rbac p.rights
  | .operator => appliers.operator p.operator
  | .broker => appliers.broker p.namespaceName p.broker
  | .globalnet => do
    appliers.validateRecord p.namespaceName p.record
    appliers.ensureRecord p.namespaceName p.record

/-- How an answer reaches the work of a step. -/
inductive Delivery (α : Type) where
  /-- At once, or after a wait. If the answer comes with the cancellation of the run, the work goes
  on until it next has to wait. -/
  | arrived (wait : Option Duration) (cancels : Bool) (a : α)
  /-- Not at all: the run is cancelled while the work waits. -/
  | interrupted (after : Duration)
  /-- Not at all, and nothing else happens either. -/
  | lost
  deriving Repr

/-- What a pipeline asks of its surroundings: the requests of its steps, and to report. -/
inductive Timed (R : Type) where
  | work (r : R)
  | report (e : Event)

def timed (I : Interface) : Interface where
  Request := Timed I.Request
  Answer
    | .work r => Delivery (I.Answer r)
    | .report _ => Unit

inductive Ending (α : Type) where
  | finished (a : α)
  | cancelled
  | timedOut (limit : Duration)
  deriving Repr

def exceeded (elapsed : Duration) (limit : Option Duration) : Option Duration :=
  limit.filter fun l => l.nanos < elapsed.nanos

section
variable {I : Interface} {α : Type}

/-- The end of work that waits for something that never comes. -/
def stuck (limit : Option Duration) (cancelled : Bool) :
    Program (timed I) (Ending α × Bool) :=
  if cancelled then .done (.cancelled, true)
  else match limit with
    | some l => .done (.timedOut l, false)
    | none => .never

/-- Run work until it is finished, cancelled or out of time. `elapsed` is the time it took so far,
and `cancelled` whether the run has been cancelled since the work last waited. The second part of
the result tells whether the run is cancelled at the end. -/
def bounded (limit : Option Duration) :
    Program I α → Duration → Bool → Program (timed I) (Ending α × Bool)
  | .done a, _, cancelled => .done (.finished a, cancelled)
  | .never, _, cancelled => stuck limit cancelled
  | .ask r next, elapsed, cancelled =>
    .ask (I := timed I) (.work r) fun (d : Delivery (I.Answer r)) =>
      match d with
      | .arrived none cancels a => bounded limit (next a) elapsed (cancelled || cancels)
      | .arrived (some wait) cancels a =>
        if cancelled then .done (.cancelled, true)
        else match exceeded (elapsed.add wait) limit with
          | some l => .done (.timedOut l, cancels)
          | none => bounded limit (next a) (elapsed.add wait) cancels
      | .interrupted after =>
        if cancelled then .done (.cancelled, true)
        else match exceeded (elapsed.add after) limit with
          | some l => .done (.timedOut l, false)
          | none => .done (.cancelled, true)
      | .lost => stuck limit cancelled

def tell (e : Event) : Program (timed I) Unit := .ask (I := timed I) (.report e) .done

/-- The result of a step, and whether the run is cancelled after it. -/
def runStep (limit : Option Duration) (step : Step) (work : Action I Error Outcome)
    (cancelled : Bool) : Program (timed I) (Except Error Outcome × Bool) :=
  let interrupted : Except Error Outcome := .error (.cancelled (step.name ++ " step"))
  if cancelled then .done (interrupted, true)
  else (bounded limit work.run .zero false).bind fun
    | (.finished result, cancelled) => .done (result, cancelled)
    | (.cancelled, cancelled) => .done (interrupted, cancelled)
    | (.timedOut l, cancelled) =>
      .done (.error (.cancelled (step.name ++ " step timed out after " ++ l.text)), cancelled)

/-- Run the given steps, the outcomes so far in hand. -/
def runSteps (limit : Option Duration) (cluster : String)
    (work : Step → Action I Error Outcome) :
    List Step → Bool → List (Step × Outcome) → Program (timed I) (Except Error Report)
  | [], _, outcomes => .done (.ok ⟨.globalnetDone, outcomes⟩)
  | step :: rest, cancelled, outcomes => do
    tell (.start step.description)
    match ← runStep limit step (work step) cancelled with
    | (.ok outcome, cancelled) =>
      tell (.success (step.description ++ " (" ++ outcome.name ++ ")"))
      tell .finish
      runSteps limit cluster work rest cancelled (outcomes ++ [(step, outcome)])
    | (.error e, _) =>
      tell (.failure (step.description ++ " failed: " ++ e.message))
      return .error (.stepFailure step.name cluster e)

/-- The steps of a plan; the globalnet step is left out when globalnet is off. -/
def Plan.steps (p : Plan) : List Step :=
  [.rbac, .operator, .broker] ++ if p.broker.globalnetEnabled then [.globalnet] else []

/-- Deploy a broker onto a cluster. Invalid options are rejected before the first step;
`cancelled` tells whether the run has been cancelled beforehand. -/
def deployBroker (options : Options) (cluster : String) (appliers : Appliers I)
    (cancelled : Bool) : Program (timed I) (Except Error Report) :=
  match plan options with
  | .error e => do
    tell (.failure ("Invalid broker configuration: " ++ e.message))
    return .error e
  | .ok p => runSteps options.stepTimeout cluster (work appliers p) p.steps cancelled []

end

end MultiCluster.Deploy
