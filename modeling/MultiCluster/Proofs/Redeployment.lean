import MultiCluster.Proofs.Planning
import MultiCluster.Proofs.Undisturbed

/-! Deploying again what was deployed. Requests that mean the same make the same plan, and after a
deployment that succeeded, however it came to that, nothing is left to do for the plan. -/
namespace MultiCluster.Deploy

open Cluster
open Program (Leads)
open Server (Exchange)

/-- Requests that mean the same: components as a set, the image however it is put together, and
with globalnet the network and the size of the blocks. -/
structure Equivalent (a b : Options) : Prop where
  namespaces : a.brokerNamespace = b.brokerNamespace
  components : ∀ c, c ∈ a.broker.components ↔ c ∈ b.broker.components
  globalnet : a.broker.globalnetEnabled = b.broker.globalnetEnabled
  image : a.operatorImage = b.operatorImage
  debug : a.operatorDebug = b.operatorDebug
  network : a.broker.globalnetEnabled = true → ∀ block,
    Globalnet.Block.parse a.broker.globalnetRange = .ok block ↔
      Globalnet.Block.parse b.broker.globalnetRange = .ok block
  blockSize : a.broker.globalnetEnabled = true → ∀ size,
    Globalnet.blockSize a.broker.globalnetRange a.broker.clusterSize = .ok size ↔
      Globalnet.blockSize b.broker.globalnetRange b.broker.clusterSize = .ok size

variable {a b : Options} {p : Plan} {cluster : String} {s s' : Server}

theorem settle_congr {spec : BrokerSpec} (equivalent : Equivalent a b)
    (settled : Globalnet.settle a.broker = (.ok (), spec)) :
    ∃ spec', Globalnet.settle b.broker = (.ok (), spec') ∧ spec'.normalized = spec.normalized := by
  have components := Text.ordered_congr equivalent.components
  have flags := equivalent.globalnet
  cases on : a.broker.globalnetEnabled with
  | false =>
    rw [on] at flags
    rw [Globalnet.settle_disabled on] at settled
    obtain ⟨-, rfl⟩ := Prod.mk.inj settled
    exact ⟨_, Globalnet.settle_disabled flags.symm, by
      simp [BrokerSpec.normalized, on, ← flags, components]⟩
  | true =>
    rw [on] at flags
    obtain ⟨size, block, sized, checked, parsed, rfl⟩ := (Globalnet.settle_ok_iff on).mp settled
    have parsed' := (equivalent.network on block).mp parsed
    refine ⟨_, (Globalnet.settle_ok_iff flags.symm).mpr ⟨size, block,
      (equivalent.blockSize on size).mp sized, Globalnet.checkRange_congr parsed parsed' checked,
      parsed', rfl⟩, ?_⟩
    simp [BrokerSpec.normalized, on, ← flags, components]

/-- Requests that mean the same make the same plan. -/
theorem plan_congr (equivalent : Equivalent a b) (planned : plan a = .ok p) : plan b = .ok p := by
  rw [plan_ok_iff] at planned ⊢
  obtain ⟨valid, spec, settled, rfl⟩ := planned
  obtain ⟨spec', settled', same⟩ := settle_congr equivalent settled
  refine ⟨Component.validate_congr equivalent.components valid, spec', settled', ?_⟩
  rw [same, equivalent.namespaces, equivalent.image, equivalent.debug]

/-- Steps that succeed have done all there is to do, however often they had to ask. -/
theorem rests_of_steps {limit : Option Duration} {cancelled : Bool}
    (versioned : Errand.AllVersioned s) :
    (runSteps limit cluster (work clusterAppliers p) p.steps cancelled []).Meets
      (unreliable Exchange) Eq (fun _ _ => True) (fun result s' => ∀ report, result = .ok report →
        Errand.AllVersioned s' ∧ ∀ e ∈ p.tasks, e.Rests (s'.objects.find? e.path)) s := by
  -- Nothing is left to do for the errands of the steps that are not left to run.
  refine Program.Meets.imp (meets_runSteps
    (K := fun left s => (∀ step ∈ left, step ∈ p.steps) ∧ Errand.AllVersioned s ∧
      ∀ e ∈ p.tasks, e ∉ left.flatMap p.errands → e.Rests (s.objects.find? e.path))
    (fun _ => trivial) (fun _ _ _ same kept => same ▸ kept) ?_ ?_)
      fun result s' done report ok => ?_
  · rintro step rest s₁ ⟨inPlan, versioned₁, rests⟩
    rw [List.forall_mem_cons] at inPlan
    have sub : ∀ e ∈ p.errands step, e ∈ p.tasks := fun e member =>
      List.mem_flatMap.mpr ⟨step, inPlan.1, member⟩
    rw [work_eq]
    refine meets_map ((Errand.rests_of_performAll errands_harmonious sub versioned₁).imp ?_)
    rintro (_ | outcomes) s₂ success outcome ok
    · cases ok
    · obtain ⟨versioned₂, now, kept⟩ := success outcomes rfl
      refine ⟨inPlan.2, versioned₂, fun e member notLeft => ?_⟩
      by_cases ofStep : e ∈ p.errands step
      · exact now e ofStep
      · refine kept e member (rests e member ?_)
        simpa [ofStep] using notLeft
  · exact ⟨fun _ member => member, versioned, fun e member notLeft => absurd member notLeft⟩
  · obtain ⟨-, versioned', rests⟩ := done report ok
    exact ⟨versioned', fun e member => rests e member (by simp)⟩

theorem rests_of_deployBroker {cancelled : Bool} (versioned : Errand.AllVersioned s) :
    (deployBroker a cluster clusterAppliers cancelled).Meets (unreliable Exchange) Eq
      (fun _ _ => True) (fun result s' => ∀ report, result = .ok report → ∃ p, plan a = .ok p ∧
        Errand.AllVersioned s' ∧ ∀ e ∈ p.tasks, e.Rests (s'.objects.find? e.path)) s := by
  unfold deployBroker
  cases planned : plan a with
  | error e => exact meets_tell (fun _ => trivial) fun _ _ _ ok => by cases ok
  | ok p =>
    exact (rests_of_steps versioned).imp fun _ _ done report ok => ⟨p, rfl, done report ok⟩

/-- After a deployment that succeeded on a server whose objects all have versions, a request that
means the same changes nothing, and every step says so. -/
theorem undisturbed_of_equivalent {cancelled : Bool} {report : Report} (equivalent : Equivalent a b)
    (quiet : s.faults = []) (versioned : Errand.AllVersioned s)
    (succeeded : Leads (unreliable Exchange) (deployBroker a cluster clusterAppliers cancelled) s
      (.done (.ok report)) s') (waits : Nat → Option Duration) :
    ∃ report', undisturbed b cluster waits s' = (some (.ok report'), s') ∧
      (∀ step outcome, (step, outcome) ∈ report'.outcomes → outcome = .unchanged) ∧
      report'.mutated = false := by
  have quiet' : s'.faults = [] := leads_keeps (J := fun s => s.faults = []) succeeded
    (fun _ _ _ _ came quiet => came.faults.trans quiet) quiet
  obtain ⟨p, planned, versioned', rests⟩ :=
    (rests_of_deployBroker versioned).result succeeded report rfl
  refine ⟨_, undisturbed_of_rests (plan_congr equivalent planned) quiet' versioned' rests, ?_, ?_⟩
  · simp
  · simp [Report.mutated, Outcome.isMutation]

def asked : Options := .withGlobalnet "10.64.0.0/10" 1000

def askedOtherwise : Options :=
  let o := Options.withGlobalnet " 10.64.0.0/10 " 1024
  { o with broker := { o.broker with
    components := [Component.connectivity, Component.serviceDiscovery, Component.connectivity] } }

theorem equivalent_askedOtherwise : Equivalent asked askedOtherwise where
  namespaces := rfl
  components c := by simp [asked, askedOtherwise, Options.withGlobalnet, Options.default, or_comm]
  globalnet := rfl
  image := by decide +kernel
  debug := rfl
  network _ block := by
    have same : Globalnet.Block.parse asked.broker.globalnetRange =
        Globalnet.Block.parse askedOtherwise.broker.globalnetRange := by decide +kernel
    rw [same]
  blockSize _ size := by
    have same : Globalnet.blockSize asked.broker.globalnetRange asked.broker.clusterSize =
        Globalnet.blockSize askedOtherwise.broker.globalnetRange
          askedOtherwise.broker.clusterSize := by decide +kernel
    rw [same]

theorem undisturbed_askedOtherwise : ∃ s' report report',
    undisturbed asked "east" (fun _ => none) pristine = (some (.ok report), s') ∧
      undisturbed askedOtherwise "east" (fun _ => none) s' = (some (.ok report'), s') ∧
      (∀ step outcome, (step, outcome) ∈ report'.outcomes → outcome = .unchanged) ∧
      report'.mutated = false := by
  have succeeds : (undisturbed asked "east" (fun _ => none) pristine).1 =
      some (.ok ⟨.globalnetDone, [(.rbac, .created), (.operator, .created), (.broker, .created),
        (.globalnet, .created)]⟩) := by decide +kernel
  rcases first : undisturbed asked "east" (fun _ => none) pristine with ⟨result, s'⟩
  rw [first] at succeeds
  obtain rfl : result = _ := succeeds
  obtain ⟨report', again, unchanged, quiet⟩ := undisturbed_of_equivalent equivalent_askedOtherwise
    rfl (fun _ => by simp [pristine, Store.find?, Versioned]) (leads_of_undisturbed rfl first)
    fun _ => none
  exact ⟨s', _, report', rfl, again, unchanged, quiet⟩

end MultiCluster.Deploy
