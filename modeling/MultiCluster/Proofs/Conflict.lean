import MultiCluster.Proofs.BlockText
import MultiCluster.Proofs.Planning
import MultiCluster.Proofs.SharedRecord
import MultiCluster.Proofs.Undisturbed

/-! Requests that conflict with the stored record. The record is looked at in the last step, and only
if globalnet is asked for, so by then the broker object carries the new request; the record itself is
left alone. -/
namespace MultiCluster.Deploy

open Cluster
open Globalnet (Block Record)
open Globalnet.Record (held?)

variable {options : Options} {p : Plan} {cluster : String} {waits : Nat → Option Duration}
  {s s' : Server} {r : Record}

/-- A record and a request differ in the flag, the network or the size of the blocks. -/
inductive Disagrees (r : Record) (o : Options) : Prop
  | flag (other : r.enabled ≠ o.broker.globalnetEnabled)
  | network {block : Block} (asked : Block.parse o.broker.globalnetRange = .ok block)
      (other : Block.parse r.range ≠ .ok block)
  | size {size : UInt32}
      (asked : Globalnet.blockSize o.broker.globalnetRange o.broker.clusterSize = .ok size)
      (other : r.clusterSize ≠ size)

/-- With globalnet on both sides, a record with members conflicts with a request that differs. -/
theorem conflict_of_disagrees (ns : String) (planned : plan options = .ok p)
    (on : options.broker.globalnetEnabled = true) (enabled : r.enabled = true)
    (members : r.clusters ≠ []) (disagrees : Disagrees r options) :
    ∃ message, Globalnet.checkExisting (some r) p.record ns =
      .error (.conflictingState ns message) := by
  obtain ⟨-, spec, settled, rfl⟩ := plan_ok_iff.mp planned
  obtain ⟨size, block, sized, -, parsed, rfl⟩ := (Globalnet.settle_ok_iff on).mp settled
  have desired (ns : String) (p : Plan) (broker : p.broker = BrokerSpec.normalized
      { options.broker with globalnetRange := block.text, clusterSize := size }) :
      p.record = ⟨true, block.text, size, []⟩ := by
    simp [Plan.record, Record.ofSpec, broker, BrokerSpec.normalized, on]
  rw [desired ns _ rfl]
  rcases Globalnet.checkExisting_cases r ⟨true, block.text, size, []⟩ ns with
    ⟨replaceable, -⟩ | ⟨same, -⟩ | ⟨-, conflict⟩
  · exact absurd replaceable.alone members
  · cases disagrees with
    | flag other => exact absurd (enabled.trans on.symm) other
    | network asked other =>
      obtain rfl := Except.ok.inj (parsed.symm.trans asked)
      exact absurd (Globalnet.sameRange_text.mp (Globalnet.sameRange_iff.mpr same.range)) other
    | size asked other =>
      obtain rfl := Except.ok.inj (sized.symm.trans asked)
      exact absurd same.size other
  · exact conflict

/-- The globalnet step fails where the stored record conflicts, and changes nothing. -/
theorem runOn_conflict {e : Error} (quiet : s.faults = [])
    (held : held? p.namespaceName s = some r)
    (judged : Globalnet.checkExisting (some r) p.record p.namespaceName = .error e) :
    runOn s (inTurn cluster (work clusterAppliers p) [.globalnet]) =
      (some (.error (.stepFailure "globalnet" cluster e)), s) := by
  obtain ⟨v, w, found, reading, read⟩ := Globalnet.Record.held?_eq_some_iff.mp held
  have checked : runOn s (Globalnet.Record.upsert p.namespaceName p.record).check =
      (some (.error e), s) := by
    rw [Upsert.runOn_check_of_read (u := Globalnet.Record.upsert p.namespaceName p.record) quiet
      found reading, Globalnet.Record.keeps_of_record read, judged]
    rfl
  have failed : runOn s (Errand.performAll (p.errands .globalnet)) = (some (.error e), s) :=
    runOn_bind_of_error (runOn_bind_of_error checked)
  rw [runOn_inTurn_cons, failed]
  rfl

def brokerPath (ns : String) : Path := (Collection.inNamespace .broker ns).member BrokerObject.name

def Carries (ns : String) (spec : BrokerSpec) (s : Server) : Prop :=
  ∃ v w, s.objects.find? (brokerPath ns) = some v ∧ Kind.broker.read v = .ok w ∧
    (BrokerObject.spec w).normalized = spec.normalized

def earlierSteps : List Step := [.rbac, .operator, .broker]

theorem apart_of_earlier {e : Errand} (member : e ∈ earlierSteps.flatMap p.errands) :
    Globalnet.Record.path p.namespaceName ≠ e.path := by
  intro about
  obtain ⟨step, isEarlier, ofStep⟩ := List.mem_flatMap.mp member
  obtain ⟨rfl, -, -⟩ := record_of_path ofStep about.symm
  simp [earlierSteps] at isEarlier

/-- Once the steps before the last one have succeeded, the broker object means what the plan says. -/
theorem carries_of_earlier {done : List (Step × Outcome)} (quiet : s.faults = [])
    (ran : runOn s (inTurn cluster (work clusterAppliers p) earlierSteps) = (some (.ok done), s')) :
    Carries p.namespaceName p.broker s' := by
  have harmonious : Errand.Harmonious (earlierSteps.flatMap p.errands) := errands_harmonious
  have sub : ∀ e ∈ earlierSteps.flatMap p.errands, e ∈ earlierSteps.flatMap p.errands :=
    fun _ member => member
  obtain ⟨outcomes, ran⟩ := runOn_inTurn_ok.mp ⟨done, ran⟩
  obtain ⟨_, _, ran', -, -, reached, -⟩ := Errand.runOn_performAll_of_begun harmonious sub
    (Errand.possible_of_runOn harmonious sub quiet ran) quiet Errand.Begun.start
  obtain ⟨-, rfl⟩ := Prod.mk.inj (ran.symm.trans ran')
  have member : (BrokerObject.upsert p.namespaceName p.broker).errand ∈
      earlierSteps.flatMap p.errands := by
    simp [earlierSteps, Plan.errands]
  have rests := Errand.rests_of_reached (harmonious.lawful _ member) (reached _ member)
  obtain ⟨v, w, found, reading, kept⟩ := Upsert.effect_leaves rests
  exact ⟨v, w, found, reading, of_decide_eq_true (Except.ok.inj kept)⟩

theorem steps_of_plan (planned : plan options = .ok p) :
    p.steps = earlierSteps ++ if options.broker.globalnetEnabled then [.globalnet] else [] := by
  rw [Plan.steps, flag_of_plan planned]
  rfl

theorem undisturbed_of_earlier_error {e : Error} (planned : plan options = .ok p)
    (ran : runOn s (inTurn cluster (work clusterAppliers p) earlierSteps) = (some (.error e), s')) :
    undisturbed options cluster waits s = (some (.error e), s') := by
  have all : runOn s (inTurn cluster (work clusterAppliers p) p.steps) = (some (.error e), s') := by
    rw [steps_of_plan planned, inTurn_append]
    exact runOn_bind_of_error ran
  exact undisturbed_of_inTurn planned all

theorem undisturbed_of_earlier_only {done : List (Step × Outcome)} (planned : plan options = .ok p)
    (off : options.broker.globalnetEnabled = false)
    (ran : runOn s (inTurn cluster (work clusterAppliers p) earlierSteps) = (some (.ok done), s')) :
    undisturbed options cluster waits s = (some (.ok ⟨.globalnetDone, done⟩), s') := by
  have all : runOn s (inTurn cluster (work clusterAppliers p) p.steps) = (some (.ok done), s') := by
    rw [steps_of_plan planned, off]
    exact ran
  exact undisturbed_of_inTurn planned all

theorem undisturbed_of_last_error {done : List (Step × Outcome)} {e : Error} {s₁ : Server}
    (planned : plan options = .ok p) (on : options.broker.globalnetEnabled = true)
    (ran : runOn s (inTurn cluster (work clusterAppliers p) earlierSteps) = (some (.ok done), s₁))
    (last : runOn s₁ (inTurn cluster (work clusterAppliers p) [.globalnet]) =
      (some (.error e), s')) :
    undisturbed options cluster waits s = (some (.error e), s') := by
  have all : runOn s (inTurn cluster (work clusterAppliers p) p.steps) = (some (.error e), s') := by
    rw [steps_of_plan planned, on, inTurn_append, runOn_bind_of_ok ran]
    exact runOn_bind_of_error last
  exact undisturbed_of_inTurn planned all

/-- A request that disagrees with the record of members leaves the record alone. If a step before
the last one fails, so does the deployment; otherwise the broker object carries the request, and the
deployment fails for the conflict if globalnet is asked for and succeeds if not. -/
theorem undisturbed_of_disagrees (cluster : String) (waits : Nat → Option Duration)
    (quiet : s.faults = []) (planned : plan options = .ok p)
    (held : held? p.namespaceName s = some r) (enabled : r.enabled = true)
    (members : r.clusters ≠ []) (disagrees : Disagrees r options) :
    ∃ result s', undisturbed options cluster waits s = (some result, s') ∧
      s'.objects.find? (Globalnet.Record.path p.namespaceName) =
        s.objects.find? (Globalnet.Record.path p.namespaceName) ∧
      ((∃ e, (runOn s (inTurn cluster (work clusterAppliers p) earlierSteps)).1 =
          some (.error e) ∧ result = .error e) ∨
        ∃ done, (runOn s (inTurn cluster (work clusterAppliers p) earlierSteps)).1 =
          some (.ok done) ∧ Carries p.namespaceName p.broker s' ∧
            if options.broker.globalnetEnabled then ∃ message, result =
              .error (.stepFailure "globalnet" cluster (.conflictingState p.namespaceName message))
            else result = .ok ⟨.globalnetDone, done⟩) := by
  obtain ⟨early, s₁, ran⟩ : ∃ early s₁, runOn s (inTurn cluster (work clusterAppliers p)
      earlierSteps) = (some early, s₁) := runOn_inTurn_total quiet
  have kept := find?_of_inTurn quiet ran fun e => apart_of_earlier
  rw [ran]
  cases early with
  | error e => exact ⟨_, s₁, undisturbed_of_earlier_error planned ran, kept, .inl ⟨e, rfl, rfl⟩⟩
  | ok done =>
    have carries := carries_of_earlier quiet ran
    cases on : options.broker.globalnetEnabled with
    | false =>
      exact ⟨_, s₁, undisturbed_of_earlier_only planned on ran, kept,
        .inr ⟨done, rfl, carries, rfl⟩⟩
    | true =>
      obtain ⟨message, judged⟩ := conflict_of_disagrees p.namespaceName planned on enabled members
        disagrees
      have quiet₁ : (runOn s (inTurn cluster (work clusterAppliers p) earlierSteps)).2.faults = [] :=
        faults_run quiet
      have held₁ : held? p.namespaceName s₁ = some r := by
        rw [held?, kept]
        exact held
      rw [ran] at quiet₁
      exact ⟨_, s₁, undisturbed_of_last_error planned on ran (runOn_conflict quiet₁ held₁ judged),
        kept, .inr ⟨done, rfl, carries, message, rfl⟩⟩

def occupied : Server :=
  let spec := BrokerSpec.normalized ⟨Options.default.broker.components, true, "242.0.0.0/8", 65536⟩
  let brokered := (pristine.write (brokerPath brokerNamespace)
    (BrokerObject.desired none brokerNamespace spec)).2
  (brokered.write (Record.path brokerNamespace) (firstMember.toConfigMap brokerNamespace)).2

def conflictingPlan : Plan where
  namespaceName := brokerNamespace
  broker := ⟨["connectivity", "service-discovery"], true, "10.64.0.0/10", 65536⟩
  rights := ⟨brokerNamespace, ["connectivity", "globalnet", "service-discovery"]⟩
  operator := ⟨operatorNamespace, "quay.io/submariner/submariner-operator:devel", false⟩

theorem undisturbed_over_other_network : ∃ message s',
    undisturbed (.withGlobalnet "10.64.0.0/10" 0) "east" (fun _ => none) occupied =
      (some (.error (.stepFailure "globalnet" "east" (.conflictingState brokerNamespace message))),
        s') ∧
      s'.objects.find? (Record.path brokerNamespace) =
        occupied.objects.find? (Record.path brokerNamespace) ∧
      Carries brokerNamespace conflictingPlan.broker s' := by
  have planned : plan (.withGlobalnet "10.64.0.0/10" 0) = .ok conflictingPlan := by decide +kernel
  have held : held? brokerNamespace occupied = some firstMember := by decide +kernel
  have asked : Block.parse "10.64.0.0/10" =
      .ok ⟨10 <<< 24 + 64 <<< 16, 10, by decide, by decide, by decide⟩ := by decide +kernel
  have network : Disagrees firstMember (.withGlobalnet "10.64.0.0/10" 0) :=
    .network asked (by decide +kernel)
  have early : (runOn occupied (inTurn "east" (work clusterAppliers conflictingPlan)
      earlierSteps)).1.map Except.isOk = some true := by decide +kernel
  obtain ⟨result, s', ran, kept, ⟨e, failed, -⟩ | ⟨done, -, carries, message, rfl⟩⟩ :=
    undisturbed_of_disagrees "east" (fun _ => none) (s := occupied) rfl planned held rfl (by decide)
      network
  · rw [failed] at early
    cases early
  · exact ⟨message, s', ran, kept, carries⟩

/-- A conflict comes too late for the broker object, and without globalnet it is not looked for. -/
theorem broker_object_despite_conflict :
    let conflicting := undisturbed (.withGlobalnet "10.64.0.0/10" 0) "east" (fun _ => none) occupied
    let without := undisturbed .default "east" (fun _ => none) occupied
    let range (s : Server) := (s.objects.find? (brokerPath brokerNamespace)).bind
      (·.textAt? ["spec", "globalnetCIDRRange"])
    occupied.faults = [] ∧ held? brokerNamespace occupied = some firstMember ∧
      range occupied = some "242.0.0.0/8" ∧
      conflicting.1 = some (.error (.stepFailure "globalnet" "east"
        (.conflictingState brokerNamespace ("existing globalnet CIDR range 242.0.0.0/8 conflicts " ++
          "with requested range 10.64.0.0/10")))) ∧
      range conflicting.2 = some "10.64.0.0/10" ∧
      held? brokerNamespace conflicting.2 = some firstMember ∧
      without.1 = some (.ok ⟨.globalnetDone,
        [(.rbac, .created), (.operator, .created), (.broker, .updated)]⟩) ∧
      range without.2 = none ∧
      held? brokerNamespace without.2 = some firstMember := by
  decide +kernel

end MultiCluster.Deploy
