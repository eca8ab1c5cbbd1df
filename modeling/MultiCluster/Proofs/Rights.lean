import MultiCluster.Deploy.Operator
import MultiCluster.Proofs.Objects
import MultiCluster.Proofs.Upsert

/-! The objects that a deployment applies: access rights in the broker's namespace, and what the
operator runs with. Each is an errand of its own. -/
namespace MultiCluster.Deploy

open Cluster

variable {c : Collection} {k : Kind} {name ns : String} {given rest : Fields} {v : Json}

theorem applicable_object (kind : c.kind = k) (notMachineSet : k ≠ .machineSet)
    (further : Kind.Further rest) (unset : ∀ e ∈ given, e.1 ≠ "resourceVersion")
    (inGiven : ∀ e ∈ given, e.2.proper = true) (inRest : ∀ e ∈ rest, e.2.proper = true)
    (named : (Fields.find? "name" given.reverse).bind Json.str? = some name) :
    Applicable c name (k.object given rest) where
  named := (Kind.name?_object further).trans named
  proper := Kind.proper_object inGiven inRest
  leavesVersion := Kind.leavesVersion_object further unset
  notMachineSet := kind ▸ notMachineSet

def namespaceErrand (name : String) : Errand :=
  applyErrand (.clusterWide .namespaces) name (Kind.namespaces.object [("name", .str name)] [])

theorem applicable_namespace : Applicable (.clusterWide .namespaces) name
    (Kind.namespaces.object [("name", .str name)] []) := by
  refine applicable_object rfl ?_ ?_ ?_ ?_ ?_ ?_
  · decide
  · simp
  · simp
  · simp [Json.proper]
  · simp
  · simp [Fields.find?, Json.str?]

def appliedErrands (objects : List (Collection × List Json)) : List Errand :=
  objects.flatMap fun group => group.2.map fun v =>
    applyErrand group.1 ((Object.name? v).getD "") v

def AllApplicable (objects : List (Collection × List Json)) : Prop :=
  ∀ group ∈ objects, ∀ v ∈ group.2, ∃ name, Applicable group.1 name v

theorem forall_appliedErrands {P : Errand → Prop} {objects : List (Collection × List Json)}
    (ok : AllApplicable objects)
    (each : ∀ c name v, Applicable c name v → P (applyErrand c name v)) :
    ∀ e ∈ appliedErrands objects, P e := by
  intro e member
  obtain ⟨group, inObjects, inGroup⟩ := List.mem_flatMap.mp member
  obtain ⟨v, inList, rfl⟩ := List.mem_map.mp inGroup
  obtain ⟨name, applicable⟩ := ok group inObjects v inList
  rw [applicable.named]
  exact each _ _ _ applicable

theorem further_rules {rules : Json} : Kind.Further [("rules", rules)] := by
  simp

theorem further_binding {role subjects : Json} :
    Kind.Further [("roleRef", role), ("subjects", subjects)] := by
  simp

theorem proper_roleReference {k : Kind} : (roleReference k name).proper = true := by
  simp [roleReference, Json.proper, Json.properFields]

theorem proper_named : ∀ e ∈ Object.named name ns, e.2.proper = true := by
  simp [Object.named, Json.proper]

namespace Rights

theorem proper_metadata : ∀ e ∈ metadata name ns, e.2.proper = true := by
  simp [metadata, Object.named, Json.proper, Json.properFields]

theorem metadata_unset : ∀ e ∈ metadata name ns, e.1 ≠ "resourceVersion" := by
  simp [metadata, Object.named]

theorem metadata_named :
    (Fields.find? "name" (metadata name ns).reverse).bind Json.str? = some name := by
  simp [metadata, Object.named, Fields.find?, Json.str?]

theorem applicable_inNamespace (notMachineSet : k ≠ .machineSet) (further : Kind.Further rest)
    (inRest : ∀ e ∈ rest, e.2.proper = true) :
    Applicable (.inNamespace k ns) name (k.object (metadata name ns) rest) :=
  applicable_object rfl notMachineSet further metadata_unset proper_metadata inRest metadata_named

theorem applicable_definition : Applicable (.clusterWide .customResourceDefinition)
    BrokerSpec.definitionName BrokerSpec.definition where
  named := by decide +kernel
  proper := by decide +kernel
  leavesVersion := by decide +kernel
  notMachineSet := by decide

theorem applicable_clientToken {r : Rights} :
    Applicable (.inNamespace .secret r.brokerNamespace) tokenName r.clientToken := by
  refine applicable_object rfl (by decide) (by simp) ?_ ?_ (by simp [Json.proper]) ?_
  · simp [metadata, Object.named]
  · simp [metadata, Object.named, Json.proper, Json.properFields]
  · simp [metadata, Object.named, Fields.find?, Json.str?]

theorem allApplicable (r : Rights) : AllApplicable r.objects := by
  simp only [AllApplicable, objects, List.forall_mem_cons, List.not_mem_nil, false_imp_iff,
    implies_true, and_true, accounts, roles, bindings, List.map_cons, List.map_nil]
  refine ⟨?_, ⟨?_, ?_⟩, ⟨?_, ?_⟩, ⟨?_, ?_⟩, ?_⟩
  · exact ⟨_, applicable_definition⟩
  · exact ⟨_, applicable_inNamespace (by decide) (by simp) (by simp)⟩
  · exact ⟨_, applicable_inNamespace (by decide) (by simp) (by simp)⟩
  · exact ⟨_, applicable_inNamespace (by decide) further_rules (by simp [Json.proper])⟩
  · exact ⟨_, applicable_inNamespace (by decide) further_rules (by simp [Json.proper])⟩
  · exact ⟨_, applicable_inNamespace (by decide) further_binding
      (by simp [Json.proper, proper_roleReference])⟩
  · exact ⟨_, applicable_inNamespace (by decide) further_binding
      (by simp [Json.proper, proper_roleReference])⟩
  · exact ⟨_, applicable_clientToken⟩

end Rights

end MultiCluster.Deploy
