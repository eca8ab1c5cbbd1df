import MultiCluster.Proofs.BrokerObject
import MultiCluster.Proofs.Rereading

/-! What a broker means. A spec stands for a set of components and, with globalnet, a range and a
size, and only what it stands for is compared. The object that is written for a spec is read back
as it is, so it means what was asked for, and it has the metadata of what was stored before. -/
namespace MultiCluster

namespace BrokerSpec

structure Alike (s t : BrokerSpec) : Prop where
  components : ∀ c, c ∈ s.components ↔ c ∈ t.components
  enabled : s.globalnetEnabled = t.globalnetEnabled
  globalnet : s.globalnetEnabled = true →
    s.globalnetRange = t.globalnetRange ∧ s.clusterSize = t.clusterSize

variable {s t : BrokerSpec}

/-- The normal form of a spec is that of every spec which means the same, and of no other. -/
theorem normalized_eq_iff : s.normalized = t.normalized ↔ s.Alike t := by
  constructor
  · intro same
    have enabled : s.globalnetEnabled = t.globalnetEnabled := by
      rw [← enabled_normalized, same, enabled_normalized]
    refine ⟨fun c => ?_, enabled, fun on => ?_⟩
    · rw [← mem_normalized, same, mem_normalized]
    · rw [normalized_of_on on, normalized_of_on (enabled ▸ on)] at same
      simp only [mk.injEq] at same
      exact ⟨same.2.2.1, same.2.2.2⟩
  · intro alike
    have components := Text.ordered_congr alike.components
    have enabled := alike.enabled
    cases on : s.globalnetEnabled with
    | true =>
      obtain ⟨ranges, sizes⟩ := alike.globalnet on
      rw [normalized_of_on on, normalized_of_on (enabled ▸ on), components, enabled, ranges, sizes]
    | false => rw [normalized_of_off on, normalized_of_off (enabled ▸ on), components]

end BrokerSpec

namespace Deploy.BrokerObject

open Cluster

variable {existing : Option Json} {ns : String} {s t : BrokerSpec} {w : Json} {m : Fields}

/-- A broker as it is read from a cluster, with the spec that it was stored with. -/
def Stored (w : Json) (s : BrokerSpec) : Prop :=
  ∃ b j, Kind.broker.read b = .ok w ∧ b.get? "spec" = some j ∧ BrokerSpec.ofJson j = .ok s

theorem unchanged_iff {b : Json} : action (some b) t = .unchanged ↔ (spec b).Alike t := by
  rw [← BrokerSpec.normalized_eq_iff, action]
  split
  · next same => simp [same]
  · next other => simp [other]

theorem spec_of_stored (stored : Stored w s) : spec w = s := by
  obtain ⟨b, j, reading, found, stated⟩ := stored
  obtain ⟨_, given, _, u, -, spec, -, specRead, rfl⟩ := Kind.readBroker_inv reading
  obtain rfl := Option.some.inj (spec.symm.trans found)
  obtain rfl := Except.ok.inj (specRead.symm.trans stated)
  simp [BrokerObject.spec, Json.get?, Fields.find?, BrokerSpec.ofJson_toJson]

theorem read_metadata (stored : Stored w s) :
    Shape.metadata.read (.obj (Object.metadata w)) = .ok (.obj (Object.metadata w)) := by
  obtain ⟨b, j, reading, -, -⟩ := stored
  obtain ⟨_, _, _, _, -, -, metadata, -, rfl⟩ := Kind.readBroker_inv reading
  obtain ⟨fields, same, -⟩ := Shape.metadata_record
  obtain ⟨_, _, -, -, rfl⟩ := Shape.exists_of_record (same ▸ metadata)
  exact Shape.metadata_stable.again _ _ metadata

theorem read_named {name : String} :
    Shape.metadata.read (.obj (Object.named name ns)) = .ok (.obj (Object.named name ns)) := by
  simp [Shape.metadata, Shape.read, Shape.readFields, Shape.opt, Object.named, Fields.find?,
    Shape.readText, bind, Except.bind, pure, Except.pure, Except.map]
  exact Fields.ofList_of_ascending (show ["name", "namespace"].Pairwise (· < ·) by decide)

/-- A broker object with metadata that was read is read as it is. -/
theorem read_object (reading : Shape.metadata.read (.obj m) = .ok (.obj m)) :
    Kind.broker.read (Kind.broker.object m [("spec", s.toJson)]) =
      .ok (Kind.broker.object m [("spec", s.toJson)]) := by
  have ordered := Fields.ofList_of_ascending (Shape.ascending_of_metadata reading)
  have metadata : (Kind.broker.object m [("spec", s.toJson)]).get? "metadata" = some (.obj m) := by
    rw [Kind.get?_object_metadata further_spec, ordered]
  have spec : (Kind.broker.object m [("spec", s.toJson)]).get? "spec" = some s.toJson :=
    Kind.get?_object (by decide)
  refine (Kind.readBroker_ok metadata spec reading BrokerSpec.ofJson_toJson).trans ?_
  have sorted : Fields.Ascending [("apiVersion", Json.str Kind.broker.apiVersion),
      ("kind", .str Kind.broker.name), ("metadata", .obj m), ("spec", s.toJson)] :=
    show ["apiVersion", "kind", "metadata", "spec"].Pairwise (· < ·) by decide
  rw [Kind.object, ordered, Fields.ofList_of_ascending sorted]

def metadataOf (ns : String) : Option Json → Fields
  | some b => keptMetadata b
  | none => Object.named name ns

theorem desired_eq : desired existing ns s =
    Kind.broker.object (metadataOf ns existing) [("spec", s.normalized.toJson)] := by
  cases existing <;> rfl

theorem read_metadataOf (stored : ∀ w, existing = some w → ∃ t, Stored w t) :
    Shape.metadata.read (.obj (metadataOf ns existing)) =
      .ok (.obj (metadataOf ns existing)) := by
  cases existing with
  | none => exact read_named
  | some b =>
    obtain ⟨t, kept⟩ := stored b rfl
    exact Shape.metadata_erased (read_metadata kept)

theorem metadata_desired (stored : ∀ w, existing = some w → ∃ t, Stored w t) :
    Object.metadata (desired existing ns s) = metadataOf ns existing := by
  have ordered : Fields.ofList (metadataOf ns existing) = metadataOf ns existing :=
    Fields.ofList_of_ascending (Shape.ascending_of_metadata (read_metadataOf stored))
  have metadata : (desired existing ns s).get? "metadata" =
      some (.obj (metadataOf ns existing)) := by
    rw [desired_eq, Kind.get?_object_metadata further_spec, ordered]
  simp [Object.metadata, Json.fieldsAt, Json.at?, metadata, Json.obj?]

theorem spec_desired : spec (desired existing ns s) = s.normalized := by
  have found : (desired existing ns s).get? "spec" = some s.normalized.toJson := by
    rw [desired_eq]
    exact Kind.get?_object (by decide)
  simp [spec, found, BrokerSpec.ofJson_toJson]

theorem alike_normalized : s.normalized.Alike t ↔ s.Alike t := by
  rw [← BrokerSpec.normalized_eq_iff, BrokerSpec.normalized_normalized,
    BrokerSpec.normalized_eq_iff]

/-- Whether a stored broker is left alone depends on what its spec means, and an object that is
written is read back as it is, means the spec that was asked for and keeps the metadata of the
broker that was stored but who manages which field. -/
theorem meaning_decides :
    (∀ w s t, Stored w s → (action (some w) t = .unchanged ↔ s.Alike t)) ∧
    ∀ existing ns s, (∀ w, existing = some w → ∃ t, Stored w t) →
      Kind.broker.read (desired existing ns s) = .ok (desired existing ns s) ∧
      (∀ t, action (some (desired existing ns s)) t = .unchanged ↔ s.Alike t) ∧
      ∀ w, existing = some w → ∀ key,
        Fields.find? key (Object.metadata (desired existing ns s)) =
          if key = "managedFields" then none else Fields.find? key (Object.metadata w) := by
  refine ⟨fun w s t stored => ?_, fun existing ns s stored => ⟨?_, fun t => ?_, ?_⟩⟩
  · rw [unchanged_iff, spec_of_stored stored]
  · rw [desired_eq]
    exact read_object (read_metadataOf stored)
  · rw [unchanged_iff, spec_desired, alike_normalized]
  · rintro w rfl key
    rw [metadata_desired stored]
    split
    · next managed =>
      rw [managed]
      exact Fields.find?_erase_self
    · next other => exact Fields.find?_erase_of_ne other

def looseSpec : BrokerSpec :=
  ⟨["service-discovery", "connectivity", "service-discovery"], false, "242.0.0.0/8", 0⟩

def brokerWith (metadata : Fields) : Json := .obj [
  ("apiVersion", .str "submariner.io/v1alpha1"), ("kind", .str "Broker"),
  ("metadata", .obj metadata), ("spec", looseSpec.toJson)]

def looseBroker : Json := brokerWith [
  ("creationTimestamp", .str "2024-03-07T09:05:02Z"),
  ("labels", .obj [("team", .str "net")]),
  ("managedFields", .arr [.obj [("manager", .str "operator")]]),
  ("name", .str "submariner-broker"), ("resourceVersion", .str "42")]

theorem stored_looseBroker : Stored looseBroker looseSpec := by
  refine ⟨brokerWith [
    ("name", .str "submariner-broker"), ("resourceVersion", .str "42"),
    ("creationTimestamp", .str "2024-03-07T10:35:02+01:30"),
    ("labels", .obj [("team", .str "net")]),
    ("managedFields", .arr [.obj [("manager", .str "operator"), ("of", .null)]])], _, ?_, rfl, ?_⟩
  · rfl
  · exact BrokerSpec.ofJson_toJson

/-- The loose broker means the same as its components in order, and it keeps its labels when
globalnet is turned on. -/
theorem meaning_decides_loosely :
    Stored looseBroker looseSpec ∧
    action (some looseBroker) ⟨["connectivity", "service-discovery"], false, "", 7⟩ = .unchanged ∧
    (let s : BrokerSpec := ⟨["connectivity"], true, "242.0.0.0/8", 65536⟩
     let d := desired (some looseBroker) "submariner-k8s-broker" s
     Kind.broker.read d = .ok d ∧ action (some d) s = .unchanged ∧
      Fields.find? "labels" (Object.metadata d) = some (.obj [("team", .str "net")])) := by
  obtain ⟨decides, written⟩ := meaning_decides
  have same : looseSpec.Alike ⟨["connectivity", "service-discovery"], false, "", 7⟩ :=
    ⟨fun c => by simp [looseSpec]; tauto, rfl, fun on => by cases on⟩
  obtain ⟨reads, means, keeps⟩ := written (some looseBroker) "submariner-k8s-broker"
    ⟨["connectivity"], true, "242.0.0.0/8", 65536⟩
    (by rintro _ ⟨⟩; exact ⟨looseSpec, stored_looseBroker⟩)
  refine ⟨stored_looseBroker, (decides _ _ _ stored_looseBroker).mpr same, reads,
    (means _).mpr ⟨fun _ => Iff.rfl, rfl, fun _ => ⟨rfl, rfl⟩⟩, ?_⟩
  rw [keeps looseBroker rfl]
  rfl

end Deploy.BrokerObject
end MultiCluster
