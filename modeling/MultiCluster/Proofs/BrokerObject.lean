import MultiCluster.Deploy.BrokerObject
import MultiCluster.Proofs.Objects
import MultiCluster.Proofs.Ordered
import MultiCluster.Proofs.Upsert

/-! The broker object. Its spec is read back as it was written, so an object that was written means
what was asked for. -/
namespace MultiCluster

namespace BrokerSpec

variable {s : BrokerSpec}

theorem normalized_of_on (on : s.globalnetEnabled = true) :
    s.normalized = { s with components := Text.ordered s.components } := by
  simp [normalized, on]

theorem normalized_of_off (off : s.globalnetEnabled = false) :
    s.normalized = ⟨Text.ordered s.components, false, "", 0⟩ := by
  simp [normalized, off]

theorem mem_normalized {c : String} : c ∈ s.normalized.components ↔ c ∈ s.components := by
  unfold normalized
  split <;> exact Text.mem_ordered

theorem enabled_normalized : s.normalized.globalnetEnabled = s.globalnetEnabled := by
  cases on : s.globalnetEnabled <;> simp [normalized, on]

@[simp] theorem normalized_normalized : s.normalized.normalized = s.normalized := by
  cases enabled : s.globalnetEnabled <;> simp [normalized, enabled]

theorem readStrings_strings {items : List String} : readStrings (Json.strings items) = .ok items := by
  induction items with
  | nil => rfl
  | cons head rest ih =>
    simp only [Json.strings, readStrings, List.map_cons, List.mapM_cons] at ih ⊢
    rw [ih]
    rfl

theorem readWord32_int {n : UInt32} : readWord32 (.int n.toNat) = .ok n := by
  have bound : n.toNat < 2 ^ 32 := n.toNat_lt
  have low : (0 : Int) ≤ n.toNat := Int.natCast_nonneg _
  have high : (n.toNat : Int) ≤ 0xFFFFFFFF := by omega
  simp [readWord32, low, high]

theorem ofJson_toJson : ofJson s.toJson = .ok s := by
  obtain ⟨components, enabled, range, size⟩ := s
  by_cases noSize : size = 0 <;> by_cases noRange : range = ""
  · simp [toJson, ofJson, readParts, noSize, noRange, Fields.find?, readOr, readStrings_strings,
      readBool, bind, Except.bind, pure, Except.pure]
  · simp [toJson, ofJson, readParts, noSize, noRange, Fields.find?, readOr, readStrings_strings,
      readBool, readString, bind, Except.bind, pure, Except.pure]
  · simp [toJson, ofJson, readParts, noSize, noRange, Fields.find?, readOr, readStrings_strings,
      readBool, readWord32_int, bind, Except.bind, pure, Except.pure]
  · simp [toJson, ofJson, readParts, noSize, noRange, Fields.find?, readOr, readStrings_strings,
      readBool, readString, readWord32_int, bind, Except.bind, pure, Except.pure]

end BrokerSpec

namespace Deploy.BrokerObject

open Cluster

variable {ns : String} {s : BrokerSpec} {n : Nat} {v w : Json}

theorem further_spec {spec : Json} : Kind.Further [("spec", spec)] := by
  simp

/-- Whatever was stored before, the object that is written means the spec. -/
theorem spec_of_read {metadata : Fields} (ok : Kind.readBroker (Server.withVersion n
    (Kind.broker.object metadata [("spec", s.normalized.toJson)])) = .ok w) :
    spec w = s.normalized := by
  obtain ⟨_, given, _, read, -, found, -, specRead, rfl⟩ := Kind.readBroker_inv ok
  rw [Server.get?_withVersion (by decide), Kind.get?_object (by decide)] at found
  simp only [List.reverse_singleton, Fields.find?, beq_self_eq_true, if_true,
    Option.some.injEq] at found
  subst found
  obtain rfl := Except.ok.inj (BrokerSpec.ofJson_toJson.symm.trans specRead)
  simp [spec, Json.get?, Fields.find?, BrokerSpec.ofJson_toJson]

theorem version_kept (ns : String) (ok : Kind.readBroker v = .ok w) :
    Server.versionOf (desired (some w) ns s) = Object.version? w := by
  obtain ⟨_, _, _, _, -, -, reading, -, rfl⟩ := Kind.readBroker_inv ok
  obtain ⟨fields, same, -⟩ := Shape.metadata_fields
  rw [same] at reading
  obtain ⟨metadata, rfl, ascending⟩ := Shape.ascending_of_read_record reading
  have once : ((Fields.erase "managedFields" metadata).map (·.1)).Nodup :=
    ascending.nodup.sublist (List.filter_sublist.map _)
  have kept : Fields.find? "resourceVersion" (Fields.erase "managedFields" metadata).reverse =
      Fields.find? "resourceVersion" metadata := by
    rw [Fields.find?_reverse once, Fields.find?_erase_of_ne (by decide)]
  rw [desired, Kind.versionOf_object further_spec, Object.version?, Json.textAt?_pair]
  simpa [keptMetadata, Object.metadata, Json.fieldsAt, Json.at?, Json.get?, Fields.find?,
    Json.obj?] using congrArg (Option.bind · Json.str?) kept

def upsert (ns : String) (s : BrokerSpec) : Upsert where
  collection := .inNamespace .broker ns
  name := name
  created := desired none ns s
  keeps b := .ok (decide ((spec b).normalized = s.normalized))
  replacement b := desired (some b) ns s

theorem ensure_eq : ensure ns s = (upsert ns s).work := by
  unfold ensure Upsert.work
  refine bind_congr fun existing => ?_
  cases existing with
  | none => rfl
  | some b =>
    simp only [action, Upsert.settle, upsert]
    by_cases same : (spec b).normalized = s.normalized
    · simp only [same, if_true, decide_true]
    · simp only [same, if_false, decide_false]
      rfl

theorem upsert_kept {metadata : Fields} (ok : Kind.broker.read (Server.withVersion n
    (Kind.broker.object metadata [("spec", s.normalized.toJson)])) = .ok w) :
    (upsert ns s).keeps w = .ok true := by
  simp [upsert, spec_of_read ok]

theorem upsert_sound : (upsert ns s).Sound where
  named := (Kind.name?_object further_spec).trans (by
    simp [Object.named, Fields.find?, Json.str?, upsert])
  notMachineSet := by simp [upsert, Collection.inNamespace]
  createdMetadata := Kind.hasMetadata_object further_spec
  createdKept n _ reading := upsert_kept reading
  replacementMetadata _ := Kind.hasMetadata_object further_spec
  bound reading _ := .inr (version_kept ns reading)
  replacementKept _ n reading := upsert_kept reading

end Deploy.BrokerObject
end MultiCluster
