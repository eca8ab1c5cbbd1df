import MultiCluster.Deploy.StoredRecord
import MultiCluster.Proofs.Agreement
import MultiCluster.Proofs.RecordText
import MultiCluster.Proofs.Upsert

/-! The stored globalnet record. It is read from its config map as it was written, and agrees with
itself. -/
namespace MultiCluster.Globalnet

open Cluster

namespace Record

variable {r desired : Record} {ns : String} {n : Nat} {w : Json}

theorem further_data {data : Json} : Kind.Further [("data", data)] := by
  simp

theorem read_texts {fields : Fields} (texts : ∀ e ∈ fields, ∃ s, e.2 = .str s) :
    (Shape.table .string).read (.obj fields) = .ok (.obj fields) := by
  have each : Shape.readEntries (Shape.read .string) fields = .ok fields := by
    induction fields with
    | nil => rfl
    | cons head rest ih =>
      obtain ⟨key, v⟩ := head
      rw [List.forall_mem_cons] at texts
      obtain ⟨⟨s, rfl⟩, later⟩ := texts
      have here : Shape.read .string (.str s) = .ok (.str s) := rfl
      simp only [Shape.readEntries, here, ih later]
      rfl
  show (Shape.readEntries (Shape.read .string) fields).map Json.obj = _
  rw [each]
  rfl

theorem entries_texts : ∀ e ∈ r.entries, ∃ s, e.2 = .str s := by
  intro e member
  have given := Fields.mem_ofList member
  simp only [List.mem_cons, List.not_mem_nil, or_false] at given
  rcases given with rfl | rfl | rfl | rfl <;> exact ⟨_, rfl⟩

theorem data_of_read (ok : Kind.configMap.read (Server.withVersion n (r.toConfigMap ns)) = .ok w) :
    w.get? "data" = some (.obj r.entries) := by
  have data : (Server.withVersion n (r.toConfigMap ns)).get? "data" = some (.obj r.entries) :=
    (Server.get?_withVersion (by decide)).trans data_toConfigMap
  rw [Kind.read_of_isTyped (by decide)] at ok
  obtain ⟨_, reading, got⟩ := Kind.part_of_readTyped ok
    (show ("data", false, Shape.table .string) ∈ _ by
      simp [Kind.objectFields, Kind.fields, Shape.opt, Shape.req]) data (by simp)
  rw [read_texts entries_texts] at reading
  rw [got, Except.ok.inj reading]

theorem entry_of_read {key s : String}
    (ok : Kind.configMap.read (Server.withVersion n (r.toConfigMap ns)) = .ok w)
    (written : Fields.find? key r.entries = some (.str s)) : entry w key = s := by
  rw [entry, Json.textAt?_pair, data_of_read ok]
  simp [Json.get?, written, Json.str?]

/-- A stored record is read as it was written. -/
theorem ofConfigMap_of_read
    (ok : Kind.configMap.read (Server.withVersion n (r.toConfigMap ns)) = .ok w) :
    ofConfigMap w = .ok r :=
  ofConfigMap_of_entries fun _ _ => entry_of_read ok

def upsert (ns : String) (desired : Record) : Upsert where
  collection := maps ns
  name := mapName
  created := desired.toConfigMap ns
  keeps configMap :=
    match ofConfigMap configMap with
    | .error e => .error e
    | .ok r =>
      match checkExisting (some r) desired ns with
      | .error e => .error e
      | .ok decision => .ok (decide (decision = .unchanged))
  replacement configMap :=
    let clusters := match ofConfigMap configMap with
      | .ok r => r.clusters
      | .error _ => []
    Object.withVersion (Object.version? configMap) ({ desired with clusters }.toConfigMap ns)

theorem keeps_of_record {configMap : Json} (read : ofConfigMap configMap = .ok r) :
    (upsert ns desired).keeps configMap = match checkExisting (some r) desired ns with
      | .error e => .error e
      | .ok decision => .ok (decide (decision = .unchanged)) := by
  simp only [upsert, read]

theorem ensureStored_eq : ensureStored ns desired = (upsert ns desired).work := by
  unfold ensureStored stored? Upsert.work
  simp only [bind_assoc]
  refine bind_congr fun existing => ?_
  cases existing with
  | none => rfl
  | some configMap =>
    simp only [Upsert.settle]
    cases read : ofConfigMap configMap with
    | error e =>
      simp only [upsert, read]
      rfl
    | ok r =>
      rw [keeps_of_record read]
      simp only [pure_bind, verdict, Option.map_some]
      cases judged : checkExisting (some r) desired ns with
      | error e => rfl
      | ok decision =>
        cases decision with
        | create => exact absurd judged checkExisting_ne_create
        | update =>
          simp only [upsert, read, pure_bind, reduceCtorEq, decide_false]
          rfl
        | unchanged => rfl

theorem validateStored_eq : validateStored ns desired = (upsert ns desired).check := by
  unfold validateStored stored? Upsert.check
  simp only [bind_assoc]
  refine bind_congr fun existing => ?_
  cases existing with
  | none => rfl
  | some configMap =>
    simp only
    cases read : ofConfigMap configMap with
    | error e =>
      simp only [upsert, read]
      rfl
    | ok r =>
      rw [keeps_of_record read]
      simp only [pure_bind, verdict, Option.map_some]
      cases checkExisting (some r) desired ns <;> rfl

theorem upsert_kept {members : List Allocation} (ok : Kind.configMap.read
    (Server.withVersion n ({ desired with clusters := members }.toConfigMap ns)) = .ok w) :
    (upsert ns desired).keeps w = .ok true := by
  rw [keeps_of_record (ofConfigMap_of_read ok), checkExisting_self]
  rfl

/-- Only a config map that holds a record without members is replaced. -/
theorem alone_of_wanting (wanting : (upsert ns desired).keeps w = .ok false) :
    ∃ r, ofConfigMap w = .ok r ∧ r.clusters = [] := by
  cases read : ofConfigMap w with
  | error e => simp [upsert, read] at wanting
  | ok r =>
    rw [keeps_of_record read] at wanting
    cases judged : checkExisting (some r) desired ns with
    | error e => simp [judged] at wanting
    | ok decision =>
      cases decision with
      | create => exact absurd judged checkExisting_ne_create
      | update => exact ⟨r, rfl, (checkExisting_update_iff.mp judged).alone⟩
      | unchanged => simp [judged] at wanting

/-- There are no members to take over where a record is replaced. -/
theorem replacement_eq (wanting : (upsert ns desired).keeps w = .ok false) :
    (upsert ns desired).replacement w =
      Object.withVersion (Object.version? w) ({ desired with clusters := [] }.toConfigMap ns) := by
  obtain ⟨r, read, alone⟩ := alone_of_wanting wanting
  simp only [upsert, read, alone]

/-- The version that a record is bound to gives way to the one that the server stamps. -/
theorem withVersion_bound {version : Option String} :
    Server.withVersion n (Object.withVersion version (r.toConfigMap ns)) =
      Server.withVersion n (r.toConfigMap ns) :=
  Kind.stamp_bound version further_data

theorem upsert_sound : (upsert ns desired).Sound where
  named := (Kind.name?_object further_data).trans (by
    simp [Object.named, Fields.find?, Json.str?, upsert])
  notMachineSet := by simp [upsert, maps, Collection.inNamespace]
  createdMetadata := Kind.hasMetadata_object further_data
  createdKept n _ reading := upsert_kept reading
  replacementMetadata wanting := by
    rw [replacement_eq wanting]
    exact Kind.hasMetadata_bound _ further_data
  bound _ wanting := by
    rw [replacement_eq wanting]
    exact .inr (Kind.versionOf_bound _ further_data (by simp [Object.named]))
  replacementKept wanting n reading := by
    rw [replacement_eq wanting, withVersion_bound] at reading
    exact upsert_kept reading

end Record
end MultiCluster.Globalnet
