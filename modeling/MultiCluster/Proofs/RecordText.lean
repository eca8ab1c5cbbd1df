import MultiCluster.Globalnet.Record
import MultiCluster.Proofs.JsonText
import MultiCluster.Proofs.Numeral
import MultiCluster.Proofs.Objects

/-! The texts of a globalnet record. They are those of the config map that it is kept in, and
reading them gives the record back, whatever its range and its members are called. -/
namespace MultiCluster.Globalnet

open Json.Document (Printed PrintedField)

namespace Allocation

def document (a : Allocation) : Json.Document := .object [
  (some "clusterId", .string (some a.clusterId)),
  (some "globalCidr", .array (a.blocks.map fun b => .string (some b)))]

theorem printed (a : Allocation) : Printed (Record.allocationJson a) a.document := by
  refine Json.Document.printed_obj (.cons ⟨rfl, Json.Document.printed_str⟩ (.cons ⟨rfl, ?_⟩ .nil))
  refine Json.Document.printed_arr ?_
  rw [List.forall₂_map_left_iff, List.forall₂_map_right_iff, List.forall₂_same]
  intro block _
  exact Json.Document.printed_str

end Allocation

namespace Record

variable {r : Record} {w : Json} {ns : String}

theorem mapM_of_inverse {α : Type} {f : α → Option α} {items : List α}
    (inverse : ∀ a, f a = some a) :
    items.mapM f = some items := by
  rw [funext inverse]
  exact List.mapM_pure.trans (congrArg some items.map_id)

theorem strings?_of_texts {texts : List String} :
    (Json.Document.array (texts.map fun s => .string (some s))).strings? = some texts := by
  rw [Json.Document.strings?, Json.Document.items?, Option.bind_some, List.mapM_map]
  exact mapM_of_inverse fun s => rfl

theorem allocation?_document {a : Allocation} : allocation? a.document = some a := by
  have fields : a.document.record? ["clusterId", "globalCidr"] = some [
      some (.string (some a.clusterId)),
      some (.array (a.blocks.map fun b => .string (some b)))] := by
    simp [Allocation.document, Json.Document.record?, Json.Document.fieldsOf,
      Json.Document.onlyMember?]
  simp [allocation?, fields, strings?_of_texts, Json.Document.string?]

theorem allocations?_clustersText {clusters : List Allocation} :
    allocations? (clustersText clusters) = some clusters := by
  have printed : Printed (.arr (clusters.map allocationJson))
      (.array (clusters.map Allocation.document)) := by
    refine Json.Document.printed_arr ?_
    rw [List.forall₂_map_left_iff, List.forall₂_map_right_iff, List.forall₂_same]
    intro a _
    exact a.printed
  have items : (clusters.map Allocation.document).mapM allocation? = some clusters := by
    rw [List.mapM_map]
    exact mapM_of_inverse fun a => allocation?_document
  simp [allocations?, clustersText, Json.Document.parse?_compact printed, Json.Document.items?,
    items]

theorem clustersText_ne_empty {clusters : List Allocation} : clustersText clusters ≠ "" := by
  intro empty
  have read : allocations? (clustersText clusters) = some clusters := allocations?_clustersText
  rw [empty] at read
  cases read

theorem readSize_decimal {size : UInt32} : readSize (Text.decimal size.toNat) = .ok size := by
  simp [readSize, Text.decimal_ne_empty, Text.word32?_decimal]

theorem readClusters_clustersText {clusters : List Allocation} :
    readClusters (clustersText clusters) = .ok clusters := by
  simp [readClusters, clustersText_ne_empty, allocations?_clustersText]

theorem flag_read {enabled : Bool} :
    Text.equalsIgnoringCase (if enabled then "true" else "false") "true" = enabled := by
  cases enabled <;> decide

/-- A config map with the entries of a record is read as the record. -/
theorem ofConfigMap_of_entries
    (same : ∀ key s, Fields.find? key r.entries = some (.str s) → entry w key = s) :
    ofConfigMap w = .ok r := by
  have enabled : entry w enabledKey = if r.enabled then "true" else "false" :=
    same _ _ (by simp [entries, Fields.find?_ofList, Fields.find?, enabledKey, rangeKey, sizeKey,
      clustersKey])
  have range : entry w rangeKey = r.range :=
    same _ _ (by simp [entries, Fields.find?_ofList, Fields.find?, rangeKey, sizeKey, clustersKey])
  have size : entry w sizeKey = Text.decimal r.clusterSize.toNat :=
    same _ _ (by simp [entries, Fields.find?_ofList, Fields.find?, sizeKey, clustersKey])
  have clusters : entry w clustersKey = clustersText r.clusters :=
    same _ _ (by simp [entries, Fields.find?_ofList, Fields.find?, clustersKey])
  simp only [ofConfigMap, enabled, range, size, clusters, readSize_decimal,
    readClusters_clustersText, flag_read]
  rfl

theorem data_toConfigMap : (r.toConfigMap ns).get? "data" = some (.obj r.entries) :=
  (Cluster.Kind.get?_object (by decide)).trans (by simp [Fields.find?])

/-- A record survives its config map. -/
theorem ofConfigMap_toConfigMap (r : Record) (ns : String) :
    ofConfigMap (r.toConfigMap ns) = .ok r := by
  refine ofConfigMap_of_entries fun key s written => ?_
  rw [entry, Json.textAt?_pair, data_toConfigMap]
  simp [Json.get?, written, Json.str?]

end Record
end MultiCluster.Globalnet
