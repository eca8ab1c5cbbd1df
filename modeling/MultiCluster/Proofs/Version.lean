import MultiCluster.Cluster.Object
import MultiCluster.Cluster.Server
import MultiCluster.Proofs.Merge

/-! Resource versions. The server stamps a version on every object that it writes; a stamp replaces
the one before it and leaves everything else of the object alone. -/
namespace MultiCluster.Cluster

open Json (Within WithinFields)

namespace Object

def HasMetadata (v : Json) : Prop :=
  ∃ fields metadata, v = .obj fields ∧ Fields.find? "metadata" fields = some (.obj metadata)

def leavesVersion (patch : Json) : Bool :=
  match patch.get? "metadata" with
  | some (.obj metadata) => metadata.all fun e => e.1 != "resourceVersion"
  | _ => false

/-- The object without its version, which the server assigns. -/
def content (v : Json) : Json := v.updateAt (Fields.erase "resourceVersion") ["metadata"]

end Object

namespace Server

open Object

variable {m n : Nat} {v patch : Json} {key : String}

theorem withVersion_obj {fields metadata : Fields}
    (found : Fields.find? "metadata" fields = some (.obj metadata)) :
    withVersion n (.obj fields) = .obj (Fields.insert "metadata"
      (.obj (Fields.insert "resourceVersion" (.str (Text.decimal n)) metadata)) fields) := by
  simp [withVersion, Json.get?, Json.set, found]

theorem versionOf_eq : versionOf v = (v.get? "metadata").bind fun metadata =>
    (metadata.get? "resourceVersion").bind Json.str? :=
  Json.textAt?_pair

theorem versionOf_withVersion (ok : HasMetadata v) :
    versionOf (withVersion n v) = some (Text.decimal n) := by
  obtain ⟨fields, metadata, rfl, found⟩ := ok
  rw [withVersion_obj found]
  simp [versionOf, Json.textAt?, Json.at?, Json.get?, Json.str?]

theorem get?_withVersion (other : key ≠ "metadata") :
    (withVersion n v).get? key = v.get? key := by
  cases v with
  | obj fields => simp [withVersion, Json.get?, Json.set, Fields.find?_insert_of_ne other]
  | _ => simp [withVersion, Json.set]

theorem content_withVersion : content (withVersion m v) = content (withVersion n v) := by
  cases v with
  | obj fields =>
    cases found : Fields.find? "metadata" fields with
    | none => simp [content, withVersion, Json.get?, Json.set, Json.updateAt, found]
    | some metadata =>
      cases metadata with
      | obj entries => simp [content, withVersion, Json.get?, Json.set, Json.updateAt, found]
      | _ => simp [content, withVersion, Json.get?, Json.set, found]
  | _ => simp [content, withVersion, Json.set]

theorem metadata_of_leavesVersion (leaves : leavesVersion patch = true) :
    ∃ entries metadata, patch = .obj entries ∧
      Fields.find? "metadata" entries = some (.obj metadata) ∧
      ∀ e ∈ metadata, e.1 ≠ "resourceVersion" := by
  cases patch with
  | obj entries =>
    unfold leavesVersion at leaves
    split at leaves
    · next metadata found => exact ⟨entries, metadata, rfl, found, by simpa using leaves⟩
    · simp at leaves
  | _ => simp [leavesVersion, Json.get?] at leaves

theorem hasMetadata_of_within (inside : Within v patch) (leaves : leavesVersion patch = true) :
    HasMetadata v := by
  obtain ⟨entries, metadata, rfl, found, -⟩ := metadata_of_leavesVersion leaves
  obtain ⟨fields, rfl, inside⟩ := inside
  obtain ⟨w, held, inMetadata⟩ :=
    Json.withinFields_iff.mp inside _ (Fields.mem_of_find? found)
  obtain ⟨given, rfl, -⟩ := inMetadata
  exact ⟨fields, given, rfl, held.find?⟩

/-- A patch that says nothing about the version stays within an object that gets another one. -/
theorem within_withVersion (ok : patch.proper = true) (inside : Within v patch)
    (leaves : leavesVersion patch = true) : Within (withVersion n v) patch := by
  obtain ⟨entries, metadata, rfl, found, silent⟩ := metadata_of_leavesVersion leaves
  obtain ⟨fields, given, rfl, present⟩ := hasMetadata_of_within inside leaves
  obtain ⟨_, same, inside⟩ := inside
  obtain rfl := Json.obj.inj same
  rw [Json.withinFields_iff] at inside
  refine ⟨_, withVersion_obj present, Json.withinFields_iff.mpr ?_⟩
  intro e member
  obtain ⟨w, held, inHead⟩ := inside e member
  by_cases here : e.1 = "metadata"
  · -- The metadata of the patch is the one entry that meets the new version.
    obtain ⟨key, sub⟩ := e
    subst here
    have once := Json.find?_of_mem (by simpa [Json.proper] using ok) member
    obtain rfl : Json.obj metadata = sub := Option.some.inj (found.symm.trans once)
    obtain ⟨inner, rfl, inner_within⟩ := inHead
    obtain rfl := Json.obj.inj (Option.some.inj (present.symm.trans held.find?))
    exact ⟨_, Fields.holds_insert_self, _, rfl, inner_within.insert_of_ne silent⟩
  · exact ⟨w, held.insert_of_ne here, inHead⟩

end Server
end MultiCluster.Cluster
