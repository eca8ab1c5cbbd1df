import MultiCluster.Proofs.KindReading

/-! Objects put together from metadata and other fields: what they hold, and what is read of them
once they are stored. -/
namespace MultiCluster.Cluster

namespace Kind

variable {k : Kind} {metadata rest : Fields} {key : String} {n : Nat} {w : Json}

def Further (rest : Fields) : Prop :=
  ∀ e ∈ rest, e.1 ≠ "apiVersion" ∧ e.1 ≠ "kind" ∧ e.1 ≠ "metadata"

@[simp] theorem further_nil : Further [] := by simp [Further]

@[simp] theorem further_cons {e : String × Json} : Further (e :: rest) ↔
    (e.1 ≠ "apiVersion" ∧ e.1 ≠ "kind" ∧ e.1 ≠ "metadata") ∧ Further rest := by
  simp [Further]

theorem get?_object_metadata (further : Further rest) :
    (k.object metadata rest).get? "metadata" = some (.obj (Fields.ofList metadata)) := by
  have absent : Fields.find? "metadata" rest.reverse = none :=
    Fields.find?_eq_none_iff.mpr fun e member => (further e (by simpa using member)).2.2
  simp [object, Json.get?, Fields.find?_ofList, Fields.find?_append, absent, Fields.find?]

theorem get?_object (other : key ≠ "apiVersion" ∧ key ≠ "kind" ∧ key ≠ "metadata") :
    (k.object metadata rest).get? key = Fields.find? key rest.reverse := by
  obtain ⟨notVersion, notKind, notMetadata⟩ := other
  simp [object, Json.get?, Fields.find?_ofList, Fields.find?_append, Fields.find?,
    notVersion.symm, notKind.symm, notMetadata.symm]

theorem hasMetadata_object (further : Further rest) :
    Object.HasMetadata (k.object metadata rest) :=
  ⟨_, _, rfl, get?_object_metadata further⟩

theorem proper_object (inMetadata : ∀ e ∈ metadata, e.2.proper = true)
    (inRest : ∀ e ∈ rest, e.2.proper = true) : (k.object metadata rest).proper = true := by
  refine Json.proper_ofList ?_
  simp only [List.forall_mem_cons]
  exact ⟨rfl, rfl, Json.proper_ofList inMetadata, inRest⟩

theorem leavesVersion_object (further : Further rest)
    (unset : ∀ e ∈ metadata, e.1 ≠ "resourceVersion") :
    Object.leavesVersion (k.object metadata rest) = true := by
  simp only [Object.leavesVersion, get?_object_metadata further, List.all_eq_true, bne_iff_ne]
  exact fun e member => unset e (Fields.mem_ofList member)

theorem name?_object (further : Further rest) : Object.name? (k.object metadata rest) =
    (Fields.find? "name" metadata.reverse).bind Json.str? := by
  rw [Object.name?, Json.textAt?_pair, get?_object_metadata further, Option.bind_some,
    Json.get?_obj, Fields.find?_ofList]

theorem versionOf_object (further : Further rest) : Server.versionOf (k.object metadata rest) =
    (Fields.find? "resourceVersion" metadata.reverse).bind Json.str? := by
  rw [Server.versionOf_eq, get?_object_metadata further, Option.bind_some, Json.get?_obj,
    Fields.find?_ofList]

theorem withVersion_object {version : String} (further : Further rest) :
    Object.withVersion (some version) (k.object metadata rest) = .obj (Fields.insert "metadata"
      (.obj (Fields.insert "resourceVersion" (.str version) (Fields.ofList metadata)))
      (Fields.ofList (("apiVersion", .str k.apiVersion) :: ("kind", .str k.name) ::
        ("metadata", .obj (Fields.ofList metadata)) :: rest))) := by
  have found : Fields.find? "metadata" _ = some (.obj (Fields.ofList metadata)) :=
    get?_object_metadata (k := k) further
  unfold Object.withVersion object
  simp only [Json.updateAt]
  rw [Fields.update_of_ascending Fields.ascending_ofList found]
  rfl

/-- The server's version replaces the one that an object is bound to. -/
theorem stamp_bound (version : Option String) (further : Further rest) :
    Server.withVersion n (Object.withVersion version (k.object metadata rest)) =
      Server.withVersion n (k.object metadata rest) := by
  cases version with
  | none => rfl
  | some version =>
    have found : Fields.find? "metadata" _ = some (.obj (Fields.ofList metadata)) :=
      get?_object_metadata (k := k) further
    rw [withVersion_object further, Server.withVersion_obj Fields.find?_insert_self]
    unfold object
    rw [Server.withVersion_obj found]
    simp only [Fields.insert_insert]

theorem hasMetadata_bound (version : Option String) (further : Further rest) :
    Object.HasMetadata (Object.withVersion version (k.object metadata rest)) := by
  cases version with
  | none => exact hasMetadata_object further
  | some version =>
    rw [withVersion_object further]
    exact ⟨_, _, rfl, Fields.find?_insert_self⟩

theorem versionOf_bound (version : Option String) (further : Further rest)
    (unset : ∀ e ∈ metadata, e.1 ≠ "resourceVersion") :
    Server.versionOf (Object.withVersion version (k.object metadata rest)) = version := by
  cases version with
  | none =>
    have absent : Fields.find? "resourceVersion" metadata.reverse = none :=
      Fields.find?_eq_none_iff.mpr fun e member => unset e (List.mem_reverse.mp member)
    rw [Object.withVersion, versionOf_object further, absent, Option.bind_none]
  | some version =>
    rw [withVersion_object further, Server.versionOf_eq, Json.get?_obj, Fields.find?_insert_self,
      Option.bind_some, Json.get?_obj, Fields.find?_insert_self]
    rfl

end Kind
end MultiCluster.Cluster
