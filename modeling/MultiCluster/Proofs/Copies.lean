import MultiCluster.Gather.Collection
import MultiCluster.Proofs.Fields

/-! What is kept of a log and of an object, told from the original. Credentials stay only if they
are included, and an object loses the record of who manages which field in any case. -/
namespace MultiCluster.Gather

open Cluster (Kind)

variable {o : Options} {k : Kind} {v u : Json} {fields : Fields} {log text name : String}

inductive LogCopy (o : Options) (log : String) : String → Prop
  | whole (included : o.includeSensitiveData = true) : LogCopy o log log
  | redacted (excluded : o.includeSensitiveData = false) : LogCopy o log (redactLog log)

/-- An object, and what it is without managed fields. -/
inductive Unmanaged : Json → Json → Prop
  | erased {before after metadata : Fields} (first : ∀ e ∈ before, e.1 ≠ "metadata") :
      Unmanaged (.obj (before ++ ("metadata", .obj metadata) :: after))
        (.obj (before ++
          ("metadata", .obj (metadata.filter fun e => e.1 ≠ "managedFields")) :: after))
  | bare {v : Json} (unnamed : ∀ metadata, v.get? "metadata" ≠ some (.obj metadata)) :
      Unmanaged v v

inductive ObjectCopy (o : Options) (k : Kind) (v : Json) : Json → Prop
  | whole {u : Json} (included : o.includeSensitiveData = true) (unmanaged : Unmanaged v u) :
      ObjectCopy o k v u
  | redacted {u : Json} (excluded : o.includeSensitiveData = false) (unmanaged : Unmanaged v u) :
      ObjectCopy o k v (redactResource k.name u)

theorem logCopy_iff : LogCopy o log text ↔ text = keptLog o log := by
  unfold keptLog
  constructor
  · rintro (included | excluded)
    · rw [if_pos included]
    · rw [if_neg (Bool.eq_false_iff.mp excluded)]
  · rintro rfl
    split
    · next included => exact .whole included
    · next excluded => exact .redacted (Bool.eq_false_iff.mpr excluded)

theorem unmanaged_iff :
    Unmanaged v u ↔ u = v.updateAt (Fields.erase "managedFields") ["metadata"] := by
  have erases (metadata : Fields) : metadata.filter (fun e => e.1 ≠ "managedFields") =
      Fields.erase "managedFields" metadata :=
    List.filter_congr fun e _ => by simp [bne, beq_eq_decide]
  have idle (v : Json) (unnamed : ∀ metadata, v.get? "metadata" ≠ some (.obj metadata)) :
      v.updateAt (Fields.erase "managedFields") ["metadata"] = v := by
    cases v with
    | obj fields =>
      refine congrArg Json.obj (Fields.update_eq_self fun u found => ?_)
      cases u with
      | obj metadata => exact absurd found (unnamed metadata)
      | _ => rfl
    | _ => rfl
  constructor
  · rintro (first | unnamed)
    · rw [erases, Json.updateAt, Fields.update_append first]
      rfl
    · rw [idle v unnamed]
  · rintro rfl
    by_cases named : ∃ metadata, v.get? "metadata" = some (.obj metadata)
    · obtain ⟨metadata, found⟩ := named
      cases v with
      | obj fields =>
        obtain ⟨before, after, rfl, first⟩ := Fields.split_of_find? found
        rw [Json.updateAt, Fields.update_append first, Json.updateAt, ← erases]
        exact .erased first
      | _ => cases found
    · have unnamed : ∀ metadata, v.get? "metadata" ≠ some (.obj metadata) :=
        fun metadata found => named ⟨metadata, found⟩
      rw [idle v unnamed]
      exact .bare unnamed

theorem objectCopy_iff : ObjectCopy o k v u ↔ u = keptObject o k v := by
  unfold keptObject keptResource
  constructor
  · rintro (⟨included, unmanaged⟩ | ⟨excluded, unmanaged⟩)
    · rw [if_pos included, unmanaged_iff.mp unmanaged]
    · rw [if_neg (Bool.eq_false_iff.mp excluded), unmanaged_iff.mp unmanaged]
  · rintro rfl
    split
    · next included => exact .whole included (unmanaged_iff.mpr rfl)
    · next excluded => exact .redacted (Bool.eq_false_iff.mpr excluded) (unmanaged_iff.mpr rfl)

end MultiCluster.Gather
