import MultiCluster.Json.MergePatch
import MultiCluster.Proofs.Fields

/-! Merge patches that only set fields. Merging such a patch puts it into the target, and a target
that the patch is within is left as it is, so merging the patch once more changes nothing. -/
namespace MultiCluster.Json

mutual
/-- A patch that removes nothing: no field is null, and none is given twice. -/
def proper : Json → Bool
  | .null => false
  | .obj fields => properFields fields
  | _ => true
def properFields : List (String × Json) → Bool
  | [] => true
  | (key, v) :: rest => rest.all (fun e => e.1 != key) && proper v && properFields rest
end

mutual
def Within : Json → Json → Prop
  | target, .obj patch => ∃ fields, target = .obj fields ∧ WithinFields fields patch
  | target, patch => target = patch
def WithinFields : Fields → List (String × Json) → Prop
  | _, [] => True
  | fields, (key, patch) :: rest =>
    (∃ v, Fields.Holds key v fields ∧ Within v patch) ∧ WithinFields fields rest
end

variable {key : String} {v target patch : Json} {fields rest entries : Fields}

theorem properFields_cons (ok : properFields ((key, v) :: rest) = true) :
    (∀ e ∈ rest, e.1 ≠ key) ∧ proper v = true ∧ properFields rest = true := by
  simp only [properFields, Bool.and_eq_true, List.all_eq_true, bne_iff_ne] at ok
  exact ⟨ok.1.1, ok.1.2, ok.2⟩

theorem properFields_iff : properFields entries = true ↔
    (entries.map (·.1)).Nodup ∧ ∀ e ∈ entries, e.2.proper = true := by
  induction entries with
  | nil => simp [properFields]
  | cons head rest ih =>
    obtain ⟨j, w⟩ := head
    simp only [properFields, Bool.and_eq_true, List.all_eq_true, bne_iff_ne, ih, List.map_cons,
      List.nodup_cons, List.forall_mem_cons, List.mem_map, not_exists, not_and]
    tauto

theorem proper_ofList (each : ∀ e ∈ entries, e.2.proper = true) :
    (Json.obj (Fields.ofList entries)).proper = true := by
  simp only [proper]
  exact properFields_iff.mpr
    ⟨Fields.ascending_ofList.nodup, fun e member => each e (Fields.mem_ofList member)⟩

theorem isNull_of_proper (ok : proper v = true) : v.isNull = false := by
  cases v with
  | null => simp [proper] at ok
  | _ => rfl

theorem mergeFields_cons (ok : proper v = true) :
    mergeFields fields ((key, v) :: rest) =
      mergeFields (Fields.insert key (mergePatch ((Fields.find? key fields).getD .null) v) fields)
        rest := by
  simp [mergeFields, isNull_of_proper ok]

theorem holds_mergeFields (held : Fields.Holds key v fields) (ok : properFields entries = true)
    (unset : ∀ e ∈ entries, e.1 ≠ key) : Fields.Holds key v (mergeFields fields entries) := by
  induction entries generalizing fields with
  | nil => simpa [mergeFields] using held
  | cons head rest ih =>
    obtain ⟨j, w⟩ := head
    obtain ⟨-, okHead, okRest⟩ := properFields_cons ok
    rw [mergeFields_cons okHead]
    have other : key ≠ j := fun same => unset (j, w) (by simp) same.symm
    exact ih (held.insert_of_ne other) okRest fun e member => unset e (by simp [member])

mutual
/-- Merging puts the patch into the target. -/
theorem within_mergePatch : ∀ (patch target : Json), proper patch = true →
    Within (mergePatch target patch) patch
  | .obj entries, target, ok => by
    have inside := within_mergeFields entries (target.obj?.getD []) (by simpa [proper] using ok)
    exact ⟨_, by simp only [mergePatch], inside⟩
  | .null, _, ok => by simp [proper] at ok
  | .bool _, _, _ => by simp [mergePatch, Within]
  | .int _, _, _ => by simp [mergePatch, Within]
  | .float _, _, _ => by simp [mergePatch, Within]
  | .str _, _, _ => by simp [mergePatch, Within]
  | .arr _, _, _ => by simp [mergePatch, Within]
theorem within_mergeFields : ∀ (entries fields : Fields), properFields entries = true →
    WithinFields (mergeFields fields entries) entries
  | [], _, _ => trivial
  | (key, v) :: rest, fields, ok => by
    obtain ⟨once, okHead, okRest⟩ := properFields_cons ok
    let merged := mergePatch ((Fields.find? key fields).getD .null) v
    have put : Fields.Holds key merged (mergeFields (Fields.insert key merged fields) rest) :=
      holds_mergeFields Fields.holds_insert_self okRest once
    rw [mergeFields_cons okHead]
    exact ⟨⟨merged, put, within_mergePatch v _ okHead⟩, within_mergeFields rest _ okRest⟩
end

mutual
/-- A patch has nothing to add to a target that it is within. -/
theorem mergePatch_of_within : ∀ (patch target : Json), proper patch = true →
    Within target patch → mergePatch target patch = target
  | .obj entries, target, ok, inside => by
    obtain ⟨fields, rfl, inside⟩ := inside
    have same := mergeFields_of_within entries fields (by simpa [proper] using ok) inside
    simp only [mergePatch, obj?, Option.getD_some, same]
  | .null, _, ok, _ => by simp [proper] at ok
  | .bool _, _, _, inside => by simp_all [mergePatch, Within]
  | .int _, _, _, inside => by simp_all [mergePatch, Within]
  | .float _, _, _, inside => by simp_all [mergePatch, Within]
  | .str _, _, _, inside => by simp_all [mergePatch, Within]
  | .arr _, _, _, inside => by simp_all [mergePatch, Within]
theorem mergeFields_of_within : ∀ (entries fields : Fields), properFields entries = true →
    WithinFields fields entries → mergeFields fields entries = fields
  | [], _, _, _ => by simp [mergeFields]
  | (key, v) :: rest, fields, ok, inside => by
    obtain ⟨-, okHead, okRest⟩ := properFields_cons ok
    obtain ⟨⟨w, held, inHead⟩, inRest⟩ := inside
    rw [mergeFields_cons okHead, held.find?, Option.getD_some,
      mergePatch_of_within v w okHead inHead, held]
    exact mergeFields_of_within rest fields okRest inRest
end

theorem withinFields_iff : WithinFields fields entries ↔
    ∀ e ∈ entries, ∃ v, Fields.Holds e.1 v fields ∧ Within v e.2 := by
  induction entries with
  | nil => simp [WithinFields]
  | cons head rest ih => simp [WithinFields, ih]

theorem find?_of_mem (ok : properFields entries = true) (member : (key, v) ∈ entries) :
    Fields.find? key entries = some v :=
  Fields.find?_of_once (properFields_iff.mp ok).1 member

theorem WithinFields.insert_of_ne (inside : WithinFields fields entries)
    (unset : ∀ e ∈ entries, e.1 ≠ key) : WithinFields (Fields.insert key v fields) entries := by
  rw [withinFields_iff] at inside ⊢
  intro e member
  obtain ⟨w, held, inHead⟩ := inside e member
  exact ⟨w, held.insert_of_ne (unset e member), inHead⟩

end MultiCluster.Json
