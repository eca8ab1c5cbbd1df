import Mathlib.Data.String.Basic
import MultiCluster.Json.Basic

/-! Putting fields into objects. The laws hold for every list of fields, ordered or not: a value is
put where the first key that is not smaller stands, and putting it there again finds that place. -/
namespace MultiCluster.Fields

variable {j k : String} {v w : Json} {fields : Fields}

@[simp] theorem find?_insert_self : find? k (insert k v fields) = some v := by
  induction fields with
  | nil => simp [insert, find?]
  | cons head rest ih =>
    obtain ⟨i, u⟩ := head
    by_cases same : i = k
    · simp [insert, find?, same]
    · by_cases below : k < i
      · simp [insert, find?, same, below]
      · simpa [insert, find?, same, below] using ih

theorem find?_insert_of_ne (other : j ≠ k) : find? j (insert k v fields) = find? j fields := by
  induction fields with
  | nil => simp [insert, find?, other.symm]
  | cons head rest ih =>
    obtain ⟨i, u⟩ := head
    by_cases same : i = k
    · subst same
      simp [insert, find?, other.symm]
    · by_cases below : k < i
      · simp [insert, find?, same, below, other.symm]
      · by_cases found : i = j
        · subst found
          simp [insert, find?, same, below]
        · simpa [insert, find?, same, below, found] using ih

@[simp] theorem insert_insert : insert k v (insert k w fields) = insert k v fields := by
  induction fields with
  | nil => simp [insert]
  | cons head rest ih =>
    obtain ⟨i, u⟩ := head
    by_cases same : i = k
    · simp [insert, same]
    · by_cases below : k < i
      · simp [insert, same, below]
      · simpa [insert, same, below] using ih

theorem insert_comm (other : j ≠ k) :
    insert j v (insert k w fields) = insert k w (insert j v fields) := by
  induction fields with
  | nil =>
    rcases lt_or_gt_of_ne other with before | before
    · simp [insert, other, other.symm, before, before.not_gt]
    · simp [insert, other, other.symm, before, before.not_gt]
  | cons head rest ih =>
    obtain ⟨i, u⟩ := head
    by_cases atK : i = k
    · subst atK
      by_cases before : j < i
      · simp [insert, other, other.symm, before, before.not_gt]
      · simp [insert, other.symm, before]
    by_cases atJ : i = j
    · subst atJ
      by_cases before : k < i
      · simp [insert, other, other.symm, before, before.not_gt]
      · simp [insert, other, before]
    by_cases belowJ : j < i <;> by_cases belowK : k < i
    · rcases lt_or_gt_of_ne other with before | before
      · simp [insert, other, other.symm, atJ, atK, belowJ, belowK, before, before.not_gt]
      · simp [insert, other, other.symm, atJ, atK, belowJ, belowK, before, before.not_gt]
    · have before : j < k := lt_of_lt_of_le belowJ (not_lt.mp belowK)
      simp [insert, other, atJ, atK, belowJ, belowK, before.not_gt]
    · have before : k < j := lt_of_lt_of_le belowK (not_lt.mp belowJ)
      simp [insert, other.symm, atJ, atK, belowJ, belowK, before.not_gt]
    · simpa [insert, atJ, atK, belowJ, belowK] using ih

/-- The value under a key, in the place where it would be put. -/
def Holds (k : String) (v : Json) (fields : Fields) : Prop := insert k v fields = fields

theorem Holds.find? (held : Holds k v fields) : Fields.find? k fields = some v := by
  have found : Fields.find? k (insert k v fields) = some v := find?_insert_self
  rwa [held] at found

theorem holds_insert_self : Holds k v (insert k v fields) := insert_insert

theorem Holds.insert_of_ne (held : Holds k v fields) (other : k ≠ j) :
    Holds k v (insert j w fields) := by
  unfold Holds
  rw [insert_comm other, held]

theorem mem_of_find? (found : find? k fields = some v) : (k, v) ∈ fields := by
  induction fields with
  | nil => simp [find?] at found
  | cons head rest ih =>
    obtain ⟨i, u⟩ := head
    by_cases same : i = k
    · subst same
      simp [find?] at found
      simp [found]
    · simp only [find?, beq_iff_eq, same, if_false] at found
      exact List.mem_cons_of_mem _ (ih found)

theorem mem_insert {entry : String × Json} (member : entry ∈ insert k v fields) :
    entry = (k, v) ∨ entry ∈ fields := by
  induction fields with
  | nil => simpa [insert] using member
  | cons head rest ih =>
    obtain ⟨i, u⟩ := head
    by_cases same : i = k
    · simp only [insert, same, beq_self_eq_true, if_true, List.mem_cons] at member ⊢
      tauto
    · by_cases below : k < i
      · simpa [insert, same, below] using member
      · simp only [insert, same, below, beq_iff_eq, if_false, List.mem_cons] at member ⊢
        rcases member with first | later
        · exact Or.inr (Or.inl first)
        · rcases ih later with put | old
          · exact Or.inl put
          · exact Or.inr (Or.inr old)

@[simp] theorem update_insert {f : Json → Json} :
    update k f (insert k v fields) = insert k (f v) fields := by
  induction fields with
  | nil => simp [insert, update]
  | cons head rest ih =>
    obtain ⟨i, u⟩ := head
    by_cases same : i = k
    · simp [insert, update, same]
    · by_cases below : k < i
      · simp [insert, update, same, below]
      · simpa [insert, update, same, below] using ih

theorem find?_update_self {f : Json → Json} :
    find? k (update k f fields) = (find? k fields).map f := by
  induction fields with
  | nil => rfl
  | cons head rest ih =>
    obtain ⟨i, u⟩ := head
    by_cases same : i = k
    · simp [update, find?, same]
    · simpa [update, find?, same] using ih

theorem find?_update_of_ne {f : Json → Json} (other : j ≠ k) :
    find? j (update k f fields) = find? j fields := by
  induction fields with
  | nil => rfl
  | cons head rest ih =>
    obtain ⟨i, u⟩ := head
    by_cases same : i = k
    · subst same
      simp [update, find?, other.symm]
    · by_cases found : i = j
      · subst found
        simp [update, find?, same]
      · simpa [update, find?, same, found] using ih

theorem keys_update {f : Json → Json} : (update k f fields).map (·.1) = fields.map (·.1) := by
  induction fields with
  | nil => rfl
  | cons head rest ih =>
    obtain ⟨i, u⟩ := head
    by_cases same : i = k
    · simp [update, same]
    · simpa [update, same] using ih

theorem update_eq_self {f : Json → Json} (fixed : ∀ u, find? k fields = some u → f u = u) :
    update k f fields = fields := by
  induction fields with
  | nil => rfl
  | cons head rest ih =>
    obtain ⟨i, u⟩ := head
    by_cases same : i = k
    · subst same
      simp [update, fixed u (by simp [find?])]
    · have later := ih fun u found => fixed u (by simpa [find?, same] using found)
      simp [update, same, later]

theorem update_append {before after : Fields} {f : Json → Json}
    (first : ∀ e ∈ before, e.1 ≠ k) :
    update k f (before ++ (k, v) :: after) = before ++ (k, f v) :: after := by
  induction before with
  | nil => simp [update]
  | cons e rest ih =>
    obtain ⟨other, others⟩ := List.forall_mem_cons.mp first
    simp [update, other, ih others]

theorem split_of_find? (found : find? k fields = some v) :
    ∃ before after, fields = before ++ (k, v) :: after ∧ ∀ e ∈ before, e.1 ≠ k := by
  induction fields with
  | nil => cases found
  | cons head rest ih =>
    obtain ⟨i, u⟩ := head
    by_cases same : i = k
    · obtain rfl : u = v := by simpa [find?, same] using found
      exact ⟨[], rest, by rw [same]; rfl, nofun⟩
    · obtain ⟨before, after, rfl, first⟩ := ih (by simpa [find?, same] using found)
      exact ⟨(i, u) :: before, after, rfl, List.forall_mem_cons.mpr ⟨same, first⟩⟩

@[simp] theorem erase_insert : erase k (insert k v fields) = erase k fields := by
  induction fields with
  | nil => simp [insert, erase]
  | cons head rest ih =>
    obtain ⟨i, u⟩ := head
    unfold erase at ih ⊢
    by_cases same : i = k
    · simp [insert, same]
    · by_cases below : k < i
      · simp [insert, same, below]
      · simpa [insert, same, below] using ih

theorem find?_erase_of_ne (other : j ≠ k) : find? j (erase k fields) = find? j fields := by
  induction fields with
  | nil => rfl
  | cons head rest ih =>
    obtain ⟨i, u⟩ := head
    unfold erase at ih ⊢
    by_cases same : i = k
    · subst same
      simp [find?, other.symm, ih]
    · by_cases found : i = j
      · subst found
        simp [find?, same]
      · simp [find?, same, found, ih]

theorem find?_eq_none_iff : find? k fields = none ↔ ∀ e ∈ fields, e.1 ≠ k := by
  induction fields with
  | nil => simp [find?]
  | cons head rest ih =>
    obtain ⟨i, u⟩ := head
    by_cases same : i = k
    · simp [find?, same]
    · simp [find?, same, ih]

@[simp] theorem find?_erase_self : find? k (erase k fields) = none := by
  refine find?_eq_none_iff.mpr fun e member same => ?_
  simp [erase, same] at member

theorem find?_append {others : Fields} :
    find? k (fields ++ others) = (find? k fields).or (find? k others) := by
  induction fields with
  | nil => simp [find?]
  | cons head rest ih =>
    obtain ⟨i, u⟩ := head
    by_cases same : i = k
    · simp [find?, same]
    · simpa [find?, same] using ih

/-- Of repeated keys the last one counts. -/
theorem find?_ofList : find? k (ofList fields) = find? k fields.reverse := by
  have put (acc : Fields) : find? k (fields.foldl (fun acc f => insert f.1 f.2 acc) acc) =
      (find? k fields.reverse).or (find? k acc) := by
    induction fields generalizing acc with
    | nil => simp [find?]
    | cons head rest ih =>
      obtain ⟨i, u⟩ := head
      rw [List.foldl_cons, ih, List.reverse_cons, find?_append, Option.or_assoc]
      by_cases same : i = k
      · subst same
        simp [find?]
      · simp [find?, same, find?_insert_of_ne (Ne.symm same)]
  simpa [ofList, find?] using put []

theorem find?_reverse (once : (fields.map (·.1)).Nodup) :
    find? k fields.reverse = find? k fields := by
  induction fields with
  | nil => rfl
  | cons head rest ih =>
    obtain ⟨i, u⟩ := head
    simp only [List.map_cons, List.nodup_cons] at once
    rw [List.reverse_cons, find?_append, ih once.2]
    by_cases same : i = k
    · subst same
      have absent : find? i rest = none :=
        find?_eq_none_iff.mpr fun e member same => once.1 (same ▸ List.mem_map_of_mem member)
      simp [find?, absent]
    · simp [find?, same]

def Ascending (fields : Fields) : Prop := (fields.map (·.1)).Pairwise (· < ·)

theorem ascending_insert (ordered : Ascending fields) : Ascending (insert k v fields) := by
  induction fields with
  | nil => simp [Ascending, Fields.insert]
  | cons head rest ih =>
    obtain ⟨i, u⟩ := head
    simp only [Ascending, List.map_cons, List.pairwise_cons] at ordered
    obtain ⟨first, later⟩ := ordered
    by_cases same : i = k
    · subst same
      simp only [Ascending, Fields.insert, beq_self_eq_true, if_true, List.map_cons,
        List.pairwise_cons]
      exact ⟨first, later⟩
    · by_cases below : k < i
      · simp only [Ascending, Fields.insert, beq_iff_eq, same, below, if_false, if_true,
          List.map_cons, List.pairwise_cons, List.mem_cons]
        refine ⟨?_, first, later⟩
        rintro j (rfl | member)
        · exact below
        · exact below.trans (first j member)
      · simp only [Ascending, Fields.insert, beq_iff_eq, same, below, if_false, List.map_cons,
          List.pairwise_cons]
        refine ⟨fun j member => ?_, ih later⟩
        obtain ⟨e, inserted, rfl⟩ := List.mem_map.mp member
        rcases mem_insert inserted with rfl | old
        · exact lt_of_le_of_ne (not_lt.mp below) same
        · exact first _ (List.mem_map_of_mem old)

theorem ascending_ofList : Ascending (ofList fields) := by
  have put (acc : Fields) (ordered : Ascending acc) :
      Ascending (fields.foldl (fun acc f => insert f.1 f.2 acc) acc) := by
    induction fields generalizing acc with
    | nil => exact ordered
    | cons head rest ih => exact ih _ (ascending_insert ordered)
  exact put [] List.Pairwise.nil

theorem insert_of_behind (behind : ∀ e ∈ fields, e.1 < k) :
    insert k v fields = fields ++ [(k, v)] := by
  induction fields with
  | nil => rfl
  | cons head rest ih =>
    obtain ⟨i, u⟩ := head
    rw [List.forall_mem_cons] at behind
    have before : i < k := behind.1
    simp [Fields.insert, before.ne, before.not_gt, ih behind.2]

theorem ofList_of_ascending (ordered : Ascending fields) : ofList fields = fields := by
  have put (acc given : Fields) (ordered : Ascending (acc ++ given)) :
      given.foldl (fun acc f => insert f.1 f.2 acc) acc = acc ++ given := by
    induction given generalizing acc with
    | nil => simp
    | cons head rest ih =>
      have behind : ∀ e ∈ acc, e.1 < head.1 := by
        intro e member
        rw [Ascending, List.map_append, List.pairwise_append] at ordered
        exact ordered.2.2 e.1 (List.mem_map_of_mem member) head.1 (by simp)
      rw [List.foldl_cons, insert_of_behind behind, ih _ (by simpa using ordered)]
      simp
  exact put [] fields ordered

theorem find?_of_once (once : (fields.map (·.1)).Nodup) (member : (k, v) ∈ fields) :
    find? k fields = some v := by
  induction fields with
  | nil => cases member
  | cons head rest ih =>
    obtain ⟨i, u⟩ := head
    simp only [List.map_cons, List.nodup_cons] at once
    rcases List.mem_cons.mp member with same | later
    · obtain ⟨rfl, rfl⟩ := Prod.mk.inj same
      simp [find?]
    · have other : i ≠ k := by
        rintro rfl
        exact once.1 (List.mem_map_of_mem later)
      simpa [find?, other] using ih once.2 later

theorem Ascending.nodup (ordered : Ascending fields) : (fields.map (·.1)).Nodup :=
  List.Pairwise.imp (fun before => ne_of_lt before) ordered

/-- In ordered fields a value is replaced in the place where it would be put. -/
theorem update_of_ascending {f : Json → Json} (ordered : Ascending fields)
    (found : find? k fields = some v) : update k f fields = insert k (f v) fields := by
  induction fields with
  | nil => simp [find?] at found
  | cons head rest ih =>
    obtain ⟨i, u⟩ := head
    simp only [Ascending, List.map_cons, List.pairwise_cons] at ordered
    by_cases same : i = k
    · subst same
      simp only [find?, beq_self_eq_true, if_true, Option.some.injEq] at found
      simp [Fields.update, Fields.insert, found]
    · simp only [find?, beq_iff_eq, same, if_false] at found
      have before : i < k := ordered.1 k (List.mem_map_of_mem (mem_of_find? found))
      simp only [Fields.update, Fields.insert, beq_iff_eq, same, if_false, before.not_gt,
        ih ordered.2 found]

theorem mem_ofList {entry : String × Json} (member : entry ∈ ofList fields) : entry ∈ fields := by
  have put (given acc : Fields) (inside : entry ∈ given.foldl (fun acc f => insert f.1 f.2 acc) acc) :
      entry ∈ given ∨ entry ∈ acc := by
    induction given generalizing acc with
    | nil => exact .inr inside
    | cons head rest ih =>
      rcases ih _ inside with later | before
      · exact .inl (List.mem_cons_of_mem _ later)
      · rcases mem_insert before with rfl | old
        · exact .inl (List.mem_cons_self ..)
        · exact .inr old
  simpa using put fields [] member

end MultiCluster.Fields

namespace MultiCluster.Json

variable {key a b : String} {v : Json} {fields : Fields}

theorem get?_obj : (Json.obj fields).get? key = Fields.find? key fields := rfl

theorem textAt?_single : v.textAt? [a] = (v.get? a).bind str? := by
  simp only [textAt?, at?, Option.bind_assoc]
  rfl

theorem textAt?_pair : v.textAt? [a, b] = (v.get? a).bind fun u => (u.get? b).bind str? := by
  simp only [textAt?, at?, Option.bind_assoc]
  rfl

end MultiCluster.Json
