import Mathlib.Data.List.Sort
import Mathlib.Data.String.Basic
import MultiCluster.Text.Ordered

/-! Sets of texts as ascending lists: the list depends on the members alone. -/
namespace MultiCluster.Text

variable {s t : String} {items others : List String}

theorem mem_insertOrdered : t ∈ insertOrdered s items ↔ t = s ∨ t ∈ items := by
  induction items with
  | nil => simp [insertOrdered]
  | cons head rest ih =>
    by_cases same : s = head
    · subst same
      simp [insertOrdered]
    · by_cases before : s < head
      · simp [insertOrdered, same, before]
      · simp only [insertOrdered, beq_iff_eq, same, before, if_false, List.mem_cons, ih]
        tauto

theorem mem_ordered : t ∈ ordered items ↔ t ∈ items := by
  induction items with
  | nil => simp [ordered]
  | cons head rest ih =>
    rw [show ordered (head :: rest) = insertOrdered head (ordered rest) from rfl,
      mem_insertOrdered, ih, List.mem_cons]

theorem pairwise_insertOrdered (ascending : items.Pairwise (· < ·)) :
    (insertOrdered s items).Pairwise (· < ·) := by
  induction items with
  | nil => simp [insertOrdered]
  | cons head rest ih =>
    obtain ⟨first, later⟩ := List.pairwise_cons.mp ascending
    by_cases same : s = head
    · subst same
      simpa only [insertOrdered, beq_self_eq_true, if_true] using ascending
    · by_cases before : s < head
      · simp only [insertOrdered, beq_iff_eq, same, before, if_false, if_true]
        refine List.pairwise_cons.mpr ⟨fun t member => ?_, ascending⟩
        rcases List.mem_cons.mp member with rfl | inRest
        · exact before
        · exact before.trans (first t inRest)
      · simp only [insertOrdered, beq_iff_eq, same, before, if_false]
        refine List.pairwise_cons.mpr ⟨fun t member => ?_, ih later⟩
        rcases mem_insertOrdered.mp member with rfl | inRest
        · exact lt_of_le_of_ne (not_lt.mp before) (Ne.symm same)
        · exact first t inRest

theorem pairwise_ordered : (ordered items).Pairwise (· < ·) := by
  induction items with
  | nil => exact List.Pairwise.nil
  | cons head rest ih => exact pairwise_insertOrdered ih

/-- Order and repetitions of the items do not matter. -/
theorem ordered_congr (same : ∀ t, t ∈ items ↔ t ∈ others) : ordered items = ordered others := by
  refine List.Pairwise.eq_of_mem_iff pairwise_ordered pairwise_ordered fun t => ?_
  rw [mem_ordered, mem_ordered]
  exact same t

@[simp] theorem ordered_ordered : ordered (ordered items) = ordered items :=
  ordered_congr fun _ => mem_ordered

end MultiCluster.Text
