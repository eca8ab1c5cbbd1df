import Mathlib.Data.List.Pairwise
import Mathlib.Data.List.Sort
import Mathlib.Data.String.Basic
import MultiCluster.Gateway.Nodes

/-! Which nodes a number of gateways is made up of. A selection is described by what it holds and
what it leaves out. At most one fits the description, it does not depend on the order of the nodes,
and it is the one that is made. -/
namespace MultiCluster.Gateway

open Cluster

def Labelled (node : Json) : Prop := Object.label? gatewayLabel node = some "true"

def Ready (node : Json) : Prop := ∃ c ∈ node.itemsAt ["status", "conditions"],
  c.textAt? ["type"] = some "Ready" ∧ c.textAt? ["status"] = some "True"

structure Candidate (node : Json) : Prop where
  unlabelled : ¬ Labelled node
  worker : ∀ l ∈ controlPlaneLabels, Object.hasLabel l node = false
  ready : Ready node

variable {P : Json → Prop} [DecidablePred P] {p : Json → Bool} {node : Json}
  {nodes others : List Json} {wanted : Nat} {s t : Selection} {name : String}

theorem isGateway_iff_labelled : isGateway node = true ↔ Labelled node := beq_iff_eq

theorem isReady_iff : isReady node = true ↔ Ready node := by
  simp [isReady, Ready, List.any_eq_true]

theorem isCandidate_iff : isCandidate node = true ↔ Candidate node := by
  simp only [isCandidate, Bool.and_eq_true, Bool.not_eq_true', isReady_iff]
  constructor
  · rintro ⟨⟨plain, notMaster⟩, ready⟩
    refine ⟨fun labelled => ?_, ?_, ready⟩
    · rw [isGateway_iff_labelled.mpr labelled] at plain
      cases plain
    · simpa [List.any_eq_false] using notMaster
  · rintro ⟨unlabelled, worker, ready⟩
    refine ⟨⟨?_, ?_⟩, ready⟩
    · exact Bool.eq_false_iff.mpr fun gateway => unlabelled (isGateway_iff_labelled.mp gateway)
    · simpa [List.any_eq_false] using worker

instance : DecidablePred Labelled := fun _ => decidable_of_iff _ isGateway_iff_labelled

instance : DecidablePred Candidate := fun _ => decidable_of_iff _ isCandidate_iff

def named (P : Json → Prop) [DecidablePred P] (nodes : List Json) : List String :=
  (nodes.filter fun v => P v).filterMap Object.name?

/-- A selection that brings the gateways among some nodes up to a number: all that are labelled, and
as many candidates as are missing, none of which comes behind one that is left out. -/
structure Selects (nodes : List Json) (wanted : Nat) (s : Selection) : Prop where
  labelled : s.existing.Perm (named Labelled nodes)
  existingSorted : s.existing.SortedLE
  count : s.chosen.length = wanted - s.existing.length
  chosenSorted : s.chosen.SortedLE
  first : ∃ spare, (s.chosen ++ spare).Perm (named Candidate nodes) ∧
    ∀ a ∈ s.chosen, ∀ b ∈ spare, a ≤ b

theorem mem_named : name ∈ named P nodes ↔ ∃ v ∈ nodes, P v ∧ Object.name? v = some name := by
  simp [named, and_assoc]

theorem named_perm (same : nodes.Perm others) : (named P nodes).Perm (named P others) :=
  (same.filter _).filterMap _

theorem namesWhere_sorted : (namesWhere p nodes).SortedLE := List.sortedLE_mergeSort

theorem namesWhere_perm (means : ∀ v, p v = true ↔ P v) :
    (namesWhere p nodes).Perm (named P nodes) := by
  have same : (nodes.filter p) = nodes.filter fun v => P v :=
    List.filter_congr fun v _ => Bool.eq_iff_iff.mpr ((means v).trans decide_eq_true_iff.symm)
  rw [named, ← same]
  exact List.mergeSort_perm _ _

theorem namesWhere_congr (same : nodes.Perm others) : namesWhere p nodes = namesWhere p others := by
  refine List.Perm.eq_of_sortedLE namesWhere_sorted namesWhere_sorted ?_
  calc (namesWhere p nodes).Perm (named (p · = true) nodes) := namesWhere_perm fun _ => Iff.rfl
    List.Perm _ (named (p · = true) others) := named_perm same
    List.Perm _ (namesWhere p others) := (namesWhere_perm fun _ => Iff.rfl).symm

theorem select_congr (same : nodes.Perm others) : select others wanted = select nodes wanted := by
  simp only [select, namesWhere_congr same]

section Counts

variable (nodes wanted)

theorem length_existing : (namesWhere isGateway nodes).length = (named Labelled nodes).length :=
  (namesWhere_perm fun _ => isGateway_iff_labelled).length_eq

theorem length_candidates :
    (namesWhere isCandidate nodes).length = (named Candidate nodes).length :=
  (namesWhere_perm fun _ => isCandidate_iff).length_eq

/-- With enough candidates the first of them are taken, none if none is missing. -/
theorem select_of_enough
    (enough : wanted - (named Labelled nodes).length ≤ (named Candidate nodes).length) :
    select nodes wanted = .ok ⟨namesWhere isGateway nodes,
      (namesWhere isCandidate nodes).take (wanted - (namesWhere isGateway nodes).length)⟩ := by
  rw [← length_existing, ← length_candidates] at enough
  unfold select
  simp only
  split
  · next none => rw [none, List.take_zero]
  · rw [if_neg (Nat.not_lt.mpr enough)]

theorem select_of_few
    (few : (named Candidate nodes).length < wanted - (named Labelled nodes).length) :
    ∃ e, select nodes wanted = .error e := by
  rw [← length_existing, ← length_candidates] at few
  unfold select
  simp only
  rw [if_neg (by omega), if_pos few]
  exact ⟨_, rfl⟩

end Counts

theorem selects_of_select (selected : select nodes wanted = .ok s) : Selects nodes wanted s := by
  rcases Nat.lt_or_ge (named Candidate nodes).length (wanted - (named Labelled nodes).length)
    with few | enough
  · obtain ⟨e, failed⟩ := select_of_few nodes wanted few
    rw [failed] at selected
    cases selected
  · rw [select_of_enough nodes wanted enough] at selected
    obtain rfl := Except.ok.inj selected
    have whole := List.take_append_drop (wanted - (namesWhere isGateway nodes).length)
      (namesWhere isCandidate nodes)
    have ordered : (namesWhere isCandidate nodes).Pairwise (· ≤ ·) := namesWhere_sorted.pairwise
    rw [← whole, List.pairwise_append] at ordered
    obtain ⟨chosen, -, before⟩ := ordered
    refine ⟨namesWhere_perm fun _ => isGateway_iff_labelled, namesWhere_sorted, ?_,
      chosen.sortedLE, _, ?_, before⟩
    · rw [List.length_take, length_existing, length_candidates]
      exact Nat.min_eq_left enough
    · rw [whole]
      exact namesWhere_perm fun _ => isCandidate_iff

namespace Selects

/-- What is chosen is the beginning of all candidates in the order of their names. -/
theorem chosen_eq (selects : Selects nodes wanted s) :
    s.chosen = (namesWhere isCandidate nodes).take (wanted - s.existing.length) := by
  obtain ⟨spare, all, before⟩ := selects.first
  have rest : (spare.mergeSort fun a b => decide (a ≤ b)).Perm spare := List.mergeSort_perm _ _
  have ordered : (s.chosen ++ spare.mergeSort fun a b => decide (a ≤ b)).SortedLE := by
    refine (List.pairwise_append.mpr ⟨selects.chosenSorted.pairwise, ?_, ?_⟩).sortedLE
    · exact List.sortedLE_mergeSort.pairwise
    · exact fun a chosen b left => before a chosen b (rest.mem_iff.mp left)
  have same : namesWhere isCandidate nodes =
      s.chosen ++ spare.mergeSort fun a b => decide (a ≤ b) := by
    refine List.Perm.eq_of_sortedLE namesWhere_sorted ordered ?_
    calc (namesWhere isCandidate nodes).Perm (named Candidate nodes) :=
          namesWhere_perm fun _ => isCandidate_iff
      List.Perm _ (s.chosen ++ spare) := all.symm
      List.Perm _ _ := (List.Perm.refl _).append rest.symm
  rw [same, ← selects.count, List.take_left]

theorem existing_eq (selects : Selects nodes wanted s) :
    s.existing = namesWhere isGateway nodes := by
  refine List.Perm.eq_of_sortedLE selects.existingSorted namesWhere_sorted ?_
  exact selects.labelled.trans (namesWhere_perm fun _ => isGateway_iff_labelled).symm

theorem enough (selects : Selects nodes wanted s) :
    wanted - (named Labelled nodes).length ≤ (named Candidate nodes).length := by
  obtain ⟨spare, all, -⟩ := selects.first
  rw [← selects.labelled.length_eq, ← selects.count, ← all.length_eq, List.length_append]
  exact Nat.le_add_right ..

theorem selected (selects : Selects nodes wanted s) : select nodes wanted = .ok s := by
  rw [select_of_enough nodes wanted selects.enough, ← selects.existing_eq, ← selects.chosen_eq]

/-- If every name is the name of one node, no gateway is chosen once more. -/
theorem apart (selects : Selects nodes wanted s) (unique : (nodes.filterMap Object.name?).Nodup) :
    ∀ name ∈ s.chosen, name ∉ s.existing := by
  intro name chosen existing
  obtain ⟨spare, all, -⟩ := selects.first
  obtain ⟨v, inNodes, candidate, called⟩ :=
    mem_named.mp (all.mem_iff.mp (List.mem_append_left spare chosen))
  obtain ⟨w, inNodes', labelled, called'⟩ := mem_named.mp (selects.labelled.mem_iff.mp existing)
  have other : v ≠ w := fun same => candidate.unlabelled (same ▸ labelled)
  have symm : Std.Symm fun v w => ∀ a, Object.name? v = some a → ∀ b, Object.name? w = some b →
      a ≠ b := ⟨fun _ _ different a called b called' => (different b called' a called).symm⟩
  have different := (List.pairwise_filterMap.mp unique).forall inNodes inNodes' other
  exact different name called name called' rfl

end Selects

/-- Nodes are selected by what they are and by their names, in whatever order they come. A
selection is made as described and in one way only, unless there are too few candidates. -/
theorem select_exact (nodes : List Json) (wanted : Nat) :
    (∀ others, nodes.Perm others → select others wanted = select nodes wanted) ∧
    (∀ s, select nodes wanted = .ok s ↔ Selects nodes wanted s) ∧
    ((∃ e, select nodes wanted = .error e) ↔
      (named Candidate nodes).length < wanted - (named Labelled nodes).length) ∧
    ((nodes.filterMap Object.name?).Nodup → ∀ s, select nodes wanted = .ok s →
      ∀ name ∈ s.chosen, name ∉ s.existing) := by
  refine ⟨fun others same => select_congr same, fun s => ⟨selects_of_select, Selects.selected⟩,
    ⟨?_, select_of_few nodes wanted⟩, fun unique s selected => ?_⟩
  · rintro ⟨e, failed⟩
    by_contra enough
    rw [select_of_enough nodes wanted (Nat.not_lt.mp enough)] at failed
    cases failed
  · exact (selects_of_select selected).apart unique

def nodeWith (metadata : Fields) (ready : String) : Json := .obj [
  ("metadata", .obj metadata),
  ("status", .obj [("conditions", .arr [.obj [("status", .str ready), ("type", .str "Ready")]])])]

def sevenNodes : List Json := [
  nodeWith [("labels", .obj [(gatewayLabel, .str "true")]), ("name", .str "c")] "True",
  nodeWith [("name", .str "d")] "True",
  nodeWith [("labels", .obj [("node-role.kubernetes.io/master", .str "")]), ("name", .str "0")]
    "True",
  nodeWith [("name", .str "1")] "False",
  nodeWith [] "True",
  nodeWith [("name", .str "b")] "True",
  nodeWith [("labels", .obj [(gatewayLabel, .str "false")]), ("name", .str "a")] "True"]

theorem select_sevenNodes : sevenNodes.Perm sevenNodes.reverse ∧
    (sevenNodes.filterMap Object.name?).Nodup ∧
    select sevenNodes.reverse 3 = .ok ⟨["c"], ["a", "b"]⟩ ∧
    (∀ name ∈ ["a", "b"], name ∉ ["c"]) ∧ ∃ e, select sevenNodes 5 = .error e := by
  obtain ⟨congr, exact_, -, apart⟩ := select_exact sevenNodes 3
  have same : sevenNodes.Perm sevenNodes.reverse := (List.reverse_perm _).symm
  have unique : (sevenNodes.filterMap Object.name?).Nodup := by decide +kernel
  have labelled : named Labelled sevenNodes = ["c"] := by decide +kernel
  have candidates : named Candidate sevenNodes = ["d", "b", "a"] := by decide +kernel
  have selected : select sevenNodes 3 = .ok ⟨["c"], ["a", "b"]⟩ := by
    refine (exact_ _).mpr ⟨?_, ?_, ?_, ?_, ["d"], ?_, ?_⟩
    · rw [labelled]
    · exact (List.pairwise_singleton _ _).sortedLE
    · rfl
    · exact List.Pairwise.sortedLE (by decide)
    · rw [candidates]
      decide
    · decide
  refine ⟨same, unique, ?_, apart unique _ selected, ?_⟩
  · rw [congr _ same, selected]
  · refine (select_exact sevenNodes 5).2.2.1.mpr ?_
    rw [labelled, candidates]
    decide

end MultiCluster.Gateway
