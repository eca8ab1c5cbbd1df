import Mathlib.Data.Finset.Sort
import Mathlib.Data.String.Basic
import MultiCluster.Proofs.Operations

/-! Lists of objects. A store in which every object lies once, under its name, is a map from names to
objects; what a list of them answers is in the order of the names, and reading it changes neither
their number nor their order. -/
namespace MultiCluster.Cluster

open Server (Exchange)

variable {p q : Path} {v w : Json} {s s' : Server} {c : Collection} {name : String} {r : Request}
  {objects : Store}

namespace Store

def Once (objects : Store) : Prop := (objects.map (·.1)).Nodup

instance : Decidable objects.Once := inferInstanceAs (Decidable (List.Nodup _))

theorem find?_eq_some_iff (once : Once objects) :
    find? p objects = some v ↔ (p, v) ∈ objects := by
  induction objects with
  | nil => simp [find?]
  | cons head rest ih =>
    obtain ⟨q, w⟩ := head
    obtain ⟨fresh, later⟩ := List.nodup_cons.mp once
    by_cases same : q = p
    · subst same
      have absent : (q, v) ∉ rest := fun member => fresh (List.mem_map.mpr ⟨_, member, rfl⟩)
      simp [find?, absent, eq_comm]
    · simp [find?, same, Ne.symm same, ih later]

@[simp] theorem find?_erase_self : find? p (erase p objects) = none := by
  induction objects with
  | nil => rfl
  | cons head rest ih =>
    obtain ⟨q, w⟩ := head
    unfold erase at ih ⊢
    by_cases same : q = p
    · simpa [same] using ih
    · simpa [find?, same] using ih

theorem keys_put : (put p v objects).map (·.1) =
    if p ∈ objects.map (·.1) then objects.map (·.1) else objects.map (·.1) ++ [p] := by
  induction objects with
  | nil => simp [put]
  | cons head rest ih =>
    obtain ⟨q, w⟩ := head
    by_cases same : q = p
    · simp [put, same]
    · simp only [put, beq_iff_eq, same, if_false, List.map_cons, ih, List.mem_cons,
        Ne.symm same, false_or]
      split <;> simp

theorem Once.put (once : Once objects) : Once (put p v objects) := by
  unfold Once at once ⊢
  rw [keys_put]
  split
  · exact once
  · next absent =>
    rw [List.nodup_append]
    refine ⟨once, List.nodup_singleton p, fun a member b only same => ?_⟩
    exact absent (List.mem_singleton.mp only ▸ same ▸ member)

theorem Once.erase (once : Once objects) : Once (erase p objects) :=
  List.Nodup.sublist (List.filter_sublist.map _) once

theorem childName?_eq_some_iff : childName? p q = some name ↔ q = p ++ [name] := by
  unfold childName?
  cases turned : q.reverse with
  | nil => simp [List.reverse_eq_nil_iff.mp turned]
  | cons last parent =>
    obtain rfl : q = parent.reverse ++ [last] := by
      rw [← List.reverse_reverse q, turned, List.reverse_cons]
    by_cases inside : parent.reverse = p
    · subst inside
      simp
    · simp only [beq_iff_eq, inside, if_false, reduceCtorEq, false_iff]
      intro same
      exact inside (List.append_inj_left' same rfl)

end Store

theorem Server.once_serve (once : s.objects.Once) : (s.serve r).2.objects.Once := by
  unfold serve
  split
  · exact once
  · unfold create
    simp only
    split
    · exact once
    · exact once.put
  · unfold replace
    simp only
    split
    · exact once
    · split
      · exact once
      · exact once.put
  · unfold patch
    simp only
    split
    · split
      · exact once.put
      · exact once
    · split
      · exact once
      · exact once.put
  · unfold delete
    split
    · exact once
    · exact once.erase

namespace Collection

def at? (c : Collection) (name : String) (s : Server) : Option Json :=
  s.objects.find? (c.member name)

theorem member_injective {a b : String} (same : c.member a = c.member b) : a = b := by
  simpa [member] using same

/-- Every object lies once in the store, and those of a collection under their names. -/
structure Tidy (c : Collection) (s : Server) : Prop where
  once : s.objects.Once
  named : ∀ name v, c.at? name s = some v → Object.name? v = some name

theorem tidy_iff : c.Tidy s ↔ s.objects.Once ∧ ∀ o ∈ s.objects,
    ∀ name ∈ Store.childName? c.path o.1, Object.name? o.2 = some name := by
  constructor
  · intro tidy
    refine ⟨tidy.once, fun o stored name child => ?_⟩
    rw [Option.mem_def, Store.childName?_eq_some_iff] at child
    refine tidy.named name o.2 ((Store.find?_eq_some_iff tidy.once).mpr ?_)
    rw [member, ← child]
    exact stored
  · rintro ⟨once, named⟩
    refine ⟨once, fun name v found => ?_⟩
    exact named _ ((Store.find?_eq_some_iff once).mp found) name
      (Store.childName?_eq_some_iff.mpr rfl)

instance : Decidable (c.Tidy s) := decidable_of_iff' _ tidy_iff

def namesWhere (c : Collection) (P : Json → Bool) (s : Server) : Finset String :=
  (s.objects.filterMap fun o =>
    if P o.2 then Store.childName? c.path o.1 else none).toFinset

variable {P : Json → Bool}

theorem mem_namesWhere (once : s.objects.Once) :
    name ∈ c.namesWhere P s ↔ ∃ v, c.at? name s = some v ∧ P v = true := by
  simp only [namesWhere, List.mem_toFinset, List.mem_filterMap, Option.ite_none_right_eq_some,
    Store.childName?_eq_some_iff, at?, Store.find?_eq_some_iff once, member]
  constructor
  · rintro ⟨⟨q, v⟩, stored, holds, rfl⟩
    exact ⟨v, stored, holds⟩
  · rintro ⟨v, stored, holds⟩
    exact ⟨(_, v), stored, holds, rfl⟩

def entries (c : Collection) (s : Server) : List (String × Json) :=
  (s.objects.filterMap fun (q, v) => (Store.childName? c.path q).map fun name => (name, v)).mergeSort
    fun a b => decide (a.1 ≤ b.1)

theorem children_eq : s.objects.children c.path = (c.entries s).map (·.2) := rfl

theorem mem_entries (once : s.objects.Once) : (name, v) ∈ c.entries s ↔ c.at? name s = some v := by
  simp only [entries, List.mem_mergeSort, List.mem_filterMap, Option.map_eq_some_iff, Prod.mk.injEq,
    Store.childName?_eq_some_iff, at?, Store.find?_eq_some_iff once, member]
  constructor
  · rintro ⟨⟨q, u⟩, stored, a, rfl, rfl, rfl⟩
    exact stored
  · intro stored
    exact ⟨(_, v), stored, name, rfl, rfl, rfl⟩

theorem nodup_entries (once : s.objects.Once) : ((c.entries s).map (·.1)).Nodup := by
  have sorted := List.mergeSort_perm (s.objects.filterMap fun (q, v) =>
    (Store.childName? c.path q).map fun name => (name, v)) fun a b => decide (a.1 ≤ b.1)
  refine ((sorted.map (·.1)).nodup_iff).mpr ?_
  have names : (s.objects.filterMap fun (q, v) =>
      (Store.childName? c.path q).map fun name => (name, v)).map (·.1) =
      (s.objects.map (·.1)).filterMap (Store.childName? c.path) := by
    rw [List.map_filterMap, List.filterMap_map]
    refine List.filterMap_congr fun o _ => ?_
    simp [Option.map_map, Function.comp_def]
  rw [names]
  refine List.Nodup.filterMap (fun p q name found again => ?_) once
  exact (Store.childName?_eq_some_iff.mp found).trans (Store.childName?_eq_some_iff.mp again).symm

theorem pairwise_entries : (c.entries s).Pairwise fun a b => a.1 ≤ b.1 := by
  have transitive (a b c : String × Json) (first : decide (a.1 ≤ b.1) = true)
      (second : decide (b.1 ≤ c.1) = true) : decide (a.1 ≤ c.1) = true :=
    decide_eq_true ((of_decide_eq_true first).trans (of_decide_eq_true second))
  have total (a b : String × Json) : (decide (a.1 ≤ b.1) || decide (b.1 ≤ a.1)) = true := by
    simpa using le_total a.1 b.1
  have ordered := List.pairwise_mergeSort transitive total
    (s.objects.filterMap fun (q, v) => (Store.childName? c.path q).map fun name => (name, v))
  exact ordered.imp fun before => of_decide_eq_true before

/-- The objects that a condition is true of are listed in the order of their names. -/
theorem names_children (tidy : c.Tidy s) (P : Json → Bool) :
    ((s.objects.children c.path).filter P).filterMap Object.name? =
      (c.namesWhere P s).sort (· ≤ ·) := by
  have names : ((s.objects.children c.path).filter P).filterMap Object.name? =
      ((c.entries s).filter fun e => P e.2).map (·.1) := by
    rw [children_eq, List.filter_map, List.filterMap_map, ← List.filterMap_eq_map]
    refine List.filterMap_congr fun e member => ?_
    exact tidy.named e.1 e.2 ((mem_entries tidy.once).mp (List.mem_of_mem_filter member))
  have nodup : (((c.entries s).filter fun e => P e.2).map (·.1)).Nodup :=
    List.Nodup.sublist (List.filter_sublist.map _) (nodup_entries tidy.once)
  have members : (((c.entries s).filter fun e => P e.2).map (·.1)).toFinset = c.namesWhere P s := by
    ext name
    rw [List.mem_toFinset, List.mem_map, mem_namesWhere tidy.once]
    constructor
    · rintro ⟨⟨_, v⟩, member, rfl⟩
      obtain ⟨listed, holds⟩ := List.mem_filter.mp member
      exact ⟨v, (mem_entries tidy.once).mp listed, holds⟩
    · rintro ⟨v, found, holds⟩
      exact ⟨(name, v), List.mem_filter.mpr ⟨(mem_entries tidy.once).mpr found, holds⟩, rfl⟩
  rw [names, ← members]
  refine ((List.toFinset_sort (· ≤ ·) nodup).mpr ?_).symm
  exact List.pairwise_map.mpr (pairwise_entries.sublist List.filter_sublist)

def Listed (c : Collection) (selector : Option String) (s : Server) (all : List Json) : Prop :=
  List.Forall₂ (fun v w => c.kind.read v = .ok w)
    ((s.objects.children c.path).filter (Server.selected selector)) all

theorem mapM_eq_ok {α β ε : Type} {f : α → Except ε β} {items : List α} {results : List β}
    (ok : items.mapM f = .ok results) : List.Forall₂ (fun a b => f a = .ok b) items results := by
  induction items generalizing results with
  | nil =>
    obtain rfl : [] = results := Except.ok.inj ok
    exact .nil
  | cons a rest ih =>
    rw [List.mapM_cons] at ok
    cases first : f a with
    | error e => simp [first, bind, Except.bind] at ok
    | ok b =>
      cases later : rest.mapM f with
      | error e => simp [first, later, bind, Except.bind] at ok
      | ok others =>
        simp only [first, later, bind, Except.bind, pure, Except.pure, Except.ok.injEq] at ok
        exact ok ▸ .cons first (ih later)

theorem mapM_of_ok {α β ε : Type} (f : α → Except ε β) (items : List α)
    (each : ∀ a ∈ items, ∃ b, f a = .ok b) : ∃ results, items.mapM f = .ok results := by
  induction items with
  | nil => exact ⟨[], rfl⟩
  | cons a rest ih =>
    obtain ⟨b, first⟩ := each a (List.mem_cons_self ..)
    obtain ⟨others, later⟩ := ih fun c member => each c (List.mem_cons_of_mem _ member)
    refine ⟨b :: others, ?_⟩
    rw [List.mapM_cons, first, later]
    rfl

theorem resourcePath_path (wide : c.namespaceName = none) :
    Server.resourcePath c.path = [c.kind.plural] := by
  obtain ⟨kind, ns⟩ := c
  obtain rfl : ns = none := wide
  cases kind <;> rfl

theorem serve_listRequest {selector : Option String} (wide : c.namespaceName = none) :
    s.serve (c.listRequest selector) = (.document 200 (.obj [("apiVersion", .str "v1"),
      ("items", .arr ((s.objects.children c.path).filter (Server.selected selector))),
      ("kind", .str "List"), ("metadata", .obj [])]), s) := by
  have asked : (((c.listRequest selector).query.find? fun q => q.1 == "labelSelector").map (·.2)) =
      selector := by
    cases selector <;> rfl
  have path : Server.resourcePath (c.listRequest selector).path = [c.kind.plural] :=
    resourcePath_path wide
  have get : (c.listRequest selector).method = .get := rfl
  simp only [Server.serve, get, Server.read, path, Server.list, asked]
  rfl

theorem readList_items {items : List Json} : c.kind.readList (.obj [("apiVersion", .str "v1"),
    ("items", .arr items), ("kind", .str "List"), ("metadata", .obj [])]) =
      items.mapM c.kind.read := rfl

/-- A list that is read is one of the server's. -/
theorem listed_of_read {selector : Option String} {all : List Json} (wide : c.namespaceName = none)
    (ok : Reply.read c.kind.readList (s.serve (c.listRequest selector)).1 = .ok all) :
    c.Listed selector s all := by
  rw [serve_listRequest wide, Reply.read_document, readList_items] at ok
  cases reading :
    ((s.objects.children c.path).filter (Server.selected selector)).mapM c.kind.read with
  | error detail => simp [reading] at ok
  | ok read =>
    obtain rfl : read = all := by simpa [reading] using ok
    exact mapM_eq_ok reading

/-- A server that answers lists what is stored, if what the selector picks can be read. -/
theorem runOn_list (selector : Option String) (resource : String) (wide : c.namespaceName = none)
    (quiet : s.faults = []) : ∃ result, runOn s (c.list resource selector) = (some result, s) ∧
      (∀ all, result = .ok all → c.Listed selector s all) ∧
      ((∀ name v, c.at? name s = some v → Server.selected selector v = true → c.kind.Reads v) →
        s.objects.Once → ∃ all, result = .ok all) := by
  refine ⟨blame resource (Reply.read c.kind.readList (s.serve (c.listRequest selector)).1), ?_,
    fun all ok => listed_of_read wide (blame_eq_ok_iff.mp ok), fun reads once => ?_⟩
  · rw [Collection.list, runOn_exchange quiet, serve_listRequest wide]
  · rw [serve_listRequest wide, Reply.read_document, readList_items]
    obtain ⟨all, read⟩ := mapM_of_ok c.kind.read
      ((s.objects.children c.path).filter (Server.selected selector)) fun v member => by
        obtain ⟨listed, picked⟩ := List.mem_filter.mp member
        rw [children_eq] at listed
        obtain ⟨⟨name, w⟩, entry, rfl⟩ := List.mem_map.mp listed
        exact reads name w ((mem_entries once).mp entry) picked
    exact ⟨all, by rw [read]; rfl⟩

/-- A list changes nothing, and holds what is stored then. -/
theorem meets_list {selector : Option String} {resource : String} (wide : c.namespaceName = none) :
    (c.list resource selector).run.Meets Exchange Eq (fun _ s' => s' = s)
      (fun result s' => s' = s ∧ ∀ all, result = .ok all → c.Listed selector s all) s := by
  refine meets_exchange ?_
  rintro s₁ rfl reply s₂ came
  obtain rfl : s₂ = s := by
    rcases came.cases with rfl | ⟨r, same, rfl⟩
    · rfl
    · obtain rfl := Call.send.inj same
      rw [serve_listRequest wide]
  refine ⟨rfl, rfl, fun all ok => ?_⟩
  rw [blame_eq_ok_iff] at ok
  obtain ⟨rfl, -⟩ := answered_of_read came ok
  exact listed_of_read wide ok

end Collection
end MultiCluster.Cluster
