import Mathlib.Data.List.Sort
import MultiCluster.Kubeconfig.Basic

/-! Which contexts are worked on. A request is met by the names in it, each once and in the order in
which they were first asked for, and by nothing if one of them is unknown. -/
namespace MultiCluster.Kubeconfig

variable {k : Kubeconfig} {name : String} {requested chosen others names : List String}

/-- The names of a request, each once, in the order in which they first occur in it. -/
structure Once (requested chosen : List String) : Prop where
  nodup : chosen.Nodup
  same : ∀ name, name ∈ chosen ↔ name ∈ requested
  ordered : chosen.Pairwise fun a b => requested.idxOf a < requested.idxOf b

theorem once_nil : Once [] [] where
  nodup := List.nodup_nil
  same := fun _ => Iff.rfl
  ordered := List.Pairwise.nil

theorem Once.repeated (once : Once requested chosen) (seen : name ∈ chosen) :
    Once (requested ++ [name]) chosen where
  nodup := once.nodup
  same := by
    intro other
    have known : name ∈ requested := (once.same name).mp seen
    rw [once.same, List.mem_append, List.mem_singleton]
    constructor
    · exact .inl
    · rintro (member | rfl)
      · exact member
      · exact known
  ordered := by
    refine once.ordered.imp_of_mem fun {a b} inA inB before => ?_
    rw [List.idxOf_append_of_mem ((once.same a).mp inA),
      List.idxOf_append_of_mem ((once.same b).mp inB)]
    exact before

theorem Once.fresh (once : Once requested chosen) (new : name ∉ chosen) :
    Once (requested ++ [name]) (chosen ++ [name]) := by
  have unasked : name ∉ requested := fun member => new ((once.same name).mpr member)
  have place : (requested ++ [name]).idxOf name = requested.length := by
    simp [List.idxOf_append_of_notMem unasked]
  have earlier {a : String} (member : a ∈ chosen) :
      (requested ++ [name]).idxOf a = requested.idxOf a :=
    List.idxOf_append_of_mem ((once.same a).mp member)
  constructor
  · refine List.nodup_append.mpr ⟨once.nodup, List.nodup_singleton _, fun a inA b inB => ?_⟩
    rintro rfl
    exact new (List.mem_singleton.mp inB ▸ inA)
  · simp [once.same]
  · rw [List.pairwise_append]
    refine ⟨?_, List.pairwise_singleton _ _, ?_⟩
    · refine once.ordered.imp_of_mem fun {a b} inA inB before => ?_
      rwa [earlier inA, earlier inB]
    · intro a inA b inB
      obtain rfl := List.mem_singleton.mp inB
      rw [earlier inA, place, List.idxOf_lt_length_iff]
      exact (once.same a).mp inA

/-- The loop keeps the names of the request so far, each once. -/
theorem once_distinct (once : Once others chosen) :
    Once (others ++ requested) (distinct chosen requested) := by
  induction requested generalizing others chosen with
  | nil => simpa [distinct] using once
  | cons name rest ih =>
    have whole : others ++ name :: rest = (others ++ [name]) ++ rest := by simp
    rw [distinct, whole]
    apply ih
    by_cases seen : name ∈ chosen
    · simpa [seen] using once.repeated seen
    · simpa [seen] using once.fresh seen

/-- A request has one such list. -/
theorem Once.unique (one : Once requested chosen) (other : Once requested names) :
    chosen = names := by
  have antisymm : Std.Antisymm fun a b => requested.idxOf a < requested.idxOf b :=
    ⟨fun a b before after => absurd (before.trans after) (lt_irrefl _)⟩
  have irrefl : Std.Irrefl fun a b => requested.idxOf a < requested.idxOf b :=
    ⟨fun a => lt_irrefl _⟩
  refine one.ordered.eq_of_mem_iff other.ordered fun name => ?_
  rw [one.same, other.same]

def HasContext (k : Kubeconfig) (name : String) : Prop := ∃ c ∈ k.contexts, c.name = name

instance : Decidable (k.HasContext name) :=
  inferInstanceAs (Decidable (∃ c ∈ k.contexts, c.name = name))

def unknown (k : Kubeconfig) (requested : List String) : List String :=
  requested.filter fun name => ¬k.HasContext name

theorem unknown_eq_nil_iff : k.unknown requested = [] ↔ ∀ name ∈ requested, k.HasContext name := by
  simp [unknown]

theorem select_requested (some : requested ≠ []) : k.select requested =
    if k.unknown requested = [] then .ok (distinct [] requested)
    else .error (.invalidConfiguration
      ("unknown kubeconfig context(s): " ++ Text.join ", " (k.unknown requested))) := by
  have same : (requested.filter fun name => !(k.contexts.any fun c => c.name == name)) =
      k.unknown requested := by
    refine List.filter_congr fun name _ => ?_
    rw [Bool.eq_iff_iff]
    simp [HasContext]
  simp only [select, List.isEmpty_iff, some, if_false, same]

theorem select_ok_iff (some : requested ≠ []) : k.select requested = .ok names ↔
    (∀ name ∈ requested, k.HasContext name) ∧ Once requested names := by
  have once : Once requested (distinct [] requested) := once_distinct once_nil
  rw [select_requested some, ← unknown_eq_nil_iff]
  by_cases known : k.unknown requested = []
  · simp only [known, if_true, Except.ok.injEq, true_and]
    constructor
    · rintro rfl
      exact once
    · exact once.unique
  · simp [known]

theorem select_nil_ok_iff : k.select [] = .ok names ↔
    ∃ current, k.currentContext = some current ∧ current ≠ "" ∧ names = [current] := by
  cases given : k.currentContext with
  | none => simp [select, given]
  | some current =>
    by_cases empty : current = ""
    · simp [select, given, empty, Option.filter]
    · simp [select, given, empty, Option.filter, @eq_comm _ names]

/-- A request is met exactly if all names in it are contexts, by these names, each once and in the
order in which they first occur in it. Otherwise the error names those that are unknown, in the
order of the request. Without a request it is the current context, if there is one. -/
theorem selected_contexts (k : Kubeconfig) (requested : List String) :
    (requested ≠ [] →
      ((∃ names, k.select requested = .ok names) ↔ ∀ name ∈ requested, k.HasContext name) ∧
      (∀ names, k.select requested = .ok names ↔
        (∀ name ∈ requested, k.HasContext name) ∧ Once requested names) ∧
      ((¬∀ name ∈ requested, k.HasContext name) → k.select requested = .error
        (.invalidConfiguration
          ("unknown kubeconfig context(s): " ++ Text.join ", " (k.unknown requested))))) ∧
    (∀ names, k.select [] = .ok names ↔
      ∃ current, k.currentContext = some current ∧ current ≠ "" ∧ names = [current]) ∧
    (k.currentContext = none ∨ k.currentContext = some "" →
      ∃ m, k.select [] = .error (.invalidConfiguration m)) := by
  refine ⟨fun some => ?_, fun names => select_nil_ok_iff, fun missing => ?_⟩
  · refine ⟨?_, fun names => select_ok_iff some, fun missing => ?_⟩
    · simp only [select_ok_iff some, exists_and_left, and_iff_left_iff_imp]
      exact fun _ => ⟨_, once_distinct once_nil⟩
    · rw [select_requested some, if_neg (unknown_eq_nil_iff.not.mpr missing)]
  · rcases missing with absent | empty
    · exact ⟨_, by rw [select, absent]; rfl⟩
    · exact ⟨_, by rw [select, empty]; rfl⟩

def eastAndWest : Kubeconfig := ⟨none, none, [], [⟨"east", none⟩, ⟨"west", none⟩], some "east"⟩

/-- A name that is asked for again keeps its first place, and unknown names are all named. -/
theorem selected_contexts_repeated :
    eastAndWest.select ["west", "east", "west"] = .ok ["west", "east"] ∧
    eastAndWest.select ["nrth", "east", "suth"] = .error
      (.invalidConfiguration "unknown kubeconfig context(s): nrth, suth") := by
  obtain ⟨met, -⟩ := selected_contexts eastAndWest ["west", "east", "west"]
  obtain ⟨unmet, -⟩ := selected_contexts eastAndWest ["nrth", "east", "suth"]
  have once : Once ["west", "east", "west"] ["west", "east"] := by
    refine ⟨by decide, fun name => ?_, by decide⟩
    simp only [List.mem_cons, List.not_mem_nil, or_false]
    tauto
  exact ⟨((met (by simp)).2.1 _).mpr ⟨by decide, once⟩, (unmet (by simp)).2.2 (by decide)⟩

end MultiCluster.Kubeconfig
