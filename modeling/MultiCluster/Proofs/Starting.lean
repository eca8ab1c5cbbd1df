import Mathlib.Data.List.Nodup
import MultiCluster.Gather.Fleet

/-! Which runs start: those that ask for known types and modules and give every cluster a directory
of its own. All other runs are refused for their configuration. -/
namespace MultiCluster.Gather

variable {o : Options} {clusters seen : List String} {name other : String} {i j : Nat}
  {collector : String → Program Requests Ending}

def Options.Known (o : Options) : Prop :=
  (∀ t ∈ o.types, t ∈ allTypes) ∧ ∀ m ∈ o.modules, m ∈ allModules

def Apart (clusters : List String) : Prop := (clusters.map fileName).Nodup

instance : Decidable o.Known := inferInstanceAs (Decidable (_ ∧ _))

instance : Decidable (Apart clusters) := inferInstanceAs (Decidable (List.Nodup _))

theorem find?_unknown {names known : List String} :
    names.find? (fun name => !known.contains name) = none ↔ ∀ name ∈ names, name ∈ known := by
  simp [List.find?_eq_none]

theorem validate_cases : (o.Known ∧ o.validate = .ok ()) ∨
    (¬ o.Known ∧ ∃ text, o.validate = .error (.invalidConfiguration text)) := by
  unfold Options.validate Options.Known
  cases types : o.types.find? fun t => !allTypes.contains t with
  | some t =>
    refine .inr ⟨fun known => ?_, _, rfl⟩
    rw [find?_unknown.mpr known.1] at types
    cases types
  | none =>
    cases modules : o.modules.find? fun m => !allModules.contains m with
    | some m =>
      refine .inr ⟨fun known => ?_, _, rfl⟩
      rw [find?_unknown.mpr known.2] at modules
      cases modules
    | none => exact .inl ⟨⟨find?_unknown.mp types, find?_unknown.mp modules⟩, rfl⟩

theorem sharedDirectory?_eq_none_iff : sharedDirectory? seen clusters = none ↔
    Apart clusters ∧ ∀ name ∈ clusters, ∀ other ∈ seen, fileName other ≠ fileName name := by
  induction clusters generalizing seen with
  | nil => simp [sharedDirectory?, Apart]
  | cons name rest ih =>
    rw [sharedDirectory?]
    cases found : seen.find? fun other => fileName other == fileName name with
    | some other =>
      have same : fileName other = fileName name := by simpa using List.find?_some found
      simp only [reduceCtorEq, false_iff]
      rintro ⟨-, apart⟩
      exact apart name List.mem_cons_self other (List.mem_of_find?_eq_some found) same
    | none =>
      have fresh : ∀ other ∈ seen, fileName other ≠ fileName name := by
        simpa [List.find?_eq_none] using found
      simp only [ih, Apart, List.map_cons, List.nodup_cons, List.mem_map, List.forall_mem_cons,
        List.mem_append, List.mem_singleton]
      constructor
      · rintro ⟨apart, others⟩
        refine ⟨⟨?_, apart⟩, fresh,
          fun later member other earlier => others later member other (.inl earlier)⟩
        rintro ⟨later, member, same⟩
        exact others later member name (.inr rfl) same.symm
      · rintro ⟨⟨own, apart⟩, -, others⟩
        refine ⟨apart, fun later member other earlier => ?_⟩
        rcases earlier with earlier | rfl
        · exact others later member other earlier
        · exact fun same => own ⟨later, member, same.symm⟩

theorem checkDirectories_cases : (Apart clusters ∧ checkDirectories clusters = .ok ()) ∨
    (¬ Apart clusters ∧
      ∃ text, checkDirectories clusters = .error (.invalidConfiguration text)) := by
  have accepted := @sharedDirectory?_eq_none_iff clusters []
  unfold checkDirectories
  cases shared : sharedDirectory? [] clusters with
  | none => exact .inl ⟨(accepted.mp shared).1, rfl⟩
  | some pair =>
    refine .inr ⟨fun apart => ?_, _, rfl⟩
    rw [accepted.mpr ⟨apart, by simp⟩] at shared
    cases shared

/-- A run of known types and modules over clusters apart starts with a task for each cluster, and
any other run is refused, whatever there is to collect. -/
theorem start_cases : (o.Known ∧ Apart clusters ∧ ∀ collector, start o clusters collector =
      .ok ⟨clusters.map fun name => (name, .running (scopedTo name (collector name))), false⟩) ∨
    (¬ (o.Known ∧ Apart clusters) ∧
      ∃ text, ∀ collector, start o clusters collector = .error (.invalidConfiguration text)) := by
  rcases @validate_cases o with ⟨known, valid⟩ | ⟨unknown, text, invalid⟩
  · rcases @checkDirectories_cases clusters with ⟨apart, checked⟩ | ⟨shared, text, refused⟩
    · refine .inl ⟨known, apart, fun collector => ?_⟩
      rw [start, valid, checked]
      rfl
    · refine .inr ⟨fun both => shared both.2, text, fun collector => ?_⟩
      rw [start, valid, refused]
      rfl
  · refine .inr ⟨fun both => unknown both.1, text, fun collector => ?_⟩
    rw [start, invalid]
    rfl

theorem apart_of_start {fleet : Fleet} (started : start o clusters collector = .ok fleet) :
    Apart clusters := by
  rcases @start_cases o clusters with ⟨-, apart, -⟩ | ⟨-, text, refused⟩
  · exact apart
  · rw [refused] at started
    cases started

theorem Apart.ne (apart : Apart clusters) (first : clusters[i]? = some name)
    (second : clusters[j]? = some other) (different : i ≠ j) : fileName name ≠ fileName other := by
  have before : (clusters.map fileName)[i]? = some (fileName name) := by simp [first]
  have behind : (clusters.map fileName)[j]? = some (fileName other) := by simp [second]
  intro same
  obtain ⟨inside, -⟩ := List.getElem?_eq_some_iff.mp before
  rw [← same, ← before] at behind
  exact different ((List.getElem?_inj inside apart).mp behind.symm)

end MultiCluster.Gather
