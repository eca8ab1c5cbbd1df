import MultiCluster.Proofs.SiteWork

/-! Labelling gateways, in runs that may break off anywhere. Which nodes are to be gateways in the
end is settled by the nodes that there are at first, and a run that breaks off has labelled some of
these and no others. So the next run aims at the same nodes, with fewer of them missing. -/
namespace MultiCluster.Gateway

open Cluster
open Server (Exchange)

variable {n : Nat} {s s' s₁ s₂ : Server} {S T U : Finset String} {x : String}
  {P : Json → Bool} {all : List Json}

/-- The gateways that `n` gateways in all come to: those that there are, and if they are too few,
the first candidates by name. -/
structure Target (n : Nat) (s : Server) (T : Finset String) : Prop where
  keeps : gateways s ⊆ T
  adds : T \ gateways s ⊆ candidates s
  count : T.card = max n (gateways s).card
  first : ∀ a ∈ T \ gateways s, ∀ b ∈ candidates s \ T, a < b

theorem disjoint_candidates (tidy : nodes.Tidy s) (candidate : x ∈ candidates s) :
    x ∉ gateways s := by
  intro gateway
  obtain ⟨v, found, holds⟩ := (Collection.mem_namesWhere tidy.once).mp candidate
  obtain ⟨w, again, isGateway⟩ := (Collection.mem_namesWhere tidy.once).mp gateway
  obtain rfl : v = w := Option.some.inj (found.symm.trans again)
  simp [not_isCandidate isGateway] at holds

namespace Target

theorem card_sdiff (target : Target n s T) : (T \ gateways s).card = n - (gateways s).card := by
  have total := target.count
  rw [Finset.card_sdiff_of_subset target.keeps]
  omega

theorem enough (target : Target n s T) : n - (gateways s).card ≤ (candidates s).card :=
  target.card_sdiff ▸ Finset.card_le_card target.adds

/-- Of two sets of as many first candidates neither has one that the other lacks. -/
theorem unique (target : Target n s T) (other : Target n s U) : T = U := by
  have sizes : (T \ gateways s).card = (U \ gateways s).card :=
    target.card_sdiff.trans other.card_sdiff.symm
  have same : T \ gateways s = U \ gateways s := by
    by_contra different
    obtain ⟨a, inT, notInU⟩ := Finset.not_subset.mp fun inside =>
      different (Finset.eq_of_subset_of_card_le inside sizes.ge)
    obtain ⟨b, inU, notInT⟩ := Finset.not_subset.mp fun inside =>
      different (Finset.eq_of_subset_of_card_le inside sizes.le).symm
    have outside {U V : Finset String} {c : String} (inU : c ∈ U \ gateways s)
        (notInV : c ∉ V \ gateways s) : c ∉ V := fun member =>
      notInV (Finset.mem_sdiff.mpr ⟨member, (Finset.mem_sdiff.mp inU).2⟩)
    have before : a < b := target.first a inT b
      (Finset.mem_sdiff.mpr ⟨other.adds inU, outside inU notInT⟩)
    have after : b < a := other.first b inU a
      (Finset.mem_sdiff.mpr ⟨target.adds inT, outside inT notInU⟩)
    exact before.asymm after
  rw [← Finset.sdiff_union_of_subset target.keeps, same, Finset.sdiff_union_of_subset other.keeps]

/-- Labelling some of the missing nodes leaves the target where it is. -/
theorem relabelled (target : Target n s T) (tidy : nodes.Tidy s) (once : s₁.objects.Once)
    (inside : S ⊆ T \ gateways s) (relabelled : Relabelled (some "true") S s s₁) :
    Target n s₁ T := by
  have within : S ⊆ T := inside.trans Finset.sdiff_subset
  have gateways_eq := relabelled.gateways_eq tidy once
  have candidates_eq := relabelled.candidates_eq tidy once
  refine ⟨?_, ?_, ?_, ?_⟩
  · rw [gateways_eq]
    exact Finset.union_subset target.keeps within
  · have parts : T \ (gateways s ∪ S) = (T \ gateways s) \ S := sdiff_sdiff_left.symm
    rw [gateways_eq, candidates_eq, parts]
    exact Finset.sdiff_subset_sdiff target.adds subset_rfl
  · have more : (gateways s).card ≤ (gateways s ∪ S).card :=
      Finset.card_le_card Finset.subset_union_left
    have less := Finset.card_le_card (Finset.union_subset target.keeps within)
    have total := target.count
    rw [gateways_eq]
    omega
  · rw [gateways_eq, candidates_eq]
    intro a missing b spare
    refine target.first a ?_ b ?_
    · exact Finset.sdiff_subset_sdiff subset_rfl Finset.subset_union_left missing
    · exact Finset.sdiff_subset_sdiff Finset.sdiff_subset subset_rfl spare

end Target

/-! ### What is selected -/

theorem namesWhere_of_listed (tidy : nodes.Tidy s) (lasting : Lasting P)
    (listed : nodes.Listed none s all) :
    namesWhere P all = (nodes.namesWhere P s).sort (· ≤ ·) := by
  have everything : (s.objects.children nodes.path).filter (Server.selected none) =
      s.objects.children nodes.path := List.filter_eq_self.mpr fun _ _ => rfl
  have read := listed
  rw [Collection.Listed, everything] at read
  rw [namesWhere, names_of_read lasting read, Collection.names_children tidy]
  refine List.mergeSort_of_pairwise ?_
  exact (Finset.pairwise_sort _ _).imp fun before => by simpa using before

abbrev labelled (s : Server) : List String := (gateways s).sort (· ≤ ·)

theorem mem_labelled : x ∈ labelled s ↔ x ∈ gateways s := Finset.mem_sort _

def missing (n : Nat) (s : Server) : List String :=
  ((candidates s).sort (· ≤ ·)).take (n - (gateways s).card)

theorem select_of_listed (tidy : nodes.Tidy s) (listed : nodes.Listed none s all) :
    (n - (gateways s).card ≤ (candidates s).card ∧
      select all n = .ok ⟨labelled s, missing n s⟩) ∨
    ((candidates s).card < n - (gateways s).card ∧ ∃ e, select all n = .error e) := by
  have existing : namesWhere isGateway all = labelled s :=
    namesWhere_of_listed tidy lasting_isGateway listed
  have possible : namesWhere isCandidate all = (candidates s).sort (· ≤ ·) :=
    namesWhere_of_listed tidy lasting_isCandidate listed
  unfold select missing
  simp only [existing, possible, Finset.length_sort]
  by_cases none : n - (gateways s).card = 0
  · exact .inl ⟨by omega, by simp [none]⟩
  · by_cases few : (candidates s).card < n - (gateways s).card
    · exact .inr ⟨few, by simp [none, few]⟩
    · exact .inl ⟨by omega, by simp [none, few]⟩

theorem mem_missing (member : x ∈ missing n s) : x ∈ candidates s :=
  (Finset.mem_sort _).mp (List.mem_of_mem_take member)

theorem target_missing (tidy : nodes.Tidy s)
    (enough : n - (gateways s).card ≤ (candidates s).card) :
    Target n s (gateways s ∪ (missing n s).toFinset) := by
  have nodup : (missing n s).Nodup := (Finset.sort_nodup _ _).sublist (List.take_sublist _ _)
  have apart : Disjoint (gateways s) (missing n s).toFinset :=
    Finset.disjoint_right.mpr fun x member =>
      disjoint_candidates tidy (mem_missing (List.mem_toFinset.mp member))
  have added : (gateways s ∪ (missing n s).toFinset) \ gateways s = (missing n s).toFinset := by
    rw [Finset.union_sdiff_left, Finset.sdiff_eq_self_of_disjoint apart.symm]
  refine ⟨Finset.subset_union_left, ?_, ?_, ?_⟩
  · rw [added]
    exact fun x member => mem_missing (List.mem_toFinset.mp member)
  · rw [Finset.card_union_of_disjoint apart, List.toFinset_card_of_nodup nodup, missing,
      List.length_take, Finset.length_sort]
    omega
  · rw [added]
    intro a chosen b spare
    obtain ⟨candidate, left⟩ := Finset.mem_sdiff.mp spare
    have later : b ∈ ((candidates s).sort (· ≤ ·)).drop (n - (gateways s).card) := by
      have anywhere := (Finset.mem_sort (α := String) (· ≤ ·)).mpr candidate
      rw [← List.take_append_drop (n - (gateways s).card) ((candidates s).sort (· ≤ ·))] at anywhere
      refine (List.mem_append.mp anywhere).resolve_left fun taken => left ?_
      exact Finset.mem_union_right _ (List.mem_toFinset.mpr taken)
    have ordered := (Finset.sortedLT_sort (candidates s)).pairwise
    rw [← List.take_append_drop (n - (gateways s).card) ((candidates s).sort (· ≤ ·))] at ordered
    exact (List.pairwise_append.mp ordered).2.2 a (List.mem_toFinset.mp chosen) b later

/-! ### Runs that may break off -/

structure Underway (T : Finset String) (s s' : Server) : Prop where
  once : s'.objects.Once
  part : ∃ S ⊆ T \ gateways s, Relabelled (some "true") S s s'
  readable : Readable s → Readable s'
  faults : s'.faults = s.faults

namespace Underway

theorem refl (tidy : nodes.Tidy s) : Underway T s s :=
  ⟨tidy.once, ⟨∅, Finset.empty_subset _, .refl⟩, fun readable => readable, rfl⟩

theorem tidy (underway : Underway T s s₁) (tidy : nodes.Tidy s) : nodes.Tidy s₁ :=
  let ⟨_, _, relabelled⟩ := underway.part
  relabelled.tidy tidy underway.once

theorem target (underway : Underway T s s₁) (tidy : nodes.Tidy s) (target : Target n s T) :
    Target n s₁ T :=
  let ⟨_, inside, relabelled⟩ := underway.part
  target.relabelled tidy underway.once inside relabelled

theorem gateways_eq (underway : Underway T s s₁) (tidy : nodes.Tidy s) :
    ∃ S ⊆ T \ gateways s, Relabelled (some "true") S s s₁ ∧ gateways s₁ = gateways s ∪ S :=
  let ⟨S, inside, relabelled⟩ := underway.part
  ⟨S, inside, relabelled, relabelled.gateways_eq tidy underway.once⟩

/-- Once every node of the target is a gateway, the missing nodes and no others were labelled. -/
theorem finished (underway : Underway T s s₁) (tidy : nodes.Tidy s) (all : T ⊆ gateways s₁) :
    Relabelled (some "true") (T \ gateways s) s s₁ := by
  obtain ⟨S, inside, relabelled, gateways_eq⟩ := underway.gateways_eq tidy
  have same : S = T \ gateways s := by
    refine inside.antisymm fun x missing => ?_
    obtain ⟨member, unlabelled⟩ := Finset.mem_sdiff.mp missing
    exact (Finset.mem_union.mp (gateways_eq ▸ all member)).resolve_left unlabelled
  exact same ▸ relabelled

/-- One more of the missing nodes may be labelled, again or for the first time. -/
theorem label (underway : Underway T s s₁) (tidy : nodes.Tidy s) (target : Target n s T)
    (missing : x ∈ T \ gateways s) : Underway T s (relabel (some "true") x s₁) ∧
      gateways (relabel (some "true") x s₁) = gateways s₁ ∪ {x} := by
  obtain ⟨S, inside, relabelled⟩ := underway.part
  obtain ⟨v, stored, -⟩ := (Collection.mem_namesWhere tidy.once).mp (target.adds missing)
  obtain ⟨w, found, -⟩ := relabelled.after stored
  have one := relabelled_relabel (some "true") found
  have once : (relabel (some "true") x s₁).objects.Once := Server.once_serve underway.once
  have middle := underway.tidy tidy
  refine ⟨⟨once, ⟨S ∪ {x}, ?_, relabelled.trans one⟩, fun readable => ?_, ?_⟩, ?_⟩
  · exact Finset.union_subset inside (Finset.singleton_subset_iff.mpr missing)
  · exact readable_relabel middle (underway.readable readable)
  · exact Server.faults_serve.trans underway.faults
  · exact one.gateways_eq middle once

end Underway

theorem keeps_label (tidy : nodes.Tidy s) (target : Target n s T) (underway : Underway T s s₁)
    (missing : x ∈ T \ gateways s) : Keeps Exchange (Underway T s) (label x)
      (fun result s₂ => gateways s₁ ⊆ gateways s₂ ∧ (result = .ok () → x ∈ gateways s₂)) s₁ := by
  obtain ⟨next, gateways_eq⟩ := underway.label tidy target missing
  have either {s' : Server} (kept : s' = s₁ ∨ s' = relabel (some "true") x s₁) :
      Underway T s s' ∧ gateways s₁ ⊆ gateways s' := by
    rcases kept with rfl | rfl
    · exact ⟨underway, subset_rfl⟩
    · exact ⟨next, gateways_eq ▸ Finset.subset_union_left⟩
  refine keeps_setLabel (fun _ _ _ _ came => came) (fun s' kept => (either kept).1) ?_ ?_
  · exact fun e s' kept => ⟨(either kept).2, fun failed => by cases failed⟩
  · exact ⟨(either (.inr rfl)).2, fun _ =>
      gateways_eq ▸ Finset.mem_union_right _ (Finset.mem_singleton_self x)⟩

/-- From wherever an earlier run broke off, labelling stays underway to the target, and has reached
it when it succeeds. -/
theorem keeps_labelGateways (tidy : nodes.Tidy s) (target : Target n s T)
    (underway : Underway T s s₁) : Keeps Exchange (Underway T s) (labelGateways n)
      (fun result s₂ => result = .ok () → T ⊆ gateways s₂) s₁ := by
  have middle := underway.tidy tidy
  have ahead := underway.target tidy target
  have reached : T = gateways s₁ ∪ (missing n s₁).toFinset :=
    ahead.unique (target_missing middle ahead.enough)
  have missing_of {x : String} (member : x ∈ missing n s₁) : x ∈ T \ gateways s := by
    obtain ⟨S, -, -, gateways_eq⟩ := underway.gateways_eq tidy
    refine Finset.mem_sdiff.mpr ⟨?_, fun before => ?_⟩
    · exact reached ▸ Finset.mem_union_right _ (List.mem_toFinset.mpr member)
    · exact disjoint_candidates middle (mem_missing member)
        (gateways_eq ▸ Finset.mem_union_left S before)
  unfold labelGateways
  refine Keeps.bind (keeps_tell underway (keeps_list (fun _ _ _ _ came => came) underway
    (fun e failed => by cases failed) fun all listed => ?_))
  refine Keeps.bind (Keeps.reporting (keeps_result underway ?_))
  rcases select_of_listed middle listed with ⟨-, selected⟩ | ⟨few, -⟩
  · rw [selected]
    refine Keeps.bind (keeps_inOrder (K := fun done s₂ =>
      gateways s₁ ⊆ gateways s₂ ∧ ∀ x ∈ done, x ∈ gateways s₂) ?_ ?_ underway ?_)
    · rintro done x rest s₂ parts kept ⟨before, labelled⟩
      have member : x ∈ missing n s₁ := (show _ = missing n s₁ from parts) ▸ by simp
      refine (keeps_label tidy target kept (missing_of member)).imp ?_
      rintro result s₃ - ⟨more, here⟩
      cases result with
      | error e => exact fun failed => by cases failed
      | ok _ =>
        refine ⟨before.trans more, fun y inside => ?_⟩
        rcases List.mem_append.mp inside with earlier | last
        · exact more (labelled y earlier)
        · exact List.mem_singleton.mp last ▸ here rfl
    · rintro s₂ kept ⟨before, labelled⟩
      refine keeps_tell kept fun _ => ?_
      rw [reached]
      exact Finset.union_subset before fun x member => labelled x (List.mem_toFinset.mp member)
    · exact ⟨subset_rfl, by simp⟩
  · exact absurd ahead.enough (by omega)

/-- Runs that break off one after the other stay underway to the target of the first. -/
theorem underway_of_broken (tidy : nodes.Tidy s) (target : Target n s T)
    (broken : Relation.ReflTransGen (BreaksOff Exchange (labelGateways n)) s s₁) :
    Underway T s s₁ := by
  induction broken with
  | refl => exact .refl tidy
  | tail _ last ih => exact (keeps_labelGateways tidy target ih).of_breaksOff last ih

/-- With too few candidates labelling fails, and nothing is labelled. -/
theorem keeps_few (tidy : nodes.Tidy s) (few : (candidates s).card < n - (gateways s).card) :
    Keeps Exchange (fun s' => s' = s) (labelGateways n) (fun result _ => result ≠ .ok ()) s := by
  unfold labelGateways
  refine Keeps.bind (keeps_tell rfl (keeps_list (fun _ _ _ _ came => came) rfl
    (fun e => nofun) fun all listed => ?_))
  refine Keeps.bind (Keeps.reporting (keeps_result rfl ?_))
  rcases select_of_listed (n := n) tidy listed with ⟨enough, -⟩ | ⟨-, e, failed⟩
  · omega
  · rw [failed]
    exact nofun

/-! ### Runs that nothing disturbs -/

theorem run_labelGateways (quiet : s.faults = []) (tidy : nodes.Tidy s) (readable : Readable s)
    (enough : n - (gateways s).card ≤ (candidates s).card) :
    (labelGateways n).run.run site s =
      (some (.ok ()), relabelAll (some "true") (missing n s) s) := by
  obtain ⟨result, listing, listed, ended⟩ :=
    Collection.runOn_list (c := nodes) none "nodes" rfl quiet
  obtain ⟨all, rfl⟩ := ended (fun x v found _ => readable x v found) tidy.once
  obtain ⟨-, selected⟩ := (select_of_listed (n := n) tidy (listed all rfl)).resolve_right
    fun few => by omega
  have labelled := run_inOrder run_label (missing n s) quiet tidy readable fun x member => by
      obtain ⟨v, found, -⟩ := (Collection.mem_namesWhere tidy.once).mp (mem_missing member)
      exact ⟨v, found⟩
  unfold labelGateways
  simp only [Program.run_action_bind, run_tell, run_onCluster, listing, run_reporting, selected]
  rw [show ExceptT.run (ExceptT.mk (Program.done (Except.ok _))) = .done (.ok _) from rfl]
  simp only [Program.run, labelled]

theorem run_labelGateways_few (quiet : s.faults = []) (tidy : nodes.Tidy s)
    (few : (candidates s).card < n - (gateways s).card) :
    ∃ e, (labelGateways n).run.run site s = (some (.error e), s) := by
  obtain ⟨result, listing, listed, -⟩ :=
    Collection.runOn_list (c := nodes) none "nodes" rfl quiet
  unfold labelGateways
  simp only [Program.run_action_bind, run_tell, run_onCluster, listing]
  cases result with
  | error e => exact ⟨e, rfl⟩
  | ok all =>
    obtain ⟨-, e, failed⟩ := (select_of_listed (n := n) tidy (listed all rfl)).resolve_left
      fun enough => by omega
    refine ⟨e, ?_⟩
    simp only [run_reporting, failed]
    rfl

/-- Labelling aims at the nodes that the first run would choose, however often runs break off at any
request, carried out or not. With too few candidates every run fails and labels nothing; otherwise
the first run that succeeds has labelled exactly what was missing, and a run on a server that
answers does succeed. -/
theorem labelling_converges (tidy : nodes.Tidy s) :
    ((candidates s).card < n - (gateways s).card →
      (∀ s', BreaksOff Exchange (workers.deploy n) s s' → s' = s) ∧
      (∀ s', ¬ Succeeds Exchange (workers.deploy n) s s') ∧
      (s.faults = [] → ∃ e, (workers.deploy n).run.run site s = (some (.error e), s))) ∧
    (n - (gateways s).card ≤ (candidates s).card →
      ∃ T, (∀ T', Target n s T' ↔ T' = T) ∧
        ∀ s₁, Relation.ReflTransGen (BreaksOff Exchange (workers.deploy n)) s s₁ →
          (∀ s₂, Succeeds Exchange (workers.deploy n) s₁ s₂ →
            gateways s₂ = T ∧ T.card = max n (gateways s).card ∧
            Relabelled (some "true") (T \ gateways s) s s₂) ∧
          (s.faults = [] → Readable s →
            ∃ s₂, (workers.deploy n).run.run site s₁ = (some (.ok ()), s₂))) := by
  refine ⟨fun few => ⟨fun s' broken => ?_, fun s' success => ?_, fun quiet => ?_⟩, fun enough => ?_⟩
  · exact (keeps_few tidy few).of_breaksOff broken rfl
  · exact ((keeps_few tidy few).of_leads success).2 rfl
  · exact run_labelGateways_few quiet tidy few
  · have target := target_missing tidy enough
    refine ⟨_, fun T' => ⟨fun other => other.unique target, fun same => same ▸ target⟩, ?_⟩
    intro s₁ broken
    have underway := underway_of_broken tidy target broken
    refine ⟨fun s₂ success => ?_, fun quiet readable => ?_⟩
    · obtain ⟨after, reached⟩ := (keeps_labelGateways tidy target underway).of_leads success
      have settled := after.target tidy target
      exact ⟨settled.keeps.antisymm (reached rfl), target.count, after.finished tidy (reached rfl)⟩
    · exact ⟨_, run_labelGateways (underway.faults.trans quiet) (underway.tidy tidy)
        (underway.readable readable) (underway.target tidy target).enough⟩

def readyWorker (name : String) (labels : Fields) : Path × Json :=
  (nodes.member name, Kind.node.object [("name", .str name), ("labels", .obj labels)]
    [("status", .obj [("conditions", .arr [.obj [("status", .str "True"), ("type", .str "Ready")]])])])

def fourWorkers : Server :=
  ⟨[readyWorker "c" [(gatewayLabel, .str "true")], readyWorker "d" [], readyWorker "b" [],
    readyWorker "a" []], [], 0, []⟩

theorem readable_of_isOk (once : s.objects.Once) (each : ∀ o ∈ s.objects,
    Store.childName? nodes.path o.1 = none ∨ (Kind.node.read o.2).isOk = true) : Readable s := by
  intro x v found
  have child : Store.childName? nodes.path (nodes.member x) = some x :=
    Store.childName?_eq_some_iff.mpr rfl
  have read := (each _ ((Store.find?_eq_some_iff once).mp found)).resolve_left (by simp [child])
  cases reading : Kind.node.read v with
  | ok w => exact ⟨w, reading⟩
  | error e => simp [reading, Except.isOk, Except.toBool] at read

/-- A run that breaks off behind its first patch, and the one that completes it. -/
theorem labelling_converges_fourWorkers : nodes.Tidy fourWorkers ∧ ∃ s₁ s₂,
    s₁ = (Program.advance site 3 (workers.deploy 3).run fourWorkers).2 ∧
    BreaksOff Exchange (workers.deploy 3) fourWorkers s₁ ∧
    Succeeds Exchange (workers.deploy 3) s₁ s₂ ∧
    gateways fourWorkers = {"c"} ∧ gateways s₂ = {"a", "b", "c"} := by
  have tidy : nodes.Tidy fourWorkers := by decide +kernel
  have start : gateways fourWorkers = {"c"} := by decide +kernel
  have spare : candidates fourWorkers = {"a", "b", "d"} := by decide +kernel
  have enough : 3 - (gateways fourWorkers).card ≤ (candidates fourWorkers).card := by
    rw [start, spare]
    decide
  have target : Target 3 fourWorkers {"a", "b", "c"} := by
    constructor <;> simp only [start, spare] <;> decide
  obtain ⟨T, only, reached⟩ := (labelling_converges tidy).2 enough
  obtain rfl := (only _).mp target
  have broken : BreaksOff Exchange (workers.deploy 3) fourWorkers
      (Program.advance site 3 (workers.deploy 3).run fourWorkers).2 :=
    breaksOff_advance _ answering_exchange rfl 3
  obtain ⟨ends, succeeds⟩ := reached _ (.single broken)
  obtain ⟨s₂, ran⟩ := succeeds rfl (readable_of_isOk (by decide +kernel) (by decide +kernel))
  have success : Succeeds Exchange (workers.deploy 3)
      (Program.advance site 3 (workers.deploy 3).run fourWorkers).2 s₂ :=
    leads_of_run answering_exchange (broken.faults.trans rfl) ran
  exact ⟨tidy, _, s₂, rfl, broken, success, start, (ends s₂ success).1⟩

end MultiCluster.Gateway
