import MultiCluster.Gateway.Openstack.MachineSet
import MultiCluster.Proofs.Convergence

/-! Removing gateways, in runs that may break off anywhere. The machines go first and the labels
follow in the order of the names, so a run that breaks off has done a first part of the same work,
and the next run goes on with the rest. -/
namespace MultiCluster.Cluster

open Server (Exchange)

variable {s s' : Server} {c : Collection} {name resource : String} {p : Path} {objects : Store}

theorem Store.erase_of_absent (absent : Store.find? p objects = none) :
    Store.erase p objects = objects := by
  induction objects with
  | nil => rfl
  | cons head rest ih =>
    obtain ⟨q, v⟩ := head
    unfold Store.erase at ih ⊢
    by_cases same : q = p
    · simp [Store.find?, same] at absent
    · simpa [same] using ih (by simpa [Store.find?, same] using absent)

def Reply.Denies (reply : Reply) : Prop :=
  ∃ status message reason, reply.payload = .error (.answer status message reason 404)

/-- What may come of a call to a server that may fail but does not deny what it has. -/
def Candid : Surroundings Calls Server
  | .pause _, s, _, s' => s' = s
  | .send r, s, (reply : Reply), s' =>
    Exchange (.send r) s reply s' ∧ (reply.Denies → (reply, s') = s.serve r)

theorem exchange_of_candid (call : Call) (s : Server) (a : Calls.Answer call) (s' : Server)
    (came : Candid call s a s') : Exchange call s a s' := by
  cases call with
  | pause wait => exact came
  | send r => exact came.1

namespace Collection

def without (c : Collection) (name : String) (s : Server) : Server :=
  { s with objects := s.objects.erase (c.member name) }

theorem at?_without : c.at? name (c.without name s) = none := Store.find?_erase_self

theorem without_of_absent (absent : c.at? name s = none) : c.without name s = s := by
  rw [without, Store.erase_of_absent absent]

theorem find?_without (other : p ≠ c.member name) :
    (c.without name s).objects.find? p = s.objects.find? p :=
  Store.find?_erase_of_ne other

theorem serve_deleteRequest : s.serve (c.deleteRequest name) =
    ((match c.at? name s with
      | none => Server.notFound (c.member name)
      | some _ => .document 200 (.obj [("apiVersion", .str "v1"), ("kind", .str "Status"),
          ("metadata", .obj []), ("status", .str "Success")])), c.without name s) := by
  unfold Server.serve Server.delete deleteRequest at?
  cases found : s.objects.find? (c.member name) with
  | none => simp [without_of_absent (c := c) found]
  | some v => simp [without]

theorem answer_of_read {α : Type} {reader : Json → Except String α} {reply : Reply}
    {status message reason : String} {code : Nat}
    (failed : reply.read reader = .error (.answer status message reason code)) :
    reply.payload = .error (.answer status message reason code) := by
  unfold Reply.read at failed
  cases taken : reply.payload with
  | error e =>
    simp only [taken, Except.error.injEq] at failed
    rw [failed]
  | ok p =>
    simp only [taken, Payload.read] at failed
    cases value : p.value with
    | error e =>
      have payload : ∃ detail, e = .payload detail := by
        unfold Payload.value at value
        grind
      obtain ⟨detail, rfl⟩ := payload
      simp [value] at failed
    | ok v =>
      simp only [value] at failed
      split at failed <;> simp at failed

/-- A request to remove an object is carried out or not, and has been if it succeeds. -/
theorem meets_delete (c : Collection) (resource name : String) (s : Server) :
    (c.delete resource name).run.Meets Candid Eq
    (fun _ s' => s' = s ∨ s' = c.without name s)
    (fun result s' => (s' = s ∨ s' = c.without name s) ∧
      ∀ b, result = .ok b → s' = c.without name s) s := by
  have served : (s.serve (c.deleteRequest name)).2 = c.without name s := by
    rw [serve_deleteRequest]
  rw [delete, exchange_eq]
  rintro s₁ rfl reply s₂ ⟨came, candid⟩
  have kept : s₂ = s ∨ s₂ = c.without name s := by
    rcases came.cases with unchanged | ⟨r, same, done⟩
    · exact .inl unchanged
    · obtain rfl := Call.send.inj same
      exact .inr (done.trans served)
  refine ⟨kept, kept, fun b ok => ?_⟩
  rw [blame_eq_ok_iff] at ok
  unfold takeDeletion at ok
  split at ok
  · next v read => exact (answered_of_read came read).2.trans served
  · next status message reason code failed =>
    split at ok
    · next absent =>
      subst absent
      have denies : reply.Denies := ⟨status, message, reason, answer_of_read failed⟩
      exact (congrArg Prod.snd (candid denies)).trans served
    · cases ok
  · cases ok

/-- On a server that answers an object is removed, and whether there was one is known. -/
theorem runOn_delete (quiet : s.faults = []) : runOn s (c.delete resource name) =
    (some (.ok (c.at? name s).isSome), c.without name s) := by
  rw [delete, runOn_exchange quiet, serve_deleteRequest]
  cases c.at? name s <;> rfl

end Collection
end MultiCluster.Cluster

namespace MultiCluster.Gateway

open Cluster
open Server (Exchange)

variable {s s' s₁ s₂ base : Server} {d : Option Openstack.Settings} {all : List Json} {n : Nat}
  {x : String}

/-! ### Removing the labels -/

theorem selected_gateway : Server.selected (some (gatewayLabel ++ "=true")) = isGateway := by
  have parts : Text.splitAtFirst '=' (gatewayLabel ++ "=true").toList =
      some (gatewayLabel.toList, "true".toList) := by decide +kernel
  funext v
  rw [Server.selected, parts]
  simp only [String.ofList_toList]
  rfl

theorem names_of_listed (tidy : nodes.Tidy s)
    (listed : nodes.Listed (some (gatewayLabel ++ "=true")) s all) :
    all.filterMap Object.name? = labelled s := by
  rw [Collection.Listed, selected_gateway] at listed
  have read := names_of_read (P := fun _ => true) (fun _ _ _ => rfl) listed
  rw [List.filter_true, List.filter_true] at read
  rw [read, Collection.names_children tidy]
  rfl

def Unlabelling (base s : Server) : Prop :=
  ∃ done rest, done ++ rest = labelled base ∧ s = relabelAll none done base

def unlabelled (s : Server) : Server := relabelAll none (labelled s) s

theorem stored_of_gateway (tidy : nodes.Tidy base) (gateway : x ∈ gateways base) :
    ∃ v, nodes.at? x base = some v := by
  obtain ⟨v, found, -⟩ := (Collection.mem_namesWhere tidy.once).mp gateway
  exact ⟨v, found⟩

theorem relabelled_part {done rest : List String} (tidy : nodes.Tidy base)
    (parts : done ++ rest = labelled base) :
    Relabelled none done.toFinset base (relabelAll none done base) := by
  refine relabelled_relabelAll fun x member => stored_of_gateway tidy ?_
  exact mem_labelled.mp (parts ▸ List.mem_append_left rest member)

theorem labelled_part {done rest : List String} (tidy : nodes.Tidy base)
    (parts : done ++ rest = labelled base) :
    labelled (relabelAll none done base) = rest := by
  have once := once_relabelAll none done tidy.once
  have nodup : (done ++ rest).Nodup := parts ▸ Finset.sort_nodup _ _
  have ordered : (done ++ rest).Pairwise (· ≤ ·) := parts ▸ Finset.pairwise_sort _ _
  have members : (done ++ rest).toFinset = gateways base := by
    rw [parts, Finset.sort_toFinset]
  have left : gateways base \ done.toFinset = rest.toFinset := by
    rw [← members, List.toFinset_append, Finset.union_sdiff_left]
    exact Finset.sdiff_eq_self_of_disjoint
      (List.disjoint_toFinset_iff_disjoint.mpr (List.disjoint_of_nodup_append nodup)).symm
  rw [labelled, (relabelled_part tidy parts).gateways_eq_sdiff tidy once, left]
  exact (List.toFinset_sort (· ≤ ·) (List.nodup_append.mp nodup).2.1).mpr
    (List.pairwise_append.mp ordered).2.1

theorem keeps_removeLabels (tidy : nodes.Tidy base) (partway : Unlabelling base s₁) :
    Keeps Candid (Unlabelling base) removeLabels
      (fun result s₂ => result = .ok () → s₂ = unlabelled base) s₁ := by
  obtain ⟨done, rest, parts, rfl⟩ := partway
  have partway : Unlabelling base (relabelAll none done base) := ⟨done, rest, parts, rfl⟩
  have middle : nodes.Tidy (relabelAll none done base) :=
    (relabelled_part tidy parts).tidy tidy (once_relabelAll _ _ tidy.once)
  unfold removeLabels
  refine Keeps.bind (keeps_tell partway (keeps_list exchange_of_candid partway
    (fun e failed => by cases failed) fun all listed => ?_))
  simp only [names_of_listed middle listed, labelled_part tidy parts]
  refine Keeps.bind (keeps_inOrder
    (K := fun further s₂ => s₂ = relabelAll none (done ++ further) base) ?_ ?_ partway ?_)
  · rintro further x left s₂ order - rfl
    have first : done ++ further ++ (x :: left) = labelled base := by
      rw [← parts, ← order, List.append_assoc]
    have one : relabel none x (relabelAll none (done ++ further) base) =
        relabelAll none (done ++ (further ++ [x])) base := by
      rw [← relabelAll_append, List.append_assoc]
    have either {s' : Server} (kept : s' = relabelAll none (done ++ further) base ∨
        s' = relabel none x (relabelAll none (done ++ further) base)) : Unlabelling base s' := by
      rcases kept with rfl | rfl
      · exact ⟨done ++ further, x :: left, first, rfl⟩
      · exact ⟨done ++ (further ++ [x]), left, by rw [← first]; simp, one⟩
    exact keeps_setLabel exchange_of_candid (fun s' kept => either kept)
      (fun e s' _ failed => by cases failed) one
  · rintro s₂ kept rfl
    exact keeps_tell kept fun _ => by rw [parts]; rfl
  · exact congrArg (relabelAll none · base) (List.append_nil done).symm

theorem run_removeLabels (quiet : s.faults = []) (tidy : nodes.Tidy s)
    (readable : gateways s = ∅ ∨ Readable s) :
    removeLabels.run.run site s = (some (.ok ()), unlabelled s) := by
  obtain ⟨result, listing, listed, ended⟩ := Collection.runOn_list (c := nodes)
    (some (gatewayLabel ++ "=true")) "nodes" rfl quiet
  obtain ⟨all, rfl⟩ := ended (fun x v found picked => by
    rcases readable with none | readable
    · rw [selected_gateway] at picked
      have member : x ∈ gateways s :=
        (Collection.mem_namesWhere tidy.once).mpr ⟨v, found, picked⟩
      exact absurd (none ▸ member) (Finset.notMem_empty x)
    · exact readable x v found) tidy.once
  have work : (inOrder unlabel (labelled s)).run.run site s =
      (some (.ok ()), unlabelled s) := by
    rcases readable with none | readable
    · rw [unlabelled, labelled, none, Finset.sort_empty]
      rfl
    · exact run_inOrder run_unlabel _ quiet tidy readable fun x member =>
        stored_of_gateway tidy (mem_labelled.mp member)
  unfold removeLabels
  simp only [Program.run_action_bind, run_tell, run_onCluster, listing,
    names_of_listed tidy (listed all rfl), work]

/-! ### Removing the machines first -/

def deployerFor : Option Openstack.Settings → Deployer Site
  | none => workers
  | some settings => Openstack.deployer settings

def cleared (d : Option Openstack.Settings) (s : Server) : Server :=
  match d with
  | none => s
  | some settings => Openstack.machineSets.without (Openstack.machineSetName settings.infraId) s

def MachinePath (d : Option Openstack.Settings) (p : Path) : Prop :=
  ∃ settings, d = some settings ∧
    p = Openstack.machineSets.member (Openstack.machineSetName settings.infraId)

theorem not_machinePath : ¬ MachinePath d (nodes.member x) := by
  rintro ⟨settings, -, same⟩
  exact absurd (List.cons.inj same).1 (by decide)

theorem find?_cleared {p : Path} (other : ¬ MachinePath d p) :
    (cleared d s).objects.find? p = s.objects.find? p := by
  cases d with
  | none => rfl
  | some settings =>
    exact Collection.find?_without fun same => other ⟨settings, rfl, same⟩

theorem at?_cleared : nodes.at? x (cleared d s) = nodes.at? x s := find?_cleared not_machinePath

theorem tidy_cleared (tidy : nodes.Tidy s) : nodes.Tidy (cleared d s) where
  once := by
    cases d with
    | none => exact tidy.once
    | some settings => exact tidy.once.erase
  named x v found := tidy.named x v (at?_cleared ▸ found)

theorem faults_cleared : (cleared d s).faults = s.faults := by
  cases d <;> rfl

theorem readable_cleared (readable : Readable s) : Readable (cleared d s) :=
  fun x v found => readable x v (at?_cleared ▸ found)

theorem gateways_cleared (tidy : nodes.Tidy s) : gateways (cleared d s) = gateways s := by
  ext x
  rw [gateways, gateways, Collection.mem_namesWhere (tidy_cleared tidy).once,
    Collection.mem_namesWhere tidy.once, at?_cleared]

theorem cleared_of_absent (absent : ∀ p, MachinePath d p → s.objects.find? p = none) :
    cleared d s = s := by
  cases d with
  | none => rfl
  | some settings => exact Collection.without_of_absent (absent _ ⟨settings, rfl, rfl⟩)

def cleaned (d : Option Openstack.Settings) (s : Server) : Server := unlabelled (cleared d s)

/-- A first part of the cleanup has been done, and nothing else. -/
def Partway (d : Option Openstack.Settings) (s s' : Server) : Prop :=
  s' = s ∨ Unlabelling (cleared d s) s'

theorem partway_cleared : Partway d s (cleared d s) := .inr ⟨[], _, rfl, rfl⟩

theorem relabelled_of_unlabelling (tidy : nodes.Tidy base) (partway : Unlabelling base s) :
    ∃ S ⊆ gateways base, Relabelled none S base s ∧ s.objects.Once := by
  obtain ⟨done, rest, parts, rfl⟩ := partway
  refine ⟨done.toFinset, fun x member => ?_, relabelled_part tidy parts,
    once_relabelAll _ _ tidy.once⟩
  exact mem_labelled.mp (parts ▸ List.mem_append_left rest (List.mem_toFinset.mp member))

/-- Removing the machines once more does nothing when labels are already being removed. -/
theorem cleared_of_unlabelling (tidy : nodes.Tidy s) (partway : Unlabelling (cleared d s) s') :
    cleared d s' = s' := by
  obtain ⟨S, -, relabelled, -⟩ := relabelled_of_unlabelling (tidy_cleared tidy) partway
  refine cleared_of_absent fun p machines => ?_
  rw [relabelled.outside p fun x _ same => not_machinePath (same ▸ machines)]
  obtain ⟨settings, rfl, rfl⟩ := machines
  exact Collection.at?_without

theorem partway_of_cleared (tidy : nodes.Tidy s) (partway : Partway d s s₁)
    (either : s' = s₁ ∨ s' = cleared d s₁) : Partway d s s' := by
  rcases either with rfl | rfl
  · exact partway
  · rcases partway with rfl | unlabelling
    · exact partway_cleared
    · rw [cleared_of_unlabelling tidy unlabelling]
      exact .inr unlabelling

/-- From wherever an earlier run broke off, a cleanup goes on with the rest of the same work, and is
through with all of it when it succeeds. -/
theorem keeps_cleanup (tidy : nodes.Tidy s) (partway : Partway d s s₁) :
    Keeps Candid (Partway d s) (deployerFor d).cleanup
      (fun result s₂ => result = .ok () → s₂ = cleaned d s) s₁ := by
  have labels {s₂ : Server} (unlabelling : Unlabelling (cleared d s) s₂) :
      Keeps Candid (Partway d s) removeLabels
        (fun result s₃ => result = .ok () → s₃ = cleaned d s) s₂ := by
    refine (keeps_removeLabels (tidy_cleared tidy) unlabelling).mono (fun _ _ kept => .inr kept) ?_
    exact fun result s₃ ended => ⟨.inr ended.1, ended.2⟩
  cases d with
  | none =>
    rcases partway with rfl | unlabelling
    · exact labels ⟨[], _, rfl, rfl⟩
    · exact labels unlabelling
  | some settings =>
    have meets := Collection.meets_delete Openstack.machineSets
      (Openstack.machineSets.label (Openstack.machineSetName settings.infraId))
      (Openstack.machineSetName settings.infraId) s₁
    have kept {s' : Server} (either : s' = s₁ ∨ s' = cleared (some settings) s₁) :
        Partway (some settings) s s' := partway_of_cleared tidy partway either
    show Keeps _ _ (Openstack.removeMachines settings) _ _
    unfold Openstack.removeMachines
    refine Keeps.bind (keeps_tell partway (Keeps.bind (Keeps.reporting (keeps_onCluster
      (meets.mono (fun _ _ => kept) ?_)))))
    rintro result s₂ ⟨either, carried⟩
    refine ⟨kept either, ?_⟩
    cases result with
    | error e => exact fun failed => by cases failed
    | ok deleted =>
      have gone : s₂ = cleared (some settings) s₁ := carried deleted rfl
      refine Keeps.bind (keeps_tell (kept either) (labels ?_))
      rcases partway with rfl | unlabelling
      · exact gone ▸ ⟨[], _, rfl, rfl⟩
      · rw [gone, cleared_of_unlabelling tidy unlabelling]
        exact unlabelling

theorem run_cleanup (quiet : s.faults = []) (tidy : nodes.Tidy s)
    (readable : gateways s = ∅ ∨ Readable s) :
    (deployerFor d).cleanup.run.run site s = (some (.ok ()), cleaned d s) := by
  have labels : removeLabels.run.run site (cleared d s) = (some (.ok ()), cleaned d s) := by
    refine run_removeLabels (faults_cleared.trans quiet) (tidy_cleared tidy) ?_
    rw [gateways_cleared tidy]
    exact readable.imp_right readable_cleared
  cases d with
  | none => exact labels
  | some settings =>
    show (Openstack.removeMachines settings).run.run site s = _
    unfold Openstack.removeMachines
    simp only [Program.run_action_bind, run_tell, run_reporting, run_onCluster,
      Collection.runOn_delete quiet]
    exact labels

/-- What a cleanup comes to: no gateway and no machines are left, the nodes that were gateways are
otherwise as before, and so is everything else. -/
structure Cleaned (d : Option Openstack.Settings) (s s' : Server) : Prop where
  none_left : gateways s' = ∅
  machines : ∀ p, MachinePath d p → s'.objects.find? p = none
  relabelled : ∀ x ∈ gateways s, ∃ v w, nodes.at? x s = some v ∧ nodes.at? x s' = some w ∧
    Alike v w ∧ w.at? gatewayPath = none
  others : ∀ p, (∀ x ∈ gateways s, p ≠ nodes.member x) → ¬ MachinePath d p →
    s'.objects.find? p = s.objects.find? p

theorem relabelled_cleaned (tidy : nodes.Tidy s) :
    Relabelled none (gateways s) (cleared d s) (cleaned d s) := by
  have relabelled : Relabelled none (gateways (cleared d s)) (cleared d s) (cleaned d s) := by
    have part := relabelled_part (tidy_cleared (d := d) tidy) (List.append_nil _)
    rwa [Finset.sort_toFinset] at part
  rwa [gateways_cleared tidy] at relabelled

theorem cleaned_spec (tidy : nodes.Tidy s) : Cleaned d s (cleaned d s) where
  none_left := by
    have once := once_relabelAll none (labelled (cleared d s))
      (tidy_cleared (d := d) tidy).once
    rw [(relabelled_cleaned tidy).gateways_eq_sdiff (tidy_cleared tidy) once,
      gateways_cleared tidy, Finset.sdiff_self]
  machines p machines := by
    rw [(relabelled_cleaned tidy).outside p fun x _ same => not_machinePath (same ▸ machines)]
    obtain ⟨settings, rfl, rfl⟩ := machines
    exact Collection.at?_without
  relabelled x member := by
    obtain ⟨v, w, before, after, alike, label⟩ := (relabelled_cleaned tidy).within x member
    exact ⟨v, w, at?_cleared ▸ before, after, alike, label⟩
  others p outside other :=
    ((relabelled_cleaned tidy).outside p outside).trans (find?_cleared other)

theorem tidy_cleaned (tidy : nodes.Tidy s) : nodes.Tidy (cleaned d s) :=
  (relabelled_cleaned tidy).tidy (tidy_cleared tidy) (once_relabelAll _ _ (tidy_cleared tidy).once)

/-- Where there is nothing left to remove, a cleanup has nothing to do. -/
theorem partway_cleaned (tidy : nodes.Tidy s) (partway : Partway d (cleaned d s) s') :
    s' = cleaned d s := by
  have spec := cleaned_spec (d := d) tidy
  have gone : cleared d (cleaned d s) = cleaned d s := cleared_of_absent spec.machines
  rcases partway with rfl | ⟨done, rest, parts, rfl⟩
  · rfl
  · rw [gone, labelled, spec.none_left, Finset.sort_empty] at parts
    obtain ⟨rfl, -⟩ := List.append_eq_nil_iff.mp parts
    exact gone

theorem answering_candid : Answering Candid := by
  intro call s a s' quiet answered
  obtain ⟨came, -⟩ := exchange_of_handler quiet answered
  cases call with
  | pause wait => exact came
  | send r =>
    have answer : s.answer r = s.serve r := by simp [Server.answer, quiet, Server.takeFault]
    simp only [Server.handler, answer, Prod.mk.injEq] at answered
    obtain ⟨same, rfl⟩ := answered
    obtain rfl := Option.some.inj (show some _ = some a from same)
    exact ⟨came, fun _ => rfl⟩

/-! ### Nodes after a deployment -/

structure Promoted (s s' : Server) : Prop where
  once : s'.objects.Once
  each : ∀ x, nodes.at? x s' = nodes.at? x s ∨ ∃ v w, nodes.at? x s = some v ∧
    nodes.at? x s' = some w ∧ Alike v w ∧ isGateway w = true

namespace Promoted

theorem refl (tidy : nodes.Tidy s) : Promoted s s := ⟨tidy.once, fun _ => .inl rfl⟩

theorem tidy (promoted : Promoted s s') (tidy : nodes.Tidy s) : nodes.Tidy s' where
  once := promoted.once
  named x w found := by
    rcases promoted.each x with same | ⟨v, w', before, after, alike, -⟩
    · exact tidy.named x w (same ▸ found)
    · obtain rfl : w' = w := Option.some.inj (after.symm.trans found)
      rw [alike.name?, tidy.named x v before]

theorem of_relabelled {S : Finset String} (relabelled : Relabelled (some "true") S s s')
    (once : s'.objects.Once) : Promoted s s' := by
  refine ⟨once, fun x => ?_⟩
  by_cases member : x ∈ S
  · obtain ⟨v, w, before, after, alike, label⟩ := relabelled.within x member
    exact .inr ⟨v, w, before, after, alike, isGateway_iff.mpr label⟩
  · exact .inl (relabelled.at?_of_notMem member)

end Promoted

theorem promoted_of_labelling (tidy : nodes.Tidy s)
    (broken : Relation.ReflTransGen (BreaksOff Exchange (labelGateways n)) s s') :
    Promoted s s' := by
  by_cases enough : n - (gateways s).card ≤ (candidates s).card
  · have underway := underway_of_broken tidy (target_missing tidy enough) broken
    obtain ⟨S, -, relabelled⟩ := underway.part
    exact .of_relabelled relabelled underway.once
  · have same : s' = s := by
      induction broken with
      | refl => rfl
      | tail _ last ih =>
        subst ih
        exact (keeps_few tidy (not_le.mp enough)).of_breaksOff last rfl
    rw [same]
    exact .refl tidy

/-- Deploying machines does not touch the nodes. -/
theorem keeps_deployMachines {settings : Openstack.Settings} (promoted : Promoted s s₁) :
    Keeps Exchange (Promoted s) (Openstack.deployMachines settings n) (fun _ _ => True) s₁ := by
  unfold Openstack.deployMachines
  refine Keeps.bind (keeps_tell promoted (Keeps.bind (Keeps.reporting (keeps_onCluster
    (meets_exchange ?_)))))
  rintro s₁ rfl reply s₂ came
  have kept : Promoted s s₂ := by
    refine ⟨?_, fun x => ?_⟩
    · rcases came.cases with rfl | ⟨r, -, rfl⟩
      · exact promoted.once
      · exact Server.once_serve promoted.once
    · have apart : nodes.member x ≠
          Openstack.machineSets.member (Openstack.machineSetName settings.infraId) :=
        fun same => not_machinePath (d := some settings) ⟨settings, rfl, same⟩
      have same : nodes.at? x s₂ = nodes.at? x _ := came.elsewhere (by rintro r ⟨⟩; rfl) apart
      rw [same]
      exact promoted.each x
  refine ⟨kept, kept, ?_⟩
  cases Reply.read Openstack.machineSets.kind.read reply with
  | error e => exact trivial
  | ok v => exact keeps_tell kept trivial

theorem promoted_of_deploy (tidy : nodes.Tidy s)
    (broken : Relation.ReflTransGen (BreaksOff Exchange ((deployerFor d).deploy n)) s s') :
    Promoted s s' := by
  cases d with
  | none => exact promoted_of_labelling tidy broken
  | some settings =>
    by_cases dedicated : settings.dedicated = true
    · have work : (deployerFor (some settings)).deploy n = Openstack.deployMachines settings n :=
        if_pos dedicated
      rw [work] at broken
      induction broken with
      | refl => exact .refl tidy
      | tail _ last ih => exact (keeps_deployMachines ih).of_breaksOff last ih
    · have work : (deployerFor (some settings)).deploy n = labelGateways n := if_neg dedicated
      exact promoted_of_labelling tidy (work ▸ broken)

/-! ### Any number of runs -/

theorem partway_of_broken (tidy : nodes.Tidy s)
    (broken : Relation.ReflTransGen (BreaksOff Candid (deployerFor d).cleanup) s s₁) :
    Partway d s s₁ := by
  induction broken with
  | refl => exact .inl rfl
  | tail _ last ih => exact (keeps_cleanup tidy ih).of_breaksOff last ih

theorem faults_of_broken {work : SiteWork Unit}
    (broken : Relation.ReflTransGen (BreaksOff Candid work) s s₁) : s₁.faults = s.faults := by
  induction broken with
  | refl => rfl
  | tail _ last ih => exact (last.narrow exchange_of_candid).faults.trans ih

theorem sound_of_partway (tidy : nodes.Tidy s) (readable : Readable s)
    (partway : Partway d s s₁) : nodes.Tidy s₁ ∧ Readable s₁ := by
  rcases partway with rfl | ⟨done, rest, parts, rfl⟩
  · exact ⟨tidy, readable⟩
  · have once := once_relabelAll none done (tidy_cleared (d := d) tidy).once
    exact ⟨(relabelled_part (tidy_cleared tidy) parts).tidy (tidy_cleared tidy) once,
      readable_relabelAll _ _ (tidy_cleared tidy) (readable_cleared readable)⟩

def Restored (s s' : Server) : Prop :=
  ∀ x, (nodes.at? x s = none ∧ nodes.at? x s' = none) ∨
    ∃ v w, nodes.at? x s = some v ∧ nodes.at? x s' = some w ∧ Alike v w ∧
      ∀ key, w.at? ["metadata", "labels", key] = v.at? ["metadata", "labels", key]

/-- What a deployment has put on nodes that did not have the label, a cleanup takes away. -/
theorem restored_of_cleaned (tidy : nodes.Tidy s)
    (unmarked : ∀ x v, nodes.at? x s = some v → v.at? gatewayPath = none)
    (promoted : Promoted s s₁) (cleaned : Cleaned d s₁ s₂) : Restored s s₂ := by
  have middle := promoted.tidy tidy
  have restored {x : String} {v w : Json} (before : nodes.at? x s = some v)
      (after : nodes.at? x s₂ = some w) (alike : Alike v w) (label : w.at? gatewayPath = none) :
      ∃ v w, nodes.at? x s = some v ∧ nodes.at? x s₂ = some w ∧ Alike v w ∧
        ∀ key, w.at? ["metadata", "labels", key] = v.at? ["metadata", "labels", key] := by
    refine ⟨v, w, before, after, alike, fun key => ?_⟩
    by_cases gateway : key = gatewayLabel
    · subst gateway
      exact label.trans (unmarked x v before).symm
    · exact alike.label gateway
  intro x
  by_cases gateway : x ∈ gateways s₁
  · obtain ⟨u, w, here, after, alike, label⟩ := cleaned.relabelled x gateway
    rcases promoted.each x with same | ⟨v, u', before, there, like, -⟩
    · exact .inr (restored (same ▸ here) after alike label)
    · obtain rfl : u' = u := Option.some.inj (there.symm.trans here)
      exact .inr (restored before after (like.trans alike) label)
  · have untouched : nodes.at? x s₂ = nodes.at? x s₁ := by
      refine cleaned.others _ (fun y member same => gateway ?_) not_machinePath
      exact Collection.member_injective same ▸ member
    rcases promoted.each x with same | ⟨v, w, -, there, -, marked⟩
    · cases stored : nodes.at? x s with
      | none => exact .inl ⟨rfl, (untouched.trans same).trans stored⟩
      | some v =>
        have after := (untouched.trans same).trans stored
        exact .inr (stored ▸ restored stored after .refl (unmarked x v stored))
    · exact absurd ((Collection.mem_namesWhere middle.once).mpr ⟨w, there, marked⟩) gateway

/-- However often a cleanup breaks off at any request, carried out or not, every cleanup that
succeeds leads to one and the same server, on which neither gateways nor their machines are left and
everything else is as before. There a further cleanup succeeds and changes nothing. After a
deployment to nodes without the label it gives every node its labels back. -/
theorem cleanup_completes (tidy : nodes.Tidy s) :
    ∃ final, Cleaned d s final ∧
      (∀ s₁, Relation.ReflTransGen (BreaksOff Candid (deployerFor d).cleanup) s s₁ →
        (∀ s₂, Succeeds Candid (deployerFor d).cleanup s₁ s₂ → s₂ = final) ∧
        (s.faults = [] → Readable s →
          (deployerFor d).cleanup.run.run site s₁ = (some (.ok ()), final))) ∧
      (∀ s', BreaksOff Candid (deployerFor d).cleanup final s' → s' = final) ∧
      (s.faults = [] → (deployerFor d).cleanup.run.run site final = (some (.ok ()), final)) ∧
      ∀ n s₁ s₂ s₃, (∀ x v, nodes.at? x s = some v → v.at? gatewayPath = none) →
        Relation.ReflTransGen (BreaksOff Exchange ((deployerFor d).deploy n)) s s₁ →
        Relation.ReflTransGen (BreaksOff Candid (deployerFor d).cleanup) s₁ s₂ →
        Succeeds Candid (deployerFor d).cleanup s₂ s₃ → Restored s s₃ := by
  have reaches {s s₁ s₂ : Server} (tidy : nodes.Tidy s)
      (broken : Relation.ReflTransGen (BreaksOff Candid (deployerFor d).cleanup) s s₁)
      (success : Succeeds Candid (deployerFor d).cleanup s₁ s₂) : s₂ = cleaned d s :=
    ((keeps_cleanup tidy (partway_of_broken tidy broken)).of_leads success).2 rfl
  have stays {s' : Server} (broken : BreaksOff Candid (deployerFor d).cleanup (cleaned d s) s') :
      s' = cleaned d s :=
    partway_cleaned tidy (partway_of_broken (tidy_cleaned tidy) (.single broken))
  refine ⟨cleaned d s, cleaned_spec tidy, fun s₁ broken => ⟨fun s₂ => reaches tidy broken, ?_⟩,
    fun s' => stays, fun quiet => ?_, ?_⟩
  · intro quiet readable
    obtain ⟨middle, still⟩ := sound_of_partway tidy readable (partway_of_broken tidy broken)
    have calm : s₁.faults = [] := (faults_of_broken broken).trans quiet
    have ran := run_cleanup (d := d) calm middle (.inr still)
    rw [ran, reaches tidy broken (leads_of_run answering_candid calm ran)]
  · have calm : (cleaned d s).faults = [] := (faults_relabelAll.trans faults_cleared).trans quiet
    have ran := run_cleanup (d := d) calm (tidy_cleaned tidy) (.inl (cleaned_spec tidy).none_left)
    rwa [stays ⟨_, leads_of_run answering_candid calm ran⟩] at ran
  · intro n s₁ s₂ s₃ unmarked deployed broken success
    have promoted := promoted_of_deploy tidy deployed
    have middle := promoted.tidy tidy
    exact restored_of_cleaned tidy unmarked promoted
      (reaches middle broken success ▸ cleaned_spec middle)

def exampleSettings : Openstack.Settings :=
  ⟨"infra", "region", none, "openstack", true, "m1.large"⟩

def gatewaysAndMachines : Server :=
  ⟨[readyWorker "b" [(gatewayLabel, .str "true"), ("zone", .str "east")], readyWorker "a" [],
    readyWorker "c" [(gatewayLabel, .str "true")],
    (Openstack.machineSets.member (Openstack.machineSetName "infra"),
      Openstack.machineSet exampleSettings 1)], [], 0, []⟩

def oneWorker : Server := ⟨[readyWorker "a" [("zone", .str "east")]], [], 0, []⟩

/-- A cleanup that breaks off when the machines are gone and one label is removed, and the one that
completes it; and a deployment and its cleanup. -/
theorem cleanup_completes_examples :
    (nodes.Tidy gatewaysAndMachines ∧ ∃ s₁ final,
      s₁ = (Program.advance site 6 (deployerFor (some exampleSettings)).cleanup.run
        gatewaysAndMachines).2 ∧
      BreaksOff Candid (deployerFor (some exampleSettings)).cleanup gatewaysAndMachines s₁ ∧
      Succeeds Candid (deployerFor (some exampleSettings)).cleanup s₁ final ∧
      gateways gatewaysAndMachines = {"b", "c"} ∧ Cleaned (some exampleSettings)
        gatewaysAndMachines final) ∧
    (nodes.Tidy oneWorker ∧ ∃ s₁ s₂, Succeeds Exchange ((deployerFor none).deploy 1) oneWorker s₁ ∧
      Succeeds Candid (deployerFor none).cleanup s₁ s₂ ∧ Restored oneWorker s₂) := by
  constructor
  · have tidy : nodes.Tidy gatewaysAndMachines := by decide +kernel
    obtain ⟨final, spec, reached, -⟩ := cleanup_completes (d := some exampleSettings) tidy
    have broken := breaksOff_advance (deployerFor (some exampleSettings)).cleanup
      (s := gatewaysAndMachines) answering_candid rfl 6
    have ran := (reached _ (.single broken)).2 rfl
      (readable_of_isOk (by decide +kernel) (by decide +kernel))
    have calm := (broken.narrow exchange_of_candid).faults
    exact ⟨tidy, _, final, rfl, broken, leads_of_run answering_candid calm ran,
      by decide +kernel, spec⟩
  · have tidy : nodes.Tidy oneWorker := by decide +kernel
    obtain ⟨-, -, -, -, -, restored⟩ := cleanup_completes (d := none) tidy
    have readable : Readable oneWorker := readable_of_isOk (by decide +kernel) (by decide +kernel)
    have deployed := leads_of_run answering_exchange rfl
      (run_labelGateways (n := 1) rfl tidy readable (by decide +kernel))
    have promoted := promoted_of_labelling tidy (.single ⟨_, deployed⟩)
    have cleanup := leads_of_run answering_candid (faults_relabelAll.trans rfl) (run_cleanup
      (d := none) (faults_relabelAll.trans rfl) (promoted.tidy tidy)
      (.inr (readable_relabelAll (some "true") (missing 1 oneWorker) tidy readable)))
    refine ⟨tidy, _, _, deployed, cleanup,
      restored 1 _ _ _ ?_ (.single ⟨_, deployed⟩) .refl cleanup⟩
    intro x v found
    have stored := (Store.find?_eq_some_iff tidy.once).mp found
    have each : ∀ o ∈ oneWorker.objects, o.2.at? gatewayPath = none := by decide +kernel
    exact each _ stored

end MultiCluster.Gateway
