import MultiCluster.Proofs.SharedRecord
import MultiCluster.Proofs.Undisturbed

/-! What a report says of the server. Outcomes are put together from versions and from decisions on
what was read; they tell whether the objects were there before, and whether anything was written. -/
namespace MultiCluster

namespace Outcome

def ofWrite : Option Json → Outcome
  | none => .created
  | some _ => .updated

end Outcome

namespace Cluster

open Globalnet.Record (Stamped Renewed renewed_write)
open Server (withVersion versionOf)

variable {S s s₁ s₂ s' : Server} {p q : Path} {v : Json} {stored : Option Json} {outcome : Outcome}
  {mutated mutated' : Prop}

/-! ### Whether anything was written -/

def Fresh (S s : Server) : Prop := ∃ p v n, s.objects.find? p = some v ∧
  versionOf v = some (Text.decimal n) ∧ S.version < n

theorem Fresh.objects_ne (fresh : Fresh S s) (stamped : ∀ p, Stamped p S) :
    s.objects ≠ S.objects := by
  intro same
  obtain ⟨p, v, n, found, version, later⟩ := fresh
  rw [same] at found
  obtain ⟨old, known, past⟩ := stamped p v found
  have twice : old = Text.decimal n := Option.some.inj (known.symm.trans version)
  exact past n later twice

/-- Of two states, the later one: either nothing was written in between, or some object is new. -/
structure Account (mutated : Prop) (s s' : Server) : Prop where
  renewed (p : Path) : Renewed p s s'
  still : ¬ mutated → s' = s
  fresh : mutated → Fresh s s'

namespace Account

theorem version_le (account : Account mutated s s') : s.version ≤ s'.version :=
  (account.renewed []).1

theorem stamped (account : Account mutated s s') (stamped : ∀ p, Stamped p s) (p : Path) :
    Stamped p s' :=
  (stamped p).renewed (account.renewed p)

theorem refl (still : ¬ mutated) : Account mutated s s :=
  ⟨fun _ => .refl, fun _ => rfl, fun did => absurd did still⟩

/-- What is new stays new: a later write can only make it newer. -/
theorem trans (first : Account mutated s s₁) (second : Account mutated' s₁ s') :
    Account (mutated ∨ mutated') s s' := by
  constructor
  case renewed => exact fun p => (first.renewed p).trans (second.renewed p)
  case still =>
    intro neither
    rw [not_or] at neither
    rw [second.still neither.2, first.still neither.1]
  case fresh =>
    rintro (did | did)
    · obtain ⟨p, v, n, found, version, later⟩ := first.fresh did
      obtain ⟨-, kept | ⟨w, m, found', version', later', -⟩⟩ := second.renewed p
      · exact ⟨p, v, n, kept.trans found, version, later⟩
      · exact ⟨p, w, m, found', version', first.version_le.trans_lt later'⟩
    · obtain ⟨p, v, n, found, version, later⟩ := second.fresh did
      exact ⟨p, v, n, found, version, first.version_le.trans_lt later⟩

theorem congr (account : Account mutated s s') (same : mutated ↔ mutated') :
    Account mutated' s s' :=
  propext same ▸ account

theorem objects_eq_iff (account : Account mutated s s') (stamped : ∀ p, Stamped p s) :
    s'.objects = s.objects ↔ ¬ mutated := by
  constructor
  · intro same did
    exact (account.fresh did).objects_ne stamped same
  · intro still
    rw [account.still still]

theorem of_write (ok : Object.HasMetadata v) (did : mutated) :
    Account mutated s (s.write p v).2 := by
  constructor
  case renewed =>
    intro q
    by_cases here : q = p
    · exact here ▸ renewed_write ok
    · exact ⟨Nat.le_succ _, .inl (Server.find?_write_of_ne here)⟩
  case still => exact fun still => absurd did still
  case fresh =>
    intro _
    exact ⟨p, _, s.version + 1, Server.find?_write_self, Server.versionOf_withVersion ok,
      Nat.lt_succ_self _⟩

end Account

theorem stamped_write (stamped : ∀ q, Stamped q s) (ok : Object.HasMetadata v) :
    ∀ q, Stamped q (s.write p v).2 := by
  have account : Account True s (s.write p v).2 := .of_write ok trivial
  exact account.stamped stamped

/-! ### The outcome of one errand -/

inductive Truthful (p : Path) : Outcome → Server → Server → Prop
  | wrote {s : Server} {v : Json} (ok : Object.HasMetadata v) :
      Truthful p (.ofWrite (s.objects.find? p)) s (s.write p v).2
  | left {s : Server} (present : s.objects.find? p ≠ none) : Truthful p .unchanged s s

namespace Truthful

theorem created_iff (truthful : Truthful p outcome s s') :
    outcome = .created ↔ s.objects.find? p = none := by
  cases truthful with
  | wrote ok => cases s.objects.find? p <;> simp [Outcome.ofWrite]
  | left present => simp [present]

theorem elsewhere (truthful : Truthful p outcome s s') (other : q ≠ p) :
    s'.objects.find? q = s.objects.find? q := by
  cases truthful with
  | wrote ok => exact Server.find?_write_of_ne other
  | left present => rfl

theorem faults (truthful : Truthful p outcome s s') : s'.faults = s.faults := by
  cases truthful with
  | wrote ok => rfl
  | left present => rfl

theorem account (truthful : Truthful p outcome s s') : Account (outcome ≠ .unchanged) s s' := by
  cases truthful with
  | wrote ok =>
    refine .of_write ok ?_
    cases s.objects.find? p <;> simp [Outcome.ofWrite]
  | left present => exact .refl (by simp)

end Truthful

namespace Errand

/-- Where nothing is stored there is something to do, and a write says whether it was the first. -/
structure Candid (e : Errand) : Prop where
  makes : ¬ e.Rests none
  writes {s : Server} {v : Json} (quiet : s.faults = []) (stamped : Stamped e.path s)
    (goal : e.effect (s.objects.find? e.path) = some (some v)) : Object.HasMetadata v ∧
      runOn s e.work = (some (.ok (.ofWrite (s.objects.find? e.path))), (s.write e.path v).2)

variable {e : Errand} {es : List Errand} {outcomes : List Outcome}

theorem truthful_of_runOn (lawful : e.Lawful) (candid : e.Candid) (quiet : s.faults = [])
    (stamped : Stamped e.path s) (ran : runOn s e.work = (some (.ok outcome), s')) :
    Truthful e.path outcome s s' := by
  cases known : e.effect (s.objects.find? e.path) with
  | none =>
    obtain ⟨error, s₁, failed⟩ := lawful.fails quiet known
    rw [failed] at ran
    cases ran
  | some goal =>
    cases goal with
    | none =>
      have versioned : Versioned (s.objects.find? e.path) := by
        intro v found
        obtain ⟨version, known, -⟩ := stamped v found
        simp [known]
      have present : s.objects.find? e.path ≠ none := by
        intro absent
        exact candid.makes (absent ▸ known)
      obtain ⟨outcome', ran', unchanged⟩ := lawful.leaves quiet known
      rw [unchanged versioned, ran] at ran'
      cases ran'
      exact .left present
    | some v =>
      obtain ⟨ok, ran'⟩ := candid.writes quiet stamped known
      rw [ran] at ran'
      cases ran'
      exact .wrote ok

/-- Errands in a row: each tells whether its object was there at first, as none is about the object
of another. -/
theorem truthful_of_performAll (lawful : ∀ e ∈ es, e.Lawful) (candid : ∀ e ∈ es, e.Candid)
    (distinct : (es.map path).Nodup) (quiet : s.faults = []) (stamped : ∀ p, Stamped p s)
    (same : ∀ e ∈ es, s.objects.find? e.path = S.objects.find? e.path)
    (ran : runOn s (performAll es) = (some (.ok outcomes), s')) :
    List.Forall₂ (fun e o => o = .created ↔ S.objects.find? e.path = none) es outcomes ∧
      Account (∃ o ∈ outcomes, o ≠ .unchanged) s s' ∧ s'.faults = [] := by
  induction es generalizing s outcomes with
  | nil =>
    cases ran
    exact ⟨.nil, .refl (by simp), quiet⟩
  | cons e rest ih =>
    rw [List.forall_mem_cons] at lawful candid same
    rw [List.map_cons, List.nodup_cons] at distinct
    rw [performAll, runOn_bind_ok_iff] at ran
    obtain ⟨outcome, s₁, first, ran⟩ := ran
    rw [runOn_bind_ok_iff] at ran
    obtain ⟨others, s₂, later, done⟩ := ran
    cases done
    have truthful := truthful_of_runOn lawful.1 candid.1 quiet (stamped e.path) first
    have kept : ∀ f ∈ rest, s₁.objects.find? f.path = S.objects.find? f.path := by
      intro f member
      have apart : f.path ≠ e.path := by
        intro samePath
        exact distinct.1 (samePath ▸ List.mem_map_of_mem member)
      exact (truthful.elsewhere apart).trans (same.2 f member)
    obtain ⟨told, account, quiet'⟩ := ih lawful.2 candid.2 distinct.2
      (truthful.faults.trans quiet) (truthful.account.stamped stamped) kept later
    refine ⟨.cons ?_ told, (truthful.account.trans account).congr ?_, quiet'⟩
    · rw [truthful.created_iff, same.1]
    · simp

end Errand

namespace Applicable

variable {c : Collection} {name : String} {u : Json} (ok : Applicable c name v)
include ok

/-- The version in the answer to a patch is new, so the one that was read before is another. -/
theorem runOn_patched (quiet : s.faults = []) (stamped : Stamped (c.member name) s)
    (goal : applyEffect c.kind v (s.objects.find? (c.member name)) = some (some u)) :
    runOn s (c.apply v) = (some (.ok (.ofWrite (s.objects.find? (c.member name)))),
      (s.write (c.member name) u).2) := by
  obtain ⟨new, before, after, rfl⟩ := applyEffect_writes.mp goal
  obtain ⟨found, readBefore⟩ := readStored_of_reads before
  obtain ⟨w, reading⟩ := ok.reads_applied (s.version + 1) after
  have version : Object.version? w = some (Text.decimal (s.version + 1)) :=
    (Kind.version?_of_read ok.notMachineSet reading).trans
      (Server.versionOf_withVersion ok.hasMetadata_applied)
  have told : Outcome.ofVersions (found.map Object.version?) (Object.version? w) =
      .ofWrite (s.objects.find? (c.member name)) := by
    rw [version]
    cases stored : s.objects.find? (c.member name) with
    | none =>
      rw [stored] at readBefore
      cases readBefore
      rfl
    | some x =>
      obtain ⟨y, readX⟩ := before x stored
      rw [stored] at readBefore
      simp only [Kind.readStored, readBack_of_read readX, Except.map] at readBefore
      cases readBefore
      obtain ⟨old, known, past⟩ := stamped x stored
      have versionBefore : Object.version? y = some old :=
        (Kind.version?_of_read ok.notMachineSet readX).trans known
      have differs : old ≠ Text.decimal (s.version + 1) := past _ (Nat.lt_succ_self _)
      simp [Outcome.ofVersions, Outcome.ofWrite, versionBefore, differs]
  rw [ok.runOn_apply_new quiet readBefore new, readBack_of_read reading, ← told]
  rfl

theorem candid : (applyErrand c name v).Candid := by
  constructor
  case makes =>
    intro rests
    have rests : applyEffect c.kind v none = some none := rests
    obtain ⟨stored, -⟩ := applyEffect_leaves.mp rests
    cases stored
  case writes =>
    intro s u quiet stamped goal
    have goal : applyEffect c.kind v (s.objects.find? (c.member name)) = some (some u) := goal
    have metadata : Object.HasMetadata u := by
      obtain ⟨-, -, -, rfl⟩ := applyEffect_writes.mp goal
      exact ok.hasMetadata_applied
    exact ⟨metadata, runOn_persistently (ok.runOn_patched quiet stamped goal) (by simp)⟩

end Applicable

namespace Upsert

variable {u : Upsert}

theorem candid (sound : u.Sound) : u.errand.Candid := by
  constructor
  case makes =>
    intro rests
    have rests : u.effect none = some none := rests
    obtain ⟨x, w, stored, -⟩ := effect_leaves rests
    cases stored
  case writes =>
    intro s v quiet stamped goal
    refine ⟨sound.hasMetadata goal, ?_⟩
    obtain ⟨reads, written⟩ := effect_writes goal
    obtain ⟨w', readAfter⟩ := Kind.reads_withVersion (n := s.version + 1) sound.notMachineSet
      (sound.hasMetadata goal) reads
    show runOn s u.work = _
    rcases written with ⟨absent, rfl⟩ | ⟨x, w, found, reading, wanting, rfl⟩
    · have absent : s.objects.find? u.path = none := absent
      rw [Sound.runOn_work quiet, absent]
      simp only [Kind.readStored]
      rw [sound.runOn_settle_absent quiet absent, readBack_of_read readAfter]
      simp [errand, absent, Outcome.ofWrite]
    · have found : s.objects.find? u.path = some x := found
      rw [Sound.runOn_work_of_read quiet found reading,
        sound.runOn_settle_replaced quiet found reading wanting, readBack_of_read readAfter]
      simp [errand, found, Outcome.ofWrite]

theorem candid_checked (sound : u.Sound) : u.checkedErrand.Candid := by
  constructor
  case makes => exact (candid sound).makes
  case writes =>
    intro s v quiet stamped goal
    obtain ⟨ok, ran⟩ := (candid sound).writes quiet stamped goal
    refine ⟨ok, ?_⟩
    show runOn s (u.check >>= fun _ => u.work) = _
    rw [runOn_bind_of_ok (check_passes quiet goal)]
    exact ran

end Upsert
end Cluster

namespace Deploy

open Cluster
open Globalnet.Record (Stamped)
open Program (Leads following)

variable {p : Plan} {step : Step} {steps : List Step} {cluster : String} {s s' : Server}
  {options : Options}

theorem errands_candid {e : Errand} (member : e ∈ p.errands step) : e.Candid :=
  forall_errands (fun _ _ _ => Applicable.candid) (fun _ => Upsert.candid)
    (fun _ => Upsert.candid_checked) e member

def Plan.managed (p : Plan) (step : Step) : List Path := (p.errands step).map Errand.path

theorem nodup_managed : (p.managed step).Nodup := by
  have own : (p.ownErrands.map Errand.path).Nodup := by
    refine List.Nodup.of_map Server.resourcePath ?_
    rw [List.map_map, show Server.resourcePath ∘ Errand.path = fun e => Server.resourcePath e.path
      from rfl, resourcePaths_own]
    decide
  -- Beside the namespace, the errands of a step are some of those that are all apart.
  have after {name : String} {es : List Errand} (some : List.Sublist es p.ownErrands) :
      ((namespaceErrand name :: es).map Errand.path).Nodup := by
    rw [List.map_cons, List.nodup_cons]
    refine ⟨?_, own.sublist (some.map _)⟩
    intro listed
    obtain ⟨e, member, same⟩ := List.mem_map.mp listed
    exact own_ne_namespace (some.subset member) same
  cases step with
  | rbac =>
    refine after ?_
    simp only [Plan.ownErrands, Plan.otherErrands, List.append_assoc]
    exact List.sublist_append_left _ _
  | operator =>
    refine after ?_
    have split : p.ownErrands = appliedErrands p.rights.objects ++
        ((appliedErrands p.operator.objects ++ [p.operator.upsert.errand]) ++
          [(BrokerObject.upsert p.namespaceName p.broker).errand, p.recordErrand]) := by
      simp [Plan.ownErrands, Plan.otherErrands]
    rw [split]
    exact (List.sublist_append_left _ _).trans (List.sublist_append_right _ _)
  | broker => exact List.nodup_singleton _
  | globalnet => exact List.nodup_singleton _

theorem errands_ne_nil : p.errands step ≠ [] := by
  cases step <;> simp [Plan.errands]

structure Tells (managed : List Path) (outcome : Outcome) (s s' : Server) : Prop where
  unchanged : outcome = .unchanged ↔ s'.objects = s.objects
  created : outcome = .created ↔ ∀ path ∈ managed, s.objects.find? path = none
  updated : outcome = .updated ↔
    s'.objects ≠ s.objects ∧ ∃ path ∈ managed, s.objects.find? path ≠ none

theorem forall_created_iff {es : List Errand} {outcomes : List Outcome} {absent : Errand → Prop}
    (told : List.Forall₂ (fun e o => o = .created ↔ absent e) es outcomes) :
    (∀ o ∈ outcomes, o = .created) ↔ ∀ e ∈ es, absent e := by
  induction told with
  | nil => simp
  | cons here _ ih => rw [List.forall_mem_cons, List.forall_mem_cons, here, ih]

theorem tells_of_work {outcome : Outcome} (quiet : s.faults = []) (stamped : ∀ path, Stamped path s)
    (ran : runOn s (work clusterAppliers p step) = (some (.ok outcome), s')) :
    Tells (p.managed step) outcome s s' ∧ Account (outcome ≠ .unchanged) s s' ∧
      s'.faults = [] := by
  rw [work_eq, runOn_map_ok_iff] at ran
  obtain ⟨outcomes, ran, rfl⟩ := ran
  obtain ⟨told, account, quiet'⟩ := Errand.truthful_of_performAll (fun _ => errands_lawful)
    (fun _ => errands_candid) nodup_managed quiet stamped (fun _ _ => rfl) ran
  have nonempty : outcomes ≠ [] := by
    rintro rfl
    exact errands_ne_nil (List.forall₂_nil_right_iff.mp told)
  have mutated : (∃ o ∈ outcomes, o ≠ .unchanged) ↔ Outcome.combine outcomes ≠ .unchanged := by
    rw [Ne, combine_eq_unchanged_iff]
    simp
  have account := account.congr mutated
  have unchanged : Outcome.combine outcomes = .unchanged ↔ s'.objects = s.objects := by
    rw [account.objects_eq_iff stamped]
    simp
  have created : Outcome.combine outcomes = .created ↔
      ∀ path ∈ p.managed step, s.objects.find? path = none := by
    rw [combine_eq_created_iff nonempty, forall_created_iff told]
    simp [Plan.managed]
  refine ⟨⟨unchanged, created, ?_⟩, account, quiet'⟩
  have otherwise : Outcome.combine outcomes = .updated ↔
      Outcome.combine outcomes ≠ .unchanged ∧ Outcome.combine outcomes ≠ .created := by
    cases Outcome.combine outcomes <;> simp
  rw [otherwise, Ne, Ne, unchanged, created]
  simp

inductive Told (p : Plan) : List (Step × Outcome) → Server → Server → Prop
  | done {s : Server} : Told p [] s s
  | step {step : Step} {outcome : Outcome} {rest : List (Step × Outcome)} {s s₁ s' : Server}
      (ran : runOn s (work clusterAppliers p step) = (some (.ok outcome), s₁))
      (tells : Tells (p.managed step) outcome s s₁) (later : Told p rest s₁ s') :
      Told p ((step, outcome) :: rest) s s'

theorem told_of_inTurn {done : List (Step × Outcome)} (quiet : s.faults = [])
    (stamped : ∀ path, Stamped path s)
    (ran : runOn s (inTurn cluster (work clusterAppliers p) steps) = (some (.ok done), s')) :
    done.map Prod.fst = steps ∧ Told p done s s' ∧
      Account (∃ entry ∈ done, entry.2 ≠ .unchanged) s s' := by
  induction steps generalizing s done with
  | nil =>
    cases ran
    exact ⟨rfl, .done, .refl (by simp)⟩
  | cons step rest ih =>
    rw [inTurn, runOn_bind_ok_iff] at ran
    obtain ⟨outcome, s₁, first, ran⟩ := ran
    rw [runOn_adapt_ok_iff] at first
    rw [runOn_bind_ok_iff] at ran
    obtain ⟨others, s₂, later, done⟩ := ran
    cases done
    obtain ⟨tells, account, quiet₁⟩ := tells_of_work quiet stamped first
    obtain ⟨steps, told, account'⟩ := ih quiet₁ (account.stamped stamped) later
    refine ⟨by simp [steps], .step first tells told, (account.trans account').congr ?_⟩
    simp

theorem inTurn_of_deployBroker {cancelled : Bool} {report : Report}
    (succeeded : Leads (unreliable (following Server.handler))
      (deployBroker options cluster clusterAppliers cancelled) s (.done (.ok report)) s') :
    ∃ p, plan options = .ok p ∧ runOn s (inTurn cluster (work clusterAppliers p) p.steps) =
      (some (.ok report.outcomes), s') := by
  have meets : (deployBroker options cluster clusterAppliers cancelled).Meets
      (unreliable (following Server.handler)) Eq (fun _ _ => True) (fun result s' =>
        ∀ report, result = .ok report → ∃ p, plan options = .ok p ∧
          runOn s (inTurn cluster (work clusterAppliers p) p.steps) =
            (some (.ok report.outcomes), s')) s := by
    unfold deployBroker
    cases planned : plan options with
    | error e => exact meets_tell (fun _ => trivial) fun _ _ _ ok => by cases ok
    | ok p =>
      refine meets_inTurn.imp fun result s' done report ok => ?_
      obtain ⟨outcomes, ran, rfl⟩ := done report ok
      exact ⟨p, rfl, ran⟩
  exact meets.result succeeded report rfl

/-- A deployment that succeeds on a server that answers every request, whose objects all have
versions, reports what it did. -/
theorem told_of_deployBroker {cancelled : Bool} {report : Report} (quiet : s.faults = [])
    (stamped : ∀ path, Stamped path s)
    (succeeded : Leads (unreliable (following Server.handler))
      (deployBroker options cluster clusterAppliers cancelled) s (.done (.ok report)) s') :
    ∃ p, plan options = .ok p ∧ report.outcomes.map Prod.fst = p.steps ∧
      Told p report.outcomes s s' ∧ (report.mutated = false ↔ s'.objects = s.objects) := by
  obtain ⟨p, planned, ran⟩ := inTurn_of_deployBroker succeeded
  obtain ⟨steps, told, account⟩ := told_of_inTurn quiet stamped ran
  refine ⟨p, planned, steps, told, ?_⟩
  rw [account.objects_eq_iff stamped]
  simp [Report.mutated, Outcome.isMutation]

def prepared : Server :=
  let made := (pristine.write (namespaceErrand operatorNamespace).path
    (Kind.namespaces.object [("name", .str operatorNamespace)] [])).2
  (made.write (BrokerObject.upsert brokerNamespace Options.default.broker).path
    (BrokerObject.desired none brokerNamespace Options.default.broker)).2

theorem stamped_prepared : ∀ path, Stamped path prepared := by
  have start : ∀ path, Stamped path pristine := by
    intro path v found
    simp [pristine, Store.find?] at found
  refine stamped_write (stamped_write start ?_) ?_
  · exact Kind.hasMetadata_object Kind.further_nil
  · exact Kind.hasMetadata_object BrokerObject.further_spec

theorem told_of_prepared : ∃ report s' p,
    undisturbed .default "east" (fun _ => none) prepared = (some (.ok report), s') ∧
    report.outcomes = [(.rbac, .created), (.operator, .updated), (.broker, .unchanged)] ∧
    Told p report.outcomes prepared s' ∧ s'.objects ≠ prepared.objects := by
  have ends : (undisturbed .default "east" (fun _ => none) prepared).1 =
      some (.ok ⟨.globalnetDone, [(.rbac, .created), (.operator, .updated),
        (.broker, .unchanged)]⟩) := by decide +kernel
  have succeeded : undisturbed .default "east" (fun _ => none) prepared = (_, _) :=
    Prod.ext ends rfl
  obtain ⟨p, -, -, told, mutated⟩ :=
    told_of_deployBroker rfl stamped_prepared (following_of_undisturbed succeeded)
  refine ⟨_, _, p, succeeded, rfl, told, ?_⟩
  intro same
  cases mutated.mpr same

end Deploy
end MultiCluster
