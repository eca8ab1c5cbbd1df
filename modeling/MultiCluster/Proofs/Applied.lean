import MultiCluster.Proofs.Errand

/-! Applying an object: a patch that goes into whatever is stored. Once it is in, applying it again
changes nothing. -/
namespace MultiCluster.Cluster

open Server (Exchange AboutOnly withVersion versionOf)

/-- An object to apply: it is named, removes no field, and leaves the version to the server. -/
structure Applicable (c : Collection) (name : String) (v : Json) : Prop where
  named : Object.name? v = some name
  proper : v.proper = true
  leavesVersion : Object.leavesVersion v = true
  notMachineSet : c.kind ≠ .machineSet

variable {c : Collection} {name : String} {v w : Json} {s s' : Server} {stored : Option Json}

instance {k : Kind} : Decidable (k.Reads v) :=
  match reading : k.read v with
  | .ok w => isTrue ⟨w, reading⟩
  | .error _ => isFalse fun ⟨_, ok⟩ => by simp [reading] at ok

def applyEffect (k : Kind) (v : Json) (stored : Option Json) : Option (Option Json) :=
  if stored = some (applied v stored) then
    if k.Reads (applied v stored) then some none else none
  else if (∀ w ∈ stored, k.Reads w) ∧ k.Reads (withVersion 0 (applied v stored)) then
    some (some (applied v stored))
  else none

theorem applyEffect_leaves {k : Kind} : applyEffect k v stored = some none ↔
    stored = some (applied v stored) ∧ k.Reads (applied v stored) := by
  unfold applyEffect
  split
  · next same => simp [← same]
  · next other => simp [other]

theorem applyEffect_writes {k : Kind} {u : Json} : applyEffect k v stored = some (some u) ↔
    stored ≠ some (applied v stored) ∧ (∀ w ∈ stored, k.Reads w) ∧
      k.Reads (withVersion 0 (applied v stored)) ∧ u = applied v stored := by
  unfold applyEffect
  split
  · next same => simp [← same]
  · next other => simp [other, and_assoc, eq_comm]

def applyErrand (c : Collection) (name : String) (v : Json) : Errand where
  work := persistently (c.apply v)
  path := c.member name
  effect := applyEffect c.kind v

namespace Applicable

variable (ok : Applicable c name v)
include ok

theorem within_applied : Json.Within (applied v stored) v :=
  Json.within_mergePatch _ _ ok.proper

theorem hasMetadata_applied : Object.HasMetadata (applied v stored) :=
  Server.hasMetadata_of_within ok.within_applied ok.leavesVersion

theorem reads_applied {m : Nat} (n : Nat) (reads : c.kind.Reads (withVersion m (applied v stored))) :
    c.kind.Reads (withVersion n (applied v stored)) :=
  Kind.reads_withVersion ok.notMachineSet ok.hasMetadata_applied reads

/-- Applying the object to what it was applied to changes nothing, whatever the version. -/
theorem applied_withVersion (n : Nat) :
    applied v (some (withVersion n (applied v stored))) = withVersion n (applied v stored) :=
  Json.mergePatch_of_within _ _ ok.proper
    (Server.within_withVersion ok.proper ok.within_applied ok.leavesVersion)

theorem rests_written (n : Nat) (reads : c.kind.Reads (withVersion n (applied v stored))) :
    (applyErrand c name v).Rests (some (withVersion n (applied v stored))) := by
  simp [Errand.Rests, applyErrand, applyEffect, ok.applied_withVersion, reads]

theorem versioned_written (n : Nat) : Versioned (some (withVersion n (applied v stored))) := by
  rintro _ ⟨⟩
  simp [Server.versionOf_withVersion ok.hasMetadata_applied]

theorem apply_eq : c.apply v = (do
    let before ← c.find? (c.label name) name
    let after ← c.serverApply (c.label name) name v
    pure (Outcome.ofVersions (before.map Object.version?) (Object.version? after))) := by
  unfold Collection.apply
  rw [ok.named]

theorem asks : (persistently (c.apply v)).run.Asks (AboutOnly (c.member name)) := by
  refine asks_persistently ?_ fun _ _ same => by cases same
  rw [ok.apply_eq]
  refine asks_bind (asks_exchange.imp ?_) fun _ => asks_bind (asks_exchange.imp ?_) fun _ => trivial
  · rintro _ rfl _ ⟨⟩
    rfl
  · rintro _ rfl _ ⟨⟩
    rfl

theorem runOn_apply {before : Option Json} (quiet : s.faults = [])
    (read : c.kind.readStored (s.objects.find? (c.member name)) = .ok before) :
    runOn s (c.apply v) = (some ((blame (c.label name)
        (Reply.read c.kind.read (s.serve (c.applyRequest name v)).1)).map fun after =>
      Outcome.ofVersions (before.map Object.version?) (Object.version? after)),
      (s.serve (c.applyRequest name v)).2) := by
  rw [ok.apply_eq, runOn_bind_of_ok ((runOn_find? quiet).trans (by rw [read])), runOn_bind,
    Collection.serverApply, runOn_exchange quiet]
  cases blame (c.label name) (Reply.read c.kind.read (s.serve (c.applyRequest name v)).1) <;> rfl

theorem runOn_apply_unread {e : Error} (quiet : s.faults = [])
    (unread : c.kind.readStored (s.objects.find? (c.member name)) = .error e) :
    runOn s (c.apply v) = (some (.error e), s) := by
  rw [ok.apply_eq]
  exact runOn_bind_of_error ((runOn_find? quiet).trans (by rw [unread]))

theorem runOn_apply_kept {before : Option Json} (quiet : s.faults = [])
    (read : c.kind.readStored (s.objects.find? (c.member name)) = .ok before)
    (kept : s.objects.find? (c.member name) = some (applied v (s.objects.find? (c.member name)))) :
    runOn s (c.apply v) = (some ((c.kind.readBack
        (applied v (s.objects.find? (c.member name)))).map fun after =>
      Outcome.ofVersions (before.map Object.version?) (Object.version? after)), s) := by
  rw [ok.runOn_apply quiet read, serve_applyRequest, if_pos kept, blame_read_document]

theorem runOn_apply_new {before : Option Json} (quiet : s.faults = [])
    (read : c.kind.readStored (s.objects.find? (c.member name)) = .ok before)
    (new : s.objects.find? (c.member name) ≠ some (applied v (s.objects.find? (c.member name)))) :
    runOn s (c.apply v) = (some ((c.kind.readBack (withVersion (s.version + 1)
        (applied v (s.objects.find? (c.member name))))).map fun after =>
      Outcome.ofVersions (before.map Object.version?) (Object.version? after)),
      (s.write (c.member name) (applied v (s.objects.find? (c.member name)))).2) := by
  rw [ok.runOn_apply quiet read, serve_applyRequest, if_neg new]
  simp only [Server.write, blame_read_document]

end Applicable

theorem readBack_of_read {k : Kind} (reading : k.read v = .ok w) : k.readBack v = .ok w := by
  simp [Kind.readBack, reading]

theorem reads_of_readBack {k : Kind} (reading : k.readBack v = .ok w) : k.Reads v := by
  unfold Kind.readBack at reading
  cases read : k.read v with
  | ok u => exact ⟨u, read⟩
  | error detail => simp [read] at reading

theorem reads_of_readStored {k : Kind} {before : Option Json}
    (found : k.readStored stored = .ok before) : ∀ w ∈ stored, k.Reads w := by
  rintro w rfl
  cases reading : k.readBack w with
  | ok u => exact reads_of_readBack reading
  | error e => simp [Kind.readStored, reading, Except.map] at found

theorem readStored_of_reads {k : Kind} (reads : ∀ w ∈ stored, k.Reads w) :
    ∃ before, k.readStored stored = .ok before := by
  cases stored with
  | none => exact ⟨none, rfl⟩
  | some v =>
    obtain ⟨w, reading⟩ := reads v rfl
    exact ⟨some w, by simp [Kind.readStored, readBack_of_read reading, Except.map]⟩

namespace Applicable

variable (ok : Applicable c name v)
include ok

theorem leaves (quiet : s.faults = [])
    (rests : (applyErrand c name v).Rests (s.objects.find? (c.member name))) :
    ∃ outcome, runOn s (c.apply v) = (some (.ok outcome), s) ∧
      (Versioned (s.objects.find? (c.member name)) → outcome = .unchanged) := by
  obtain ⟨stored, w, reading⟩ := applyEffect_leaves.mp rests
  have found : c.kind.readStored (s.objects.find? (c.member name)) = .ok (some w) := by
    rw [stored]
    simp [Kind.readStored, readBack_of_read reading, Except.map]
  rw [ok.runOn_apply_kept quiet found stored, readBack_of_read reading]
  refine ⟨_, rfl, fun versioned => ?_⟩
  have version := versioned _ stored
  rw [← Kind.version?_of_read ok.notMachineSet reading] at version
  simp [Outcome.ofVersions, version]

theorem writes {u : Json} (quiet : s.faults = [])
    (goal : applyEffect c.kind v (s.objects.find? (c.member name)) = some (some u)) :
    ∃ outcome, runOn s (c.apply v) = (some (.ok outcome), (s.write (c.member name) u).2) := by
  obtain ⟨new, before, after, rfl⟩ := applyEffect_writes.mp goal
  obtain ⟨found, readBefore⟩ := readStored_of_reads before
  obtain ⟨w, reading⟩ := ok.reads_applied (s.version + 1) after
  rw [ok.runOn_apply_new quiet readBefore new, readBack_of_read reading]
  exact ⟨_, rfl⟩

theorem fails (quiet : s.faults = [])
    (fails : applyEffect c.kind v (s.objects.find? (c.member name)) = none) :
    ∃ error s', error.isTransient = false ∧ runOn s (c.apply v) = (some (.error error), s') := by
  cases found : c.kind.readStored (s.objects.find? (c.member name)) with
  | error e => exact ⟨e, s, readStored_final found, ok.runOn_apply_unread quiet found⟩
  | ok before =>
    by_cases kept : s.objects.find? (c.member name) =
        some (applied v (s.objects.find? (c.member name)))
    · have ran := ok.runOn_apply_kept quiet found kept
      cases reading : c.kind.readBack (applied v (s.objects.find? (c.member name))) with
      | error e => exact ⟨e, s, readBack_final reading, by rw [ran, reading]; rfl⟩
      | ok w =>
        rw [applyEffect_leaves.mpr ⟨kept, reads_of_readBack reading⟩] at fails
        cases fails
    · have ran := ok.runOn_apply_new quiet found kept
      cases reading : c.kind.readBack
          (withVersion (s.version + 1) (applied v (s.objects.find? (c.member name)))) with
      | error e => exact ⟨e, _, readBack_final reading, by rw [ran, reading]; rfl⟩
      | ok w =>
        have after := ok.reads_applied 0 (reads_of_readBack reading)
        rw [applyEffect_writes.mpr ⟨kept, reads_of_readStored found, after, rfl⟩] at fails
        cases fails

theorem asks_patch : (persistently (c.apply v)).run.Asks fun call : Call =>
    Looks call ∨ call = .send (c.applyRequest name v) := by
  refine asks_persistently ?_ fun _ => .inl fun _ same => by cases same
  rw [ok.apply_eq]
  refine asks_bind (asks_exchange.imp ?_) fun _ => asks_bind (asks_exchange.imp ?_) fun _ => trivial
  · rintro _ rfl
    exact .inl fun _ same => Call.send.inj same ▸ rfl
  · exact fun _ => .inr

theorem halfway_patch {goal before : Option Json} (known : applyEffect c.kind v before = some goal)
    (halfway : Errand.Halfway before goal (s.objects.find? (c.member name))) :
    Errand.Halfway before goal
      ((s.serve (c.applyRequest name v)).2.objects.find? (c.member name)) := by
  rw [serve_applyRequest]
  rcases halfway with same | ⟨u, n, rfl, written⟩
  · rw [same]
    split
    · exact .inl same
    · next new =>
      cases goal with
      | none => exact absurd (applyEffect_leaves.mp known).1 new
      | some u =>
        obtain ⟨-, -, -, rfl⟩ := applyEffect_writes.mp known
        exact .inr ⟨_, _, rfl, Server.find?_write_self⟩
  · obtain ⟨-, -, -, rfl⟩ := applyEffect_writes.mp known
    rw [written, if_pos (by rw [ok.applied_withVersion])]
    exact .inr ⟨_, n, rfl, written⟩

theorem disturbed {goal : Option Json}
    (known : applyEffect c.kind v (s.objects.find? (c.member name)) = some goal) :
    (persistently (c.apply v)).run.Meets Exchange Eq
      (fun _ s' => Errand.Halfway (s.objects.find? (c.member name)) goal
        (s'.objects.find? (c.member name)))
      (fun _ s' => Errand.Halfway (s.objects.find? (c.member name)) goal
        (s'.objects.find? (c.member name))) s := by
  refine ok.asks_patch.keeps ?_ (.inl rfl)
  intro call s₁ reply s₂ asked came halfway
  rcases came.cases with rfl | ⟨r, rfl, rfl⟩
  · exact halfway
  · rcases asked with look | patch
    · simpa [Server.serve, look r rfl] using halfway
    · rw [Call.send.inj patch]
      exact ok.halfway_patch known halfway

/-- A patch that was answered with an object is in, and applying it again would change nothing. -/
theorem rests_of_answer (versioned : Versioned (s.objects.find? (c.member name)))
    (answer : Reply.read c.kind.read (s.serve (c.applyRequest name v)).1 = .ok w) :
    (applyErrand c name v).Rests
        ((s.serve (c.applyRequest name v)).2.objects.find? (c.member name)) ∧
      Versioned ((s.serve (c.applyRequest name v)).2.objects.find? (c.member name)) := by
  rw [serve_applyRequest] at answer ⊢
  split at answer
  · next same =>
    rw [if_pos same]
    have reads : c.kind.Reads (applied v (s.objects.find? (c.member name))) := by
      exact reads_of_readBack (blame_read_document.symm.trans (congrArg (blame name) answer))
    exact ⟨applyEffect_leaves.mpr ⟨same, reads⟩, versioned⟩
  · next new =>
    rw [if_neg new, Server.find?_write_self]
    have reads : c.kind.Reads
        (withVersion (s.version + 1) (applied v (s.objects.find? (c.member name)))) := by
      exact reads_of_readBack (blame_read_document.symm.trans (congrArg (blame name) answer))
    exact ⟨ok.rests_written _ reads, ok.versioned_written _⟩

theorem versioned_patch (versioned : Versioned (s.objects.find? (c.member name))) :
    Versioned ((s.serve (c.applyRequest name v)).2.objects.find? (c.member name)) := by
  rw [serve_applyRequest]
  split
  · exact versioned
  · rw [Server.find?_write_self]
    exact ok.versioned_written _

theorem succeeds (versioned : Versioned (s.objects.find? (c.member name))) :
    (persistently (c.apply v)).run.Meets Exchange Eq (fun _ _ => True) (fun result s' => ∀ outcome,
      result = .ok outcome → (applyErrand c name v).Rests (s'.objects.find? (c.member name)) ∧
        Versioned (s'.objects.find? (c.member name))) s := by
  refine meets_persistently (K := fun s => Versioned (s.objects.find? (c.member name)))
    (fun _ _ => trivial) (fun _ _ ready same => same ▸ ready) ?_ versioned
  intro s₁ ready
  rw [ok.apply_eq]
  have looks : (c.find? (c.label name) name).run.Asks Looks :=
    asks_exchange.imp fun call same r sent => by
      subst same
      exact Call.send.inj sent ▸ rfl
  refine meets_bind ((meets_of_looks looks).mono (fun _ _ _ => trivial) ?_)
  rintro result _ rfl
  cases result with
  | error e => exact ⟨by simp, fun _ _ => ready⟩
  | ok before =>
    simp only
    refine meets_bind (meets_exchange ?_)
    rintro s₂ rfl reply s₃ came
    refine ⟨trivial, ?_⟩
    cases answer : Reply.read c.kind.read reply with
    | ok after =>
      obtain ⟨rfl, rfl⟩ := answered_of_read came answer
      have done := ok.rests_of_answer ready answer
      exact ⟨fun _ _ => done, fun _ _ => done.2⟩
    | error e =>
      refine ⟨by simp, fun _ _ => ?_⟩
      rcases came.cases with rfl | ⟨r, sent, rfl⟩
      · exact ready
      · rw [← Call.send.inj sent]
        exact ok.versioned_patch ready

end Applicable

theorem applyErrand_lawful (ok : Applicable c name v) : (applyErrand c name v).Lawful := by
  constructor
  case asks => exact ok.asks
  case leaves =>
    intro s quiet rests
    obtain ⟨outcome, ran, unchanged⟩ := ok.leaves quiet rests
    exact ⟨outcome, runOn_persistently ran (by simp), unchanged⟩
  case writes =>
    intro s u quiet goal
    obtain ⟨outcome, ran⟩ := ok.writes quiet goal
    exact ⟨outcome, runOn_persistently ran (by simp)⟩
  case fails =>
    intro s quiet fails
    obtain ⟨error, s', final, ran⟩ := ok.fails quiet fails
    exact ⟨error, s', runOn_persistently ran (by simpa using final)⟩
  case settled =>
    intro stored u goal n
    obtain ⟨-, -, after, rfl⟩ := applyEffect_writes.mp goal
    exact ok.rests_written n (ok.reads_applied n after)
  case stamped =>
    intro stored u goal n
    obtain ⟨-, -, -, rfl⟩ := applyEffect_writes.mp goal
    exact ok.versioned_written n
  case disturbed =>
    intro s goal known
    exact ok.disturbed known
  case succeeds =>
    intro s versioned
    exact ok.succeeds versioned

end MultiCluster.Cluster
