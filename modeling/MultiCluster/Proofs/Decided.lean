import MultiCluster.Proofs.SharedRecord

/-! Decisions about the stored globalnet record are final. Once one has been carried out, the same
request finds the record that it wants. -/
namespace MultiCluster.Globalnet

open Cluster

namespace Record

variable {d r : Record} {ns : String} {s s' : Server} {outcome : Outcome} {existing : Option Record}
  {decision : Decision} {v w : Json} {n : Nat}

/-- What is stored once a decision has been carried out. A record that is replaced keeps the blocks
that clusters hold. -/
def carriedOut (existing : Option Record) (d : Record) : Decision → Option Record
  | .create => some d
  | .update => existing.map fun e => { d with clusters := e.clusters }
  | .unchanged => existing

theorem checkExisting_carriedOut (decided : checkExisting existing d ns = .ok decision) :
    checkExisting (carriedOut existing d decision) d ns = .ok .unchanged := by
  cases decision with
  | create => exact checkExisting_self
  | update =>
    cases existing with
    | none => cases decided
    | some e => exact checkExisting_self
  | unchanged => exact decided

/-- A stored map will do exactly if its record is the one that is wanted. -/
theorem judged_of_keeps {will : Bool} (read : ofConfigMap w = .ok r)
    (kept : (upsert ns d).keeps w = .ok will) :
    checkExisting (some r) d ns = .ok (if will then .unchanged else .update) := by
  rw [keeps_of_record read] at kept
  rcases checkExisting_cases r d ns with ⟨-, verdict⟩ | ⟨-, verdict⟩ | ⟨-, m, verdict⟩
  · rw [verdict] at kept
    cases kept
    exact verdict
  · rw [verdict] at kept
    cases kept
    exact verdict
  · rw [verdict] at kept
    cases kept

/-- A map that is stored for a record is read as that record, whatever version it was bound to. -/
theorem held?_write (version : Option String)
    (reads : Kind.configMap.Reads (Server.withVersion 0 (r.toConfigMap ns))) :
    held? ns (s.write (path ns) (Object.withVersion version (r.toConfigMap ns))).2 = some r := by
  obtain ⟨w, reading⟩ := Kind.reads_withVersion (n := s.version + 1) (by decide)
    (Kind.hasMetadata_object further_data) reads
  refine held?_eq_some_iff.mpr ⟨_, w, Server.find?_write_self, ?_, ofConfigMap_of_read reading⟩
  rw [withVersion_bound]
  exact reading

/-- What is stored afterwards is what carrying out the decision makes of what was stored. -/
theorem carriedOut_of_ensureStored (quiet : s.faults = [])
    (ran : runOn s (ensureStored ns d) = (some (.ok outcome), s')) :
    ∃ decision, checkExisting (held? ns s) d ns = .ok decision ∧
      held? ns s' = carriedOut (held? ns s) d decision := by
  rw [ensureStored_eq] at ran
  have sound : (upsert ns d).Sound := upsert_sound
  cases known : (upsert ns d).effect (s.objects.find? (upsert ns d).path) with
  | none =>
    obtain ⟨e, t, failed⟩ := sound.fails quiet known
    rw [failed] at ran
    cases ran
  | some goal =>
    cases goal with
    | none =>
      rw [Upsert.Sound.leaves quiet known] at ran
      cases ran
      obtain ⟨x, w, found, reading, kept⟩ := Upsert.effect_leaves known
      cases read : ofConfigMap w with
      | error e => simp [upsert, read] at kept
      | ok r =>
        have held : held? ns s = some r := held?_eq_some_iff.mpr ⟨x, w, found, reading, read⟩
        rw [held]
        exact ⟨.unchanged, judged_of_keeps read kept, rfl⟩
    | some v =>
      obtain ⟨outcome', wrote⟩ := sound.writes quiet known
      rw [wrote] at ran
      cases ran
      obtain ⟨reads, ⟨absent, rfl⟩ | ⟨x, w, found, reading, wanting, rfl⟩⟩ :=
        Upsert.effect_writes known
      · have empty : held? ns s = none := by
          rw [held?, show s.objects.find? (path ns) = none from absent]
          rfl
        rw [empty]
        exact ⟨.create, rfl, held?_write none reads⟩
      · obtain ⟨r, read, alone⟩ := alone_of_wanting wanting
        have held : held? ns s = some r := held?_eq_some_iff.mpr ⟨x, w, found, reading, read⟩
        rw [replacement_eq wanting] at reads ⊢
        rw [withVersion_bound] at reads
        rw [held]
        refine ⟨.update, judged_of_keeps read wanting, ?_⟩
        rw [carriedOut, Option.map_some, alone]
        exact held?_write _ reads

theorem ensureStored_unchanged (quiet : s.faults = [])
    (agreed : checkExisting (held? ns s) d ns = .ok .unchanged) :
    runOn s (ensureStored ns d) = (some (.ok .unchanged), s) := by
  cases held : held? ns s with
  | none =>
    rw [held] at agreed
    cases agreed
  | some r =>
    obtain ⟨v, w, found, reading, read⟩ := held?_eq_some_iff.mp held
    have kept : (upsert ns d).keeps w = .ok true := by
      rw [keeps_of_record read, ← held, agreed]
      rfl
    have rests : (upsert ns d).effect (s.objects.find? (upsert ns d).path) = some none := by
      rw [show s.objects.find? (upsert ns d).path = some v from found]
      exact Upsert.rests_of_kept reading kept
    rw [ensureStored_eq]
    exact Upsert.Sound.leaves quiet rests

end Record

open Record (carriedOut held? ensureStored)

/-- A record is created where there is none. A stored one is replaced if it holds nothing yet, or if
only its size differs and no cluster has joined; it is left alone exactly if it agrees with what is
wanted, and conflicts in every other case. Ranges agree as networks or else as texts, which is an
equivalence. Once the decision has been carried out, which is what writing the record does, the same
request changes nothing. -/
theorem checkExisting_decides (d : Record) (ns : String) :
    checkExisting none d ns = .ok .create ∧
    (∀ e, (checkExisting (some e) d ns = .ok .update ↔ Replaceable e d) ∧
      (checkExisting (some e) d ns = .ok .unchanged ↔ Matches e d) ∧
      (¬Replaceable e d → ¬Matches e d →
        ∃ m, checkExisting (some e) d ns = .error (.conflictingState ns m))) ∧
    ((∀ a b, sameRange a b = true ↔ Agree a b) ∧ Equivalence Agree) ∧
    (∀ existing decision, checkExisting existing d ns = .ok decision →
      checkExisting (carriedOut existing d decision) d ns = .ok .unchanged) ∧
    ∀ s s' outcome, s.faults = [] → runOn s (ensureStored ns d) = (some (.ok outcome), s') →
      (∃ decision, checkExisting (held? ns s) d ns = .ok decision ∧
        held? ns s' = carriedOut (held? ns s) d decision) ∧
      runOn s' (ensureStored ns d) = (some (.ok .unchanged), s') := by
  refine ⟨rfl, fun e => ⟨checkExisting_update_iff, checkExisting_unchanged_iff, ?_⟩,
    ⟨fun a b => sameRange_iff, agree_equivalence⟩, fun existing decision decided =>
    Record.checkExisting_carriedOut decided, ?_⟩
  · intro fixed other
    rcases checkExisting_cases e d ns with ⟨replaceable, -⟩ | ⟨same, -⟩ | ⟨-, conflict⟩
    · exact absurd replaceable fixed
    · exact absurd same other
    · exact conflict
  · intro s s' outcome quiet ran
    obtain ⟨decision, decided, held⟩ := Record.carriedOut_of_ensureStored quiet ran
    refine ⟨⟨decision, decided, held⟩, Record.ensureStored_unchanged ?_ ?_⟩
    · have after := faults_run (p := (ensureStored ns d).run) quiet
      rwa [show (ensureStored ns d).run.run Server.handler s = _ from ran] at after
    · rw [held]
      exact Record.checkExisting_carriedOut decided

def freshRecord : Record := ⟨true, "242.0.0.0/8", 65536, []⟩

def resizedRecord : Record := ⟨true, " 242.0.0.0/8", 1024, []⟩

/-- A smaller size is taken over once, and not at all after a cluster has joined. -/
theorem checkExisting_resized :
    checkExisting (some freshRecord) resizedRecord "ns" = .ok .update ∧
    checkExisting (some resizedRecord) resizedRecord "ns" = .ok .unchanged ∧
    (∃ m, checkExisting (some { freshRecord with clusters := [⟨"west", ["242.0.0.0/16"]⟩] })
      resizedRecord "ns" = .error (.conflictingState "ns" m)) ∧
    ∃ s, runOn ⟨[], [], 0, []⟩ (ensureStored "ns" resizedRecord) = (some (.ok .created), s) ∧
      runOn s (ensureStored "ns" resizedRecord) = (some (.ok .unchanged), s) := by
  obtain ⟨-, decides, ⟨agree, -⟩, stable, again⟩ := checkExisting_decides resizedRecord "ns"
  have range : Agree freshRecord.range resizedRecord.range := (agree _ _).mp (by decide)
  have update : checkExisting (some freshRecord) resizedRecord "ns" = .ok .update :=
    (decides freshRecord).1.mpr (.resized rfl range (by decide) rfl)
  refine ⟨update, stable (some freshRecord) .update update, (decides _).2.2 ?_ ?_, ?_⟩
  · intro replaceable
    cases replaceable.alone
  · intro same
    exact absurd same.size (by decide)
  · have ran : (runOn ⟨[], [], 0, []⟩ (ensureStored "ns" resizedRecord)).1 = some (.ok .created) := by
      decide +kernel
    exact ⟨_, Prod.ext ran rfl, (again _ _ _ rfl (Prod.ext ran rfl)).2⟩

end MultiCluster.Globalnet
