import MultiCluster.Proofs.Applied

/-! Looking at an object and then creating it, replacing it or leaving it. What was written passes
for what is wanted when it is looked at again. -/
namespace MultiCluster.Cluster

open Server (Exchange AboutOnly withVersion versionOf)

structure Upsert where
  collection : Collection
  name : String
  /-- Written where nothing is stored. -/
  created : Json
  /-- Whether a stored object will do; an error if it must not be replaced either. -/
  keeps : Json → Except Error Bool
  /-- Written over a stored object that will not do. -/
  replacement : Json → Json

namespace Upsert

def path (u : Upsert) : Path := u.collection.member u.name

def label (u : Upsert) : String := u.collection.label u.name

def settle (u : Upsert) : Option Json → Work Outcome
  | none => do
    let _ ← persistently (u.collection.create u.label u.created)
    pure .created
  | some w =>
    match u.keeps w with
    | .error e => throw e
    | .ok true => pure .unchanged
    | .ok false => do
      let _ ← persistently (u.collection.replace u.label u.name (u.replacement w))
      pure .updated

def work (u : Upsert) : Work Outcome := do
  let existing ← persistently (u.collection.find? u.label u.name)
  u.settle existing

def check (u : Upsert) : Work Unit := do
  let existing ← persistently (u.collection.find? u.label u.name)
  match existing with
  | none => pure ()
  | some w =>
    match u.keeps w with
    | .error e => throw e
    | .ok _ => pure ()

def effect (u : Upsert) : Option Json → Option (Option Json)
  | none => if u.collection.kind.Reads (withVersion 0 u.created) then some (some u.created) else none
  | some v =>
    match u.collection.kind.read v with
    | .error _ => none
    | .ok w =>
      match u.keeps w with
      | .error _ => none
      | .ok true => some none
      | .ok false =>
        if u.collection.kind.Reads (withVersion 0 (u.replacement w)) then
          some (some (u.replacement w))
        else none

def errand (u : Upsert) : Errand := ⟨u.work, u.path, u.effect⟩

/-- What is written has the right name, is bound to what was read if to anything, and will do once
it is stored. -/
structure Sound (u : Upsert) : Prop where
  named : Object.name? u.created = some u.name
  notMachineSet : u.collection.kind ≠ .machineSet
  createdMetadata : Object.HasMetadata u.created
  createdKept (n : Nat) {w : Json}
    (reading : u.collection.kind.read (withVersion n u.created) = .ok w) : u.keeps w = .ok true
  replacementMetadata {w : Json} (wanting : u.keeps w = .ok false) :
    Object.HasMetadata (u.replacement w)
  bound {v w : Json} (reading : u.collection.kind.read v = .ok w)
    (wanting : u.keeps w = .ok false) :
    versionOf (u.replacement w) = none ∨ versionOf (u.replacement w) = Object.version? w
  replacementKept {w w' : Json} (wanting : u.keeps w = .ok false) (n : Nat)
    (reading : u.collection.kind.read (withVersion n (u.replacement w)) = .ok w') :
    u.keeps w' = .ok true

variable {u : Upsert} {s s' : Server} {v w : Json} {stored : Option Json}

theorem rests_of_kept (reading : u.collection.kind.read v = .ok w) (kept : u.keeps w = .ok true) :
    u.effect (some v) = some none := by
  simp [effect, reading, kept]

theorem effect_writes (goal : u.effect stored = some (some v)) :
    u.collection.kind.Reads (withVersion 0 v) ∧ (stored = none ∧ v = u.created ∨
      ∃ x w, stored = some x ∧ u.collection.kind.read x = .ok w ∧ u.keeps w = .ok false ∧
        v = u.replacement w) := by
  cases stored with
  | none =>
    simp only [effect] at goal
    split at goal
    · next reads =>
      obtain rfl := Option.some.inj (Option.some.inj goal)
      exact ⟨reads, .inl ⟨rfl, rfl⟩⟩
    · cases goal
  | some x =>
    simp only [effect] at goal
    cases reading : u.collection.kind.read x with
    | error detail => simp [reading] at goal
    | ok w =>
      simp only [reading] at goal
      split at goal
      · cases goal
      · simp at goal
      · next wanting =>
        split at goal
        · next reads =>
          obtain rfl := Option.some.inj (Option.some.inj goal)
          exact ⟨reads, .inr ⟨x, w, rfl, reading, wanting, rfl⟩⟩
        · cases goal

theorem effect_leaves (rests : u.effect stored = some none) : ∃ x w, stored = some x ∧
    u.collection.kind.read x = .ok w ∧ u.keeps w = .ok true := by
  cases stored with
  | none =>
    simp only [effect] at rests
    split at rests <;> simp at rests
  | some x =>
    simp only [effect] at rests
    cases reading : u.collection.kind.read x with
    | error detail => simp [reading] at rests
    | ok w =>
      simp only [reading] at rests
      split at rests
      · cases rests
      · next kept => exact ⟨x, w, rfl, reading, kept⟩
      · split at rests <;> simp at rests

theorem goal_of_absent {goal : Option Json} (known : u.effect none = some goal) :
    goal = some u.created := by
  simp only [effect] at known
  split at known
  · exact (Option.some.inj known).symm
  · cases known

theorem goal_of_wanting {goal : Option Json} (known : u.effect (some v) = some goal)
    (reading : u.collection.kind.read v = .ok w) (wanting : u.keeps w = .ok false) :
    goal = some (u.replacement w) := by
  simp only [effect, reading, wanting] at known
  split at known
  · exact (Option.some.inj known).symm
  · cases known

namespace Sound

variable (sound : u.Sound)
include sound

theorem hasMetadata (goal : u.effect stored = some (some v)) : Object.HasMetadata v := by
  obtain ⟨-, ⟨-, rfl⟩ | ⟨x, w, -, -, wanting, rfl⟩⟩ := effect_writes goal
  · exact sound.createdMetadata
  · exact sound.replacementMetadata wanting

theorem settled (goal : u.effect stored = some (some v)) (n : Nat) :
    u.effect (some (withVersion n v)) = some none := by
  obtain ⟨reads, written⟩ := effect_writes goal
  obtain ⟨w', reading⟩ :=
    Kind.reads_withVersion (n := n) sound.notMachineSet (sound.hasMetadata goal) reads
  refine rests_of_kept reading ?_
  rcases written with ⟨-, rfl⟩ | ⟨x, w, -, -, wanting, rfl⟩
  · exact sound.createdKept n reading
  · exact sound.replacementKept wanting n reading

theorem stamped (goal : u.effect stored = some (some v)) (n : Nat) :
    Versioned (some (withVersion n v)) := by
  rintro _ ⟨⟩
  simp [Server.versionOf_withVersion (sound.hasMetadata goal)]

omit sound in
theorem asks_find? : (persistently (u.collection.find? u.label u.name)).run.Asks
    fun call : Call => AboutOnly u.path call ∧ Looks call := by
  refine asks_persistently (asks_exchange.imp ?_) fun _ => ⟨fun _ same => ?_, fun _ same => ?_⟩
  · rintro _ rfl
    exact ⟨fun _ same => Call.send.inj same ▸ rfl, fun _ same => Call.send.inj same ▸ rfl⟩
  · cases same
  · cases same

theorem asks : u.work.run.Asks (AboutOnly u.path) := by
  refine asks_bind (asks_find?.imp fun _ both => both.1) fun existing => ?_
  cases existing with
  | none =>
    refine asks_bind (asks_persistently (asks_exchange.imp ?_) fun _ _ same => ?_) fun _ => trivial
    · rintro _ rfl _ same
      exact Call.send.inj same ▸ target_createRequest sound.named
    · cases same
  | some w =>
    simp only [settle]
    split
    · trivial
    · trivial
    · refine asks_bind (asks_persistently (asks_exchange.imp ?_) fun _ _ same => ?_) fun _ => trivial
      · rintro _ rfl _ same
        exact Call.send.inj same ▸ rfl
      · cases same

omit sound in
theorem runOn_work (quiet : s.faults = []) : runOn s u.work =
    match u.collection.kind.readStored (s.objects.find? u.path) with
    | .ok existing => runOn s (u.settle existing)
    | .error e => (some (.error e), s) := by
  unfold work
  rw [runOn_bind, runOn_persistently_find? quiet]
  rw [show u.collection.member u.name = u.path from rfl]
  cases u.collection.kind.readStored (s.objects.find? u.path) <;> rfl

omit sound in
theorem runOn_work_of_read (quiet : s.faults = []) (found : s.objects.find? u.path = some v)
    (reading : u.collection.kind.read v = .ok w) : runOn s u.work = runOn s (u.settle (some w)) := by
  rw [runOn_work quiet, found]
  simp [Kind.readStored, readBack_of_read reading, Except.map]

theorem runOn_settle_absent (quiet : s.faults = []) (absent : s.objects.find? u.path = none) :
    runOn s (u.settle none) =
      match u.collection.kind.readBack (withVersion (s.version + 1) u.created) with
      | .ok _ => (some (.ok .created), (s.write u.path u.created).2)
      | .error e => (some (.error e), (s.write u.path u.created).2) := by
  unfold settle
  rw [runOn_bind, runOn_create quiet sound.named absent]
  cases u.collection.kind.readBack (withVersion (s.version + 1) u.created) <;> rfl

theorem runOn_settle_replaced (quiet : s.faults = []) (found : s.objects.find? u.path = some v)
    (reading : u.collection.kind.read v = .ok w) (wanting : u.keeps w = .ok false) :
    runOn s (u.settle (some w)) =
      match u.collection.kind.readBack (withVersion (s.version + 1) (u.replacement w)) with
      | .ok _ => (some (.ok .updated), (s.write u.path (u.replacement w)).2)
      | .error e => (some (.error e), (s.write u.path (u.replacement w)).2) := by
  have current : versionOf (u.replacement w) = none ∨ versionOf (u.replacement w) = versionOf v := by
    rw [← Kind.version?_of_read sound.notMachineSet reading]
    exact sound.bound reading wanting
  unfold settle
  simp only [wanting]
  rw [runOn_bind, runOn_replace quiet found current]
  cases u.collection.kind.readBack (withVersion (s.version + 1) (u.replacement w)) <;> rfl

omit sound in
theorem leaves (quiet : s.faults = []) (rests : u.effect (s.objects.find? u.path) = some none) :
    runOn s u.work = (some (.ok .unchanged), s) := by
  obtain ⟨x, w, found, reading, kept⟩ := effect_leaves rests
  rw [runOn_work_of_read quiet found reading]
  simp only [settle, kept]
  rfl

theorem writes (quiet : s.faults = []) (goal : u.effect (s.objects.find? u.path) = some (some v)) :
    ∃ outcome, runOn s u.work = (some (.ok outcome), (s.write u.path v).2) := by
  obtain ⟨reads, written⟩ := effect_writes goal
  obtain ⟨w', readAfter⟩ := Kind.reads_withVersion (n := s.version + 1) sound.notMachineSet
    (sound.hasMetadata goal) reads
  rcases written with ⟨absent, rfl⟩ | ⟨x, w, found, reading, wanting, rfl⟩
  · rw [runOn_work quiet, absent]
    simp only [Kind.readStored]
    rw [sound.runOn_settle_absent quiet absent, readBack_of_read readAfter]
    exact ⟨_, rfl⟩
  · rw [runOn_work_of_read quiet found reading,
      sound.runOn_settle_replaced quiet found reading wanting, readBack_of_read readAfter]
    exact ⟨_, rfl⟩

theorem fails (quiet : s.faults = []) (fails : u.effect (s.objects.find? u.path) = none) :
    ∃ error s', runOn s u.work = (some (.error error), s') := by
  cases found : s.objects.find? u.path with
  | none =>
    rw [runOn_work quiet, found]
    simp only [Kind.readStored]
    rw [sound.runOn_settle_absent quiet found]
    cases reading : u.collection.kind.readBack (withVersion (s.version + 1) u.created) with
    | error e => exact ⟨e, _, rfl⟩
    | ok w =>
      have reads := Kind.reads_withVersion (n := 0) sound.notMachineSet sound.createdMetadata
        (reads_of_readBack reading)
      simp [found, effect, reads] at fails
  | some x =>
    cases reading : u.collection.kind.read x with
    | error detail =>
      rw [runOn_work quiet, found]
      simp only [Kind.readStored, Kind.readBack, reading, Except.map]
      exact ⟨_, _, rfl⟩
    | ok w =>
      rw [runOn_work_of_read quiet found reading]
      cases kept : u.keeps w with
      | error e => exact ⟨e, s, by simp only [settle, kept]; rfl⟩
      | ok will =>
        cases will with
        | true => simp [found, effect, reading, kept] at fails
        | false =>
          rw [sound.runOn_settle_replaced quiet found reading kept]
          cases readAfter : u.collection.kind.readBack
              (withVersion (s.version + 1) (u.replacement w)) with
          | error e => exact ⟨e, _, rfl⟩
          | ok w' =>
            have reads := Kind.reads_withVersion (n := 0) sound.notMachineSet
              (sound.replacementMetadata kept) (reads_of_readBack readAfter)
            simp [found, effect, reading, kept, reads] at fails

omit sound in
/-- Looking first: what is found is stored, and nothing has changed. -/
theorem meets_work {guarantee : Server → Server → Prop} {post : Except Error Outcome → Server → Prop}
    (refl : guarantee s s) (fails : ∀ e, post (.error e) s)
    (absent : (u.settle none).run.Meets Exchange Eq guarantee post s)
    (present : ∀ v w, s.objects.find? u.path = some v → u.collection.kind.read v = .ok w →
      (u.settle (some w)).run.Meets Exchange Eq guarantee post s) :
    u.work.run.Meets Exchange Eq guarantee post s := by
  have looked := (meets_find? u.collection u.label u.name (s := s) (fun _ => rfl)
    fun _ _ _ => Eq.trans).invariant (J := (· = s)) (fun _ _ same => same ▸ id)
    (fun _ _ => Eq.trans) rfl
  refine meets_bind (looked.mono ?_ ?_)
  · rintro s₁ _ ⟨rfl, rfl⟩
    exact refl
  · rintro result _ ⟨rfl, -, genuine⟩
    rcases result with e | _ | w
    · exact fails e
    · exact absent
    · obtain ⟨v, found, reading⟩ := genuine w rfl
      exact present v w found reading

theorem disturbed {goal : Option Json} (known : u.effect (s.objects.find? u.path) = some goal) :
    u.work.run.Meets Exchange Eq
      (fun _ s' => Errand.Halfway (s.objects.find? u.path) goal (s'.objects.find? u.path))
      (fun _ s' => Errand.Halfway (s.objects.find? u.path) goal (s'.objects.find? u.path)) s := by
  refine meets_work (.inl rfl) (fun _ => .inl rfl) ?_ ?_
  · -- Nothing was found, which need not be true; but a creation spares what is stored.
    have halfway (s' : Server) (wrote : Wrote u.path (s.objects.find? u.path) u.created s' ∧
        (s.objects.find? u.path ≠ none →
          s'.objects.find? u.path = s.objects.find? u.path)) :
        Errand.Halfway (s.objects.find? u.path) goal (s'.objects.find? u.path) := by
      by_cases absent : s.objects.find? u.path = none
      · rcases wrote.1 with same | ⟨n, written⟩
        · exact .inl same
        · exact .inr ⟨_, n, goal_of_absent (absent ▸ known), written⟩
      · exact .inl (wrote.2 absent)
    refine meets_bind ((meets_create sound.named rfl).mono (fun _ s' => halfway s') ?_)
    rintro result s' ⟨wrote, -⟩
    cases result with
    | error e => exact halfway s' wrote
    | ok w => exact halfway s' wrote
  · intro v w found reading
    simp only [settle]
    cases kept : u.keeps w with
    | error e => exact .inl rfl
    | ok will =>
      cases will with
      | true => exact .inl rfl
      | false =>
        have halfway (s' : Server)
            (wrote : Wrote u.path (s.objects.find? u.path) (u.replacement w) s') :
            Errand.Halfway (s.objects.find? u.path) goal (s'.objects.find? u.path) := by
          rcases wrote with same | ⟨n, written⟩
          · exact .inl same
          · exact .inr ⟨_, n, goal_of_wanting (found ▸ known) reading kept, written⟩
        refine meets_bind ((meets_replace rfl).mono (fun _ s' => halfway s') ?_)
        rintro result s' ⟨wrote, -⟩
        cases result with
        | error e => exact halfway s' wrote
        | ok w => exact halfway s' wrote

omit sound in
theorem rests_of_wroteWell (wrote : WroteWell u.collection u.name v s)
    (ok : Object.HasMetadata v) (kept : ∀ n w, u.collection.kind.read (withVersion n v) = .ok w →
      u.keeps w = .ok true) :
    u.effect (s.objects.find? u.path) = some none ∧ Versioned (s.objects.find? u.path) := by
  obtain ⟨n, written, w, reading⟩ := wrote
  rw [show s.objects.find? u.path = _ from written]
  refine ⟨rests_of_kept reading (kept n w reading), ?_⟩
  rintro _ ⟨⟩
  simp [Server.versionOf_withVersion ok]

theorem succeeds (versioned : Versioned (s.objects.find? u.path)) :
    u.work.run.Meets Exchange Eq (fun _ _ => True) (fun result s' => ∀ outcome,
      result = .ok outcome → u.effect (s'.objects.find? u.path) = some none ∧
        Versioned (s'.objects.find? u.path)) s := by
  refine meets_work trivial (by simp) ?_ ?_
  · refine meets_bind ((meets_create sound.named rfl).mono (fun _ _ _ => trivial) ?_)
    rintro result s' ⟨-, wrote⟩
    cases result with
    | error e => simp
    | ok w =>
      rintro outcome -
      exact rests_of_wroteWell (wrote w rfl) sound.createdMetadata
        fun n _ => sound.createdKept n
  · intro v w found reading
    simp only [settle]
    cases kept : u.keeps w with
    | error e => exact fun _ same => by cases same
    | ok will =>
      cases will with
      | true =>
        rintro outcome -
        exact ⟨by rw [found]; exact rests_of_kept reading kept, versioned⟩
      | false =>
        refine meets_bind ((meets_replace rfl).mono (fun _ _ _ => trivial) ?_)
        rintro result s' ⟨-, wrote⟩
        cases result with
        | error e => simp
        | ok _ =>
          rintro outcome -
          exact rests_of_wroteWell (wrote _ rfl) (sound.replacementMetadata kept)
            fun n _ => sound.replacementKept kept n

end Sound

theorem errand_lawful (sound : u.Sound) : u.errand.Lawful where
  asks := sound.asks
  leaves quiet rests := ⟨.unchanged, Sound.leaves quiet rests, fun _ => rfl⟩
  writes := sound.writes
  fails := sound.fails
  settled := sound.settled
  stamped := sound.stamped
  disturbed := sound.disturbed
  succeeds := sound.succeeds

def checkedErrand (u : Upsert) : Errand := { u.errand with work := u.check >>= fun _ => u.work }

theorem runOn_check (quiet : s.faults = []) : runOn s u.check =
    match u.collection.kind.readStored (s.objects.find? u.path) with
    | .ok none => (some (.ok ()), s)
    | .ok (some w) => (some ((u.keeps w).map fun _ => ()), s)
    | .error e => (some (.error e), s) := by
  unfold check
  rw [runOn_bind, runOn_persistently_find? quiet]
  rw [show u.collection.member u.name = u.path from rfl]
  rcases u.collection.kind.readStored (s.objects.find? u.path) with e | _ | w
  · rfl
  · rfl
  · simp only
    cases u.keeps w <;> rfl

theorem runOn_check_of_read (quiet : s.faults = []) (found : s.objects.find? u.path = some v)
    (reading : u.collection.kind.read v = .ok w) :
    runOn s u.check = (some ((u.keeps w).map fun _ => ()), s) := by
  rw [runOn_check quiet, found]
  simp [Kind.readStored, readBack_of_read reading, Except.map]

theorem check_passes {goal : Option Json} (quiet : s.faults = [])
    (known : u.effect (s.objects.find? u.path) = some goal) :
    runOn s u.check = (some (.ok ()), s) := by
  rw [runOn_check quiet]
  cases found : s.objects.find? u.path with
  | none => simp [Kind.readStored]
  | some v =>
    rw [found] at known
    simp only [effect] at known
    cases reading : u.collection.kind.read v with
    | error detail => simp [reading] at known
    | ok w =>
      cases kept : u.keeps w with
      | error e => simp [reading, kept] at known
      | ok will => simp [Kind.readStored, readBack_of_read reading, Except.map, kept]

theorem checkedErrand_lawful (sound : u.Sound) : u.checkedErrand.Lawful := by
  have looks : u.check.run.Asks fun call : Call => AboutOnly u.path call ∧ Looks call := by
    refine asks_bind Sound.asks_find? fun existing => ?_
    cases existing with
    | none => trivial
    | some w =>
      simp only
      split <;> trivial
  refine (errand_lawful sound).checked (looks.imp fun _ both => both.1)
    (fun s => meets_of_looks (looks.imp fun _ both => both.2))
    (fun s goal => check_passes) fun s quiet => ?_
  rw [runOn_check quiet]
  rcases u.collection.kind.readStored (s.objects.find? u.path) with e | _ | w
  · exact ⟨_, rfl⟩
  · exact ⟨_, rfl⟩
  · exact ⟨_, rfl⟩

end Upsert
end MultiCluster.Cluster
