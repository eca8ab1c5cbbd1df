import MultiCluster.Proofs.Operations

/-! Work on one object, told by what it makes of the object that is stored. The laws say so for a
server that answers everything, and what is left of it when the server may fail: the object stays
or is the one to be written, and a success means that nothing is left to do. -/
namespace MultiCluster.Cluster

open Server (Exchange AboutOnly withVersion versionOf)

/-- Work on the object at a path. Undisturbed it fails (`none`), leaves what is stored
(`some none`), or writes an object over it. -/
structure Errand where
  work : Work Outcome
  path : Path
  effect : Option Json → Option (Option Json)

def Versioned (stored : Option Json) : Prop := ∀ v, stored = some v → (versionOf v).isSome = true

namespace Errand

variable {e : Errand} {s s' : Server} {goal : Option Json} {before after : Option Json}

def Rests (e : Errand) (stored : Option Json) : Prop := e.effect stored = some none

/-- What was stored is still there, or the object that was to be written is. -/
def Halfway (before goal after : Option Json) : Prop :=
  after = before ∨ ∃ v n, goal = some v ∧ after = some (withVersion n v)

structure Lawful (e : Errand) : Prop where
  asks : e.work.run.Asks (AboutOnly e.path)
  leaves {s : Server} (quiet : s.faults = []) (rests : e.Rests (s.objects.find? e.path)) :
    ∃ outcome, runOn s e.work = (some (.ok outcome), s) ∧
      (Versioned (s.objects.find? e.path) → outcome = .unchanged)
  writes {s : Server} {v : Json} (quiet : s.faults = [])
    (goal : e.effect (s.objects.find? e.path) = some (some v)) :
    ∃ outcome, runOn s e.work = (some (.ok outcome), (s.write e.path v).2)
  fails {s : Server} (quiet : s.faults = []) (fails : e.effect (s.objects.find? e.path) = none) :
    ∃ error s', runOn s e.work = (some (.error error), s')
  settled {stored : Option Json} {v : Json} (goal : e.effect stored = some (some v)) (n : Nat) :
    e.Rests (some (withVersion n v))
  stamped {stored : Option Json} {v : Json} (goal : e.effect stored = some (some v)) (n : Nat) :
    Versioned (some (withVersion n v))
  disturbed {s : Server} {goal : Option Json}
    (known : e.effect (s.objects.find? e.path) = some goal) :
    e.work.run.Meets Exchange Eq
      (fun _ s' => Halfway (s.objects.find? e.path) goal (s'.objects.find? e.path))
      (fun _ s' => Halfway (s.objects.find? e.path) goal (s'.objects.find? e.path)) s
  succeeds {s : Server} (versioned : Versioned (s.objects.find? e.path)) :
    e.work.run.Meets Exchange Eq (fun _ _ => True) (fun result s' => ∀ outcome,
      result = .ok outcome → e.Rests (s'.objects.find? e.path) ∧
        Versioned (s'.objects.find? e.path)) s

/-- Whatever happens to work that has nothing left to do, the object stays. -/
theorem Lawful.undisturbed (lawful : e.Lawful) (rests : e.Rests (s.objects.find? e.path)) :
    e.work.run.Meets Exchange Eq
      (fun _ s' => s'.objects.find? e.path = s.objects.find? e.path)
      (fun _ s' => s'.objects.find? e.path = s.objects.find? e.path) s := by
  have only (after : Option Json) (halfway : Halfway (s.objects.find? e.path) none after) :
      after = s.objects.find? e.path := by
    rcases halfway with same | ⟨v, n, wanted, -⟩
    · exact same
    · cases wanted
  exact (lawful.disturbed rests).mono (fun _ _ => only _) fun _ _ => only _

/-- From halfway the work can be taken up again: it leads to the same goal, or has reached it. -/
theorem Lawful.resumed (lawful : e.Lawful) (known : e.effect before = some goal)
    (halfway : Halfway before goal after) :
    (after = before ∧ e.effect after = some goal) ∨
      ∃ v n, goal = some v ∧ after = some (withVersion n v) ∧ e.Rests after := by
  rcases halfway with rfl | ⟨v, n, rfl, rfl⟩
  · exact .inl ⟨rfl, known⟩
  · exact .inr ⟨v, n, rfl, rfl, lawful.settled known n⟩

/-- Work that first makes sure of something about the object, without writing, is as lawful. -/
theorem Lawful.checked {check : Work Unit} (lawful : e.Lawful)
    (asks : check.run.Asks (AboutOnly e.path))
    (reads : ∀ s, check.run.Meets Exchange Eq (fun _ s' => s' = s) (fun _ s' => s' = s) s)
    (passes : ∀ s goal, s.faults = [] → e.effect (s.objects.find? e.path) = some goal →
      runOn s check = (some (.ok ()), s))
    (ends : ∀ s, s.faults = [] → ∃ result, runOn s check = (some result, s)) :
    ({ e with work := check >>= fun _ => e.work } : Errand).Lawful := by
  constructor
  case asks => exact asks_bind asks fun _ => lawful.asks
  case leaves =>
    intro s quiet rests
    rw [runOn_bind_of_ok (passes s _ quiet rests)]
    exact lawful.leaves quiet rests
  case writes =>
    intro s v quiet goal
    rw [runOn_bind_of_ok (passes s _ quiet goal)]
    exact lawful.writes quiet goal
  case fails =>
    intro s quiet fails
    obtain ⟨result, ran⟩ := ends s quiet
    cases result with
    | error error => exact ⟨error, s, runOn_bind_of_error ran⟩
    | ok _ =>
      rw [runOn_bind_of_ok ran]
      exact lawful.fails quiet fails
  case settled => exact lawful.settled
  case stamped => exact lawful.stamped
  case disturbed =>
    intro s goal known
    refine meets_bind ((reads s).mono ?_ ?_)
    · rintro _ s' rfl
      exact .inl rfl
    · rintro result s' rfl
      cases result with
      | error error => exact .inl rfl
      | ok _ => exact lawful.disturbed known
  case succeeds =>
    intro s versioned
    refine meets_bind ((reads s).mono (fun _ _ _ => trivial) ?_)
    rintro result s' rfl
    cases result with
    | error error => simp
    | ok _ => exact lawful.succeeds versioned

end Errand
end MultiCluster.Cluster
