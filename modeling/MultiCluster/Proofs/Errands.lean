import MultiCluster.Proofs.Errand

/-! Errands in a row. Each is about one object; where two are about the same one they ask the same
of it, so what one of them has reached the others leave alone. -/
namespace MultiCluster.Cluster

open Server (Exchange AboutOnly withVersion versionOf)

namespace Errand

structure Harmonious (all : List Errand) : Prop where
  lawful : ∀ e ∈ all, e.Lawful
  agree : ∀ e ∈ all, ∀ f ∈ all, e.path = f.path → e.effect = f.effect

def performAll : List Errand → Work (List Outcome)
  | [] => pure []
  | e :: rest => do
    let outcome ← e.work
    let others ← performAll rest
    pure (outcome :: others)

theorem performAll_append {es fs : List Errand} : performAll (es ++ fs) = (do
    let first ← performAll es
    let second ← performAll fs
    pure (first ++ second)) := by
  induction es with
  | nil => simp [performAll]
  | cons e rest ih => simp [performAll, ih]

variable {all es : List Errand} {e f : Errand} {S s s' : Server}

def AllVersioned (s : Server) : Prop := ∀ p, Versioned (s.objects.find? p)

theorem Lawful.elsewhere (lawful : e.Lawful) :
    e.work.run.Meets Exchange Eq
      (fun _ s' => ∀ q, q ≠ e.path → s'.objects.find? q = s.objects.find? q)
      (fun _ s' => ∀ q, q ≠ e.path → s'.objects.find? q = s.objects.find? q) s := by
  refine lawful.asks.keeps ?_ fun _ _ => rfl
  intro call s₁ reply s₂ about came kept q other
  rw [came.elsewhere about other, kept q other]

theorem asks_performAll (lawful : ∀ e ∈ es, e.Lawful) :
    (performAll es).run.Asks fun call : Call => ∃ e ∈ es, AboutOnly e.path call := by
  induction es with
  | nil => trivial
  | cons e rest ih =>
    rw [List.forall_mem_cons] at lawful
    refine asks_bind (lawful.1.asks.imp fun call about => ⟨e, List.mem_cons_self, about⟩) fun _ => ?_
    refine asks_bind ((ih lawful.2).imp fun call about => ?_) fun _ => trivial
    obtain ⟨f, inRest, about⟩ := about
    exact ⟨f, List.mem_cons_of_mem e inRest, about⟩

theorem runOn_performAll_total (lawful : ∀ e ∈ es, e.Lawful) (quiet : s.faults = []) :
    ∃ result s', runOn s (performAll es) = (some result, s') := by
  induction es generalizing s with
  | nil => exact ⟨_, _, rfl⟩
  | cons e rest ih =>
    rw [List.forall_mem_cons] at lawful
    have later {s₁ : Server} {outcome : Outcome} (quiet₁ : s₁.faults = [])
        (first : runOn s e.work = (some (.ok outcome), s₁)) :
        ∃ result s', runOn s (performAll (e :: rest)) = (some result, s') := by
      obtain ⟨result, s₂, ran⟩ := ih lawful.2 quiet₁
      rw [performAll, runOn_bind_of_ok first, runOn_bind, ran]
      cases result with
      | error error => exact ⟨_, _, rfl⟩
      | ok others => exact ⟨_, _, rfl⟩
    cases known : e.effect (s.objects.find? e.path) with
    | none =>
      obtain ⟨error, s₁, failed⟩ := lawful.1.fails quiet known
      exact ⟨_, _, runOn_bind_of_error failed⟩
    | some goal =>
      cases goal with
      | none =>
        obtain ⟨outcome, first, -⟩ := lawful.1.leaves quiet known
        exact later quiet first
      | some v =>
        obtain ⟨outcome, first⟩ := lawful.1.writes quiet known
        have quiet₁ : (s.write e.path v).2.faults = [] := quiet
        exact later quiet₁ first

/-! ### After a success nothing is left to do -/

theorem rests_of_perform (harmonious : Harmonious all) (member : e ∈ all)
    (versioned : AllVersioned s) :
    e.work.run.Meets Exchange Eq (fun _ _ => True) (fun result s' => ∀ outcome,
      result = .ok outcome → AllVersioned s' ∧ e.Rests (s'.objects.find? e.path) ∧
        ∀ f ∈ all, f.Rests (s.objects.find? f.path) → f.Rests (s'.objects.find? f.path)) s := by
  have lawful := harmonious.lawful e member
  refine ((lawful.succeeds (versioned e.path)).and lawful.elsewhere).mono
    (fun _ _ _ => trivial) ?_
  rintro result s' ⟨success, kept⟩ outcome rfl
  obtain ⟨rests, stamped⟩ := success outcome rfl
  refine ⟨fun p => ?_, rests, fun f inAll before => ?_⟩
  · by_cases same : p = e.path
    · exact same ▸ stamped
    · exact kept p same ▸ versioned p
  · by_cases same : f.path = e.path
    · rw [Rests, harmonious.agree f inAll e member same, same]
      exact rests
    · rw [kept _ same]
      exact before

theorem rests_of_performAll (harmonious : Harmonious all) (sub : ∀ e ∈ es, e ∈ all)
    (versioned : AllVersioned s) :
    (performAll es).run.Meets Exchange Eq (fun _ _ => True) (fun result s' => ∀ outcomes,
      result = .ok outcomes → AllVersioned s' ∧ (∀ e ∈ es, e.Rests (s'.objects.find? e.path)) ∧
        ∀ f ∈ all, f.Rests (s.objects.find? f.path) → f.Rests (s'.objects.find? f.path)) s := by
  induction es generalizing s with
  | nil => exact fun _ _ => ⟨versioned, by simp, fun _ _ rests => rests⟩
  | cons e rest ih =>
    rw [List.forall_mem_cons] at sub
    refine meets_bind ((rests_of_perform harmonious sub.1 versioned).imp fun result s₁ first => ?_)
    cases result with
    | error error => exact fun _ same => by cases same
    | ok outcome =>
      obtain ⟨versioned₁, restsFirst, kept₁⟩ := first outcome rfl
      refine meets_bind ((ih sub.2 versioned₁).imp fun result s₂ later => ?_)
      cases result with
      | error error => exact fun _ same => by cases same
      | ok others =>
        obtain ⟨versioned₂, restsLater, kept₂⟩ := later others rfl
        rintro _ -
        refine ⟨versioned₂, ?_, fun f inAll rests => kept₂ f inAll (kept₁ f inAll rests)⟩
        rw [List.forall_mem_cons]
        exact ⟨kept₂ e sub.1 restsFirst, restsLater⟩

/-- Errands with nothing left to do change nothing and say so. -/
theorem runOn_performAll_of_rests (lawful : ∀ e ∈ es, e.Lawful) (quiet : s.faults = [])
    (versioned : AllVersioned s) (rests : ∀ e ∈ es, e.Rests (s.objects.find? e.path)) :
    runOn s (performAll es) = (some (.ok (es.map fun _ => .unchanged)), s) := by
  induction es with
  | nil => rfl
  | cons e rest ih =>
    rw [List.forall_mem_cons] at lawful rests
    obtain ⟨outcome, ran, unchanged⟩ := lawful.1.leaves quiet rests.1
    obtain rfl := unchanged (versioned e.path)
    rw [performAll, runOn_bind_of_ok ran, runOn_bind_of_ok (ih lawful.2 rests.2)]
    rfl

/-! ### Errands that were begun -/

def Possible (all : List Errand) (S : Server) : Prop :=
  ∀ e ∈ all, ∃ goal, e.effect (S.objects.find? e.path) = some goal

/-- Where errands succeed in a row, each would have succeeded at once. -/
theorem possible_of_runOn {outcomes : List Outcome} (harmonious : Harmonious all)
    (sub : ∀ e ∈ es, e ∈ all) (quiet : s.faults = [])
    (ran : runOn s (performAll es) = (some (.ok outcomes), s')) : Possible es s := by
  induction es generalizing s s' outcomes with
  | nil => simp [Possible]
  | cons e rest ih =>
    have split := sub
    rw [List.forall_mem_cons] at split
    have lawful := harmonious.lawful e split.1
    -- What the later errands would do is not changed by what the first one does.
    have later {s₁ : Server} {outcome : Outcome} (quiet₁ : s₁.faults = [])
        (first : runOn s e.work = (some (.ok outcome), s₁)) : Possible rest s₁ := by
      rw [performAll, runOn_bind_of_ok first, runOn_bind] at ran
      cases ranLater : runOn s₁ (performAll rest) with
      | mk result s₂ =>
        rcases result with _ | error | others
        · simp [ranLater] at ran
        · simp [ranLater] at ran
        · exact ih split.2 quiet₁ ranLater
    cases known : e.effect (s.objects.find? e.path) with
    | none =>
      obtain ⟨error, s₁, failed⟩ := lawful.fails quiet known
      rw [performAll, runOn_bind_of_error failed] at ran
      simp at ran
    | some goal =>
      refine List.forall_mem_cons.mpr ⟨⟨goal, known⟩, fun f inRest => ?_⟩
      cases goal with
      | none =>
        obtain ⟨outcome, first, -⟩ := lawful.leaves quiet known
        exact later quiet first f inRest
      | some v =>
        obtain ⟨outcome, first⟩ := lawful.writes quiet known
        by_cases same : f.path = e.path
        · exact ⟨some v, by rw [harmonious.agree f (split.2 f inRest) e split.1 same, same, known]⟩
        · have quiet₁ : (s.write e.path v).2.faults = [] := quiet
          obtain ⟨goal, known'⟩ := later quiet₁ first f inRest
          rw [Server.find?_write_of_ne same] at known'
          exact ⟨goal, known'⟩

/-- What is left of a server on which errands were begun: each object is as it was or as it is to
become, and all others are as they were. -/
structure Begun (all : List Errand) (S s : Server) : Prop where
  halfway : ∀ e ∈ all, ∀ goal, e.effect (S.objects.find? e.path) = some goal →
    Halfway (S.objects.find? e.path) goal (s.objects.find? e.path)
  elsewhere : ∀ q, (∀ e ∈ all, q ≠ e.path) → s.objects.find? q = S.objects.find? q

theorem Begun.start : Begun all S S := ⟨fun _ _ _ _ => .inl rfl, fun _ _ => rfl⟩

/-- What counts is the object of one errand, if no other object has changed. -/
theorem Begun.step {goal : Option Json} (begun : Begun all S s) (harmonious : Harmonious all)
    (member : e ∈ all) (known : e.effect (S.objects.find? e.path) = some goal)
    (here : Halfway (S.objects.find? e.path) goal (s'.objects.find? e.path))
    (kept : ∀ q, q ≠ e.path → s'.objects.find? q = s.objects.find? q) : Begun all S s' := by
  constructor
  · intro f inAll goal' wanted
    by_cases same : f.path = e.path
    · rw [same] at wanted ⊢
      rw [harmonious.agree f inAll e member same, known] at wanted
      exact Option.some.inj wanted ▸ here
    · rw [kept _ same]
      exact begun.halfway f inAll goal' wanted
  · intro q apart
    rw [kept q (apart e member)]
    exact begun.elsewhere q apart

/-- Whatever happens during an errand, what was begun stays begun. -/
theorem begun_of_perform (harmonious : Harmonious all) (member : e ∈ all)
    (possible : Possible all S) (begun : Begun all S s) :
    e.work.run.Meets Exchange Eq (fun _ s' => Begun all S s') (fun _ s' => Begun all S s') s := by
  have lawful := harmonious.lawful e member
  obtain ⟨goal, known⟩ := possible e member
  have halfway := begun.halfway e member goal known
  have stays : e.work.run.Meets Exchange Eq
      (fun _ s' => Halfway (S.objects.find? e.path) goal (s'.objects.find? e.path))
      (fun _ s' => Halfway (S.objects.find? e.path) goal (s'.objects.find? e.path)) s := by
    rcases lawful.resumed known halfway with ⟨same, again⟩ | ⟨v, n, rfl, written, rests⟩
    · rw [← same]
      exact lawful.disturbed again
    · have still (s' : Server) (kept : s'.objects.find? e.path = s.objects.find? e.path) :
          Halfway (S.objects.find? e.path) (some v) (s'.objects.find? e.path) :=
        .inr ⟨v, n, rfl, kept.trans written⟩
      exact (lawful.undisturbed rests).mono (fun _ => still) fun _ => still
  have after (s' : Server)
      (both : Halfway (S.objects.find? e.path) goal (s'.objects.find? e.path) ∧
        ∀ q, q ≠ e.path → s'.objects.find? q = s.objects.find? q) : Begun all S s' :=
    begun.step harmonious member known both.1 both.2
  exact (stays.and lawful.elsewhere).mono (fun _ => after) fun _ => after

theorem begun_of_performAll (harmonious : Harmonious all) (sub : ∀ e ∈ es, e ∈ all)
    (possible : Possible all S) (begun : Begun all S s) :
    (performAll es).run.Meets Exchange Eq (fun _ s' => Begun all S s')
      (fun _ s' => Begun all S s') s := by
  induction es generalizing s with
  | nil => exact begun
  | cons e rest ih =>
    rw [List.forall_mem_cons] at sub
    refine meets_bind ((begun_of_perform harmonious sub.1 possible begun).imp
      fun result s₁ begun₁ => ?_)
    cases result with
    | error error => exact begun₁
    | ok outcome =>
      refine meets_bind ((ih sub.2 begun₁).imp fun result s₂ begun₂ => ?_)
      cases result with
      | error error => exact begun₂
      | ok others => exact begun₂

def Reached (e : Errand) (S s : Server) : Prop :=
  match e.effect (S.objects.find? e.path) with
  | none => False
  | some none => s.objects.find? e.path = S.objects.find? e.path
  | some (some v) => ∃ n, s.objects.find? e.path = some (withVersion n v)

theorem rests_of_reached (lawful : e.Lawful) (reached : e.Reached S s) :
    e.Rests (s.objects.find? e.path) := by
  unfold Reached at reached
  split at reached
  · exact reached.elim
  · next leaves => rw [reached]; exact leaves
  · next v writes =>
    obtain ⟨n, written⟩ := reached
    rw [written]
    exact lawful.settled writes n

theorem reached_congr (harmonious : Harmonious all) (member : e ∈ all) (inAll : f ∈ all)
    (same : f.path = e.path) : f.Reached S s ↔ e.Reached S s := by
  unfold Reached
  rw [same, harmonious.agree f inAll e member same]

theorem reached_of_kept (kept : s'.objects.find? e.path = s.objects.find? e.path)
    (reached : e.Reached S s) : e.Reached S s' := by
  unfold Reached at reached ⊢
  rwa [kept]

/-- An errand that was begun is finished by a server that answers. -/
theorem runOn_of_begun (harmonious : Harmonious all) (member : e ∈ all)
    (possible : Possible all S) (quiet : s.faults = []) (begun : Begun all S s) :
    ∃ outcome s', runOn s e.work = (some (.ok outcome), s') ∧ s'.faults = [] ∧ Begun all S s' ∧
      e.Reached S s' ∧ ∀ f ∈ all, f.Reached S s → f.Reached S s' := by
  have lawful := harmonious.lawful e member
  obtain ⟨goal, known⟩ := possible e member
  rcases lawful.resumed known (begun.halfway e member goal known) with
    ⟨same, again⟩ | ⟨v, n, rfl, written, rests⟩
  · cases goal with
    | none =>
      obtain ⟨outcome, ran, -⟩ := lawful.leaves quiet again
      refine ⟨outcome, s, ran, quiet, begun, ?_, fun _ _ reached => reached⟩
      unfold Reached
      rw [known]
      exact same
    | some v =>
      obtain ⟨outcome, ran⟩ := lawful.writes quiet again
      have put : (s.write e.path v).2.objects.find? e.path =
          some (withVersion (s.version + 1) v) := Server.find?_write_self
      have reached : e.Reached S (s.write e.path v).2 := by
        unfold Reached
        rw [known]
        exact ⟨_, put⟩
      refine ⟨outcome, _, ran, quiet, ?_, reached, fun f inAll before => ?_⟩
      · exact begun.step harmonious member known (.inr ⟨v, _, rfl, put⟩)
          fun q other => Server.find?_write_of_ne other
      · by_cases here : f.path = e.path
        · exact (reached_congr harmonious member inAll here).mpr reached
        · exact reached_of_kept (Server.find?_write_of_ne here) before
  · obtain ⟨outcome, ran, -⟩ := lawful.leaves quiet rests
    refine ⟨outcome, s, ran, quiet, begun, ?_, fun _ _ reached => reached⟩
    unfold Reached
    rw [known]
    exact ⟨n, written⟩

theorem runOn_performAll_of_begun (harmonious : Harmonious all) (sub : ∀ e ∈ es, e ∈ all)
    (possible : Possible all S) (quiet : s.faults = []) (begun : Begun all S s) :
    ∃ outcomes s', runOn s (performAll es) = (some (.ok outcomes), s') ∧ s'.faults = [] ∧
      Begun all S s' ∧ (∀ e ∈ es, e.Reached S s') ∧
      ∀ f ∈ all, f.Reached S s → f.Reached S s' := by
  induction es generalizing s with
  | nil => exact ⟨[], s, rfl, quiet, begun, by simp, fun _ _ reached => reached⟩
  | cons e rest ih =>
    rw [List.forall_mem_cons] at sub
    obtain ⟨outcome, s₁, ran, quiet₁, begun₁, reached, kept₁⟩ :=
      runOn_of_begun harmonious sub.1 possible quiet begun
    obtain ⟨outcomes, s₂, ranLater, quiet₂, begun₂, reachedLater, kept₂⟩ := ih sub.2 quiet₁ begun₁
    refine ⟨outcome :: outcomes, s₂, ?_, quiet₂, begun₂, ?_, fun f inAll before =>
      kept₂ f inAll (kept₁ f inAll before)⟩
    · rw [performAll, runOn_bind_of_ok ran, runOn_bind_of_ok ranLater]
      rfl
    · rw [List.forall_mem_cons]
      exact ⟨kept₂ e sub.1 reached, reachedLater⟩

/-- Two servers on which the same errands were finished differ in versions at most. -/
theorem content_of_reached {s₁ s₂ : Server} (begun₁ : Begun all S s₁) (begun₂ : Begun all S s₂)
    (reached₁ : ∀ e ∈ all, e.Reached S s₁) (reached₂ : ∀ e ∈ all, e.Reached S s₂) (p : Path) :
    (s₁.objects.find? p).map Object.content = (s₂.objects.find? p).map Object.content := by
  by_cases about : ∃ e ∈ all, p = e.path
  · obtain ⟨e, member, rfl⟩ := about
    have first := reached₁ e member
    have second := reached₂ e member
    unfold Reached at first second
    split at first
    · exact first.elim
    · next leaves =>
      simp only [leaves] at second
      rw [first, second]
    · next v writes =>
      simp only [writes] at second
      obtain ⟨m, written₁⟩ := first
      obtain ⟨n, written₂⟩ := second
      rw [written₁, written₂, Option.map_some, Option.map_some, Server.content_withVersion]
  · have apart : ∀ e ∈ all, p ≠ e.path := fun e member same => about ⟨e, member, same⟩
    rw [begun₁.elsewhere p apart, begun₂.elsewhere p apart]

end Errand
end MultiCluster.Cluster
