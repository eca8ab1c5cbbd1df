import MultiCluster.Proofs.Deployment
import MultiCluster.Proofs.Timed

/-! Deployments that nothing disturbs. They carry out the errands of their plan one after the other,
up to the first that fails. -/
namespace MultiCluster.Deploy

open Cluster

/-- A deployment onto a server that answers every request in time: its result, if it comes to one,
and the server afterwards. -/
def undisturbed (options : Options) (cluster : String) (waits : Nat → Option Duration)
    (s : Server) : Option (Except Error Report) × Server :=
  let (result, clock) := (deployBroker options cluster clusterAppliers false).run
    (punctual Server.handler options.stepTimeout waits) ⟨s, 0, .zero⟩
  (result, clock.state)

def pristine : Server := ⟨[], [], 0, []⟩

def Options.withGlobalnet (range : String) (size : UInt32) : Options :=
  { Options.default with
    broker := { Options.default.broker with
      globalnetEnabled := true, globalnetRange := range, clusterSize := size } }

def firstMember : Globalnet.Record := ⟨true, "242.0.0.0/8", 65536, [⟨"west", ["242.0.0.0/16"]⟩]⟩

variable {options : Options} {p : Plan} {cluster : String} {waits : Nat → Option Duration}
  {s s' : Server} {step : Step} {steps : List Step} {es : List Errand}

theorem undisturbed_of_inTurn {result : Except Error (List (Step × Outcome))}
    (planned : plan options = .ok p)
    (ran : runOn s (inTurn cluster (work clusterAppliers p) p.steps) = (some result, s')) :
    undisturbed options cluster waits s =
      (some (result.map fun done => ⟨.globalnetDone, done⟩), s') := by
  obtain ⟨c, ran', rfl⟩ := run_runSteps options.stepTimeout waits []
    (c := ⟨s, 0, .zero⟩) ran
  simp only [undisturbed, deployBroker, planned, ran']
  rfl

theorem undisturbed_of_invalid {e : Error} (planned : plan options = .error e) :
    undisturbed options cluster waits s = (some (.error e), s) := by
  simp only [undisturbed, deployBroker, planned]
  rfl

/-- The first step decides, unless it succeeds. -/
theorem runOn_inTurn_cons : runOn s (inTurn cluster (work clusterAppliers p) (step :: steps)) =
    match runOn s (Errand.performAll (p.errands step)) with
    | (some (.ok outcomes), s₁) =>
      match runOn s₁ (inTurn cluster (work clusterAppliers p) steps) with
      | (some (.ok others), s₂) => (some (.ok ((step, Outcome.combine outcomes) :: others)), s₂)
      | (some (.error e), s₂) => (some (.error e), s₂)
      | (none, s₂) => (none, s₂)
    | (some (.error e), s₁) => (some (.error (.stepFailure step.name cluster e)), s₁)
    | (none, s₁) => (none, s₁) := by
  rw [inTurn, runOn_bind, runOn_adapt, work_eq, runOn_map]
  rcases runOn s (Errand.performAll (p.errands step)) with ⟨_ | e | outcomes, s₁⟩
  · rfl
  · rfl
  · show runOn s₁ (_ >>= _) = _
    rw [runOn_bind]
    simp only
    rcases runOn s₁ (inTurn cluster (work clusterAppliers p) steps) with ⟨_ | e | others, s₂⟩ <;> rfl

theorem inTurn_append {more : List Step} {work : Step → Work Outcome} :
    inTurn cluster work (steps ++ more) = (do
      let first ← inTurn cluster work steps
      let second ← inTurn cluster work more
      pure (first ++ second)) := by
  induction steps with
  | nil => simp [inTurn]
  | cons step rest ih => simp [inTurn, ih]

theorem asks_inTurn : (inTurn cluster (work clusterAppliers p) steps).run.Asks
    fun call : Call => ∃ e ∈ steps.flatMap p.errands, Server.AboutOnly e.path call := by
  induction steps with
  | nil => trivial
  | cons step rest ih =>
    refine asks_bind (asks_adapt ?_) fun _ => asks_bind (ih.imp ?_) fun _ => trivial
    · rw [work_eq]
      refine asks_map ((Errand.asks_performAll fun _ => errands_lawful).imp ?_)
      rintro call ⟨e, ofStep, about⟩
      exact ⟨e, List.mem_append_left _ ofStep, about⟩
    · rintro call ⟨e, ofRest, about⟩
      exact ⟨e, List.mem_append_right _ ofRest, about⟩

/-- Objects that are not among those of the errands stay as they are. -/
theorem find?_of_inTurn {result : Except Error (List (Step × Outcome))} {q : Path}
    (quiet : s.faults = [])
    (ran : runOn s (inTurn cluster (work clusterAppliers p) steps) = (some result, s'))
    (apart : ∀ e ∈ steps.flatMap p.errands, q ≠ e.path) :
    s'.objects.find? q = s.objects.find? q := by
  refine result_of_runOn (asks_inTurn.keeps
    (J := fun s' => s'.objects.find? q = s.objects.find? q) ?_ rfl) quiet ran
  rintro call s₁ reply s₂ ⟨e, member, about⟩ came kept
  rw [came.elsewhere about (apart e member), kept]

theorem runOn_inTurn_total (quiet : s.faults = []) :
    ∃ result s', runOn s (inTurn cluster (work clusterAppliers p) steps) = (some result, s') := by
  induction steps generalizing s with
  | nil => exact ⟨_, _, rfl⟩
  | cons step rest ih =>
    rw [runOn_inTurn_cons]
    obtain ⟨result, s₁, ran⟩ : ∃ result s₁, runOn s (Errand.performAll (p.errands step)) =
      (some result, s₁) := Errand.runOn_performAll_total (fun _ => errands_lawful) quiet
    have quiet₁ : (runOn s (Errand.performAll (p.errands step))).2.faults = [] := faults_run quiet
    rw [ran] at quiet₁ ⊢
    cases result with
    | error e => exact ⟨_, _, rfl⟩
    | ok outcomes =>
      obtain ⟨result, s₂, ran⟩ := ih quiet₁
      simp only [ran]
      cases result with
      | error e => exact ⟨_, _, rfl⟩
      | ok others => exact ⟨_, _, rfl⟩

/-- The steps succeed where all their errands do, and leave the same server behind. -/
theorem runOn_inTurn_ok : (∃ outcomes,
      runOn s (inTurn cluster (work clusterAppliers p) steps) = (some (.ok outcomes), s')) ↔
    ∃ outcomes, runOn s (Errand.performAll (steps.flatMap p.errands)) =
      (some (.ok outcomes), s') := by
  induction steps generalizing s with
  | nil =>
    have empty : runOn s (inTurn cluster (work clusterAppliers p) []) = (some (.ok []), s) := rfl
    have nothing : runOn s (Errand.performAll []) = (some (.ok []), s) := rfl
    rw [List.flatMap_nil, empty, nothing]
    simp
  | cons step rest ih =>
    simp only [inTurn, List.flatMap_cons, Errand.performAll_append, runOn_bind_ok_iff,
      runOn_adapt_ok_iff, work_eq, runOn_map_ok_iff]
    constructor
    · rintro ⟨_, _, s₁, ⟨first, ran, -⟩, others, s₂, ranLater, done⟩
      obtain ⟨-, rfl⟩ := Prod.mk.inj done
      obtain ⟨last, ranLast⟩ := ih.mp ⟨others, ranLater⟩
      exact ⟨_, first, s₁, ran, last, _, ranLast, rfl⟩
    · rintro ⟨_, first, s₁, ran, last, s₂, ranLast, done⟩
      obtain ⟨-, rfl⟩ := Prod.mk.inj done
      obtain ⟨others, ranLater⟩ := ih.mpr ⟨last, ranLast⟩
      exact ⟨_, _, s₁, ⟨first, ran, rfl⟩, others, _, ranLater, rfl⟩

theorem undisturbed_of_tasks {outcomes : List Outcome} (planned : plan options = .ok p)
    (ran : runOn s (Errand.performAll p.tasks) = (some (.ok outcomes), s')) :
    ∃ report, undisturbed options cluster waits s = (some (.ok report), s') := by
  obtain ⟨done, ran'⟩ := runOn_inTurn_ok.mpr ⟨outcomes, ran⟩
  exact ⟨_, undisturbed_of_inTurn planned ran'⟩

/-- A deployment that succeeds has carried out the tasks of its plan. -/
theorem tasks_of_undisturbed {report : Report} (quiet : s.faults = [])
    (ran : undisturbed options cluster waits s = (some (.ok report), s')) :
    ∃ p outcomes, plan options = .ok p ∧
      runOn s (Errand.performAll p.tasks) = (some (.ok outcomes), s') := by
  cases planned : plan options with
  | error e =>
    rw [undisturbed_of_invalid planned] at ran
    simp at ran
  | ok p =>
    obtain ⟨result, s₁, ran'⟩ : ∃ result s₁, runOn s (inTurn cluster (work clusterAppliers p)
      p.steps) = (some result, s₁) := runOn_inTurn_total quiet
    rw [undisturbed_of_inTurn planned ran'] at ran
    cases result with
    | error e => simp [Except.map] at ran
    | ok done =>
      obtain ⟨-, rfl⟩ := Prod.mk.inj ran
      obtain ⟨outcomes, ran⟩ := runOn_inTurn_ok.mp ⟨done, ran'⟩
      exact ⟨p, outcomes, rfl, ran⟩

theorem unreliable_of_quiet {limit : Option Duration} (r : Timed Call) (c : Clock Server)
    (d : (timed Calls).Answer r) (c' : Clock Server) (quiet : c.state.faults = [])
    (answered : punctual Server.handler limit waits r c = (some d, c')) :
    unreliable Server.Exchange r c.state d c'.state ∧ c'.state.faults = [] :=
  unreliable_of_punctual (J := fun s : Server => s.faults = [])
    (fun _ _ _ => exchange_of_handler) quiet answered

/-- A run that is answered in time is one of the ways that it may go. -/
theorem leads_of_punctual {α : Type} {r : Program (timed Calls) α} {limit : Option Duration}
    {a : α} {c c' : Clock Server} (quiet : c.state.faults = [])
    (ran : r.run (punctual Server.handler limit waits) c = (some a, c')) :
    Program.Leads (unreliable Server.Exchange) r c.state (.done a) c'.state :=
  Program.leads_of_run Clock.state (fun c => c.state.faults = []) unreliable_of_quiet quiet ran

theorem run_of_undisturbed {result : Except Error Report}
    (ran : undisturbed options cluster waits s = (some result, s')) :
    ∃ c, (deployBroker options cluster clusterAppliers false).run
      (punctual Server.handler options.stepTimeout waits) ⟨s, 0, .zero⟩ = (some result, c) ∧
        c.state = s' := by
  unfold undisturbed at ran
  rcases ended : (deployBroker options cluster clusterAppliers false).run
    (punctual Server.handler options.stepTimeout waits) ⟨s, 0, .zero⟩ with ⟨found, clock⟩
  simp only [ended, Prod.mk.injEq] at ran
  obtain ⟨rfl, same⟩ := ran
  exact ⟨clock, rfl, same⟩

theorem leads_of_undisturbed {result : Except Error Report} (quiet : s.faults = [])
    (ran : undisturbed options cluster waits s = (some result, s')) :
    Program.Leads (unreliable Server.Exchange) (deployBroker options cluster clusterAppliers false)
      s (.done result) s' := by
  obtain ⟨c, ended, rfl⟩ := run_of_undisturbed ran
  exact leads_of_punctual (c := ⟨s, 0, .zero⟩) quiet ended

theorem following_of_undisturbed {result : Except Error Report}
    (ran : undisturbed options cluster waits s = (some result, s')) :
    Program.Leads (unreliable (Program.following Server.handler))
      (deployBroker options cluster clusterAppliers false) s (.done result) s' := by
  obtain ⟨c, ended, rfl⟩ := run_of_undisturbed ran
  exact Program.leads_of_run (t := ⟨s, 0, .zero⟩) Clock.state (fun _ => True)
    (fun _ _ _ _ _ came => ⟨following_of_punctual came, trivial⟩) trivial ended

/-- A deployment with nothing left to do changes nothing and says so. -/
theorem undisturbed_of_rests (planned : plan options = .ok p) (quiet : s.faults = [])
    (versioned : Errand.AllVersioned s)
    (rests : ∀ e ∈ p.tasks, e.Rests (s.objects.find? e.path)) :
    undisturbed options cluster waits s =
      (some (.ok ⟨.globalnetDone, p.steps.map fun step => (step, .unchanged)⟩), s) := by
  have inTurn (steps : List Step) (rests : ∀ e ∈ steps.flatMap p.errands,
      e.Rests (s.objects.find? e.path)) : runOn s (inTurn cluster (work clusterAppliers p) steps) =
      (some (.ok (steps.map fun step => (step, .unchanged))), s) := by
    induction steps with
    | nil => rfl
    | cons step rest ih =>
      have combined : Outcome.combine ((p.errands step).map fun _ => .unchanged) = .unchanged :=
        combine_eq_unchanged_iff.mpr (by simp)
      rw [List.flatMap_cons, List.forall_mem_append] at rests
      rw [runOn_inTurn_cons, Errand.runOn_performAll_of_rests (fun e => errands_lawful) quiet
        versioned rests.1]
      simp only [ih rests.2, combined, List.map_cons]
  exact undisturbed_of_inTurn planned (inTurn p.steps rests)

end MultiCluster.Deploy
