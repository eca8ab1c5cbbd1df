import MultiCluster.Proofs.Undisturbed

/-! Recovery. A deployment that was cut short anywhere leaves a server on which each object is as it
was or as it was to become, and from there a second deployment ends where an undisturbed one would
have ended. -/
namespace MultiCluster.Deploy

open Cluster
open Program (Leads)
open Server (Exchange)

variable {options : Options} {p : Plan} {cluster : String} {S s F : Server} {cancelled : Bool}

/-- A deployment that begins nothing but what is possible keeps what was begun, whatever happens. -/
theorem begun_of_deployBroker (planned : plan options = .ok p) (possible : Errand.Possible p.tasks S)
    (begun : Errand.Begun p.tasks S s) :
    (deployBroker options cluster clusterAppliers cancelled).Meets (unreliable Exchange) Eq
      (fun s s' => Errand.Begun p.tasks S s → Errand.Begun p.tasks S s') (fun _ _ => True) s := by
  simp only [deployBroker, planned]
  refine Program.Meets.imp (meets_runSteps
    (K := fun steps s => (∀ step ∈ steps, step ∈ p.steps) ∧ Errand.Begun p.tasks S s)
    (fun _ kept => kept) (fun _ _ _ same kept => same ▸ kept) ?_ ⟨fun _ member => member, begun⟩)
      fun _ _ _ => trivial
  rintro step rest s₁ ⟨inPlan, begun₁⟩
  rw [List.forall_mem_cons] at inPlan
  have sub : ∀ e ∈ p.errands step, e ∈ p.tasks := fun e member =>
    List.mem_flatMap.mpr ⟨step, inPlan.1, member⟩
  rw [work_eq]
  refine meets_map ((Errand.begun_of_performAll errands_harmonious sub possible begun₁).mono ?_ ?_)
  · exact fun _ _ after _ => after
  · exact fun _ _ after _ _ => ⟨inPlan.2, after⟩

/-- The servers hold the same objects, versions aside. -/
def SameContent (s s' : Server) : Prop :=
  ∀ path, (s.objects.find? path).map Object.content = (s'.objects.find? path).map Object.content

/-- Wherever a deployment was cut short, a second one that nothing disturbs succeeds and ends where
the first would have ended. -/
theorem undisturbed_of_cut_short {rest : Program (timed Calls) (Except Error Report)} {S' : Server}
    {report : Report} {waits : Nat → Option Duration} (quiet : S.faults = [])
    (possible : undisturbed options cluster waits S = (some (.ok report), F))
    (cut : Leads (unreliable Exchange) (deployBroker options cluster clusterAppliers cancelled) S
      rest S') (waits' : Nat → Option Duration) :
    ∃ report' F', undisturbed options cluster waits' S' = (some (.ok report'), F') ∧
      SameContent F F' := by
  obtain ⟨p, outcomes, planned, ran⟩ := tasks_of_undisturbed quiet possible
  have harmonious : Errand.Harmonious p.tasks := errands_harmonious
  have sub : ∀ e ∈ p.tasks, e ∈ p.tasks := fun _ member => member
  have each := Errand.possible_of_runOn harmonious sub quiet ran
  -- The run that would have succeeded reaches every goal.
  obtain ⟨_, _, ran', -, begunF, reachedF, -⟩ :=
    Errand.runOn_performAll_of_begun harmonious sub each quiet Errand.Begun.start
  obtain ⟨-, rfl⟩ := Prod.mk.inj (ran.symm.trans ran')
  -- So does the second one, from what the first one has begun.
  have moves := (Program.Meets.of_leads (begun_of_deployBroker planned each Errand.Begun.start)
    cut).2
  have begun : Errand.Begun p.tasks S S' :=
    moves.head_induction_on (motive := fun s _ => Errand.Begun p.tasks S s →
      Errand.Begun p.tasks S S') id (fun step _ later start => later (step start)) Errand.Begun.start
  have quiet' : S'.faults = [] := leads_keeps (J := fun s => s.faults = []) cut
    (fun _ _ _ _ came quiet => came.faults.trans quiet) quiet
  obtain ⟨outcomes', F', second, -, begunF', reachedF', -⟩ :=
    Errand.runOn_performAll_of_begun harmonious sub each quiet' begun
  obtain ⟨report', again⟩ : ∃ report', undisturbed options cluster waits' S' =
    (some (.ok report'), F') := undisturbed_of_tasks planned second
  exact ⟨report', F', again, Errand.content_of_reached begunF begunF' reachedF reachedF'⟩

/-- Answers a number of requests. The run is cancelled while it waits for the next answer, though
that request is carried out as well. -/
def cancelling : Program.Handler (timed Calls) (Server × Nat)
  | .report _, t => (some (), t)
  | .work r, (s, 0) => (some (.interrupted .zero), ((Server.handler r s).2, 0))
  | .work r, (s, left + 1) =>
    let (answer, s') := Server.handler r s
    (answer.map (.arrived none false), (s', left))

theorem unreliable_of_cancelling (r : Timed Call) (t : Server × Nat) (d : (timed Calls).Answer r)
    (t' : Server × Nat) (quiet : t.1.faults = []) (answered : cancelling r t = (some d, t')) :
    unreliable Exchange r t.1 d t'.1 ∧ t'.1.faults = [] := by
  cases r with
  | report e =>
    obtain ⟨-, rfl⟩ := Prod.mk.inj answered
    exact ⟨rfl, quiet⟩
  | work r =>
    obtain ⟨a, s', handled⟩ : ∃ a s', Server.handler r t.1 = (some a, s') := by
      cases r <;> exact ⟨_, _, rfl⟩
    obtain ⟨came, still⟩ := exchange_of_handler quiet handled
    obtain ⟨s, _ | left⟩ := t
    · simp only [cancelling, handled] at answered
      obtain ⟨answer, rfl⟩ := Prod.mk.inj answered
      obtain rfl := Option.some.inj (show some _ = some d from answer)
      exact ⟨.inr ⟨a, came⟩, still⟩
    · simp only [cancelling, handled] at answered
      obtain ⟨answer, rfl⟩ := Prod.mk.inj answered
      obtain rfl := Option.some.inj (show some _ = some d from answer)
      exact ⟨came, still⟩

/-- A deployment that was cancelled while it created the broker object. -/
theorem undisturbed_of_cancelled : ∃ S' report F F',
    undisturbed (.withGlobalnet "242.0.0.0/8" 0) "east" (fun _ => none) pristine =
        (some (.ok report), F) ∧
      (deployBroker (.withGlobalnet "242.0.0.0/8" 0) "east" clusterAppliers false).run cancelling
        (pristine, 29) =
        (some (.error (.stepFailure "broker" "east" (.cancelled "broker step"))), (S', 0)) ∧
      (∃ report', undisturbed (.withGlobalnet "242.0.0.0/8" 0) "east" (fun _ => none) S' =
        (some (.ok report'), F')) ∧ SameContent F F' := by
  have succeeds : (undisturbed (.withGlobalnet "242.0.0.0/8" 0) "east" (fun _ => none) pristine).1 =
      some (.ok ⟨.globalnetDone, [(.rbac, .created), (.operator, .created), (.broker, .created),
        (.globalnet, .created)]⟩) := by decide +kernel
  have cancels : (fun ran => (ran.1, ran.2.2)) ((deployBroker (.withGlobalnet "242.0.0.0/8" 0) "east"
      clusterAppliers false).run cancelling (pristine, 29)) =
      (some (.error (.stepFailure "broker" "east" (.cancelled "broker step"))), 0) := by
    decide +kernel
  rcases first : undisturbed (.withGlobalnet "242.0.0.0/8" 0) "east" (fun _ => none) pristine with
    ⟨result, F⟩
  rcases second : (deployBroker (.withGlobalnet "242.0.0.0/8" 0) "east" clusterAppliers false).run
    cancelling (pristine, 29) with ⟨result', S', left⟩
  rw [first] at succeeds
  rw [second] at cancels
  obtain rfl : result = _ := succeeds
  obtain ⟨rfl, rfl⟩ := Prod.mk.inj cancels
  have cut := Program.leads_of_run (E := unreliable Exchange) Prod.fst
    (fun t => t.1.faults = []) unreliable_of_cancelling rfl second
  obtain ⟨report', F', again, same⟩ := undisturbed_of_cut_short rfl first cut fun _ => none
  exact ⟨S', _, F, F', rfl, rfl, ⟨report', again⟩, same⟩

end MultiCluster.Deploy
