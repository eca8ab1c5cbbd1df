import MultiCluster.Deploy.Pipeline
import MultiCluster.Proofs.Surroundings

/-! Pipelines in time. An answer may come late, come with the cancellation of the run, or not come
at all, whether the request was carried out or not. Where every answer comes in time, a pipeline does
what its steps do without limits. -/
namespace MultiCluster.Deploy

open Program

variable {I : Interface} {α σ : Type} {E : Surroundings I σ} {rely guarantee : σ → σ → Prop}
  {s s' : σ} {limit : Option Duration} {cluster : String}

/-! ### Whatever happens in time -/

/-- What may come of the requests of a pipeline. An answer that does not arrive may have been given
all the same. -/
def unreliable (E : Surroundings I σ) : Surroundings (timed I) σ
  | .report _, s, _, s' => s' = s
  | .work r, s, (d : Delivery (I.Answer r)), s' =>
    match d with
    | .arrived _ _ a => E r s a s'
    | .interrupted _ => s' = s ∨ ∃ a, E r s a s'
    | .lost => s' = s ∨ ∃ a, E r s a s'

/-- Whatever becomes of an answer, at most one request was carried out. -/
theorem unreliable_cases {r : Timed I.Request} {d : (timed I).Answer r}
    (came : unreliable E r s d s') : s' = s ∨ ∃ r a, E r s a s' := by
  cases r with
  | report e => exact .inl came
  | work r =>
    cases d with
    | arrived wait cancels a => exact .inr ⟨r, a, came⟩
    | interrupted after => exact came.imp_right fun ⟨a, answered⟩ => ⟨r, a, answered⟩
    | lost => exact came.imp_right fun ⟨a, answered⟩ => ⟨r, a, answered⟩

theorem leads_keeps {J : σ → Prop} {p p' : Program (timed I) α}
    (leads : Leads (unreliable E) p s p' s') (each : ∀ r s a s', E r s a s' → J s → J s')
    (start : J s) : J s' := by
  induction leads with
  | here => exact start
  | answered came later ih =>
    refine ih ?_
    rcases unreliable_cases came with rfl | ⟨r, a, answered⟩
    · exact start
    · exact each _ _ _ _ answered start

theorem meets_stuck {cancelled : Bool} {post : Ending α × Bool → σ → Prop}
    (unfinished : ∀ ending cancelled s, (∀ a, ending ≠ .finished a) → post (ending, cancelled) s) :
    (stuck (I := I) limit cancelled).Meets (unreliable E) rely guarantee post s := by
  unfold stuck
  split
  · exact unfinished _ _ _ (by simp)
  · split
    · exact unfinished _ _ _ (by simp)
    · trivial

/-- Work that is bounded in time meets what it meets without bounds, as far as it gets. -/
theorem meets_bounded {p : Program I α} {elapsed : Duration} {cancelled : Bool}
    {post : α → σ → Prop} (refl : ∀ s, guarantee s s) (meets : p.Meets E rely guarantee post s) :
    (bounded limit p elapsed cancelled).Meets (unreliable E) rely guarantee
      (fun result s' => ∀ a, result.1 = .finished a → post a s') s := by
  have unfinished (ending : Ending α) (cancelled : Bool) (s : σ)
      (other : ∀ a, ending ≠ .finished a) (a : α) (same : ending = .finished a) : post a s :=
    absurd same (other a)
  induction p generalizing elapsed cancelled s with
  | done a =>
    rintro _ ⟨⟩
    exact meets
  | never => exact meets_stuck unfinished
  | ask r next ih =>
    rw [bounded]
    intro s₁ moved d s₂ came
    have cut (gone : s₂ = s₁ ∨ ∃ a, E r s₁ a s₂) : guarantee s₁ s₂ := by
      rcases gone with rfl | ⟨a, answered⟩
      · exact refl _
      · exact (meets s₁ moved a s₂ answered).1
    cases d with
    | arrived wait cancels a =>
      obtain ⟨kept, later⟩ := meets s₁ moved a s₂ came
      refine ⟨kept, ?_⟩
      cases wait with
      | none => exact ih a later
      | some wait =>
        simp only
        split
        · exact unfinished _ true _ (by simp)
        · split
          · exact unfinished _ true _ (by simp)
          · exact ih a later
    | interrupted after =>
      refine ⟨cut came, ?_⟩
      simp only
      split
      · exact unfinished _ true _ (by simp)
      · split <;> exact unfinished _ true _ (by simp)
    | lost => exact ⟨cut came, meets_stuck unfinished⟩

theorem meets_tell {e : Event} {rest : Program (timed I) α} {post : α → σ → Prop}
    (refl : ∀ s, guarantee s s)
    (meets : ∀ s', rely s s' → rest.Meets (unreliable E) rely guarantee post s') :
    ((tell e).bind fun _ => rest).Meets (unreliable E) rely guarantee post s := by
  rintro s₁ moved ⟨⟩ s₂ rfl
  exact ⟨refl _, meets s₂ moved⟩

/-- A step that succeeds has done its work. -/
theorem meets_runStep {step : Step} {work : Action I Error Outcome} {cancelled : Bool}
    {post : Except Error Outcome → σ → Prop} (refl : ∀ s, guarantee s s)
    (meets : work.run.Meets E rely guarantee post s) :
    (runStep limit step work cancelled).Meets (unreliable E) rely guarantee
      (fun result s' => ∀ outcome, result.1 = .ok outcome → post (.ok outcome) s') s := by
  unfold runStep
  split
  · rintro outcome ⟨⟩
  · refine Meets.bind ((meets_bounded refl meets).imp fun result s' done => ?_)
    obtain ⟨ending, cancelled⟩ := result
    cases ending with
    | finished result =>
      rintro outcome rfl
      exact done _ rfl
    | cancelled => rintro outcome ⟨⟩
    | timedOut l => rintro outcome ⟨⟩

/-- Steps in a row, from what each of them makes of what holds before it. -/
theorem meets_runSteps {K : List Step → σ → Prop} {work : Step → Action I Error Outcome}
    {steps : List Step} {cancelled : Bool} {outcomes : List (Step × Outcome)}
    (refl : ∀ s, guarantee s s) (stable : ∀ steps s s', rely s s' → K steps s → K steps s')
    (each : ∀ step rest s, K (step :: rest) s → (work step).run.Meets E rely guarantee
      (fun result s' => ∀ outcome, result = .ok outcome → K rest s') s) (start : K steps s) :
    (runSteps limit cluster work steps cancelled outcomes).Meets (unreliable E) rely guarantee
      (fun result s' => ∀ report, result = .ok report → K [] s') s := by
  induction steps generalizing s cancelled outcomes with
  | nil => exact fun _ _ => start
  | cons step rest ih =>
    refine meets_tell refl fun s₁ moved => Meets.bind ?_
    have ready := stable _ _ _ moved start
    refine (meets_runStep refl (each step rest s₁ ready)).imp fun result s₂ done => ?_
    obtain ⟨result, cancelled⟩ := result
    cases result with
    | error e => exact meets_tell refl fun _ _ => fun _ same => by cases same
    | ok outcome =>
      refine meets_tell refl fun s₃ moved₃ => meets_tell refl fun s₄ moved₄ => ih ?_
      exact stable _ _ _ moved₄ (stable _ _ _ moved₃ (done outcome rfl outcome rfl))

/-! ### Where every answer comes in time -/

structure Clock (σ : Type) where
  state : σ
  asked : Nat
  elapsed : Duration

/-- Answers every request, after a wait unless the wait would take longer than the limit leaves;
nobody cancels. -/
def punctual (h : Handler I σ) (limit : Option Duration) (waits : Nat → Option Duration) :
    Handler (timed I) (Clock σ)
  | .report _, c => (some (), { c with elapsed := .zero })
  | .work r, c =>
    let (answer, s) := h r c.state
    let wait := (waits c.asked).filter fun w => (exceeded (c.elapsed.add w) limit).isNone
    (answer.map (.arrived wait false), ⟨s, c.asked + 1, c.elapsed.add (wait.getD .zero)⟩)

def inTurn (cluster : String) (work : Step → Action I Error Outcome) :
    List Step → Action I Error (List (Step × Outcome))
  | [] => pure []
  | step :: rest => do
    let outcome ← (work step).adapt (Error.stepFailure step.name cluster)
    let others ← inTurn cluster work rest
    pure ((step, outcome) :: others)

variable {h : Handler I σ} {waits : Nat → Option Duration} {c : Clock σ}

theorem unreliable_of_punctual {J : σ → Prop} {r : Timed I.Request} {d : (timed I).Answer r}
    {c' : Clock σ} (allowed : ∀ r a s', J c.state → h r c.state = (some a, s') →
      E r c.state a s' ∧ J s') (start : J c.state)
    (answered : punctual h limit waits r c = (some d, c')) :
    unreliable E r c.state d c'.state ∧ J c'.state := by
  cases r with
  | report e =>
    obtain ⟨-, rfl⟩ := Prod.mk.inj answered
    exact ⟨rfl, start⟩
  | work r =>
    rcases came : h r c.state with ⟨_ | a, s'⟩ <;>
      simp only [punctual, came, Prod.mk.injEq] at answered <;> obtain ⟨answer, rfl⟩ := answered
    · exact nomatch (show none = some d from answer)
    · obtain rfl := Option.some.inj (show some _ = some d from answer)
      exact allowed r a s' start came

theorem following_of_punctual {r : Timed I.Request} {d : (timed I).Answer r} {c' : Clock σ}
    (answered : punctual h limit waits r c = (some d, c')) :
    unreliable (following h) r c.state d c'.state :=
  (unreliable_of_punctual (J := fun _ => True) (fun _ _ _ _ came => ⟨came, trivial⟩) trivial
    answered).1

theorem punctual_arrived (limit : Option Duration) (waits : Nat → Option Duration)
    {r : I.Request} {a : I.Answer r} (answered : h r c.state = (some a, s')) : ∃ wait,
    punctual h limit waits (.work r) c = (some (.arrived wait false a),
      ⟨s', c.asked + 1, c.elapsed.add (wait.getD .zero)⟩) ∧
    ∀ w, wait = some w → exceeded (c.elapsed.add w) limit = none := by
  refine ⟨(waits c.asked).filter fun w => (exceeded (c.elapsed.add w) limit).isNone, ?_, ?_⟩
  · simp only [punctual, answered]
    rfl
  · intro w waited
    simpa using (Option.filter_eq_some_iff.mp waited).2

/-- After an answer that arrives in time, work that is bounded goes on. -/
theorem run_bounded_ask {τ : Type} {surroundings : Handler (timed I) τ} {t t' : τ} {r : I.Request}
    {a : I.Answer r} {next : I.Answer r → Program I α} {elapsed : Duration} {wait : Option Duration}
    (arrived : surroundings (.work r) t = (some (.arrived wait false a), t'))
    (inTime : ∀ w, wait = some w → exceeded (elapsed.add w) limit = none) :
    (bounded limit (.ask r next) elapsed false).run surroundings t =
      (bounded limit (next a) (elapsed.add (wait.getD .zero)) false).run surroundings t' := by
  rw [bounded]
  refine (run_ask (I := timed I) arrived).trans ?_
  cases wait with
  | none => rfl
  | some w =>
    simp only [inTime w rfl]
    rfl

theorem run_bounded (limit : Option Duration) (waits : Nat → Option Duration) {p : Program I α}
    {a : α} (ran : p.run h c.state = (some a, s')) :
    ∃ c', (bounded limit p c.elapsed false).run (punctual h limit waits) c =
      (some (.finished a, false), c') ∧ c'.state = s' := by
  induction p generalizing c with
  | done b =>
    obtain ⟨rfl, rfl⟩ : b = a ∧ c.state = s' := by simpa [run] using ran
    exact ⟨c, rfl, rfl⟩
  | never => simp [run] at ran
  | ask r next ih =>
    simp only [run] at ran
    split at ran
    · next b s₁ answered =>
      obtain ⟨wait, arrived, inTime⟩ := punctual_arrived limit waits answered
      rw [run_bounded_ask arrived inTime]
      exact ih b (c := ⟨s₁, c.asked + 1, c.elapsed.add (wait.getD .zero)⟩) ran
    · simp at ran

theorem run_tell {e : Event} {rest : Unit → Program (timed I) α} :
    ((tell e).bind rest).run (punctual h limit waits) c =
      (rest ()).run (punctual h limit waits) { c with elapsed := .zero } := rfl

theorem run_runStep (limit : Option Duration) (waits : Nat → Option Duration) (step : Step)
    {work : Action I Error Outcome} {result : Except Error Outcome}
    (begins : c.elapsed = .zero) (ran : work.run.run h c.state = (some result, s')) :
    ∃ c', (runStep limit step work false).run (punctual h limit waits) c =
      (some (result, false), c') ∧ c'.state = s' := by
  obtain ⟨c', ran', same⟩ := run_bounded limit waits ran
  refine ⟨c', ?_, same⟩
  rw [begins] at ran'
  simp only [runStep, Bool.false_eq_true, if_false]
  rw [run_bind, ran']
  rfl

/-- A pipeline does what its steps do one after the other. -/
theorem run_runSteps (limit : Option Duration) (waits : Nat → Option Duration)
    {work : Step → Action I Error Outcome} {steps : List Step} (outcomes : List (Step × Outcome))
    {result : Except Error (List (Step × Outcome))}
    (ran : (inTurn cluster work steps).run.run h c.state = (some result, s')) :
    ∃ c', (runSteps limit cluster work steps false outcomes).run (punctual h limit waits) c =
      (some (result.map fun done => ⟨.globalnetDone, outcomes ++ done⟩), c') ∧ c'.state = s' := by
  induction steps generalizing c outcomes result s' with
  | nil =>
    obtain ⟨rfl, rfl⟩ : Except.ok [] = result ∧ c.state = s' := by
      rw [inTurn, ExceptT.run_pure] at ran
      simpa [pure, run] using ran
    exact ⟨c, by simp [runSteps, run, Except.map], rfl⟩
  | cons step rest ih =>
    rw [inTurn, run_action_bind, run_adapt] at ran
    show ∃ c', ((tell _).bind _).run _ c = _ ∧ _
    rw [run_tell]
    rcases first : (work step).run.run h c.state with ⟨_ | error | outcome, s₁⟩
    · simp [first] at ran
    · simp only [first, Option.map_some, mapError_error, Prod.mk.injEq, Option.some.injEq] at ran
      obtain ⟨rfl, rfl⟩ := ran
      obtain ⟨c₁, ran₁, same⟩ := run_runStep limit waits step
        (c := { c with elapsed := .zero }) rfl first
      refine ⟨{ c₁ with elapsed := .zero }, ?_, same⟩
      show (Program.bind _ _).run _ _ = _
      rw [run_bind, ran₁]
      rfl
    · simp only [first, Option.map_some, mapError_ok, run_action_bind] at ran
      obtain ⟨c₁, ran₁, rfl⟩ := run_runStep limit waits step
        (c := { c with elapsed := .zero }) rfl first
      show ∃ c', (Program.bind _ _).run _ _ = _ ∧ _
      rw [run_bind, ran₁]
      rcases later : (inTurn cluster work rest).run.run h c₁.state with ⟨_ | error | others, s₂⟩
      · simp [later] at ran
      · simp only [later, Prod.mk.injEq, Option.some.injEq] at ran
        obtain ⟨rfl, rfl⟩ := ran
        exact ih _ (c := { c₁ with elapsed := .zero }) later
      · simp only [later] at ran
        obtain ⟨c₂, ran₂, same⟩ := ih (outcomes ++ [(step, outcome)])
          (c := { c₁ with elapsed := .zero }) later
        obtain ⟨rfl, rfl⟩ : Except.ok ((step, outcome) :: others) = result ∧ s₂ = s' := by
          rw [ExceptT.run_pure] at ran
          simpa [pure, run] using ran
        refine ⟨c₂, ran₂.trans ?_, same⟩
        simp [Except.map]

/-- A pipeline that succeeds has done what its steps do one after the other, however long the answers
took and whenever it was cancelled. -/
theorem meets_inTurn {work : Step → Action I Error Outcome} {steps : List Step} {cancelled : Bool}
    {outcomes : List (Step × Outcome)} :
    (runSteps limit cluster work steps cancelled outcomes).Meets (unreliable (following h)) Eq
      (fun _ _ => True) (fun result s' => ∀ report, result = .ok report → ∃ done,
        (inTurn cluster work steps).run.run h s = (some (.ok done), s') ∧
          report = ⟨.globalnetDone, outcomes ++ done⟩) s := by
  induction steps generalizing s cancelled outcomes with
  | nil =>
    rintro report ⟨⟩
    exact ⟨[], rfl, by simp⟩
  | cons step rest ih =>
    refine meets_tell (fun _ => trivial) fun s₁ same => Meets.bind ?_
    subst same
    refine (meets_runStep (fun _ => trivial) meets_following).imp fun result s₁ done => ?_
    obtain ⟨result, cancelled⟩ := result
    cases result with
    | error e => exact meets_tell (fun _ => trivial) fun _ _ => fun _ same => by cases same
    | ok outcome =>
      have first := done outcome rfl
      refine meets_tell (fun _ => trivial) fun s₂ same => ?_
      subst same
      refine meets_tell (fun _ => trivial) fun s₂ same => ?_
      subst same
      refine ih.imp fun result s₂ later report ok => ?_
      obtain ⟨others, ran, rfl⟩ := later report ok
      refine ⟨(step, outcome) :: others, ?_, by simp⟩
      rw [inTurn, run_action_bind, run_adapt, first]
      simp only [Option.map_some, mapError_ok]
      rw [run_action_bind, ran]
      rfl

end MultiCluster.Deploy
