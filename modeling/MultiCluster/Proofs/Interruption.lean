import MultiCluster.Proofs.Contact

/-! Pipelines that are cancelled or run out of time. A cancellation ends the step that is waiting
for something, or that has to wait for something later. A step that comes to its end without waiting
again is done, and it is the next one that is not begun. -/
namespace MultiCluster.Deploy

open Program

variable {σ : Type} {h : (c : ApplierCall) → σ → Delivery (Except Error c.Result) × σ}
  {limit : Option Duration} {cluster : String} {p : Plan} {step : Step} {s : σ}
  {earlier made seen log before : List Contact} {u v : Contact} {l : Duration}

/-- How a run ends: with all steps done, before a step because it was cancelled earlier, or with a
call. -/
inductive Course (limit : Option Duration) (cluster : String) (p : Plan) (steps : List Step)
    (beforehand : Bool) : List Contact → Option (Except Error Report) → Prop
  | completed {log : List Contact} : Smooth limit log →
      log.map (·.call) = steps.flatMap p.stepCalls → Course limit cluster p steps beforehand log
        (some (.ok ⟨.globalnetDone, (log.map Contact.visit).filterMap Visit.entry?⟩))
  | passedOver {log : List Contact} {done left : List Step} {next : Step} :
      steps = done ++ next :: left → Smooth limit log →
      log.map (·.call) = done.flatMap p.stepCalls →
      (beforehand = true ∨ ∃ v ∈ log, v.cancels = true) →
      Course limit cluster p steps beforehand log
        (some (.error (.stepFailure next.name cluster (.cancelled (next.name ++ " step")))))
  | halted {seen : List Contact} {v : Contact} {error : Option Error} :
      (seen ++ [v]).map (·.call) <+: steps.flatMap p.stepCalls → Smooth limit seen →
      Halts limit (own v seen) v error → Course limit cluster p steps beforehand (seen ++ [v])
        (error.map fun e => .error (.stepFailure v.call.step.name cluster e))

/-- Once a run is cancelled, all calls are of the step that was going on. -/
def Confined (log : List Contact) : Prop :=
  log.Pairwise fun u v => u.cancels = true → v.call.step = u.call.step

theorem prefix_append_cases (start : before ++ [v] <+: seen ++ made) :
    before ++ [v] <+: seen ∨ ∃ rest, before = seen ++ rest ∧ rest ++ [v] <+: made := by
  rcases List.prefix_or_prefix_of_prefix start (List.prefix_append seen made) with inside | longer
  · exact .inl inside
  · rcases List.prefix_concat_iff.mp longer with whole | ⟨rest, rfl⟩
    · exact .inl (whole ▸ List.prefix_rfl)
    · rw [List.append_assoc] at start
      exact .inr ⟨rest, rfl, (List.prefix_append_right_inj seen).mp start⟩

/-- Calls of other steps do not count. -/
theorem own_append (apart : ∀ u ∈ seen, u.call.step ≠ v.call.step) :
    own v (seen ++ made) = own v made := by
  have none : own v seen = [] :=
    List.filter_eq_nil_iff.mpr fun u member same => apart u member (of_decide_eq_true same)
  rw [own, List.filter_append]
  exact congrArg (· ++ own v made) none

theorem smooth_append (smooth : Smooth limit seen) (later : Smooth limit made)
    (apart : ∀ u ∈ seen, ∀ v ∈ made, u.call.step ≠ v.call.step) :
    Smooth limit (seen ++ made) := by
  intro before v start
  rcases prefix_append_cases start with inside | ⟨rest, rfl, inner⟩
  · exact smooth before v inside
  · have member : v ∈ made := inner.subset (List.mem_append_right _ (List.mem_singleton_self v))
    rw [own_append fun u inside => apart u inside v member]
    exact later rest v inner

theorem run_report {α : Type} {e : Event} {rest : Unit → Program (timed ApplierCalls) α}
    {t : σ × List Contact} :
    ((tell e).bind rest).run (attending h) t = (rest ()).run (attending h) t := rfl

theorem run_runSteps_cons {rest : List Step} {cancelled : Bool} {outcomes : List (Step × Outcome)}
    {t : σ × List Contact} :
    (runSteps limit cluster (work callers p) (step :: rest) cancelled outcomes).run
        (attending h) t =
      match (runStep limit step (work callers p step) cancelled).run (attending h) t with
      | (some (.ok outcome, cancelled), t') =>
        (runSteps limit cluster (work callers p) rest cancelled
          (outcomes ++ [(step, outcome)])).run (attending h) t'
      | (some (.error e, _), t') => (some (.error (.stepFailure step.name cluster e)), t')
      | (none, t') => (none, t') := by
  show ((tell _).bind _).run _ _ = _
  rw [run_report]
  show (Program.bind _ _).run _ _ = _
  rw [run_bind]
  rcases (runStep limit step (work callers p step) cancelled).run (attending h) t with
    ⟨_ | ⟨e | outcome, cancelled⟩, t'⟩
  all_goals rfl

theorem call_step_of_mem {steps : List Step}
    (calls : made.map (·.call) <+: steps.flatMap p.stepCalls) (member : u ∈ made) :
    u.call.step ∈ steps := by
  obtain ⟨step, inside, own⟩ := List.mem_flatMap.mp (calls.subset (List.mem_map_of_mem member))
  exact step_of_stepCalls own ▸ inside

/-- Before a step that is begun, the run was not cancelled. -/
theorem confined_append (confined : Confined seen) (quiet : ∀ u ∈ seen, u.cancels = false)
    (same : ∀ u ∈ made, u.call.step = step) : Confined (seen ++ made) := by
  refine List.pairwise_append.mpr ⟨confined, ?_, fun u member v _ cancels => ?_⟩
  · exact List.pairwise_of_forall_mem_list fun u first v second _ =>
      (same v second).trans (same u first).symm
  · exact Bool.noConfusion (cancels.symm.trans (quiet u member))

/-- A call that ends its step ends the run, after the calls of earlier steps as well. -/
theorem course_of_halts {beforehand : Bool} {done rest : List Step} {error : Option Error}
    (calls : seen.map (·.call) = done.flatMap p.stepCalls) (smooth : Smooth limit seen)
    (apart : ∀ u ∈ seen, u.call.step ≠ step)
    (inside : (earlier ++ [v]).map (·.call) <+: p.stepCalls step) (smooth' : Smooth limit earlier)
    (halts : Halts limit earlier v error) :
    Course limit cluster p (done ++ step :: rest) beforehand (seen ++ earlier ++ [v])
      (error.map fun e => .error (.stepFailure v.call.step.name cluster e)) := by
  have mine (u : Contact) (member : u ∈ earlier ++ [v]) : u.call.step = step :=
    step_of_stepCalls (inside.subset (List.mem_map_of_mem member))
  have last : v.call.step = step := mine v (by simp)
  have one (u : Contact) (member : u ∈ earlier) : u.call.step = step :=
    mine u (List.mem_append_left _ member)
  refine .halted ?_ ?_ ?_
  · rw [List.append_assoc, List.map_append, calls, List.flatMap_append, List.flatMap_cons]
    exact (List.prefix_append_right_inj _).mpr (inside.trans (List.prefix_append _ _))
  · exact smooth_append smooth smooth' fun u first w second => one w second ▸ apart u first
  · rw [own_append fun u member => last ▸ apart u member,
      own_eq fun u member => (one u member).trans last.symm]
    exact halts

/-- From the calls that were made so far and succeeded, the remaining steps take the run to its
end. -/
theorem run_course {beforehand : Bool} (limit : Option Duration) (cluster : String)
    (steps done : List Step) {cancelled : Bool} (distinct : (done ++ steps).Nodup)
    (calls : seen.map (·.call) = done.flatMap p.stepCalls) (smooth : Smooth limit seen)
    (flag : cancelled = true ↔ beforehand = true ∨ ∃ v ∈ seen, v.cancels = true)
    (confined : Confined seen) : ∃ log result s',
    (runSteps limit cluster (work callers p) steps cancelled
      ((seen.map Contact.visit).filterMap Visit.entry?)).run (attending h) (s, seen) =
        (result, s', log) ∧
      Course limit cluster p (done ++ steps) beforehand log result ∧ Confined log := by
  -- On the steps that remain; the calls of each come after calls of other steps only.
  induction steps generalizing done seen cancelled s with
  | nil => exact ⟨seen, _, s, rfl, .completed smooth (by rw [calls, List.append_nil]), confined⟩
  | cons step rest ih =>
    rw [run_runSteps_cons]
    cases cancelled with
    | true => exact ⟨seen, _, s, rfl, .passedOver rfl smooth calls (flag.mp rfl), confined⟩
    | false =>
      obtain ⟨made, result, cancelled, s₁, stepped, ended, loud⟩ :=
        run_runStep_stepped h limit p step s seen
      rw [ended]
      have quiet : beforehand = false ∧ ∀ u ∈ seen, u.cancels = false := by
        simpa [Bool.not_eq_true] using flag
      have mine (u : Contact) (member : u ∈ made) : u.call.step = step :=
        step_of_stepCalls (stepped.calls_prefix.subset (List.mem_map_of_mem member))
      have apart (u : Contact) (member : u ∈ seen) : u.call.step ≠ step := by
        have before : u.call.step ∈ done := call_step_of_mem (p := p) (by simp [calls]) member
        exact (List.nodup_append.mp distinct).2.2 _ before step List.mem_cons_self
      cases stepped with
      | @passed _ outcome whole smooth' entry =>
        have outcomes : ((seen ++ made).map Contact.visit).filterMap Visit.entry? =
            (seen.map Contact.visit).filterMap Visit.entry? ++ [(step, outcome)] := by
          rw [List.map_append, List.filterMap_append, entry]
        have carried : cancelled = true ↔
            beforehand = true ∨ ∃ v ∈ seen ++ made, v.cancels = true := by
          simp only [loud outcome rfl, List.any_eq_true, quiet.1, List.mem_append, or_and_right,
            exists_or, Bool.false_eq_true, false_or]
          exact (or_iff_right fun ⟨u, member, cancels⟩ =>
            Bool.noConfusion (cancels.symm.trans (quiet.2 u member))).symm
        have calls' : (seen ++ made).map (·.call) = (done ++ [step]).flatMap p.stepCalls := by
          simp [calls, whole]
        obtain ⟨log, result, s₂, ran, course, still⟩ := ih (done ++ [step]) (s := s₁)
          (by simpa using distinct) calls' (smooth_append smooth smooth' fun u first v second =>
            mine v second ▸ apart u first) carried (confined_append confined quiet.2 mine)
        rw [outcomes] at ran
        exact ⟨log, result, s₂, ran, by simpa using course, still⟩
      | @halted earlier v error inside smooth' halts =>
        have last : v.call.step = step := mine v (by simp)
        refine ⟨seen ++ earlier ++ [v], _, s₁, ?_,
          course_of_halts calls smooth apart inside smooth' halts, ?_⟩
        · rw [List.append_assoc, last]
          cases error with
          | none => rfl
          | some e => rfl
        · rw [List.append_assoc]
          exact confined_append confined quiet.2 mine

inductive Answered (cluster : String) (p : Plan) (beforehand : Bool) :
    List Contact → Option (Except Error Report) → Prop
  | refused {before : List Contact} {v : Contact} {e : Error} :
      (∀ u ∈ before, u.visit.succeeded) → v.answer? = some (.error e) →
      Answered cluster p beforehand (before ++ [v])
        (some (.error (.stepFailure v.call.step.name cluster e)))
  | completed {log : List Contact} : (∀ v ∈ log, v.visit.succeeded) → log.map (·.call) = p.calls →
      Answered cluster p beforehand log
        (some (.ok ⟨.globalnetDone, (log.map Contact.visit).filterMap Visit.entry?⟩))
  | passedOver {log : List Contact} {done left : List Step} {next : Step} :
      (∀ v ∈ log, v.visit.succeeded) → p.steps = done ++ next :: left →
      log.map (·.call) = done.flatMap p.stepCalls →
      (beforehand = true ∨ ∃ v ∈ log, v.cancels = true) → Answered cluster p beforehand log
        (some (.error (.stepFailure next.name cluster (.cancelled (next.name ++ " step")))))

theorem Smooth.succeeded (smooth : Smooth limit log) (member : v ∈ log) : v.visit.succeeded := by
  obtain ⟨before, after, rfl⟩ := List.append_of_mem member
  exact (smooth before v ⟨after, by simp⟩).2

namespace Course

variable {steps : List Step} {beforehand : Bool} {result : Option (Except Error Report)}

theorem calls_prefix (course : Course limit cluster p steps beforehand log result) :
    log.map (·.call) <+: steps.flatMap p.stepCalls := by
  cases course with
  | completed _ whole => exact whole ▸ List.prefix_rfl
  | passedOver split _ calls _ =>
    rw [split, calls, List.flatMap_append]
    exact List.prefix_append _ _
  | halted inside _ _ => exact inside

/-- A call whose answer does not reach its step ends the run. -/
theorem of_not_reached (course : Course limit cluster p steps beforehand log result)
    (start : before ++ [v] <+: log) (unreached : ¬ Reached limit (own v before) v) :
    log = before ++ [v] ∧ ∃ error, Halts limit (own v before) v error ∧
      result = error.map fun e => .error (.stepFailure v.call.step.name cluster e) := by
  cases course with
  | completed smooth _ => exact absurd (smooth before v start).1 unreached
  | passedOver _ smooth _ _ => exact absurd (smooth before v start).1 unreached
  | @halted seen u error _ smooth halts =>
    rcases List.prefix_concat_iff.mp start with same | start
    · obtain ⟨rfl, last⟩ := List.append_inj' same rfl
      obtain rfl := List.singleton_inj.mp last
      exact ⟨rfl, error, halts, rfl⟩
    · exact absurd (smooth before v start).1 unreached

theorem answered (course : Course limit cluster p p.steps beforehand log result)
    (reached : ∀ before v, before ++ [v] <+: log → Reached limit (own v before) v) :
    Answered cluster p beforehand log result := by
  cases course with
  | completed smooth whole =>
    exact .completed (fun _ => smooth.succeeded) (calls_eq (p := p) ▸ whole)
  | passedOver split smooth calls cancelled =>
    exact .passedOver (fun _ => smooth.succeeded) split calls cancelled
  | @halted seen v error _ smooth halts =>
    have last := reached seen v List.prefix_rfl
    cases halts with
    | cutOff cut => exact absurd last cut.not_reached
    | late limited late => exact absurd (limited ▸ last) late.not_reached
    | stalled stalled => exact absurd last stalled.not_reached
    | failed _ refused => exact .refused (fun _ => smooth.succeeded) refused

end Course

theorem steps_nodup : p.steps.Nodup := by
  rw [Plan.steps]
  cases p.broker.globalnetEnabled <;> decide

/-- A run that is cancelled, at whatever moment, and one whose steps are limited in time. No calls
of later steps are made after the cancellation. A step that is waiting then, or has to wait later,
ends the run; so does one that waits for longer than the limit. One without a limit may wait for
ever. Otherwise the answers decide, and the cancellation ends the run before the next step if there
is one. -/
theorem interruption_stops (h : (c : ApplierCall) → σ → Delivery (Except Error c.Result) × σ)
    (s : σ) (cluster : String) (beforehand : Bool) {options : Options}
    (planned : plan options = .ok p) :
    let ran := (deployBroker options cluster callers beforehand).run (attending h) (s, [])
    let limit := options.stepTimeout
    let log := ran.2.2
    log.map (·.call) <+: p.calls ∧ Confined log ∧
    (beforehand = true → log = [] ∧
      ran.1 = some (.error (.stepFailure "rbac" cluster (.cancelled "rbac step")))) ∧
    (∀ before v, before ++ [v] <+: log → CutOff limit (own v before) v → log = before ++ [v] ∧
      ran.1 = some (.error (.stepFailure v.call.step.name cluster
        (.cancelled (v.call.step.name ++ " step"))))) ∧
    (∀ before v l, before ++ [v] <+: log → limit = some l → Late l (own v before) v →
      log = before ++ [v] ∧ ran.1 = some (.error (.stepFailure v.call.step.name cluster
        (.cancelled (v.call.step.name ++ " step timed out after " ++ l.text))))) ∧
    (∀ before v, before ++ [v] <+: log → Stalled limit (own v before) v → log = before ++ [v] ∧
      ran.1 = none) ∧
    ((∀ before v, before ++ [v] <+: log → Reached limit (own v before) v) →
      Answered cluster p beforehand log ran.1) := by
  intro ran limit log
  have accepted : deployBroker options cluster callers beforehand =
      runSteps options.stepTimeout cluster (work callers p) p.steps beforehand [] := by
    simp only [deployBroker, planned]
  have flag : beforehand = true ↔
      beforehand = true ∨ ∃ v ∈ ([] : List Contact), v.cancels = true := by simp
  obtain ⟨log', result, s', ran_eq, course, confined⟩ := run_course (h := h) (s := s) (p := p)
    options.stepTimeout cluster p.steps [] steps_nodup rfl smooth_nil flag List.Pairwise.nil
  have same : ran = (result, s', log') := by
    show (deployBroker options cluster callers beforehand).run _ _ = _
    rw [accepted]
    exact ran_eq
  have log_eq : log = log' := congrArg (fun ran => ran.2.2) same
  have result_eq : ran.1 = result := congrArg (fun ran => ran.1) same
  rw [log_eq, result_eq]
  refine ⟨calls_eq (p := p) ▸ course.calls_prefix, confined, fun cancelled => ?_,
    fun before v start cut => ?_, fun before v l start limited late => ?_,
    fun before v start stalled => ?_, course.answered⟩
  · subst cancelled
    exact ⟨(congrArg (fun ran => ran.2.2) ran_eq).symm, (congrArg (fun ran => ran.1) ran_eq).symm⟩
  · obtain ⟨whole, error, halts, rfl⟩ := course.of_not_reached start cut.not_reached
    exact ⟨whole, halts.unique (.cutOff cut) ▸ rfl⟩
  · have unreached : ¬ Reached options.stepTimeout (own v before) v :=
      (show options.stepTimeout = some l from limited) ▸ late.not_reached
    obtain ⟨whole, error, halts, rfl⟩ := course.of_not_reached start unreached
    exact ⟨whole, halts.unique (.late limited late) ▸ rfl⟩
  · obtain ⟨whole, error, halts, rfl⟩ := course.of_not_reached start stalled.not_reached
    exact ⟨whole, halts.unique (.stalled stalled) ▸ rfl⟩

def scripted (rbac operator : Delivery (Except Error Outcome))
    (validate : Delivery (Except Error Unit)) :
    (c : ApplierCall) → Unit → Delivery (Except Error c.Result) × Unit
  | .rbac _, _ => (rbac, ())
  | .operator _, _ => (operator, ())
  | .broker .., _ => (.arrived none false (.ok .created), ())
  | .validateRecord .., _ => (validate, ())
  | .ensureRecord .., _ => (.arrived none false (.ok .created), ())

def briefSteps : Options :=
  { Options.default with
    broker :=
      ⟨[Component.connectivity, Component.serviceDiscovery], true, Globalnet.defaultRange, 0⟩
    stepTimeout := some (.ofMillis 50) }

def interrupting : (c : ApplierCall) → Unit → Delivery (Except Error c.Result) × Unit :=
  scripted (.arrived (some (.ofMillis 30)) false (.ok .created)) (.interrupted (.ofMillis 30))
    (.arrived none false (.ok ()))

def interruptedRun : Option (Except Error Report) × Unit × List Contact :=
  (deployBroker briefSteps "east" callers false).run (attending interrupting) ((), [])

theorem interruption_stops_operator : ∃ p rbac operator, plan briefSteps = .ok p ∧
    interruptedRun.2.2 = [rbac, operator] ∧
    CutOff briefSteps.stepTimeout (own operator [rbac]) operator ∧
    interruptedRun.1 =
      some (.error (.stepFailure "operator" "east" (.cancelled "operator step"))) := by
  have accepted : (plan briefSteps).isOk = true := by decide +kernel
  obtain ⟨p, planned⟩ : ∃ p, plan briefSteps = .ok p := by
    cases planned : plan briefSteps with
    | ok p => exact ⟨p, rfl⟩
    | error e => exact nomatch planned ▸ accepted
  have calls : interruptedRun.2.2.map
        (fun v => (v.call.step, v.waits, v.time, v.cancels, v.answer?.isSome)) =
      [(.rbac, true, .ofMillis 30, false, true), (.operator, true, .ofMillis 30, true, false)] := by
    decide +kernel
  obtain ⟨rbac, rest, whole, first, others⟩ := List.map_eq_cons_iff.mp calls
  obtain ⟨operator, rest', rfl, second, none⟩ := List.map_eq_cons_iff.mp others
  obtain rfl := List.map_eq_nil_iff.mp none
  simp only [Prod.mk.injEq] at first second
  obtain ⟨step, waits, time, cancels, unanswered⟩ := second
  have alone : own operator [rbac] = [] := by simp [own, first.1, step]
  have cut : CutOff briefSteps.stepTimeout (own operator [rbac]) operator := by
    rw [alone]
    refine ⟨waits, .inr ⟨?_, ?_⟩⟩
    · exact exists_interrupted cancels unanswered
    · rintro l ⟨⟩
      rw [spent_append, time]
      decide
  have folded : (deployBroker briefSteps "east" callers false).run (attending interrupting)
      ((), []) = interruptedRun := rfl
  have spec := interruption_stops interrupting () "east" false planned
  simp only [folded] at spec
  obtain ⟨-, -, -, ends, -, -, -⟩ := spec
  have start : [rbac] ++ [operator] <+: interruptedRun.2.2 := by rw [whole]; exact List.prefix_rfl
  have result := (ends [rbac] operator start cut).2
  rw [step] at result
  exact ⟨p, rbac, operator, planned, whole, cut, result⟩

def cancellingInside : (c : ApplierCall) → Unit → Delivery (Except Error c.Result) × Unit :=
  scripted (.arrived none false (.ok .created)) (.arrived none false (.ok .created))
    (.arrived none true (.ok ()))

def cancelledRun : Option (Except Error Report) × Unit × List Contact :=
  (deployBroker briefSteps "east" callers false).run (attending cancellingInside) ((), [])

/-- A step in which the run is cancelled may come to its end all the same, and the run succeed. -/
theorem cancelled_step_may_finish : ¬ ∀ (options : Options)
    (h : (c : ApplierCall) → Unit → Delivery (Except Error c.Result) × Unit)
    (before after : List Contact) (v w : Contact),
    let ran := (deployBroker options "east" callers false).run (attending h) ((), [])
    (plan options).isOk = true → ran.2.2 = before ++ v :: w :: after → v.cancels = true →
      w.call.step = v.call.step → ∃ operation, ran.1 =
        some (.error (.stepFailure v.call.step.name "east" (.cancelled operation))) := by
  intro claim
  have calls : cancelledRun.2.2.map (fun v => (v.call.step, v.cancels)) =
      [(.rbac, false), (.operator, false), (.broker, false)] ++
        [(.globalnet, true), (.globalnet, false)] := by decide +kernel
  have succeeds : cancelledRun.1.map Except.isOk = some true := by decide +kernel
  obtain ⟨before, rest, whole, -, last⟩ := List.map_eq_append_iff.mp calls
  obtain ⟨v, rest', rfl, first, others⟩ := List.map_eq_cons_iff.mp last
  obtain ⟨w, after, rfl, second, -⟩ := List.map_eq_cons_iff.mp others
  obtain ⟨step, cancels⟩ := Prod.mk.inj first
  have same : w.call.step = v.call.step := (Prod.mk.inj second).1.trans step.symm
  have accepted : (plan briefSteps).isOk = true := by decide +kernel
  have folded : (deployBroker briefSteps "east" callers false).run (attending cancellingInside)
      ((), []) = cancelledRun := rfl
  have spec := claim briefSteps cancellingInside before after v w
  simp only [folded] at spec
  obtain ⟨operation, failed⟩ := spec accepted whole cancels same
  rw [failed] at succeeds
  cases succeeds

end MultiCluster.Deploy
