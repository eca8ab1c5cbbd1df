import MultiCluster.Proofs.Planning
import MultiCluster.Proofs.Stages
import MultiCluster.Proofs.Timed

/-! The order in which a pipeline calls its appliers, whatever they do. An applier is a party of its
own: it answers a call, with a result or an error, or never, and its answer may depend on everything
that happened before. Calls and events are written down as they come. -/
namespace MultiCluster.Deploy

open Program

inductive ApplierCall where
  | rbac (r : Rights)
  | operator (o : Operator)
  | broker (namespaceName : String) (spec : BrokerSpec)
  | validateRecord (namespaceName : String) (record : Globalnet.Record)
  | ensureRecord (namespaceName : String) (record : Globalnet.Record)
  deriving DecidableEq, Repr

namespace ApplierCall

abbrev Result : ApplierCall → Type
  | .validateRecord .. => Unit
  | _ => Outcome

def step : ApplierCall → Step
  | .rbac _ => .rbac
  | .operator _ => .operator
  | .broker .. => .broker
  | .validateRecord .. => .globalnet
  | .ensureRecord .. => .globalnet

def opens : ApplierCall → Bool
  | .ensureRecord .. => false
  | _ => true

def outcome? : (c : ApplierCall) → c.Result → Option Outcome
  | .rbac _, o => some o
  | .operator _, o => some o
  | .broker .., o => some o
  | .validateRecord .., _ => none
  | .ensureRecord .., o => some o

end ApplierCall

abbrev ApplierCalls : Interface where
  Request := ApplierCall
  Answer c := Except Error c.Result

def callers : Appliers ApplierCalls where
  rbac r := .mk (.ask (I := ApplierCalls) (.rbac r) .done)
  operator o := .mk (.ask (I := ApplierCalls) (.operator o) .done)
  broker ns spec := .mk (.ask (I := ApplierCalls) (.broker ns spec) .done)
  validateRecord ns record := .mk (.ask (I := ApplierCalls) (.validateRecord ns record) .done)
  ensureRecord ns record := .mk (.ask (I := ApplierCalls) (.ensureRecord ns record) .done)

structure Visit where
  call : ApplierCall
  answer : Option (Except Error call.Result)

inductive Happening where
  | visit (v : Visit)
  | event (e : Event)

variable {σ : Type}

/-- Appliers that answer in time, with a record of what happens. -/
def watching (h : Handler ApplierCalls σ) (limit : Option Duration)
    (waits : Nat → Option Duration) : Handler (timed ApplierCalls) (Clock σ × List Happening) :=
  fun r (c, log) =>
    let (answer, c') := punctual h limit waits r c
    let happening : Happening := match r with
      | .work call => .visit ⟨call, (h call c.state).1⟩
      | .report e => .event e
    (answer, c', log ++ [happening])

namespace Visit

def succeeded (v : Visit) : Prop := ∃ r, v.answer = some (.ok r)

def entry? (v : Visit) : Option (Step × Outcome) :=
  match v.answer with
  | some (.ok r) => (v.call.outcome? r).map (v.call.step, ·)
  | _ => none

end Visit

def Step.ending (step : Step) : Option (Except Error Outcome) → List Event
  | some (.ok outcome) => [.success (step.description ++ " (" ++ outcome.name ++ ")"), .finish]
  | some (.error e) => [.failure (step.description ++ " failed: " ++ e.message)]
  | none => []

namespace Visit

def closing (v : Visit) : List Event :=
  match v.answer with
  | some (.ok r) => (v.call.outcome? r).elim [] fun o => v.call.step.ending (some (.ok o))
  | some (.error e) => v.call.step.ending (some (.error e))
  | none => []

def opening (v : Visit) : List Event :=
  if v.call.opens then [.start v.call.step.description] else []

def happenings (v : Visit) : List Happening :=
  v.opening.map .event ++ [.visit v] ++ v.closing.map .event

end Visit

def Plan.stepCalls (p : Plan) : Step → List ApplierCall
  | .rbac => [.rbac p.rights]
  | .operator => [.operator p.operator]
  | .broker => [.broker p.namespaceName p.broker]
  | .globalnet => [.validateRecord p.namespaceName p.record, .ensureRecord p.namespaceName p.record]

def Plan.calls (p : Plan) : List ApplierCall :=
  [.rbac p.rights, .operator p.operator, .broker p.namespaceName p.broker] ++
    if p.broker.globalnetEnabled then
      [.validateRecord p.namespaceName p.record, .ensureRecord p.namespaceName p.record]
    else []

/-- How a run ends after some calls: all were made and succeeded, or the last one failed, or it is
still being waited for. -/
inductive Ends (cluster : String) (calls : List ApplierCall) :
    List Visit → Option (Except Error Report) → Prop
  | completed {visits : List Visit} : visits.map (·.call) = calls → (∀ v ∈ visits, v.succeeded) →
      Ends cluster calls visits (some (.ok ⟨.globalnetDone, visits.filterMap Visit.entry?⟩))
  | failed {earlier : List Visit} {last : Visit} {e : Error} :
      (earlier ++ [last]).map (·.call) <+: calls → (∀ v ∈ earlier, v.succeeded) →
      last.answer = some (.error e) →
      Ends cluster calls (earlier ++ [last])
        (some (.error (.stepFailure last.call.step.name cluster e)))
  | stalled {earlier : List Visit} {last : Visit} :
      (earlier ++ [last]).map (·.call) <+: calls → (∀ v ∈ earlier, v.succeeded) →
      last.answer = none → Ends cluster calls (earlier ++ [last]) none

variable {h : Handler ApplierCalls σ} {limit : Option Duration} {waits : Nat → Option Duration}
  {cluster : String} {p : Plan} {c : Clock σ} {log : List Happening} {step : Step} {α : Type}

/-- A call is written down with its answer, and the work goes on with that if there is one. -/
theorem run_call (h : Handler ApplierCalls σ) (limit : Option Duration)
    (waits : Nat → Option Duration) (c : Clock σ) (log : List Happening) (call : ApplierCall)
    (next : ApplierCalls.Answer call → Program ApplierCalls α) :
    ∃ c', (bounded limit (.ask (I := ApplierCalls) call next) c.elapsed false).run
        (watching h limit waits) (c, log) =
      match (h call c.state).1 with
      | some a => (bounded limit (next a) c'.elapsed false).run (watching h limit waits)
          (c', log ++ [.visit ⟨call, some a⟩])
      | none => (none, c', log ++ [.visit ⟨call, none⟩]) := by
  rcases answered : h call c.state with ⟨_ | a, s⟩
  · obtain ⟨c', lost⟩ : ∃ c', watching h limit waits (.work call) (c, log) =
        (none, c', log ++ [.visit ⟨call, none⟩]) := by
      simp only [watching, punctual, answered]
      exact ⟨_, rfl⟩
    refine ⟨c', ?_⟩
    conv_lhs => unfold bounded
    exact run_unanswered (I := timed ApplierCalls) lost
  · obtain ⟨wait, arrived, inTime⟩ := punctual_arrived (I := ApplierCalls) limit waits answered
    have noted : watching h limit waits (.work call) (c, log) = (some (.arrived wait false a),
        ⟨s, c.asked + 1, c.elapsed.add (wait.getD .zero)⟩, log ++ [.visit ⟨call, some a⟩]) := by
      simp only [watching, arrived, answered]
    refine ⟨⟨s, c.asked + 1, c.elapsed.add (wait.getD .zero)⟩, ?_⟩
    exact run_bounded_ask (I := ApplierCalls) noted inTime

inductive Passed (p : Plan) (step : Step) : List Visit → Option (Except Error Outcome) → Prop
  | completed {made : List Visit} {outcome : Outcome} : made.map (·.call) = p.stepCalls step →
      (∀ v ∈ made, v.succeeded) → made.filterMap Visit.entry? = [(step, outcome)] →
      Passed p step made (some (.ok outcome))
  | failed {earlier : List Visit} {last : Visit} {e : Error} :
      (earlier ++ [last]).map (·.call) <+: p.stepCalls step → (∀ v ∈ earlier, v.succeeded) →
      last.answer = some (.error e) → Passed p step (earlier ++ [last]) (some (.error e))
  | stalled {earlier : List Visit} {last : Visit} :
      (earlier ++ [last]).map (·.call) <+: p.stepCalls step → (∀ v ∈ earlier, v.succeeded) →
      last.answer = none → Passed p step (earlier ++ [last]) none

/-- The calls of a step make up what is seen of it. -/
def Shown (step : Step) (made : List Visit) (result : Option (Except Error Outcome)) : Prop :=
  made.flatMap Visit.happenings =
    .event (.start step.description) :: made.map .visit ++ (step.ending result).map .event

theorem shown_single {v : Visit} {result : Option (Except Error Outcome)}
    (opens : v.call.opens = true) (own : v.call.step = step)
    (closing : v.closing = step.ending result) : Shown step [v] result := by
  simp [Shown, Visit.happenings, Visit.opening, opens, own, closing]

/-- A first call that goes unmentioned leaves what is seen to the second. -/
theorem shown_pair {v w : Visit} {result : Option (Except Error Outcome)}
    (opens : v.call.opens = true) (own : v.call.step = step) (silent : v.closing = [])
    (joins : w.call.opens = false) (closing : w.closing = step.ending result) :
    Shown step [v, w] result := by
  simp [Shown, Visit.happenings, Visit.opening, opens, own, silent, joins, closing]

theorem passed_single {call : ApplierCall}
    {view : ApplierCalls.Answer call → Except Error Outcome}
    (only : p.stepCalls step = [call]) (opens : call.opens = true)
    (own : call.step = step)
    (ok : ∀ r, ∃ o, view (.ok r) = .ok o ∧ call.outcome? r = some o)
    (error : ∀ e, view (.error e) = .error e) (answer : Option (ApplierCalls.Answer call)) :
    Passed p step [⟨call, answer⟩] (answer.map view) ∧
      Shown step [⟨call, answer⟩] (answer.map view) := by
  subst own
  have whole : [call] <+: p.stepCalls (call.step) := only ▸ List.prefix_rfl
  rcases answer with _ | e | r
  · constructor
    · exact @Passed.stalled _ _ [] _ whole (by simp) rfl
    · exact shown_single opens rfl rfl
  · rw [Option.map_some, error e]
    constructor
    · exact @Passed.failed _ _ [] _ _ whole (by simp) rfl
    · exact shown_single opens rfl rfl
  · obtain ⟨o, same, given⟩ := ok r
    rw [Option.map_some, same]
    constructor
    · exact .completed only.symm (by simp [Visit.succeeded]) (by simp [Visit.entry?, given])
    · exact shown_single opens rfl (by simp [Visit.closing, given])

theorem run_work_single {call : ApplierCall}
    {view : ApplierCalls.Answer call → Except Error Outcome}
    (only : p.stepCalls step = [call]) (opens : call.opens = true) (own : call.step = step)
    (ok : ∀ r, ∃ o, view (.ok r) = .ok o ∧ call.outcome? r = some o)
    (error : ∀ e, view (.error e) = .error e) : ∃ made result c',
    (bounded limit (.ask (I := ApplierCalls) call fun a => .done (view a)) c.elapsed false).run
        (watching h limit waits) (c, log) =
      (result.map fun r => (.finished r, false), c', log ++ made.map .visit) ∧
    Passed p step made result ∧ Shown step made result := by
  obtain ⟨c', called⟩ := run_call h limit waits c log call fun a => .done (view a)
  refine ⟨[⟨call, (h call c.state).1⟩], (h call c.state).1.map view, c', ?_,
    passed_single only opens own ok error _⟩
  rw [called]
  cases (h call c.state).1 with
  | none => rfl
  | some a => rfl

/-- The record is written only if it passes. -/
theorem work_globalnet : (work callers p .globalnet).run =
    .ask (I := ApplierCalls) (.validateRecord p.namespaceName p.record)
      fun (a : Except Error Unit) => match a with
        | .ok _ => .ask (I := ApplierCalls) (.ensureRecord p.namespaceName p.record)
            fun a => .done a
        | .error e => .done (.error e) := by
  show Program.ask (I := ApplierCalls) _ _ = _
  congr 1
  funext a
  cases a with
  | ok _ => rfl
  | error e => rfl

/-- A validation that is not passed is the only call of its step. -/
theorem passed_validate {answer : Option (Except Error Unit)} {result : Option (Except Error Outcome)}
    (refused : answer = none ∧ result = none ∨
      ∃ e, answer = some (.error e) ∧ result = some (.error e)) :
    Passed p .globalnet [⟨.validateRecord p.namespaceName p.record, answer⟩] result ∧
      Shown .globalnet [⟨.validateRecord p.namespaceName p.record, answer⟩] result := by
  have first : [Visit.call ⟨.validateRecord p.namespaceName p.record, answer⟩] <+:
      p.stepCalls .globalnet := ⟨[_], rfl⟩
  rcases refused with ⟨rfl, rfl⟩ | ⟨e, rfl, rfl⟩
  · constructor
    · exact @Passed.stalled _ _ [] _ first (by simp) rfl
    · exact shown_single rfl rfl rfl
  · constructor
    · exact @Passed.failed _ _ [] _ _ first (by simp) rfl
    · exact shown_single rfl rfl rfl

/-- After a validation that is passed, the record decides. -/
theorem passed_ensure (answer : Option (Except Error Outcome)) :
    Passed p .globalnet [⟨.validateRecord p.namespaceName p.record, some (.ok ())⟩,
      ⟨.ensureRecord p.namespaceName p.record, answer⟩] answer ∧
    Shown .globalnet [⟨.validateRecord p.namespaceName p.record, some (.ok ())⟩,
      ⟨.ensureRecord p.namespaceName p.record, answer⟩] answer := by
  let passed : Visit := ⟨.validateRecord p.namespaceName p.record, some (.ok ())⟩
  have succeeded : ∀ v ∈ [passed], v.succeeded := by simp [passed, Visit.succeeded]
  have both (ensuring : Visit) (called : ensuring.call = .ensureRecord p.namespaceName p.record) :
      ([passed] ++ [ensuring]).map (·.call) <+: p.stepCalls .globalnet := by
    simp [passed, called, Plan.stepCalls]
  rcases answer with _ | e | o
  · constructor
    · exact .stalled (both _ rfl) succeeded rfl
    · exact shown_pair rfl rfl rfl rfl rfl
  · constructor
    · exact .failed (both _ rfl) succeeded rfl
    · exact shown_pair rfl rfl rfl rfl rfl
  · constructor
    · exact .completed rfl (by simp [Visit.succeeded]) rfl
    · exact shown_pair rfl rfl rfl rfl rfl

theorem run_work_globalnet : ∃ made result c',
    (bounded limit (work callers p .globalnet).run c.elapsed false).run (watching h limit waits)
        (c, log) =
      (result.map fun r => (.finished r, false), c', log ++ made.map .visit) ∧
    Passed p .globalnet made result ∧ Shown .globalnet made result := by
  obtain ⟨c₁, validated⟩ := run_call h limit waits c log
    (.validateRecord p.namespaceName p.record) fun (a : Except Error Unit) => match a with
      | .ok _ => .ask (I := ApplierCalls) (.ensureRecord p.namespaceName p.record) fun a => .done a
      | .error e => .done (.error e)
  rw [work_globalnet, validated]
  rcases (h (.validateRecord p.namespaceName p.record) c.state).1 with _ | e | _
  · exact ⟨_, none, c₁, rfl, passed_validate (.inl ⟨rfl, rfl⟩)⟩
  · exact ⟨_, some (.error e), c₁, rfl, passed_validate (.inr ⟨e, rfl, rfl⟩)⟩
  · obtain ⟨c₂, ensured⟩ := run_call h limit waits c₁
      (log ++ [.visit ⟨.validateRecord p.namespaceName p.record, some (.ok ())⟩])
      (.ensureRecord p.namespaceName p.record) fun a => .done a
    refine ⟨_, (h (.ensureRecord p.namespaceName p.record) c₁.state).1, c₂, ensured.trans ?_,
      passed_ensure _⟩
    cases (h (.ensureRecord p.namespaceName p.record) c₁.state).1 with
    | none => simp
    | some a => simp [bounded, run]

/-- The calls of a step are answered one by one, up to the first failure. -/
theorem run_work (h : Handler ApplierCalls σ) (limit : Option Duration)
    (waits : Nat → Option Duration) (c : Clock σ) (log : List Happening) (p : Plan) (step : Step) :
    ∃ made result c',
    (bounded limit (work callers p step).run c.elapsed false).run (watching h limit waits) (c, log) =
      (result.map fun r => (.finished r, false), c', log ++ made.map .visit) ∧
    Passed p step made result ∧ Shown step made result := by
  cases step with
  | rbac => exact run_work_single rfl rfl rfl (fun r => ⟨r, rfl, rfl⟩) fun _ => rfl
  | operator => exact run_work_single rfl rfl rfl (fun r => ⟨r, rfl, rfl⟩) fun _ => rfl
  | broker => exact run_work_single rfl rfl rfl (fun r => ⟨r, rfl, rfl⟩) fun _ => rfl
  | globalnet => exact run_work_globalnet

theorem run_step (h : Handler ApplierCalls σ) (limit : Option Duration)
    (waits : Nat → Option Duration) (log : List Happening) (p : Plan) (step : Step)
    (begins : c.elapsed = .zero) : ∃ made result c',
    (runStep limit step (work callers p step) false).run (watching h limit waits) (c, log) =
      (result.map fun r => (r, false), c', log ++ made.map .visit) ∧
    Passed p step made result ∧ Shown step made result := by
  obtain ⟨made, result, c', worked, passed, shown⟩ := run_work h limit waits c log p step
  refine ⟨made, result, c', ?_, passed, shown⟩
  rw [begins] at worked
  simp only [runStep, Bool.false_eq_true, if_false]
  rw [run_bind, worked]
  cases result with
  | none => rfl
  | some r => rfl

theorem run_event {e : Event} {rest : Unit → Program (timed ApplierCalls) α} :
    ((tell e).bind rest).run (watching h limit waits) (c, log) =
      (rest ()).run (watching h limit waits) ({ c with elapsed := .zero }, log ++ [.event e]) := rfl

theorem flatMap_shown (seen : List Visit) {made : List Visit} {result : Option (Except Error Outcome)}
    (shown : Shown step made result) : (seen ++ made).flatMap Visit.happenings =
      seen.flatMap Visit.happenings ++ [.event (.start step.description)] ++ made.map .visit ++
        (step.ending result).map .event := by
  rw [List.flatMap_append, shown]
  simp

theorem step_of_stepCalls {call : ApplierCall} (member : call ∈ p.stepCalls step) :
    call.step = step := by
  cases step <;> simp only [Plan.stepCalls, List.mem_cons, List.not_mem_nil, or_false] at member
  · rw [member]; rfl
  · rw [member]; rfl
  · rw [member]; rfl
  · rcases member with rfl | rfl <;> rfl

/-- From the calls that were made so far and succeeded, the remaining steps take the run to its
end. -/
theorem run_steps (h : Handler ApplierCalls σ) (limit : Option Duration)
    (waits : Nat → Option Duration) (cluster : String) (p : Plan) (c : Clock σ) (steps : List Step)
    (seen : List Visit) (succeeded : ∀ v ∈ seen, v.succeeded) :
    ∃ visits result c', (runSteps limit cluster (work callers p) steps false
        (seen.filterMap Visit.entry?)).run (watching h limit waits)
        (c, seen.flatMap Visit.happenings) = (result, c', visits.flatMap Visit.happenings) ∧
      Ends cluster (seen.map (·.call) ++ steps.flatMap p.stepCalls) visits result := by
  induction steps generalizing seen c with
  | nil => exact ⟨seen, _, c, rfl, .completed (by simp) succeeded⟩
  | cons step rest ih =>
    obtain ⟨made, result, c₁, ran, passed, shown⟩ := run_step (c := { c with elapsed := .zero })
      h limit waits (seen.flatMap Visit.happenings ++ [.event (.start step.description)]) p step rfl
    have happened := flatMap_shown seen shown
    show ∃ visits result c', ((tell _).bind _).run _ _ = _ ∧ _
    rw [run_event]
    show ∃ visits result c', (Program.bind _ _).run _ _ = _ ∧ _
    rw [run_bind, ran]
    -- A prefix of the step's calls, after the calls before it, is a prefix of all calls.
    have early {calls : List ApplierCall} (inside : calls <+: p.stepCalls step) :
        seen.map (·.call) ++ calls <+:
          seen.map (·.call) ++ (step :: rest).flatMap p.stepCalls := by
      rw [List.flatMap_cons]
      exact List.prefix_append_right_inj _ |>.mpr (inside.trans (List.prefix_append ..))
    have still {earlier : List Visit} (all : ∀ v ∈ earlier, v.succeeded) :
        ∀ v ∈ seen ++ earlier, v.succeeded := by
      intro v member
      rcases List.mem_append.mp member with before | now
      · exact succeeded v before
      · exact all v now
    cases passed with
    | @stalled earlier last inside all lost =>
      refine ⟨seen ++ (earlier ++ [last]), none, c₁, ?_, ?_⟩
      · rw [happened]
        simp [Step.ending]
      · rw [← List.append_assoc]
        exact .stalled (by simpa using early inside) (still all) lost
    | @failed earlier last e inside all refused =>
      have own : last.call.step = step :=
        step_of_stepCalls (inside.subset (List.mem_map_of_mem (by simp)))
      subst own
      refine ⟨seen ++ (earlier ++ [last]), some (.error (.stepFailure last.call.step.name cluster e)),
        { c₁ with elapsed := .zero }, ?_, ?_⟩
      · rw [happened]
        rfl
      · rw [← List.append_assoc]
        exact .failed (by simpa using early inside) (still all) refused
    | @completed _ outcome whole all entry =>
      obtain ⟨visits, final, c₂, later, ends⟩ := ih { c₁ with elapsed := .zero } (seen ++ made)
        (still all)
      have outcomes : (seen ++ made).filterMap Visit.entry? =
          seen.filterMap Visit.entry? ++ [(step, outcome)] := by
        rw [List.filterMap_append, entry]
      refine ⟨visits, final, c₂, ?_, ?_⟩
      · rw [happened, outcomes] at later
        rw [← later]
        show (runSteps _ _ _ _ _ _).run _ (_, _ ++ [_] ++ [_]) = _
        rw [List.append_assoc]
        rfl
      · rw [List.map_append, whole, List.append_assoc] at ends
        exact ends

theorem calls_eq : p.calls = p.steps.flatMap p.stepCalls := by
  cases on : p.broker.globalnetEnabled with
  | true => simp [Plan.calls, Plan.steps, Plan.stepCalls, on]
  | false => simp [Plan.calls, Plan.steps, Plan.stepCalls, on]

/-- What happens in a deployment that is neither cancelled nor out of time, whatever the appliers
answer. Invalid options reach none of them. Otherwise the states lead through the steps of the plan,
each of which comes later than the one before; the appliers are called in a fixed order, each when
the one before has succeeded, and the calls alone decide what is reported and how the run ends. -/
theorem deployBroker_calls (h : Handler ApplierCalls σ) (waits : Nat → Option Duration)
    (options : Options) (cluster : String) (s : σ) :
    let ran := (deployBroker options cluster callers false).run
      (watching h options.stepTimeout waits) (⟨s, 0, .zero⟩, [])
    match plan options with
    | .error e => (∃ m, e = .invalidConfiguration m) ∧ ran.1 = some (.error e) ∧
        ran.2.2 = [.event (.failure ("Invalid broker configuration: " ++ e.message))]
    | .ok p => deployBroker options cluster callers false =
          drive options.stepTimeout cluster (work callers p) p .notStarted false [] ∧
        (∀ steps final, Walks p .notStarted steps final ↔
          steps = p.steps ∧ final = .globalnetDone) ∧
        (p.steps.Pairwise fun a b => a.compare b = .lt) ∧
        ∃ visits, ran.2.2 = visits.flatMap Visit.happenings ∧
          Ends cluster p.calls visits ran.1 := by
  cases planned : plan options with
  | error e =>
    have refused : deployBroker options cluster callers false =
        (tell (.failure ("Invalid broker configuration: " ++ e.message))).bind fun _ =>
          .done (.error e) := by
      simp only [deployBroker, planned]
      rfl
    rw [refused]
    exact ⟨invalid_of_plan planned, rfl, rfl⟩
  | ok p =>
    have accepted : deployBroker options cluster callers false =
        runSteps options.stepTimeout cluster (work callers p) p.steps false [] := by
      simp only [deployBroker, planned]
    obtain ⟨visits, result, c', ran, ends⟩ := run_steps h options.stepTimeout waits cluster p
      ⟨s, 0, .zero⟩ p.steps [] (by simp)
    have whole : Ends cluster p.calls visits result := by
      rw [calls_eq]
      exact ends
    refine ⟨deployBroker_eq_drive planned, fun _ _ => walks_iff, compare_steps, ?_⟩
    rw [accepted]
    have resulted := congrArg (fun ran => ran.1) ran
    exact ⟨visits, congrArg (fun ran => ran.2.2) ran, resulted ▸ whole⟩

end MultiCluster.Deploy
