import MultiCluster.Deploy.Pipeline

/-! The states of a deployment. Every state names the step to run next, the state after a step names
a later one, and the steps that the states name from the first to the last are those of the plan. So
the list of steps and the loop over the states are the same deployment. -/
namespace MultiCluster.Deploy

namespace Step

theorem compare_all : all.Pairwise fun a b => a.compare b = .lt := by decide

end Step

namespace State

variable {s : State} {step : Step}

theorem isTerminal_iff : s.isTerminal = true ↔ s.next? = none := Option.isNone_iff_eq_none

def ahead (s : State) : Nat := (s.next?.map fun step => Step.all.length - step.position).getD 0

theorem ahead_completed_lt (next : s.next? = some step) : (completed step).ahead < s.ahead := by
  cases s <;> cases next <;> decide

end State

variable {I : Interface} {p : Plan} {s s' : State} {step : Step} {steps : List Step}

def Plan.omits (p : Plan) (step : Step) : Bool := step == .globalnet && !p.broker.globalnetEnabled

theorem steps_eq_filter : p.steps = Step.all.filter fun step => !p.omits step := by
  cases on : p.broker.globalnetEnabled <;> simp [Plan.steps, Step.all, Plan.omits, on]

theorem compare_steps : p.steps.Pairwise fun a b => a.compare b = .lt := by
  rw [steps_eq_filter]
  exact Step.compare_all.filter _

/-- The loop over the states: the step that a state names is run, or passed over if it is left out,
until a state names none. -/
def drive (limit : Option Duration) (cluster : String) (work : Step → Action I Error Outcome)
    (p : Plan) (s : State) (cancelled : Bool) (outcomes : List (Step × Outcome)) :
    Program (timed I) (Except Error Report) :=
  match _named : s.next? with
  | none => .done (.ok ⟨s, outcomes⟩)
  | some step =>
    if p.omits step then drive limit cluster work p (.completed step) cancelled outcomes
    else do
      tell (.start step.description)
      match ← runStep limit step (work step) cancelled with
      | (.ok outcome, cancelled) =>
        tell (.success (step.description ++ " (" ++ outcome.name ++ ")"))
        tell .finish
        drive limit cluster work p (.completed step) cancelled (outcomes ++ [(step, outcome)])
      | (.error e, _) =>
        tell (.failure (step.description ++ " failed: " ++ e.message))
        return .error (.stepFailure step.name cluster e)
termination_by s.ahead
decreasing_by all_goals exact State.ahead_completed_lt (by assumption)

inductive Walks (p : Plan) : State → List Step → State → Prop
  | ended {s : State} (terminal : s.isTerminal = true) : Walks p s [] s
  | passed {s s' : State} {step : Step} {steps : List Step} (named : s.next? = some step)
      (omitted : p.omits step = true) (later : Walks p (.completed step) steps s') :
      Walks p s steps s'
  | run {s s' : State} {step : Step} {steps : List Step} (named : s.next? = some step)
      (wanted : p.omits step = false) (later : Walks p (.completed step) steps s') :
      Walks p s (step :: steps) s'

theorem Walks.unique {steps' : List Step} {s'' : State} (first : Walks p s steps s')
    (second : Walks p s steps' s'') : steps = steps' ∧ s' = s'' := by
  induction first generalizing steps' with
  | ended terminal =>
    rw [State.isTerminal_iff] at terminal
    cases second with
    | ended _ => exact ⟨rfl, rfl⟩
    | passed named _ _ => cases terminal.symm.trans named
    | run named _ _ => cases terminal.symm.trans named
  | passed named omitted _ ih =>
    cases second with
    | ended terminal => cases (State.isTerminal_iff.mp terminal).symm.trans named
    | passed named' _ later =>
      obtain rfl := Option.some.inj (named.symm.trans named')
      exact ih later
    | run named' wanted _ =>
      obtain rfl := Option.some.inj (named.symm.trans named')
      cases omitted.symm.trans wanted
  | run named wanted _ ih =>
    cases second with
    | ended terminal => cases (State.isTerminal_iff.mp terminal).symm.trans named
    | passed named' omitted _ =>
      obtain rfl := Option.some.inj (named.symm.trans named')
      cases wanted.symm.trans omitted
    | run named' _ later =>
      obtain rfl := Option.some.inj (named.symm.trans named')
      exact (ih later).imp (congrArg _) id

/-- The states lead through the steps of the plan. -/
theorem walks_iff : Walks p .notStarted steps s ↔ steps = p.steps ∧ s = .globalnetDone := by
  have last : Walks p .brokerDone (if p.broker.globalnetEnabled then [.globalnet] else [])
      .globalnetDone := by
    cases on : p.broker.globalnetEnabled with
    | true => exact .run rfl (by simp [Plan.omits, on]) (.ended rfl)
    | false => exact .passed rfl (by simp [Plan.omits, on]) (.ended rfl)
  have all : Walks p .notStarted p.steps .globalnetDone :=
    .run rfl rfl (.run rfl rfl (.run rfl rfl last))
  constructor
  · exact fun walks => walks.unique all
  · rintro ⟨rfl, rfl⟩
    exact all

theorem drive_of_walks {limit : Option Duration} {cluster : String}
    {work : Step → Action I Error Outcome} {cancelled : Bool} {outcomes : List (Step × Outcome)}
    (walks : Walks p s steps .globalnetDone) :
    drive limit cluster work p s cancelled outcomes =
      runSteps limit cluster work steps cancelled outcomes := by
  generalize final : State.globalnetDone = s' at walks
  induction walks generalizing cancelled outcomes with
  | ended terminal =>
    subst final
    rw [drive]
    rfl
  | passed named omitted _ ih =>
    rw [drive]
    split
    · next none => cases named.symm.trans none
    · next _ named' =>
      obtain rfl := Option.some.inj (named.symm.trans named')
      rw [if_pos omitted, ih final]
  | @run _ _ step rest named wanted _ ih =>
    rw [drive]
    split
    · next none => cases named.symm.trans none
    · next _ named' =>
      obtain rfl := Option.some.inj (named.symm.trans named')
      rw [if_neg (Bool.eq_false_iff.mp wanted), runSteps]
      congr 1
      funext _
      congr 1
      funext result
      rcases result with ⟨_ | outcome, cancelled⟩
      · rfl
      · simp only [ih final]

/-- Accepted options are carried out by the loop over the states. -/
theorem deployBroker_eq_drive {options : Options} {cluster : String} {appliers : Appliers I}
    {cancelled : Bool} (planned : plan options = .ok p) :
    deployBroker options cluster appliers cancelled =
      drive options.stepTimeout cluster (work appliers p) p .notStarted cancelled [] := by
  rw [drive_of_walks (walks_iff.mpr ⟨rfl, rfl⟩)]
  simp only [deployBroker, planned]

end MultiCluster.Deploy
