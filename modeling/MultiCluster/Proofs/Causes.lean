import Mathlib.Logic.ExistsUnique
import MultiCluster.Error

/-! The classes of an error, for failures of steps within failures of steps. Every error is in
exactly one way a cause that is no failed step, within the steps that it made fail. Whether the
input was rejected and whether the whole operation may be run again is asked of the cause, at any
depth; whether a call may be repeated at once is asked of the call alone, never of a failed step. -/
namespace MultiCluster

structure FailedStep where
  step : String
  cluster : String
  deriving DecidableEq, Repr

namespace Error

/-- What an error has become behind the steps that it made fail, the outermost first. -/
def within (e : Error) : List FailedStep → Error
  | [] => e
  | s :: steps => .stepFailure s.step s.cluster (e.within steps)

def IsCause (e : Error) : Prop := ∀ step cluster source, e ≠ .stepFailure step cluster source

def cause : Error → Error
  | .stepFailure _ _ source => source.cause
  | e => e

def failedSteps : Error → List FailedStep
  | .stepFailure step cluster source => ⟨step, cluster⟩ :: source.failedSteps
  | _ => []

variable {e c : Error} {steps : List FailedStep} {resource : String}
  {status message reason : String} {code : Nat}

theorem isCause_cause (e : Error) : e.cause.IsCause := by
  induction e with
  | stepFailure step cluster source ih => exact ih
  | _ => intro _ _ _ same; cases same

theorem cause_within_failedSteps (e : Error) : e.cause.within e.failedSteps = e := by
  induction e with
  | stepFailure step cluster source ih => simp [cause, failedSteps, within, ih]
  | _ => rfl

theorem cause_within : (e.within steps).cause = e.cause := by
  induction steps with
  | nil => rfl
  | cons s steps ih => exact ih

theorem failedSteps_within : (e.within steps).failedSteps = steps ++ e.failedSteps := by
  induction steps with
  | nil => rfl
  | cons s steps ih => simp [within, failedSteps, ih]

theorem IsCause.alone (isCause : c.IsCause) : c.cause = c ∧ c.failedSteps = [] := by
  cases c with
  | stepFailure step cluster source => exact absurd rfl (isCause step cluster source)
  | _ => exact ⟨rfl, rfl⟩

theorem eq_within_iff (isCause : c.IsCause) :
    e = c.within steps ↔ e.cause = c ∧ e.failedSteps = steps := by
  obtain ⟨itself, none⟩ := isCause.alone
  constructor
  · rintro rfl
    simp [cause_within, failedSteps_within, itself, none]
  · rintro ⟨rfl, rfl⟩
    exact (cause_within_failedSteps e).symm

theorem exists_unique_cause (e : Error) :
    ∃! nest : Error × List FailedStep, nest.1.IsCause ∧ e = nest.1.within nest.2 := by
  refine ⟨(e.cause, e.failedSteps), ⟨isCause_cause e, (cause_within_failedSteps e).symm⟩, ?_⟩
  rintro ⟨c, steps⟩ ⟨isCause, nested⟩
  obtain ⟨rfl, rfl⟩ := (eq_within_iff isCause).mp nested
  rfl

theorem isRetryable_within : (e.within steps).isRetryable = e.isRetryable := by
  induction steps with
  | nil => rfl
  | cons s steps ih => exact ih

theorem isInvalidConfiguration_within :
    (e.within steps).isInvalidConfiguration = e.isInvalidConfiguration := by
  induction steps with
  | nil => rfl
  | cons s steps ih => exact ih

theorem isTransient_within : (e.within steps).isTransient = (steps.isEmpty && e.isTransient) := by
  cases steps <;> rfl

/-- What a call may be repeated for, the whole operation may. -/
theorem isRetryable_of_isTransient (transient : e.isTransient = true) : e.isRetryable = true := by
  cases e with
  | api source => exact transient
  | _ => cases transient

/-- Rejected input is what made every step around it fail, and nothing else is told as such. -/
theorem isInvalidConfiguration_iff : e.isInvalidConfiguration = true ↔
    ∃ text steps, e = (invalidConfiguration text).within steps := by
  constructor
  · intro invalid
    induction e with
    | invalidConfiguration text => exact ⟨text, [], rfl⟩
    | stepFailure step cluster source ih =>
      obtain ⟨text, steps, rfl⟩ := ih invalid
      exact ⟨text, ⟨step, cluster⟩ :: steps, rfl⟩
    | _ => cases invalid
  · rintro ⟨text, steps, rfl⟩
    exact isInvalidConfiguration_within

theorem isRetryable_of_isInvalidConfiguration (invalid : e.isInvalidConfiguration = true) :
    e.isRetryable = false := by
  obtain ⟨text, steps, rfl⟩ := isInvalidConfiguration_iff.mp invalid
  exact isRetryable_within

theorem isTransient_of_isInvalidConfiguration (invalid : e.isInvalidConfiguration = true) :
    e.isTransient = false := by
  obtain ⟨text, steps, rfl⟩ := isInvalidConfiguration_iff.mp invalid
  exact isTransient_within.trans (Bool.and_false _)

/-! ### Errors of the API -/

/-- A conflict is told apart, and was not transient before. -/
theorem isTransient_ofApi (resource : String) (a : ApiError) :
    (ofApi resource a).isTransient = a.isTransient := by
  cases a with
  | answer status message reason code =>
    unfold ofApi
    by_cases conflict : code = 409
    · simp [conflict, isTransient, ApiError.isTransient]
    · simp [conflict, isTransient]
  | _ => rfl

theorem isInvalidConfiguration_ofApi (resource : String) (a : ApiError) :
    (ofApi resource a).isInvalidConfiguration = false := by
  unfold ofApi
  split
  · split <;> rfl
  · rfl

theorem isTransient_ofApi_answer_iff :
    (ofApi resource (.answer status message reason code)).isTransient = true ↔ 500 ≤ code := by
  rw [isTransient_ofApi]
  exact decide_eq_true_iff

theorem isRetryable_ofApi_answer_iff :
    (ofApi resource (.answer status message reason code)).isRetryable = true ↔
      (ofApi resource (.answer status message reason code)).isTransient = true ∨ code = 409 := by
  unfold ofApi
  by_cases conflict : code = 409
  · simp [conflict, isRetryable]
  · simp [conflict, isRetryable, isTransient]

/-- The classes agree at every depth. An error is a cause within failed steps in exactly one way,
and for the operation it is of the classes of that cause, while a failed step is not transient. What
is transient is retryable; rejected input, told by its cause alone, is neither; and an answer of the
server is transient from 500 on, and retryable then and as the conflict 409. -/
theorem classes_nested :
    (∀ e : Error, ∃! nest : Error × List FailedStep, nest.1.IsCause ∧ e = nest.1.within nest.2) ∧
    (∀ (e : Error) (steps : List FailedStep),
      (e.within steps).isRetryable = e.isRetryable ∧
      (e.within steps).isInvalidConfiguration = e.isInvalidConfiguration ∧
      (e.within steps).isTransient = (steps.isEmpty && e.isTransient)) ∧
    (∀ e : Error, e.isTransient = true → e.isRetryable = true) ∧
    (∀ e : Error, e.isInvalidConfiguration = true ↔
      ∃ text steps, e = (invalidConfiguration text).within steps) ∧
    (∀ e : Error, e.isInvalidConfiguration = true →
      e.isRetryable = false ∧ e.isTransient = false) ∧
    ∀ (resource status message reason : String) (code : Nat),
      ((ofApi resource (.answer status message reason code)).isTransient = true ↔ 500 ≤ code) ∧
      ((ofApi resource (.answer status message reason code)).isRetryable = true ↔
        (ofApi resource (.answer status message reason code)).isTransient = true ∨ code = 409) := by
  exact ⟨exists_unique_cause,
    fun e steps => ⟨isRetryable_within, isInvalidConfiguration_within, isTransient_within⟩,
    fun e transient => isRetryable_of_isTransient transient, fun e => isInvalidConfiguration_iff,
    fun e invalid => ⟨isRetryable_of_isInvalidConfiguration invalid,
      isTransient_of_isInvalidConfiguration invalid⟩,
    fun resource status message reason code =>
      ⟨isTransient_ofApi_answer_iff, isRetryable_ofApi_answer_iff⟩⟩

def nestedSteps : List FailedStep := [⟨"fleet", "west"⟩, ⟨"globalnet", "east"⟩]

def rejectedRange : Error := .invalidConfiguration "bad range"

def unavailable : Error := .api (.answer "Failure" "no endpoints" "ServiceUnavailable" 503)

theorem classes_nested_steps :
    (rejectedRange.within nestedSteps).isInvalidConfiguration = true ∧
    (rejectedRange.within nestedSteps).isRetryable = false ∧
    (rejectedRange.within nestedSteps).isTransient = false ∧
    unavailable.isTransient = true ∧ unavailable.isRetryable = true ∧
    (unavailable.within nestedSteps).isRetryable = true ∧
    (unavailable.within nestedSteps).isTransient = false := by
  obtain ⟨-, nested, transient, -, invalid, -⟩ := classes_nested
  obtain ⟨-, rejected, -⟩ := nested rejectedRange nestedSteps
  obtain ⟨retryable, -, once⟩ := nested unavailable nestedSteps
  obtain ⟨final, notTransient⟩ := invalid (rejectedRange.within nestedSteps) rejected
  have passing : unavailable.isRetryable = true := transient unavailable rfl
  exact ⟨rejected, final, notTransient, rfl, passing, retryable.trans passing, once⟩

end Error
end MultiCluster
