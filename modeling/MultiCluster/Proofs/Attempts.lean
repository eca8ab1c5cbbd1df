import Mathlib.Order.Bounds.Basic
import MultiCluster.Proofs.Unsteady

/-! How often a call is made. Calls are repeated up to the first result that is a success or a
failure that must not be repeated, or until the attempts run out, with one wait between two calls.
Where transient failures are repeated, no other failure is, and no request is sent more than four
times. -/
namespace MultiCluster

section Calling

variable {I : Interface} {ε α : Type} {b : Backoff} {retryable : ε → Bool}
  {results : Nat → Except ε α} {k n : Nat}

def Stops (retryable : ε → Bool) (result : Except ε α) : Prop :=
  ∀ e, result = .error e → retryable e = false

/-- The number of the last call: of the calls that the schedule allows, the first whose result ends
the repetition, or the last of them if there is none. -/
def LastCall (b : Backoff) (retryable : ε → Bool) (results : Nat → Except ε α) (k : Nat) : Prop :=
  IsLeast {i | 1 ≤ i ∧ i ≤ max 1 b.attempts ∧ Stops retryable (results i)} k ∨
    (∀ i, 1 ≤ i → i ≤ max 1 b.attempts → ¬Stops retryable (results i)) ∧ k = max 1 b.attempts

inductive Deed where
  | call
  | wait (d : Duration)
  deriving DecidableEq, Repr

def Deed.isWait : Deed → Bool
  | .call => false
  | .wait _ => true

def Deeds (ε α : Type) : Interface where
  Request := Deed
  Answer
    | .call => Except ε α
    | .wait _ => Unit

def someCall : Program (Deeds ε α) (Except ε α) := .ask (I := Deeds ε α) .call .done

def someWait (d : Duration) : Program (Deeds ε α) Unit := .ask (I := Deeds ε α) (.wait d) .done

def repetition (b : Backoff) (retryable : ε → Bool) : Program (Deeds ε α) (Except ε α) :=
  retry b retryable someWait someCall

def playing (results : Nat → Except ε α) : Program.Handler (Deeds ε α) (List Deed)
  | .call, done => (some (results (done.count .call + 1)), done ++ [.call])
  | .wait d, done => (some (), done ++ [.wait d])

def deeds (b : Backoff) (k : Nat) : List Deed :=
  .call :: (List.range (k - 1)).flatMap fun i => [.wait (b.delay (i + 1)), .call]

def performing (wait : Duration → Program I Unit) (call : Program I (Except ε α)) :
    (t : (Deeds ε α).Request) → Program I ((Deeds ε α).Answer t)
  | .call => call
  | .wait d => wait d

theorem deeds_succ (started : 1 ≤ k) :
    deeds b (k + 1) = deeds b k ++ [.wait (b.delay k), .call] := by
  obtain ⟨n, rfl⟩ := Nat.exists_eq_add_of_le' started
  simp [deeds, List.range_succ]

theorem count_deeds (started : 1 ≤ k) : (deeds b k).count .call = k := by
  induction k, started using Nat.le_induction with
  | base => rfl
  | succ k started ih => simp [deeds_succ started, ih]

theorem waits_deeds (started : 1 ≤ k) : (deeds b k).countP Deed.isWait = k - 1 := by
  induction k, started using Nat.le_induction with
  | base => rfl
  | succ k started ih =>
    have more : [Deed.wait (b.delay k), .call].countP Deed.isWait = 1 := rfl
    rw [deeds_succ started, List.countP_append, ih, more]
    omega

theorem stops_iff {result : Except ε α} : Stops retryable result ↔
    (∃ a, result = .ok a) ∨ ∃ e, result = .error e ∧ retryable e = false := by
  cases result <;> simp [Stops]

theorem run_someCall {done : List Deed} (calls : done.count .call = n) :
    someCall.run (playing results) done = (some (results (n + 1)), done ++ [.call]) := by
  subst calls
  rfl

theorem run_someWait {done : List Deed} {d : Duration} :
    (someWait d).run (playing results) done = (some (), done ++ [.wait d]) := rfl

/-- What is left of the repetition from call number `n + 1` on. -/
theorem run_remaining {done : List Deed} (left n : Nat) (calls : done.count .call = n)
    (noted : done ++ [.call] = deeds b (n + 1)) :
    ∃ k, n + 1 ≤ k ∧ k ≤ n + 1 + left ∧
      (∀ i, n + 1 ≤ i → i < k → ¬Stops retryable (results i)) ∧
      (Stops retryable (results k) ∨ k = n + 1 + left) ∧
      (retryFrom b retryable someWait someCall left (n + 1)).run (playing results) done =
        (some (results k), deeds b k) := by
  induction left generalizing n done with
  | zero =>
    refine ⟨n + 1, le_rfl, le_rfl, by omega, .inr rfl, ?_⟩
    rw [retryFrom, run_someCall calls, noted]
  | succ left ih =>
    rw [retryFrom, Program.run_bind, run_someCall calls, noted]
    by_cases stops : Stops retryable (results (n + 1))
    · refine ⟨n + 1, le_rfl, by omega, by omega, .inl stops, ?_⟩
      rcases stops_iff.mp stops with ⟨a, succeeded⟩ | ⟨e, failed, final⟩
      · simp [succeeded, Program.run]
      · simp [failed, final, Program.run]
    · obtain ⟨e, failed, again⟩ : ∃ e, results (n + 1) = .error e ∧ retryable e = true := by
        simpa [Stops] using stops
      have calls' : (deeds b (n + 1) ++ [Deed.wait (b.delay (n + 1))]).count Deed.call = n + 1 := by
        simp [count_deeds]
      have noted' : deeds b (n + 1) ++ [.wait (b.delay (n + 1))] ++ [.call] = deeds b (n + 2) := by
        simp [deeds_succ (k := n + 1)]
      obtain ⟨k, after, before, earlier, last, ran⟩ := ih (n + 1) calls' noted'
      refine ⟨k, by omega, by omega, fun i from' until' => ?_, last.imp_right (by omega), ?_⟩
      · rcases Nat.eq_or_lt_of_le from' with rfl | later
        · exact stops
        · exact earlier i later until'
      · simp only [failed, again, if_true]
        rw [Program.run_bind, run_someWait]
        exact ran

theorem run_repetition (b : Backoff) (retryable : ε → Bool) (results : Nat → Except ε α) :
    ∃ k, LastCall b retryable results k ∧ 1 ≤ k ∧
      (repetition b retryable).run (playing results) [] = (some (results k), deeds b k) := by
  obtain ⟨k, started, allowed, earlier, last, ran⟩ :=
    @run_remaining _ _ b retryable results [] (max b.attempts 1 - 1) 0 rfl rfl
  have all : 0 + 1 + (max b.attempts 1 - 1) = max 1 b.attempts := by omega
  rw [all] at allowed last
  refine ⟨k, ?_, started, ran⟩
  by_cases stops : Stops retryable (results k)
  · refine .inl ⟨⟨started, allowed, stops⟩, fun i found => ?_⟩
    obtain ⟨started', -, stops'⟩ := found
    exact Nat.le_of_not_lt fun before => earlier i started' before stops'
  · have atEnd : k = max 1 b.attempts := last.resolve_left stops
    refine .inr ⟨fun i started' allowed' stops' => ?_, atEnd⟩
    rcases Nat.eq_or_lt_of_le (atEnd ▸ allowed' : i ≤ k) with rfl | before
    · exact stops stops'
    · exact earlier i started' before stops'

theorem Program.substitute_bind {J : Interface} {β γ : Type}
    {f : (r : I.Request) → Program J (I.Answer r)} {p : Program I β} {g : β → Program I γ} :
    (p.bind g).substitute f =
      (p.substitute f).bind fun a => (g a).substitute f := by
  induction p with
  | done a => rfl
  | never => rfl
  | ask r next ih =>
    simp only [Program.bind, Program.substitute, Program.bind_assoc]
    congr 1
    funext a
    exact ih a

/-- Every repetition is the one by itself, with its own calls and waits. -/
theorem retry_eq_substitute {wait : Duration → Program I Unit} {call : Program I (Except ε α)} :
    retry b retryable wait call =
      (repetition b retryable).substitute (performing wait call) := by
  have calling : someCall.substitute (performing wait call) = call := Program.bind_done call
  have waiting (d : Duration) : (someWait d).substitute (performing wait call) = wait d :=
    Program.bind_done (wait d)
  have remaining (left n : Nat) : retryFrom b retryable wait call left n =
      (retryFrom b retryable someWait someCall left n).substitute (performing wait call) := by
    induction left generalizing n with
    | zero => exact calling.symm
    | succ left ih =>
      simp only [retryFrom]
      rw [Program.substitute_bind, calling]
      congr 1
      funext result
      cases result with
      | ok a => rfl
      | error e =>
        cases again : retryable e with
        | false => simp [again, Program.substitute]
        | true =>
          simp only [again, if_true]
          rw [Program.substitute_bind, waiting]
          congr 1
          funext _
          exact ih (n + 1)
  exact remaining _ 1

theorem LastCall.le (last : LastCall b retryable results k) : k ≤ max 1 b.attempts := by
  rcases last with ⟨⟨-, allowed, -⟩, -⟩ | ⟨-, rfl⟩
  · exact allowed
  · exact le_rfl

/-- Before the last call all results are failures that may be repeated. -/
theorem LastCall.repeated (last : LastCall b retryable results k) {i : Nat} (started : 1 ≤ i)
    (before : i < k) : ∃ e, results i = .error e ∧ retryable e = true := by
  have again : ¬Stops retryable (results i) := by
    have allowed := before.le.trans last.le
    rcases last with ⟨-, least⟩ | ⟨none, -⟩
    · exact fun stops => absurd (least ⟨started, allowed, stops⟩) (Nat.not_le_of_lt before)
    · exact none i started allowed
  simpa [Stops] using again

end Calling

/-! ### Counting requests -/

namespace Program

variable {I : Interface} {α β ε : Type} {P : I.Request → Prop} {m n : Nat}

def AtMost (P : I.Request → Prop) : Program I α → Nat → Prop
  | .done _, _ => True
  | .never, _ => True
  | .ask r next, n => (¬P r ∧ ∀ a, AtMost P (next a) n) ∨
      ∃ m, n = m + 1 ∧ ∀ a, AtMost P (next a) m

theorem AtMost.mono {p : Program I α} (atMost : p.AtMost P m) (more : m ≤ n) : p.AtMost P n := by
  induction p generalizing m n with
  | done a => trivial
  | never => trivial
  | ask r next ih =>
    rcases atMost with ⟨other, rest⟩ | ⟨m, rfl, rest⟩
    · exact .inl ⟨other, fun a => ih a (rest a) more⟩
    · obtain ⟨d, rfl⟩ := Nat.exists_eq_add_of_le more
      exact .inr ⟨m + d, by omega, fun a => ih a (rest a) (by omega)⟩

theorem AtMost.bind {p : Program I α} {f : α → Program I β} (first : p.AtMost P m)
    (second : ∀ a, (f a).AtMost P n) : (p.bind f).AtMost P (m + n) := by
  induction p generalizing m with
  | done a => exact (second a).mono (Nat.le_add_left ..)
  | never => trivial
  | ask r next ih =>
    rcases first with ⟨other, rest⟩ | ⟨m, rfl, rest⟩
    · exact .inl ⟨other, fun a => ih a (rest a)⟩
    · exact .inr ⟨m + n, by omega, fun a => ih a (rest a)⟩

theorem atMost_action_bind {x : Action I ε α} {f : α → Action I ε β} (first : x.run.AtMost P m)
    (second : ∀ a, (f a).run.AtMost P n) : (x >>= f).run.AtMost P (m + n) := by
  rw [ExceptT.run_bind]
  refine first.bind fun result => ?_
  cases result with
  | ok a => exact second a
  | error e => trivial

/-- A repetition makes as many requests as a call does, for each of its attempts. -/
theorem atMost_retry {b : Backoff} {retryable : ε → Bool} {wait : Duration → Program I Unit}
    {call : Program I (Except ε α)} (attempt : call.AtMost P n)
    (waiting : ∀ d, (wait d).AtMost P 0) :
    (retry b retryable wait call).AtMost P (max 1 b.attempts * n) := by
  have remaining (left number : Nat) :
      (retryFrom b retryable wait call left number).AtMost P ((left + 1) * n) := by
    induction left generalizing number with
    | zero => exact attempt.mono (by omega)
    | succ left ih =>
      rw [Nat.succ_mul, Nat.add_comm (_ * n)]
      refine attempt.bind fun result => ?_
      cases result with
      | ok a => trivial
      | error e =>
        simp only
        split
        · exact ((waiting _).bind fun _ => ih (number + 1)).mono (by omega)
        · trivial
  have attempts : max b.attempts 1 - 1 + 1 = max 1 b.attempts := by omega
  exact attempts ▸ remaining (max b.attempts 1 - 1) 1

end Program

namespace Cluster

open Program (AtMost)

variable {α : Type} {e : Error} {resource : String} {r sent : Request} {c : Collection} {v : Json}

/-- Failures that no repetition makes good: the server has refused what was asked, its answer is
malformed, or a whole step has failed. The code of an answer is the one that its body states. -/
inductive Permanent : Error → Prop
  | refused {resource status message reason : String} {code : Nat}
      (client : 400 ≤ code ∧ code < 500) :
      Permanent (.ofApi resource (.answer status message reason code))
  | malformed {resource detail : String} : Permanent (.ofApi resource (.payload detail))
  | nested {step cluster : String} {source : Error} : Permanent (.stepFailure step cluster source)

theorem Permanent.final (permanent : Permanent e) : e.isTransient = false := by
  cases permanent with
  | refused client =>
    rw [Error.isTransient_ofApi]
    simpa [ApiError.isTransient] using client.2
  | malformed => rfl
  | nested => rfl

/-- No such failure comes before the last call. -/
theorem Permanent.last {results : Nat → Except Error α} {b : Backoff} {i k : Nat}
    (permanent : Permanent e) (last : LastCall b Error.isTransient results k) (started : 1 ≤ i)
    (failed : results i = .error e) : k ≤ i := by
  refine Nat.le_of_not_lt fun before => ?_
  obtain ⟨e', failed', transient⟩ := last.repeated started before
  obtain rfl : e = e' := Except.error.inj (failed.symm.trans failed')
  exact absurd transient (by simp [permanent.final])

theorem atMost_exchange {take : Reply → Except ApiError α} :
    (exchange resource r take).run.AtMost (fun call : Call => call = .send sent) 1 := by
  rw [exchange_eq]
  exact .inr ⟨0, rfl, fun _ => trivial⟩

theorem atMost_exchange_other {take : Reply → Except ApiError α} (other : r ≠ sent) :
    (exchange resource r take).run.AtMost (fun call : Call => call = .send sent) 0 := by
  rw [exchange_eq]
  exact .inl ⟨fun same => other (Call.send.inj same), fun _ => trivial⟩

/-- Applying an object sends two requests, which are not the same. -/
theorem atMost_apply : (c.apply v).run.AtMost (fun call : Call => call = .send sent) 1 := by
  unfold Collection.apply
  cases Object.name? v with
  | none => trivial
  | some name =>
    simp only
    by_cases look : c.getRequest name = sent
    · have other : c.applyRequest name v ≠ sent := by
        rintro rfl
        cases look
      exact Program.atMost_action_bind (m := 1) (n := 0) atMost_exchange fun _ =>
        Program.atMost_action_bind (m := 0) (n := 0) (atMost_exchange_other other) fun _ => trivial
    · exact Program.atMost_action_bind (m := 0) (n := 1) (atMost_exchange_other look) fun _ =>
        Program.atMost_action_bind (m := 1) (n := 0) atMost_exchange fun _ => trivial

theorem atMost_persistently {work : Work α}
    (once : work.run.AtMost (fun call : Call => call = .send sent) 1) :
    (persistently work).run.AtMost (fun call : Call => call = .send sent) 4 :=
  Program.atMost_retry once fun _ => .inl ⟨nofun, fun _ => trivial⟩

end Cluster

open Cluster

/-- A repetition makes exactly the calls that it should: up to the first result that is a success or
a failure that must not be repeated, or all that the schedule allows, with one wait between two of
them, and the last result is the result. That is what every repetition does with its calls and
waits. Where transient failures are repeated on the standard schedule there are at most four calls,
none behind a failure that no repetition makes good, and no request is sent more than four times by
an exchange or by applying an object, which are the calls that are repeated. -/
theorem retry_exact :
    (∀ {ε α : Type} (b : Backoff) (retryable : ε → Bool) (results : Nat → Except ε α),
      ∃ k done, LastCall b retryable results k ∧
        (repetition b retryable).run (playing results) [] = (some (results k), done) ∧
        done = deeds b k ∧ done.count .call = k ∧ done.countP Deed.isWait = k - 1) ∧
    (∀ {I : Interface} {ε α : Type} (b : Backoff) (retryable : ε → Bool)
      (wait : Duration → Program I Unit) (call : Program I (Except ε α)),
      retry b retryable wait call = (repetition b retryable).substitute (performing wait call)) ∧
    (∀ {α : Type} (results : Nat → Except Error α) (k : Nat),
      LastCall .standard Error.isTransient results k →
        k ≤ 4 ∧ ∀ i e, 1 ≤ i → results i = .error e → Permanent e → k ≤ i) ∧
    (∀ {α : Type} (resource : String) (r sent : Request) (take : Reply → Except ApiError α),
      (persistently (exchange resource r take)).run.AtMost
        (fun call : Call => call = .send sent) 4) ∧
    ∀ (c : Collection) (v : Json) (sent : Request),
      (persistently (c.apply v)).run.AtMost (fun call : Call => call = .send sent) 4 := by
  refine ⟨fun b retryable results => ?_, fun _ _ _ _ => retry_eq_substitute,
    fun results k last => ⟨last.le, fun i e started failed permanent =>
      permanent.last last started failed⟩,
    fun _ _ _ _ => atMost_persistently atMost_exchange,
    fun _ _ _ => atMost_persistently atMost_apply⟩
  obtain ⟨k, last, started, ran⟩ := run_repetition b retryable results
  exact ⟨k, _, last, ran, rfl, count_deeds started, waits_deeds started⟩

def recovering (n : Nat) : Except Error Nat :=
  if n ≤ 2 then .error (.api (.answer "Failure" "no endpoints" "ServiceUnavailable" 503))
  else .error (.ofApi "Broker/b" (.answer "Failure" "modified" "Conflict" 409))

theorem retry_exact_recovering : LastCall .standard Error.isTransient recovering 3 ∧
    (repetition .standard Error.isTransient).run (playing recovering) [] =
      (some (.error (.conflict "Broker/b" "modified")),
        [.call, .wait (.ofMillis 200), .call, .wait (.ofMillis 400), .call]) := by
  obtain ⟨exact, -⟩ := retry_exact
  obtain ⟨k, done, last, ran, same, calls, -⟩ := exact .standard Error.isTransient recovering
  have played : (repetition .standard Error.isTransient).run (playing recovering) [] =
      (some (.error (.conflict "Broker/b" "modified")),
        [.call, .wait (.ofMillis 200), .call, .wait (.ofMillis 400), .call]) := rfl
  rw [played] at ran
  obtain ⟨-, rfl⟩ := Prod.mk.inj ran
  obtain rfl : 3 = k := calls
  exact ⟨last, played⟩

end MultiCluster
