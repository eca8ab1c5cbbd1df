import Mathlib.Logic.Relation
import MultiCluster.Retry

/-! Programs among surroundings that need not be a function of the request: what may come of a
request is a relation, and others may move the state between the requests of a program. -/
namespace MultiCluster

/-- What may come of a request: the state before it, the answer, and the state after it. -/
abbrev Surroundings (I : Interface) (σ : Type) := (r : I.Request) → σ → I.Answer r → σ → Prop

namespace Program

variable {I : Interface} {α β ε σ : Type} {E : Surroundings I σ} {rely : σ → σ → Prop}
  {guarantee guarantee' : σ → σ → Prop} {post : α → σ → Prop} {s s' : σ}

/-- Before each request of the program others may move the state along `rely`. Each move of the
program itself keeps `guarantee`, and a result comes in a state that satisfies `post`. -/
def Meets (E : Surroundings I σ) (rely guarantee : σ → σ → Prop) (post : α → σ → Prop) :
    Program I α → σ → Prop
  | .done a, s => post a s
  | .never, _ => True
  | .ask r next, s => ∀ s₁, rely s s₁ → ∀ a s₂, E r s₁ a s₂ →
      guarantee s₁ s₂ ∧ Meets E rely guarantee post (next a) s₂

theorem Meets.mono {post' : α → σ → Prop} {p : Program I α}
    (meets : p.Meets E rely guarantee post s)
    (weaker : ∀ s s', guarantee s s' → guarantee' s s') (after : ∀ a s, post a s → post' a s) :
    p.Meets E rely guarantee' post' s := by
  induction p generalizing s with
  | done a => exact after a s meets
  | never => trivial
  | ask r next ih =>
    intro s₁ moved a s₂ answered
    obtain ⟨kept, later⟩ := meets s₁ moved a s₂ answered
    exact ⟨weaker _ _ kept, ih a later⟩

theorem Meets.imp {post' : α → σ → Prop} {p : Program I α}
    (meets : p.Meets E rely guarantee post s) (after : ∀ a s, post a s → post' a s) :
    p.Meets E rely guarantee post' s :=
  meets.mono (fun _ _ kept => kept) after

theorem Meets.and {post' : α → σ → Prop} {p : Program I α}
    (first : p.Meets E rely guarantee post s) (second : p.Meets E rely guarantee' post' s) :
    p.Meets E rely (fun s s' => guarantee s s' ∧ guarantee' s s')
      (fun a s => post a s ∧ post' a s) s := by
  induction p generalizing s with
  | done a => exact ⟨first, second⟩
  | never => trivial
  | ask r next ih =>
    intro s₁ moved a s₂ answered
    obtain ⟨kept, later⟩ := first s₁ moved a s₂ answered
    obtain ⟨kept', later'⟩ := second s₁ moved a s₂ answered
    exact ⟨⟨kept, kept'⟩, ih a later later'⟩

/-- What every move keeps true, of the program and of others, is true throughout. -/
theorem Meets.invariant {J : σ → Prop} {p : Program I α}
    (meets : p.Meets E rely guarantee post s) (stable : ∀ s s', rely s s' → J s → J s')
    (keeps : ∀ s s', guarantee s s' → J s → J s') (start : J s) :
    p.Meets E rely (fun s s' => guarantee s s' ∧ J s') (fun a s' => J s' ∧ post a s') s := by
  induction p generalizing s with
  | done a => exact ⟨start, meets⟩
  | never => trivial
  | ask r next ih =>
    intro s₁ moved a s₂ answered
    obtain ⟨kept, later⟩ := meets s₁ moved a s₂ answered
    have after := keeps s₁ s₂ kept (stable s s₁ moved start)
    exact ⟨⟨kept, after⟩, ih a later after⟩

theorem Meets.bind {post : β → σ → Prop} {p : Program I α} {f : α → Program I β}
    (first : p.Meets E rely guarantee (fun a s => (f a).Meets E rely guarantee post s) s) :
    (p.bind f).Meets E rely guarantee post s := by
  induction p generalizing s with
  | done a => exact first
  | never => trivial
  | ask r next ih =>
    intro s₁ moved a s₂ answered
    obtain ⟨kept, later⟩ := first s₁ moved a s₂ answered
    exact ⟨kept, ih a later⟩

/-- A program that waits may wait while others move, and is still as good. -/
theorem Meets.of_rely {p : Program I α} (meets : p.Meets E rely guarantee post s)
    (trans : ∀ s₁ s₂ s₃, rely s₁ s₂ → rely s₂ s₃ → rely s₁ s₃)
    (stable : ∀ a s s', rely s s' → post a s → post a s') (moved : rely s s') :
    p.Meets E rely guarantee post s' := by
  cases p with
  | done a => exact stable a s s' moved meets
  | never => trivial
  | ask r next => exact fun s₁ more => meets s₁ (trans _ _ _ moved more)

/-- The ways of a program that nobody else disturbs: its requests are answered one by one. -/
inductive Leads (E : Surroundings I σ) : Program I α → σ → Program I α → σ → Prop
  | here {p : Program I α} {s : σ} : Leads E p s p s
  | answered {r : I.Request} {next : I.Answer r → Program I α} {a : I.Answer r} {s s₁ s' : σ}
      {p : Program I α} (came : E r s a s₁) (later : Leads E (next a) s₁ p s') :
      Leads E (.ask r next) s p s'

theorem Meets.of_leads {p p' : Program I α} (meets : p.Meets E Eq guarantee post s)
    (leads : Leads E p s p' s') :
    p'.Meets E Eq guarantee post s' ∧ Relation.ReflTransGen guarantee s s' := by
  induction leads with
  | here => exact ⟨meets, .refl⟩
  | answered came later ih =>
    obtain ⟨kept, next⟩ := meets _ rfl _ _ came
    obtain ⟨meets', path⟩ := ih next
    exact ⟨meets', .head kept path⟩

theorem Meets.keeps {J : σ → Prop} {p p' : Program I α}
    (meets : p.Meets E Eq (fun _ s' => J s') post s) (leads : Leads E p s p' s') (start : J s) :
    J s' := by
  induction leads with
  | here => exact start
  | answered came later ih =>
    obtain ⟨kept, next⟩ := meets _ rfl _ _ came
    exact ih next kept

theorem Meets.result {p : Program I α} {a : α} (meets : p.Meets E Eq guarantee post s)
    (leads : Leads E p s (.done a) s') : post a s' :=
  (meets.of_leads leads).1

/-- A run by a handler is one of the ways, if the surroundings allow what the handler does. The
handler may keep a state of its own. -/
theorem leads_of_run {τ : Type} {h : Handler I τ} {p : Program I α} {a : α} {t t' : τ}
    (get : τ → σ) (J : τ → Prop)
    (allowed : ∀ r t a t', J t → h r t = (some a, t') → E r (get t) a (get t') ∧ J t')
    (start : J t) (ran : p.run h t = (some a, t')) : Leads E p (get t) (.done a) (get t') := by
  induction p generalizing t with
  | done b =>
    simp only [run, Prod.mk.injEq, Option.some.injEq] at ran
    obtain ⟨rfl, rfl⟩ := ran
    exact .here
  | never => simp [run] at ran
  | ask r next ih =>
    simp only [run] at ran
    split at ran
    · next b t₁ answered =>
      obtain ⟨came, still⟩ := allowed r t b t₁ start answered
      exact .answered came (ih b still ran)
    · simp at ran

def advance (h : Handler I σ) : Nat → Program I α → σ → Program I α × σ
  | n + 1, .ask r next, s =>
    match h r s with
    | (some a, s') => advance h n (next a) s'
    | (none, _) => (.ask r next, s)
  | _, p, s => (p, s)

theorem leads_advance {τ : Type} {h : Handler I τ} (get : τ → σ) (J : τ → Prop)
    (allowed : ∀ r t a t', J t → h r t = (some a, t') → E r (get t) a (get t') ∧ J t')
    (n : Nat) {p : Program I α} {t : τ} (start : J t) :
    Leads E p (get t) (advance h n p t).1 (get (advance h n p t).2) := by
  induction n generalizing p t with
  | zero => exact .here
  | succ n ih =>
    cases p with
    | done a => exact .here
    | never => exact .here
    | ask r next =>
      simp only [advance]
      split
      · next a t₁ answered =>
        obtain ⟨came, still⟩ := allowed r t a t₁ start answered
        exact .answered came (ih still)
      · exact .here

theorem run_ask {h : Handler I σ} {r : I.Request} {next : I.Answer r → Program I α} {a : I.Answer r}
    (answered : h r s = (some a, s')) : (Program.ask r next).run h s = (next a).run h s' := by
  rw [run, answered]

theorem run_unanswered {h : Handler I σ} {r : I.Request} {next : I.Answer r → Program I α}
    (lost : h r s = (none, s')) : (Program.ask r next).run h s = (none, s') := by
  rw [run, lost]

def following (h : Handler I σ) : Surroundings I σ := fun r s a s' => h r s = (some a, s')

theorem meets_following {h : Handler I σ} {p : Program I α} :
    p.Meets (following h) Eq (fun _ _ => True) (fun a s' => p.run h s = (some a, s')) s := by
  induction p generalizing s with
  | done a => rfl
  | never => trivial
  | ask r next ih =>
    rintro s₁ rfl a s₂ answered
    exact ⟨trivial, (ih a).imp fun b s' ran => (run_ask answered).trans ran⟩

theorem run_bind {h : Handler I σ} {p : Program I α} {f : α → Program I β} :
    (p.bind f).run h s = match p.run h s with
      | (some a, s') => (f a).run h s'
      | (none, s') => (none, s') := by
  induction p generalizing s with
  | done a => rfl
  | never => rfl
  | ask r next ih =>
    simp only [Program.bind, run]
    split
    · exact ih _
    · rfl

theorem run_action_bind {h : Handler I σ} {x : Action I ε α} {f : α → Action I ε β} :
    (x >>= f).run.run h s = match x.run.run h s with
      | (some (.ok a), s') => (f a).run.run h s'
      | (some (.error e), s') => (some (.error e), s')
      | (none, s') => (none, s') := by
  rw [ExceptT.run_bind]
  refine run_bind.trans ?_
  cases x.run.run h s with
  | mk result s' =>
    cases result with
    | none => rfl
    | some result => cases result <;> rfl

@[simp] theorem mapError_ok {ε' : Type} {f : ε → ε'} {a : α} :
    (Except.ok a).mapError f = .ok a := rfl

@[simp] theorem mapError_error {ε' : Type} {f : ε → ε'} {e : ε} :
    (Except.error e : Except ε α).mapError f = .error (f e) := rfl

theorem run_adapt {ε' : Type} {h : Handler I σ} {x : Action I ε α} {f : ε → ε'} :
    (x.adapt f).run.run h s = ((x.run.run h s).1.map (Except.mapError f), (x.run.run h s).2) := by
  show (x.run.bind _).run h s = _
  rw [run_bind]
  cases x.run.run h s with
  | mk result s' => cases result <;> rfl

def Asks (P : I.Request → Prop) : Program I α → Prop
  | .done _ => True
  | .never => True
  | .ask r next => P r ∧ ∀ a, Asks P (next a)

theorem Asks.bind {P : I.Request → Prop} {p : Program I α} {f : α → Program I β}
    (first : p.Asks P) (second : ∀ a, (f a).Asks P) : (p.bind f).Asks P := by
  induction p with
  | done a => exact second a
  | never => trivial
  | ask r next ih => exact ⟨first.1, fun a => ih a (first.2 a)⟩

theorem asks_action_bind {P : I.Request → Prop} {x : Action I ε α} {f : α → Action I ε β}
    (first : x.run.Asks P) (second : ∀ a, (f a).run.Asks P) : (x >>= f).run.Asks P := by
  rw [ExceptT.run_bind]
  refine Asks.bind first fun result => ?_
  cases result with
  | ok a => exact second a
  | error e => trivial

theorem Asks.imp {P Q : I.Request → Prop} {p : Program I α} (asks : p.Asks P)
    (weaker : ∀ r, P r → Q r) : p.Asks Q := by
  induction p with
  | done a => trivial
  | never => trivial
  | ask r next ih => exact ⟨weaker r asks.1, fun a => ih a (asks.2 a)⟩

theorem Asks.meets {P : I.Request → Prop} {p : Program I α} (asks : p.Asks P)
    (each : ∀ r s a s', P r → E r s a s' → guarantee s s') :
    p.Meets E rely guarantee (fun _ _ => True) s := by
  induction p generalizing s with
  | done a => trivial
  | never => trivial
  | ask r next ih =>
    intro s₁ _ a s₂ answered
    exact ⟨each r s₁ a s₂ asks.1 answered, ih a (asks.2 a)⟩

/-- What each request keeps true is true throughout and at the end. -/
theorem Asks.keeps {P : I.Request → Prop} {J : σ → Prop} {p : Program I α} (asks : p.Asks P)
    (each : ∀ r s a s', P r → E r s a s' → J s → J s') (start : J s) :
    p.Meets E Eq (fun _ s' => J s') (fun _ s' => J s') s := by
  induction p generalizing s with
  | done a => exact start
  | never => trivial
  | ask r next ih =>
    rintro s₁ rfl a s₂ answered
    have kept := each r s a s₂ asks.1 answered start
    exact ⟨kept, ih a (asks.2 a) kept⟩

end Program

section Retrying

open Program

variable {I : Interface} {α ε σ : Type} {E : Surroundings I σ} {rely guarantee : σ → σ → Prop}
  {b : Backoff} {retryable : ε → Bool} {wait : Duration → Program I Unit}
  {call : Program I (Except ε α)}

/-- Repeated calls meet what one call meets, if a failed call leaves behind a state from which it
may be made again. -/
theorem meets_retry {J : σ → Prop} {post : Except ε α → σ → Prop} {s : σ}
    (attempt : ∀ s, J s → call.Meets E rely guarantee (fun result s' =>
      post result s' ∧ ∀ e, result = .error e → J s') s)
    (waiting : ∀ w s, J s → (wait w).Meets E rely guarantee (fun _ s' => J s') s) (start : J s) :
    (retry b retryable wait call).Meets E rely guarantee post s := by
  have repeated (left n : Nat) : ∀ s, J s →
      (retryFrom b retryable wait call left n).Meets E rely guarantee post s := by
    induction left generalizing n with
    | zero => exact fun s start => (attempt s start).imp fun _ _ done => done.1
    | succ left ih =>
      intro s start
      refine Meets.bind ((attempt s start).imp fun result s' done => ?_)
      cases result with
      | ok a => exact done.1
      | error e =>
        simp only
        split
        · exact Meets.bind ((waiting _ s' (done.2 e rfl)).imp fun _ s₂ ready => ih (n + 1) s₂ ready)
        · exact done.1
  exact repeated _ 1 s start

theorem asks_retry {P : I.Request → Prop} (attempt : call.Asks P) (waiting : ∀ w, (wait w).Asks P) :
    (retry b retryable wait call).Asks P := by
  have repeated (left n : Nat) : (retryFrom b retryable wait call left n).Asks P := by
    induction left generalizing n with
    | zero => exact attempt
    | succ left ih =>
      refine attempt.bind fun result => ?_
      cases result with
      | ok a => trivial
      | error e =>
        simp only
        split
        · exact (waiting _).bind fun _ => ih (n + 1)
        · trivial
  exact repeated _ 1

/-- A call whose failure, if it fails, is not repeated is made once. -/
theorem run_retry {h : Handler I σ} {result : Except ε α} {s s' : σ}
    (ran : call.run h s = (some result, s'))
    (final : ∀ e, result = .error e → retryable e = false) :
    (retry b retryable wait call).run h s = (some result, s') := by
  unfold retry
  cases max b.attempts 1 - 1 with
  | zero => exact ran
  | succ left =>
    rw [retryFrom, run_bind, ran]
    cases result with
    | ok a => rfl
    | error e => simp [final e rfl, Program.run]

end Retrying
end MultiCluster
