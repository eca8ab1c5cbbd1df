import Mathlib.Data.List.Count
import MultiCluster.Gather.Fleet

/-! A task among the moves of a run. Only polls of its own and a cancellation concern it. Until a
cancellation polls carry its program on, which is run once and from its beginning, and so far as
answers come; a task that has ended stays as it is, and any other ends at its first poll behind the
cancellation. -/
namespace MultiCluster

/-- What a handler can make of a program: requests are answered, or are made again later. -/
inductive Program.Proceeds {I : Interface} {α τ : Type} (h : Program.Handler I τ) :
    Program I α → τ → Program I α → τ → Prop
  | here {p : Program I α} {w : τ} : Proceeds h p w p w
  | answered {r : I.Request} {next : I.Answer r → Program I α} {a : I.Answer r} {w w₁ w' : τ}
      {p : Program I α} (came : h r w = (some a, w₁)) (later : Proceeds h (next a) w₁ p w') :
      Proceeds h (.ask r next) w p w'
  | waited {r : I.Request} {next : I.Answer r → Program I α} {w w₁ w' : τ} {p : Program I α}
      (lost : h r w = (none, w₁)) (later : Proceeds h (.ask r next) w₁ p w') :
      Proceeds h (.ask r next) w p w'

theorem Program.Proceeds.trans {I : Interface} {α τ : Type} {h : Program.Handler I τ}
    {p₁ p₂ p₃ : Program I α} {w₁ w₂ w₃ : τ} (first : Proceeds h p₁ w₁ p₂ w₂)
    (second : Proceeds h p₂ w₂ p₃ w₃) : Proceeds h p₁ w₁ p₃ w₃ := by
  induction first with
  | here => exact second
  | answered came _ ih => exact .answered came (ih second)
  | waited lost _ ih => exact .waited lost (ih second)

inductive Program.Reaches {I : Interface} {α : Type} : Program I α → Program I α → Prop
  | here {p : Program I α} : Reaches p p
  | answered {r : I.Request} {next : I.Answer r → Program I α} {p : Program I α} (a : I.Answer r)
      (later : Reaches (next a) p) : Reaches (.ask r next) p

theorem Program.Reaches.trans {I : Interface} {α : Type} {p₁ p₂ p₃ : Program I α}
    (first : Reaches p₁ p₂) (second : Reaches p₂ p₃) : Reaches p₁ p₃ := by
  induction first with
  | here => exact second
  | answered a _ ih => exact .answered a (ih second)

theorem Program.Proceeds.reaches {I : Interface} {α τ : Type} {h : Program.Handler I τ}
    {p q : Program I α} {w w' : τ} (proceeds : Proceeds h p w q w') : Reaches p q := by
  induction proceeds with
  | here => exact .here
  | answered _ _ ih => exact .answered _ ih
  | waited _ _ ih => exact ih

namespace Gather

open Program (Proceeds)

variable {τ : Type} {h : Program.Handler Requests τ} {name : String} {i n : Nat}
  {moves later : List Move} {cancelled : Bool} {t : Task} {p q : Program Requests Ending}
  {e : Ending} {w w' : τ}

def Task.program : Task → Program Requests Ending
  | .running p => p
  | .ended e => .done e

def givenUp (name : String) : Ending := .returned (.error (.cancelled ("gather on " ++ name)))

def Move.concerns (i : Nat) : Move → Bool
  | .poll j => j == i
  | .cancel => true

def Task.follow (h : Program.Handler Requests τ) (name : String) (i : Nat) :
    List Move → Bool → Task → τ → Task × τ
  | [], _, t, w => (t, w)
  | .cancel :: rest, _, t, w => t.follow h name i rest true w
  | .poll j :: rest, cancelled, t, w =>
    if j = i then
      (t.poll h cancelled name w).1.follow h name i rest cancelled (t.poll h cancelled name w).2
    else t.follow h name i rest cancelled w

theorem proceeds_progress : Proceeds h p w (progress h p w).1.program (progress h p w).2 := by
  induction p generalizing w with
  | done e => exact .here
  | never => exact .here
  | ask r next ih =>
    rw [progress]
    cases answered : h r w with
    | mk answer w₁ =>
      cases answer with
      | some a => exact .answered answered (ih a)
      | none => exact .waited answered .here

theorem proceeds_poll :
    Proceeds h t.program w (t.poll h false name w).1.program (t.poll h false name w).2 := by
  cases t with
  | ended e => exact .here
  | running p => exact proceeds_progress

/-- What a task can have become: it has come along its own program, or has been cancelled. -/
def Came (name : String) (p : Program Requests Ending) (cancelled : Bool) (t : Task) : Prop :=
  p.Reaches t.program ∨ cancelled = true ∧ t = .ended (givenUp name)

theorem Came.poll (came : Came name p cancelled t) :
    Came name p cancelled (t.poll h cancelled name w).1 := by
  cases t with
  | ended e => exact came
  | running q =>
    rcases came with reached | ⟨-, ended⟩
    · cases cancelled with
      | true => exact .inr ⟨rfl, rfl⟩
      | false => exact .inl (reached.trans proceeds_progress.reaches)
    · cases ended

/-- Without a cancellation the program of a task is carried on, and nothing else is done. -/
theorem proceeds_follow (undisturbed : .cancel ∉ moves) : Proceeds h t.program w
    (t.follow h name i moves false w).1.program (t.follow h name i moves false w).2 := by
  induction moves generalizing t w with
  | nil => exact .here
  | cons m rest ih =>
    obtain ⟨other, others⟩ : Move.cancel ≠ m ∧ Move.cancel ∉ rest := by simpa using undisturbed
    cases m with
    | cancel => exact absurd rfl other
    | poll j =>
      rw [Task.follow]
      split_ifs with own
      · exact proceeds_poll.trans (ih others)
      · exact ih others

@[simp] theorem follow_ended :
    (Task.ended e).follow h name i moves cancelled w = (.ended e, w) := by
  induction moves generalizing cancelled with
  | nil => rfl
  | cons m rest ih =>
    cases m with
    | cancel => exact ih
    | poll j =>
      rw [Task.follow, Task.poll]
      split_ifs
      · exact ih
      · exact ih

theorem follow_cancelled : (Task.running p).follow h name i moves true w =
    if .poll i ∈ moves then (.ended (givenUp name), w) else (.running p, w) := by
  induction moves with
  | nil => rfl
  | cons m rest ih =>
    cases m with
    | cancel =>
      rw [Task.follow, ih]
      simp
    | poll j =>
      rw [Task.follow]
      by_cases own : j = i
      · subst own
        rw [if_pos rfl, if_pos List.mem_cons_self]
        exact follow_ended
      · have other : Move.poll i ≠ .poll j := fun same => own (Move.poll.inj same).symm
        rw [if_neg own, ih]
        simp [other]

theorem follow_append : t.follow h name i (moves ++ later) cancelled w =
    (t.follow h name i moves cancelled w).1.follow h name i later
      (cancelled || decide (.cancel ∈ moves)) (t.follow h name i moves cancelled w).2 := by
  induction moves generalizing t cancelled w with
  | nil => simp [Task.follow]
  | cons m rest ih =>
    cases m with
    | cancel =>
      rw [List.cons_append, Task.follow, Task.follow, ih]
      simp
    | poll j =>
      rw [List.cons_append, Task.follow, Task.follow]
      split_ifs with own
      · rw [ih]
        simp
      · rw [ih]
        simp

/-- Moves that do not concern a task make no difference to it. -/
theorem follow_filter :
    t.follow h name i (moves.filter (Move.concerns i)) cancelled w =
      t.follow h name i moves cancelled w := by
  induction moves generalizing t cancelled w with
  | nil => rfl
  | cons m rest ih =>
    cases m with
    | cancel =>
      rw [List.filter_cons_of_pos rfl, Task.follow, Task.follow, ih]
    | poll j =>
      by_cases own : j = i
      · subst own
        rw [List.filter_cons_of_pos (by simp [Move.concerns]), Task.follow, Task.follow, if_pos rfl,
          if_pos rfl, ih]
      · rw [List.filter_cons_of_neg (by simpa [Move.concerns] using own), Task.follow,
          if_neg own, ih]

section Ending

def Task.polls (h : Program.Handler Requests τ) (name : String) : Nat → Task → τ → Task × τ
  | 0, t, w => (t, w)
  | n + 1, t, w => Task.polls h name n (t.poll h false name w).1 (t.poll h false name w).2

theorem follow_eq_polls (undisturbed : .cancel ∉ moves) :
    t.follow h name i moves false w = Task.polls h name (moves.count (.poll i)) t w := by
  induction moves generalizing t w with
  | nil => rfl
  | cons m rest ih =>
    obtain ⟨other, others⟩ : Move.cancel ≠ m ∧ Move.cancel ∉ rest := by simpa using undisturbed
    cases m with
    | cancel => exact absurd rfl other
    | poll j =>
      rw [Task.follow]
      by_cases own : j = i
      · subst own
        rw [if_pos rfl, List.count_cons_self, Task.polls, ih others]
      · have different : Move.poll j ≠ .poll i := fun same => own (Move.poll.inj same)
        rw [if_neg own, List.count_cons_of_ne different, ih others]

theorem polls_ended : Task.polls h name n (.ended e) w = (.ended e, w) := by
  induction n with
  | zero => rfl
  | succ n ih => exact ih

theorem polls_of_le {m : Nat} (ended : Task.polls h name n t w = (.ended e, w')) (more : n ≤ m) :
    Task.polls h name m t w = (.ended e, w') := by
  induction n generalizing m t w with
  | zero =>
    obtain ⟨rfl, rfl⟩ := Prod.mk.inj ended
    exact polls_ended
  | succ n ih =>
    cases m with
    | zero => simp at more
    | succ m =>
      rw [Task.polls] at ended ⊢
      exact ih ended (by omega)

/-- A program that comes to an end does so within a number of polls. -/
theorem ends_of_proceeds (ends : Proceeds h p w (.done e) w') :
    ∃ n, Task.polls h name (n + 1) (.running p) w = (.ended e, w') := by
  generalize goal : Program.done e = q at ends
  induction ends with
  | here =>
    subst goal
    exact ⟨0, rfl⟩
  | answered came _ ih =>
    obtain ⟨n, ended⟩ := ih goal
    refine ⟨n, ?_⟩
    rw [Task.polls, Task.poll, if_neg (by decide), progress, came]
    exact ended
  | waited lost _ ih =>
    obtain ⟨n, ended⟩ := ih goal
    refine ⟨n + 1, ?_⟩
    rw [Task.polls, Task.poll, if_neg (by decide), progress, lost]
    exact ended

end Ending

/-- How the moves of a run turn out for a task that begins with a program: what its program does
by itself decides, and whether it has ended by the time that the run is cancelled. -/
structure Fares (h : Program.Handler Requests τ) (name : String) (i : Nat)
    (p : Program Requests Ending) (w : τ) (fate : List Move → Task × τ) : Prop where
  once {moves : List Move} : .cancel ∉ moves →
    Proceeds h p w (fate moves).1.program (fate moves).2
  ends {e : Ending} {w' : τ} : Proceeds h p w (.done e) w' → ∃ n, ∀ moves, .cancel ∉ moves →
    n ≤ moves.count (.poll i) → fate moves = (.ended e, w')
  keeps {moves later : List Move} {e : Ending} {w' : τ} : fate moves = (.ended e, w') →
    fate (moves ++ later) = (.ended e, w')
  givesUp {moves later : List Move} {q : Program Requests Ending} {w' : τ} :
    fate moves = (.running q, w') → .poll i ∈ later →
    fate (moves ++ .cancel :: later) = (.ended (givenUp name), w')

theorem fares_follow :
    Fares h name i p w fun moves => (Task.running p).follow h name i moves false w where
  once undisturbed := proceeds_follow (t := .running p) undisturbed
  ends finite := by
    obtain ⟨n, ended⟩ := @ends_of_proceeds τ h name p _ w _ finite
    refine ⟨n + 1, fun moves undisturbed polled => ?_⟩
    rw [follow_eq_polls undisturbed]
    exact polls_of_le ended polled
  keeps ended := by rw [follow_append, ended, follow_ended]
  givesUp running polled := by
    rw [follow_append, running, Task.follow, follow_cancelled, if_pos polled]

end Gather
end MultiCluster
