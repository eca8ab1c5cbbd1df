/-! Programs as trees of requests to their surroundings.

An interface lists the requests a program may make and the type of the answer to each. A program
is a tree: it ends with a result, makes a request and goes on with the answer, or never ends. The
same tree runs against any surroundings: a handler answers requests from a state, may break off
before the answer arrives, and leaves the state behind. -/
namespace MultiCluster

structure Interface where
  Request : Type
  Answer : Request → Type

inductive Program (I : Interface) (α : Type) where
  | done (a : α)
  | ask (r : I.Request) (next : I.Answer r → Program I α)
  | never

def Interface.plus (I J : Interface) : Interface where
  Request := I.Request ⊕ J.Request
  Answer
    | .inl r => I.Answer r
    | .inr r => J.Answer r

namespace Program
variable {I J : Interface} {α β σ : Type}

def bind : Program I α → (α → Program I β) → Program I β
  | .done a, f => f a
  | .ask r next, f => .ask r fun a => (next a).bind f
  | .never, _ => .never

instance : Monad (Program I) where
  pure := .done
  bind := Program.bind

def request (r : I.Request) : Program I (I.Answer r) := .ask r .done

/-- Replace every request by a program over another interface. -/
def substitute (f : (r : I.Request) → Program J (I.Answer r)) : Program I α → Program J α
  | .done a => .done a
  | .ask r next => (f r).bind fun a => (next a).substitute f
  | .never => .never

/-- A program among other requests, which it does not make. -/
def inLeft (p : Program I α) : Program (I.plus J) α :=
  p.substitute fun r => .ask (I := I.plus J) (.inl r) .done

def inRight (p : Program J α) : Program (I.plus J) α :=
  p.substitute fun r => .ask (I := I.plus J) (.inr r) .done

def substituteLeft {K : Interface} (f : (r : I.Request) → Program K (I.Answer r))
    (p : Program (I.plus J) α) : Program (K.plus J) α :=
  p.substitute (I := I.plus J) fun
    | .inl r => (f r).inLeft
    | .inr r => .ask (I := K.plus J) (.inr r) .done

def substituteRight {K : Interface} (f : (r : J.Request) → Program K (J.Answer r))
    (p : Program (I.plus J) α) : Program (I.plus K) α :=
  p.substitute (I := I.plus J) fun
    | .inl r => .ask (I := I.plus K) (.inl r) .done
    | .inr r => (f r).inRight

/-- Answers requests from a state; no answer means that the run is cut short there. -/
abbrev Handler (I : Interface) (σ : Type) := (r : I.Request) → σ → Option (I.Answer r) × σ

def Handler.plus (h : Handler I σ) (k : Handler J σ) : Handler (I.plus J) σ
  | .inl r, s => h r s
  | .inr r, s => k r s

def Handler.on {τ : Type} (get : τ → σ) (set : σ → τ → τ) (h : Handler I σ) : Handler I τ :=
  fun r t => let (a, s) := h r (get t); (a, set s t)

/-- The result, if the run comes to one, and the state left behind. -/
def run (h : Handler I σ) : Program I α → σ → Option α × σ
  | .done a, s => (some a, s)
  | .ask r next, s =>
    match h r s with
    | (some a, s) => (next a).run h s
    | (none, s) => (none, s)
  | .never, s => (none, s)

theorem bind_done (p : Program I α) : p.bind .done = p := by
  induction p with
  | done a => rfl
  | ask r next ih => simp only [bind]; congr 1; funext a; exact ih a
  | never => rfl

theorem bind_assoc {γ : Type} (p : Program I α) (f : α → Program I β) (g : β → Program I γ) :
    (p.bind f).bind g = p.bind fun a => (f a).bind g := by
  induction p with
  | done a => rfl
  | ask r next ih => simp only [bind]; congr 1; funext a; exact ih a
  | never => rfl

instance : LawfulMonad (Program I) :=
  LawfulMonad.mk' _ bind_done (fun _ _ => rfl) bind_assoc

end Program

/-- A program that may fail. -/
abbrev Action (I : Interface) (ε α : Type) := ExceptT ε (Program I) α

namespace Action
variable {I : Interface} {ε α : Type}

def inLeft {J : Interface} (a : Action I ε α) : Action (I.plus J) ε α := .mk (Program.inLeft a.run)

def inRight {J : Interface} (a : Action I ε α) : Action (J.plus I) ε α :=
  .mk (Program.inRight a.run)

end Action
end MultiCluster
