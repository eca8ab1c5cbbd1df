import MultiCluster.Program
import MultiCluster.Time.Duration

/-! Bounded repetition of calls. Waits double from one retry to the next up to a cap; only
failures that a predicate accepts are repeated, and the last failure is the one returned. -/
namespace MultiCluster

structure Backoff where
  /-- All attempts, the first included. -/
  attempts : Nat
  /-- The wait before the first retry. -/
  base : Duration
  cap : Duration
  deriving DecidableEq, Repr

namespace Backoff

def standard : Backoff := ⟨4, .ofMillis 200, .ofSeconds 5⟩

def withAttempts (n : Nat) : Backoff := { standard with attempts := max n 1 }

/-- The growth before retry number `n`: a power of two, held in 32 bits. -/
def factor (n : Nat) : Nat := if n - 1 < 32 then 1 <<< (n - 1) else 1 <<< 32 - 1

/-- The nominal wait before retry number `n`, counted from one. -/
def delay (b : Backoff) (n : Nat) : Duration := (b.base.scale (factor n)).atMost b.cap

end Backoff

section
variable {I : Interface} {ε α : Type}

/-- Up to `left` further attempts after this one; the next retry is number `n`. -/
def retryFrom (b : Backoff) (retryable : ε → Bool) (wait : Duration → Program I Unit)
    (call : Program I (Except ε α)) : Nat → Nat → Program I (Except ε α)
  | 0, _ => call
  | left + 1, n => call.bind fun
    | .ok a => .done (.ok a)
    | .error e =>
      if retryable e then
        (wait (b.delay n)).bind fun _ => retryFrom b retryable wait call left (n + 1)
      else .done (.error e)

def retry (b : Backoff) (retryable : ε → Bool) (wait : Duration → Program I Unit)
    (call : Program I (Except ε α)) : Program I (Except ε α) :=
  retryFrom b retryable wait call (max b.attempts 1 - 1) 1

end
end MultiCluster
