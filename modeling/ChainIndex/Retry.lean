/-
Retrying with growing waits. The wait after attempt `n`, counted from zero, is
`1.5 ^ n` seconds, cut at the longest wait. A policy allows a number of attempts,
at least one, or any number; nothing is waited for after the last attempt.
-/
import ChainIndex.Task

namespace ChainIndex

namespace Backoff

/-- One and a half. -/
def base : Binary64 := ⟨3, -1⟩

/-- A longest wait is never shorter than this. -/
def leastMaximum : Span := .ofSeconds 2

/-- The largest exponent that a power is taken to. -/
def maxExponent : Nat := 0x7fffffff

/-- The wait after an attempt, and whether it was cut. -/
def wait (attempt : Nat) (longest : Span) : Span × Bool :=
  let longest := longest.max leastMaximum
  match Span.ofBinary64? (base.power (min attempt maxExponent)) with
  | some span => if span.nanos ≤ longest.nanos then (span, false) else (longest, true)
  | none => (longest, true)

end Backoff

structure RetryPolicy where
  maxAttempts : Int
  maxWait : Span
  deriving DecidableEq

namespace RetryPolicy

def ofSeconds (maxAttempts : Int) (maxWait : Nat) : RetryPolicy :=
  { maxAttempts, maxWait := (Span.ofSeconds maxWait).max Backoff.leastMaximum }

/-- The number of attempts, if it is limited. -/
def budget? (p : RetryPolicy) : Option Nat :=
  if p.maxAttempts < 0 then none else some (max 1 p.maxAttempts.toNat)

/-- The largest attempt that a wait is computed for. -/
def maxAttempt : Nat := 0xffffffff

/-- Tries a task up to `tries` times, until the first success. `attempt` numbers
the tries, and the error of the last one that the budget allows is the result. -/
def retryFrom (p : RetryPolicy) (pause : Span → Unending σ Unit) (task : Task σ ε α) :
    (tries attempt : Nat) → Task σ ε α
  | 0, _ => Task.ofUnending Unending.never
  | tries + 1, attempt => do
    match ← Task.ofUnending task.outcome with
    | .ok a => return a
    | .error e =>
      if p.budget? = some (attempt + 1) then throw e
      else do
        Task.ofUnending (pause (Backoff.wait (min attempt maxAttempt) p.maxWait).1)
        retryFrom p pause task tries (attempt + 1)

/-- Tries a task until the first success or the end of the budget. Without a
budget there are no more tries than the patience. -/
def retry (p : RetryPolicy) (patience : Nat) (pause : Span → Unending σ Unit) (task : Task σ ε α) :
    Task σ ε α :=
  retryFrom p pause task (p.budget?.getD patience) 0

end RetryPolicy

end ChainIndex
