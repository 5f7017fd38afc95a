/-
The queue between whoever enqueues requests and whoever fetches them. It is
bounded: pushing waits for room. Once a queue is closed no more can be pushed,
and what was waiting in it is gone.
-/
import ChainIndex.Enqueue.Error
import ChainIndex.Request
import ChainIndex.Task

namespace ChainIndex

/-- The pushing end of a bounded queue, as calls on a state. -/
structure RequestQueue (σ : Type) where
  capacity : Nat
  /-- Pushes, after waiting for room; false if the queue is closed. -/
  push : Request → Unending σ Bool
  waiting : StateM σ Nat
  closed : StateM σ Bool

/-- A queue is filled up again once at most a quarter of it is in use. -/
def refillThreshold (capacity : Nat) : Nat := capacity / 4

/-- The time between two looks at a queue that has to empty. -/
def refillPoll : Span := .ofMillis 50

end ChainIndex
