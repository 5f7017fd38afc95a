/-
Lists of heights in JSON: an array of unsigned numbers. Every height must fit a
signed 64-bit integer. What is read is in ascending order, each height once.
-/
import ChainIndex.Ascending
import ChainIndex.Enqueue.Error
import ChainIndex.Json.Reader
import ChainIndex.Json.Record

namespace ChainIndex.HeightList

def height (n : Nat) : Except EnqueueError Int :=
  if n ≤ Text.maxInt64 then .ok n else .error (.heightOutOfRange n)

/-- The heights of a list in JSON text. -/
def parse (s : String) : Except EnqueueError (List Int) :=
  match (Json.ofText? s).bind (Json.list (Json.natUpTo Text.maxWord64)) with
  | some ns => (ascending ns).mapM height
  | none => .error .badHeights

end ChainIndex.HeightList
