/-
Why requests cannot be enqueued.
-/
import ChainIndex.Node.Error
import ChainIndex.Store.Error

namespace ChainIndex

inductive EnqueueError where
  | node (cause : NodeError)
  | store (cause : StoreError)
  | heightOutOfRange (height : Nat)
  | badHeights
  | inputFile (reason : String)
  | closed
  deriving DecidableEq, Inhabited

namespace EnqueueError

def message : EnqueueError → String
  | node cause => "RPC client error: " ++ cause.message
  | store cause => "Database error: " ++ cause.message
  | heightOutOfRange height =>
    "Block input file error: height " ++ toString height ++ " out of range"
  | badHeights => "Block input file error: invalid height list"
  | inputFile reason => "Block input file error: " ++ reason
  | closed => "Block request channel closed"

def causes : EnqueueError → List String
  | node cause => [cause.message]
  | store cause => cause.message :: cause.causes
  | _ => []

end EnqueueError

end ChainIndex
