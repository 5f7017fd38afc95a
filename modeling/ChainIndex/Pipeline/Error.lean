/-
Why a run of the indexer fails.
-/
import ChainIndex.Config.Error
import ChainIndex.Enqueue.Error

namespace ChainIndex

inductive PipelineError where
  | config (cause : ConfigError)
  | node (cause : NodeError)
  | store (cause : StoreError)
  | enqueue (cause : EnqueueError)
  | writer (reason : String)
  | task (reason : String)
  deriving DecidableEq, Inhabited

def PipelineError.message : PipelineError → String
  | config cause => "Configuration error: " ++ cause.message
  | node cause => "RPC client error: " ++ cause.message
  | store cause => "Database error: " ++ cause.message
  | enqueue cause => "Enqueue error: " ++ cause.message
  | writer reason => "Persistence writer failed: " ++ reason
  | task reason => "Pipeline task failed: " ++ reason

end ChainIndex
