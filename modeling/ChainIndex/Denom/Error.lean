/-
Why an update of the denominations fails.
-/
import ChainIndex.Node.Error
import ChainIndex.Store.Error

namespace ChainIndex

inductive DenomUpdateError where
  | fetch (chainId : String) (cause : NodeError)
  | store (chainId : String) (cause : StoreError)
  | backfill (cause : StoreError)
  deriving DecidableEq, Inhabited

namespace DenomUpdateError

def message : DenomUpdateError → String
  | fetch chainId cause => "[" ++ chainId ++ "] Asset list download failed: " ++ cause.message
  | store chainId cause => "[" ++ chainId ++ "] Denom upsert failed: " ++ cause.message
  | backfill cause => "Denom unit backfill failed: " ++ cause.message

def causes : DenomUpdateError → List String
  | fetch _ cause => [cause.message]
  | store _ cause | backfill cause => cause.message :: cause.causes

end DenomUpdateError

end ChainIndex
