/-
Downloads of asset lists, with retries.
-/
import ChainIndex.Denom.AssetList
import ChainIndex.Node.Client
import ChainIndex.Node.Tendermint

namespace ChainIndex

/-- Reads the answer for an asset list. The body of an unsuccessful answer is
left alone. -/
def AssetList.ofAnswer (url : String) (a : Http.Answer) : Except NodeError AssetList := do
  if a.isSuccess then
    match AssetList.parse? (← a.wholeBody) with
    | some l => return l
    | none => throw .noJson
  else throw (a.unsuccessful url)

/-- A way to reach pages on the web, and the policy of trying again. -/
structure Downloader (σ : Type) where
  get : String → Call σ NodeError Http.Answer
  retry : RetryPolicy
  pause : Span → Unending σ Unit
  patience : Nat

namespace Downloader

variable {σ : Type}

def once (d : Downloader σ) (url : String) : Call σ NodeError AssetList := do
  let answer ← d.get url
  Call.ofExcept (AssetList.ofAnswer url answer)

/-- The asset list at an address. -/
def fetch (d : Downloader σ) (url : String) : Task σ NodeError AssetList :=
  d.retry.retry d.patience d.pause (Task.ofCall id (d.once url))

end Downloader

end ChainIndex
