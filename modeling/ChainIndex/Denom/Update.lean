/-
The update of denominations: the lists of some chains are downloaded and written
one after another, and then every denomination without a unit gets one. The first
error ends the update; what was written before it stays.
-/
import ChainIndex.Database.Denoms
import ChainIndex.Denom.Download
import ChainIndex.Denom.Error

namespace ChainIndex

/-- How many denominations were listed, and how many got a unit at the end. -/
structure DenomSummary where
  listed : Nat
  backfilled : Nat
  deriving DecidableEq, Inhabited

/-- What an update works with; all of it acts on the world. -/
structure DenomUpdate (σ : Type) where
  fetch : (url : String) → Task σ NodeError AssetList
  upsert : List DenomMetadata → Call σ StoreError Nat
  backfill : Call σ StoreError Nat

namespace DenomUpdate

variable {σ φ : Type}

/-- An update of a database, with lists from anywhere. -/
def ofServer (s : Database.Server φ) (fetch : String → Task (Database φ) NodeError AssetList) :
    DenomUpdate (Database φ) where
  fetch := fetch
  upsert ds := Database.Server.asking (s.upsertMetadata ds)
  backfill := Database.Server.asking s.backfillUnits

/-- Downloads and writes the list of a chain, and counts its denominations. -/
def updateChain (u : DenomUpdate σ) (chainId url : String) : Task σ DenomUpdateError Nat := do
  let l ← Task.ofTask (.fetch chainId) (u.fetch url)
  Task.ofCall (.store chainId) (u.upsert l.denoms)

/-- Updates the lists of some chains, each given with its address. -/
def run (u : DenomUpdate σ) (lists : List (String × String)) :
    Task σ DenomUpdateError DenomSummary := do
  let counts ← lists.mapM fun (chainId, url) => u.updateChain chainId url
  let backfilled ← Task.ofCall .backfill u.backfill
  return { listed := counts.foldl (· + ·) 0, backfilled }

end DenomUpdate

end ChainIndex
