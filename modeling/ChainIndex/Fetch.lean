/-
Fetching what a request asks for. Each kind of data comes out on its own: it was
fetched, it failed for a reason, or it was not asked for. Every failure is noted
in the store; if the block itself cannot be had, there is nothing to pass on and
all that was asked for has failed.
-/
import ChainIndex.Node.Client
import ChainIndex.Store.Basic

namespace ChainIndex

/-- What became of one kind of data. -/
inductive Fetched (α : Type) where
  | got (a : α)
  | failed (reason : FailureReason)
  | notAsked
  deriving DecidableEq, Inhabited

namespace Fetched

def hasFailed : Fetched α → Bool
  | failed _ => true
  | _ => false

def get? : Fetched α → Option α
  | got a => some a
  | _ => none

end Fetched

/-- Where transactions come from: a search answer, or the bytes in the block
with the results of running them. -/
inductive TxSource where
  | search (answer : SearchAnswer)
  | blockBytes (results : BlockResults)
  deriving Inhabited

/-- What was fetched of a height. -/
structure FetchedBlock where
  block : Block
  results : Fetched BlockResults
  txs : Fetched TxSource

/-- What fetching depends on. -/
structure Fetcher (σ : Type) where
  client : Client σ
  store : IndexStore σ
  config : Config

namespace Fetcher

variable {σ : Type}

def note (f : Fetcher σ) (height : Int) (kind : DataKind) (reason : FailureReason) :
    Unending σ Unit :=
  Unending.ofState (f.store.note f.config.chain height kind reason)

/-- Results for the events of a block. -/
def results (f : Fetcher σ) (height : Int) : Unending σ (Fetched BlockResults) := do
  match ← (f.client.blockResults height).outcome with
  | .ok results => return .got results
  | .error _ => do
    f.note height .blockEvents .missingHistory
    return .failed .missingHistory

/-- A search answer, unless searching is off or fails. -/
def search? (f : Fetcher σ) (height : Int) : Unending σ (Option SearchAnswer) := do
  if f.config.indexer.skipTxSearch then return none
  else return (← (f.client.txsAt height).outcome).toOption

/-- The transactions of a height: by search, or else by the block's bytes with
the results that are at hand or can be had. -/
def txs (f : Fetcher σ) (height : Int) (results? : Option BlockResults) :
    Unending σ (Fetched TxSource) := do
  match ← f.search? height, results? with
  | some answer, _ => return .got (.search answer)
  | none, some results => return .got (.blockBytes results)
  | none, none =>
    match ← (f.client.blockResults height).outcome with
    | .ok results => return .got (.blockBytes results)
    | .error _ => do
      f.note height .transactions .missingTxs
      return .failed .missingTxs

/-- A kind of data if it is asked for. -/
def ifAsked (asked : Bool) (part : Unending σ (Fetched α)) : Unending σ (Fetched α) :=
  if asked then part else return .notAsked

/-- Notes that a block cannot be had. Its transactions count as failed even if
they were not asked for. -/
def noteNoBlock (f : Fetcher σ) (r : Request) : Unending σ Unit := do
  f.note r.height .transactions .blockQuery
  if r.blockEvents then f.note r.height .blockEvents .blockQuery else return ()

/-- Everything that a request asks for; nothing if there is no block. -/
def fetch (f : Fetcher σ) (r : Request) : Unending σ (Option FetchedBlock) := do
  match ← Unending.ofState (f.client.node.block r.height).outcome with
  | .error _ => do
    f.noteNoBlock r
    return none
  | .ok block => do
    let results ← ifAsked r.blockEvents (f.results r.height)
    let txs ← ifAsked r.transactions (f.txs r.height results.get?)
    return some { block, results, txs }

end Fetcher

end ChainIndex
