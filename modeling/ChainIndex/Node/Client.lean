/-
A node with retries and whole answers. The transactions of a height come in
pages; the pages are put together until there are as many transactions as the
first page reported, and an answer is refused if a page brings nothing new or if
the transactions and their results differ in number. Block results come with
their finalize events already moved to the begin and end events.
-/
import ChainIndex.Block.Events
import ChainIndex.Node.Basic
import ChainIndex.Retry

namespace ChainIndex

/-- How many transactions a page may have. -/
def pageLimit : Nat := 100

namespace Node

variable {σ : Type}

/-- The block results of a height in one form. -/
def foldedResults (node : Node σ) (height : Int) : Call σ NodeError BlockResults := do
  let results ← node.blockResults height
  match results.foldFinalize with
  | .ok folded => return folded
  | .error e => throw (.unreadable e.message)

def tooFew (height : Int) (total found : Nat) : NodeError :=
  .unreadable s!"tx search for height {height} reported {total} txs but returned {found}"

def unequal (height : Int) (txs results : Nat) : NodeError :=
  .unreadable s!"tx search for height {height} returned {txs} txs and {results} responses"

/-- Asks for pages until there are `total` transactions. Every page brings at
least one. -/
def morePages (node : Node σ) (height : Int) (total : Nat) (txs : List SearchTx)
    (results : List SearchResult) : Task σ NodeError (List SearchTx × List SearchResult) :=
  if total ≤ txs.length then return (txs, results)
  else do
    let page ← Task.ofCall id (node.txPage height txs.length pageLimit)
    if _none : page.txs = [] then throw (tooFew height total txs.length)
    else morePages node height total (txs ++ page.txs) (results ++ page.results)
termination_by total - txs.length
decreasing_by
  have : page.txs.length ≠ 0 := by simpa using _none
  simp only [List.length_append]
  omega

section

variable {node : Node σ} {height : Int} {total : Nat} {txs : List SearchTx}
  {results : List SearchResult}

theorem morePages_of_enough (enough : total ≤ txs.length) :
    node.morePages height total txs results = return (txs, results) := by
  rw [morePages, if_pos enough]

/-- As long as there are too few transactions, one more page is asked for. -/
theorem morePages_of_few (few : ¬total ≤ txs.length) :
    node.morePages height total txs results = (do
      let page ← Task.ofCall id (node.txPage height txs.length pageLimit)
      if page.txs = [] then throw (tooFew height total txs.length)
      else node.morePages height total (txs ++ page.txs) (results ++ page.results)) := by
  conv => lhs; rw [morePages, if_neg few]
  simp only [dite_eq_ite]

end

/-- All transactions of a height, each with the result at its place. -/
def txsAt (node : Node σ) (height : Int) : Task σ NodeError SearchAnswer := do
  let first ← Task.ofCall id (node.txPage height 0 pageLimit)
  let total := first.reportedTotal
  let (txs, results) ← morePages node height total first.txs first.results
  if txs.length = results.length then return { txs, results, total }
  else throw (unequal height txs.length results.length)

end Node

/-- A node with the policy of retrying its calls. -/
structure Client (σ : Type) where
  node : Node σ
  retry : RetryPolicy
  /-- Lets time pass. -/
  pause : Span → Unending σ Unit
  patience : Nat

namespace Client

variable {σ : Type}

def retrying (c : Client σ) (task : Task σ NodeError α) : Task σ NodeError α :=
  c.retry.retry c.patience c.pause task

def status (c : Client σ) : Task σ NodeError NodeStatus :=
  c.retrying (Task.ofCall id c.node.status)

def latestHeight (c : Client σ) : Task σ NodeError Int := do
  return (← c.status).latest

def blockResults (c : Client σ) (height : Int) : Task σ NodeError BlockResults :=
  c.retrying (Task.ofCall id (c.node.foldedResults height))

def txsAt (c : Client σ) (height : Int) : Task σ NodeError SearchAnswer :=
  c.retrying (c.node.txsAt height)

end Client

end ChainIndex
