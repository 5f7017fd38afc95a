/-
Requests to index a height, and what is known to be indexed of it.
-/
import ChainIndex.Failure

namespace ChainIndex

/-- A height with the kinds of data that are asked for. -/
structure Request where
  height : Int
  blockEvents : Bool
  transactions : Bool
  deriving DecidableEq, Inhabited

namespace Request

/-- Whether a kind is asked for. -/
def asks (r : Request) : DataKind → Bool
  | .blockEvents => r.blockEvents
  | .transactions => r.transactions

def isEmpty (r : Request) : Bool := !r.blockEvents && !r.transactions

/-- What one request asks for and another does not. -/
def without (r other : Request) : Request :=
  { r with
    blockEvents := r.blockEvents && !other.blockEvents
    transactions := r.transactions && !other.transactions }

end Request

/-- Which kinds of a height are indexed. -/
structure BlockStatus where
  height : Int
  transactions : Bool
  blockEvents : Bool
  deriving DecidableEq, Inhabited

namespace BlockStatus

def unindexed (height : Int) : BlockStatus := ⟨height, false, false⟩

def has (s : BlockStatus) : DataKind → Bool
  | .blockEvents => s.blockEvents
  | .transactions => s.transactions

def isIndexed (s : BlockStatus) : Bool := s.transactions || s.blockEvents

end BlockStatus

end ChainIndex
