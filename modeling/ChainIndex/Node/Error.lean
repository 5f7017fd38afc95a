/-
Why a call to a node fails.
-/

namespace ChainIndex

inductive NodeError where
  | network (reason : String)
  | timeout (reason : String)
  | unreadable (reason : String)
  | refused (code : Int) (reason : String)
  | config (reason : String)
  deriving DecidableEq, Inhabited

def NodeError.message : NodeError → String
  | network reason => "Network error: " ++ reason
  | timeout reason => "Request timed out: " ++ reason
  | unreadable reason => "Parse error: " ++ reason
  | refused code reason => "Node returned error " ++ toString code ++ ": " ++ reason
  | config reason => "Configuration error: " ++ reason

end ChainIndex
