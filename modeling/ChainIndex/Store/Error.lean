/-
Why a call to an index store fails. The write of a height is all or nothing, and
its error names the height and what was rolled back; `causes` lists the messages
of the errors behind an error, the nearest first.
-/
import ChainIndex.Failure

namespace ChainIndex

inductive StoreError where
  | database (cause : String)
  | connection (chainId reason : String)
  | encode (column reason : String)
  | blockWrite (chainId : String) (height : Int) (kind : DataKind) (cause : StoreError)
  | failureUpsert (chainId : String) (height : Int) (kind : DataKind) (cause : String)
  deriving DecidableEq, Inhabited

namespace StoreError

def message : StoreError → String
  | database cause => "Database error: " ++ cause
  | connection chainId reason => "[" ++ chainId ++ "] Database connection failed: " ++ reason
  | encode column reason => "Failed to encode " ++ column ++ ": " ++ reason
  | blockWrite chainId height kind cause =>
    "[" ++ chainId ++ "] Writing " ++ kind.name ++ " for height " ++ toString height ++
      " rolled back: " ++ cause.message
  | failureUpsert chainId height kind cause =>
    "[" ++ chainId ++ "] Recording " ++ kind.name ++ " failure for height " ++ toString height ++
      " failed: " ++ cause

def causes : StoreError → List String
  | database cause => [cause]
  | blockWrite _ _ _ cause => cause.message :: cause.causes
  | failureUpsert _ _ _ cause => [cause]
  | _ => []

/-- The height that the error is about, if it is about one. -/
def height? : StoreError → Option Int
  | blockWrite _ height _ _ | failureUpsert _ height _ _ => some height
  | _ => none

end StoreError

end ChainIndex
