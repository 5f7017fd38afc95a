/-
The node of a chain on the web: a Tendermint endpoint for its status, blocks and
block results, and a REST endpoint for pages of transactions. A Tendermint
answer may stand in a JSON-RPC envelope, whose error counts whatever the status
is; a REST answer counts as an error only with an unsuccessful status.
-/
import ChainIndex.Bytes.Base64
import ChainIndex.Http
import ChainIndex.Json.Reader
import ChainIndex.Json.Record
import ChainIndex.Node.Basic

namespace ChainIndex

/-! What the answers hold -/

def NodeStatus.ofJson? (j : Json) : Option NodeStatus := do
  let f ← j.fields ["sync_info"]
  f.get "sync_info" fun j => do
    let f ← j.fields ["latest_block_height", "earliest_block_height", "catching_up"]
    let latest ← f.get "latest_block_height" Json.int64
    let earliest ← f.getD "earliest_block_height" 0 Json.int64
    let catchingUp ← f.getD "catching_up" false Json.boolean
    return { earliest, latest, catchingUp }

/-- A block whose transactions are still texts. -/
structure BlockText where
  hash : String
  height : Int
  time : Instant
  proposer : String
  txs : List String

namespace BlockText

def hashOfJson? (j : Json) : Option String := do
  let f ← j.fields ["hash"]
  f.getD "hash" "" Json.text

def headerOfJson? (j : Json) : Option (Int × Instant × String) := do
  let f ← j.fields ["height", "time", "proposer_address"]
  let height ← f.get "height" Json.int64
  let time ← f.get "time" Json.text
  let proposer ← f.getD "proposer_address" "" Json.text
  return (height, ← Instant.lenient? time, proposer)

def txsOfJson? (j : Json) : Option (List String) := do
  let f ← j.fields ["txs"]
  f.getD "txs" [] (Json.listOrNull Json.text)

def bodyOfJson? (hash : String) (j : Json) : Option BlockText := do
  let f ← j.fields ["header", "data"]
  let (height, time, proposer) ← f.get "header" headerOfJson?
  let txs ← f.getD "data" [] txsOfJson?
  return { hash, height, time, proposer, txs }

def ofJson? (j : Json) : Option BlockText := do
  let f ← j.fields ["block_id", "block"]
  let hash ← f.get "block_id" hashOfJson?
  f.get "block" (bodyOfJson? hash)

/-- The block itself, if its transactions are Base64. -/
def block? (b : BlockText) : Option Block := do
  let txs ← b.txs.mapM Bytes.Base64.decode?
  return { height := b.height, hash := b.hash, time := b.time, proposer := b.proposer, txs }

end BlockText

/-! Reading answers -/

namespace Http.Answer

def unsuccessful (url : String) (a : Answer) : NodeError :=
  .network (url ++ " returned HTTP " ++ statusText a.status)

/-- The body, if it came to its end. -/
def wholeBody (a : Answer) : Except NodeError String :=
  match a.body with
  | some body => .ok body
  | none => .error (.network "connection closed before the end of the body")

end Http.Answer

namespace NodeError

def noJson : NodeError := .unreadable "no JSON"

def otherShape : NodeError := .unreadable "unexpected JSON"

/-- The error that a node reports: its data if there are any, else its message. -/
def ofReport (j : Json) : NodeError :=
  let code := match j.get? "code" with
    | some (.number (.integer n)) => if Text.fitsInt64 n then n else 0
    | _ => 0
  let reason := match j.textAt "data", j.get? "message" with
    | "", some (.string message) => message
    | "", _ => "unknown error"
    | data, _ => data
  .refused code reason

end NodeError

/-- What is behind the envelope of a Tendermint answer, if there is one. -/
def openEnvelope (j : Json) : Except NodeError Json :=
  match j.get? "error" with
  | none | some .null => .ok ((j.get? "result").getD j)
  | some e => .error (.ofReport e)

/-- Reads a Tendermint answer. -/
def readEnvelope (read : Json → Option α) (url : String) (a : Http.Answer) :
    Except NodeError α := do
  let body ← a.wholeBody
  match Json.parse? body with
  | none => .error (if a.isSuccess then .noJson else a.unsuccessful url)
  | some j =>
    match read (← openEnvelope j) with
    | some x => .ok x
    | none => .error .otherShape

/-- Reads a REST answer. -/
def readPlain (read : Json → Option α) (url : String) (a : Http.Answer) : Except NodeError α := do
  let body ← a.wholeBody
  if a.isSuccess then
    match (Json.ofText? body).bind read with
    | some x => .ok x
    | none => .error .noJson
  else
    match Json.parse? body with
    | some j => .error (if (j.get? "code").isSome then .ofReport j else a.unsuccessful url)
    | none => .error (a.unsuccessful url)

def readBlock (height : Int) (url : String) (a : Http.Answer) : Except NodeError Block := do
  match (← readEnvelope BlockText.ofJson? url a).block? with
  | some block => .ok block
  | none => .error (.unreadable ("block " ++ toString height ++ " tx bytes: no Base64"))

/-! The node -/

/-- The addresses of a node, without slashes at their ends. -/
structure Endpoints where
  rpc : String
  rest : String
  deriving DecidableEq, Inhabited

namespace Endpoints

def ofUrls (rpc rest : String) : Except NodeError Endpoints :=
  if rpc.isEmpty then .error (.config "RPC endpoint not configured")
  else .ok { rpc := Http.trimBase rpc, rest := Http.trimBase rest }

variable {σ : Type}

/-- Asks for a page and reads the answer. -/
def ask (get : String → Call σ NodeError Http.Answer) (base path : String)
    (items : List (String × String)) (read : String → Http.Answer → Except NodeError α) :
    Call σ NodeError α := do
  let url := base ++ "/" ++ path
  let answer ← get (url ++ Http.query items)
  Call.ofExcept (read url answer)

def pageItems (height : Int) (offset limit : Nat) : List (String × String) :=
  [("events", "tx.height=" ++ toString height), ("pagination.limit", toString limit),
    ("pagination.offset", toString offset)]

/-- The node behind the addresses, reached by `get`. -/
def node (e : Endpoints) (get : String → Call σ NodeError Http.Answer) : Node σ where
  name := "Tendermint (" ++ e.rpc ++ ")"
  status := ask get e.rpc "status" [] (readEnvelope NodeStatus.ofJson?)
  block height := ask get e.rpc "block" [("height", toString height)] (readBlock height)
  blockResults height :=
    ask get e.rpc "block_results" [("height", toString height)] (readEnvelope BlockResults.ofJson?)
  txPage height offset limit :=
    if e.rest.isEmpty then throw (.config "REST endpoint not configured")
    else ask get e.rest "cosmos/tx/v1beta1/txs" (pageItems height offset limit)
      (readPlain SearchPage.ofJson?)

end Endpoints

end ChainIndex
