/-
Nodes that answer from a script. A script has entries for the node's status and,
by height, for its blocks, results and pages of transactions. An entry is one
step, or a sequence of steps of which each call takes the next and the last one
repeats; a step is an error or what the node answers. What a script does not
mention has an answer of its own.
-/
import ChainIndex.Rehearsal.World

namespace ChainIndex

/-- A script, with the time of blocks that are given none. -/
structure Script where
  entries : Json
  now : Instant

namespace Script

def errorOf (j : Json) : NodeError :=
  let message := j.textAt "message"
  match j.textAt "kind" with
  | "Timeout" => .timeout message
  | "ParseError" => .unreadable message
  | "RpcError" => .refused (j.intAt "code") message
  | "ConfigError" => .config message
  | _ => .network message

/-- The step of an entry that is due. -/
def due (name : String) (entry : Json) : StateM World Json := do
  let w ← get
  let before := (w.scriptCounts.get? name).getD 0
  set { w with scriptCounts := w.scriptCounts.put name (before + 1) }
  match entry.get? "seq" with
  | some (.array steps) => return (steps[min before (steps.length - 1)]?).getD .null
  | _ => return entry

/-- The answer of a step. -/
def answer (step : Json) (read : Json → Option α) : Except NodeError α :=
  match step.get? "error" with
  | some e => .error (errorOf e)
  | none =>
    match read step with
    | some a => .ok a
    | none => .error (.unreadable "script")

/-- Logs a call and answers it from its entry, or else as is usual. -/
def call (line name : String) (entry : Option Json) (usual : α) (read : Json → Option α) :
    Call World NodeError α :=
  ExceptT.mk do
    modify fun w => { w with nodeLog := line :: w.nodeLog }
    match entry with
    | some e => return answer (← due name e) read
    | none => return .ok usual

def statusOf (j : Json) : NodeStatus :=
  { earliest := j.intD "earliest" 1
    latest := j.intD "latest" 1
    catchingUp := j.flagAt "catching_up" }

/-- A page with as many empty transactions and results as are asked for. -/
def countedPage (j : Json) (count : Nat) : Json :=
  let blanks (n : Nat) : Json := .array (List.replicate n (.object []))
  let given := ["pagination", "total"].filterMap fun key => (j.get? key).map fun v => (key, v)
  .object ([("txs", blanks count), ("tx_responses", blanks (j.natD "responses" count))] ++ given)

def pageOf? (offset : Nat) (j : Json) : Option SearchPage :=
  let page := match j.get? "by_offset" with
    | some pages => (pages.get? (toString offset)).getD (.object [])
    | none => j
  match page.get? "count" with
  | some _ => SearchPage.ofJson? (countedPage page (page.natAt "count"))
  | none => SearchPage.ofJson? page

def entry? (s : Script) (table : String) (height : Int) : Option Json :=
  (s.entries.member table).get? (toString height)

def blockAt (s : Script) (height : Int) : Call World NodeError Block :=
  call s!"block {height}" s!"blocks {height}" (s.entry? "blocks" height)
    { height, hash := s!"HASH{height}", time := s.now, proposer := "PROPOSER", txs := [] }
    fun j => some (.ofRecord height s.now j)

def resultsAt (s : Script) (height : Int) : Call World NodeError BlockResults :=
  call s!"block_results {height}" s!"results {height}" (s.entry? "results" height)
    { BlockResults.empty with height } BlockResults.ofJson?

def pageAt (s : Script) (height : Int) (offset limit : Nat) : Call World NodeError SearchPage :=
  call s!"txs {height} {offset} {limit}" s!"pages {height}" (s.entry? "pages" height) .empty
    (pageOf? offset)

/-- The node of a script. -/
def node (s : Script) : Node World where
  name := "scripted"
  status :=
    call "status" "status" (s.entries.get? "status") ⟨1, 1, false⟩ fun j => some (statusOf j)
  block := s.blockAt
  blockResults := s.resultsAt
  txPage := s.pageAt

end Script

end ChainIndex
