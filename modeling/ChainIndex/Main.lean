/-
The command line. The configuration is read from the environment; without an
argument it is shown and checked, and with the path of a script the indexer is
run against the node of the script and what it has stored is printed.
-/
import ChainIndex.Json.Printer
import ChainIndex.Json.Reader
import ChainIndex.Pipeline.Basic
import ChainIndex.Rehearsal.Script
import ChainIndex.Setup

namespace ChainIndex.CommandLine

/-- The environment's texts of a configuration. -/
def readEnvironment : IO Environment := do
  let texts ← Config.variableNames.mapM fun name => do
    return (name, ← IO.getEnv name)
  return fun name => (texts.lookup name).join

/-- The text of a file, if there is one that can be read. -/
def readText? (path : String) : IO (Option String) := do
  try
    return some (← IO.FS.readFile path)
  catch _ => return none

def settings (c : Config) : List String := [
  "CHAIN_ID: " ++ c.chain.chainId,
  "CHAIN_NAME: " ++ c.chain.chainName,
  "ACCOUNT_PREFIX: " ++ c.chain.accountHrp,
  "RPC_URL: " ++ c.chain.rpcUrl,
  "REST_URL: " ++ c.chain.restUrl,
  "START_BLOCK: " ++ toString c.indexer.startBlock,
  "END_BLOCK: " ++ toString c.indexer.endBlock,
  "RPC_WORKERS: " ++ toString c.indexer.workers]

/-- A checked configuration with its processor. -/
def setUp (c : Config) (filterText : Option String) : Except SetupError Processor := do
  (c.validate fun _ => filterText.isSome).mapError .config
  Processor.ofConfig c filterText

/-- Longer than any run of a script takes. -/
def patience : Nat := 1000000

def rehearse (p : Processor) (inputText : Option String) (script : Json) :
    Option (Except PipelineError RunSummary) × World :=
  let i := p.config.indexer
  let pipeline : Pipeline World := {
    config := p.config
    client := {
      node := Script.node ⟨script, .epoch⟩
      retry := .ofSeconds i.retryAttempts i.retryMaxWait
      pause := World.pause
      patience }
    store := World.store .null
    processor := p
    fileText := fun _ => inputText }
  (pipeline.run []).run (.start .empty)

def report (p : Processor) : Option (Except PipelineError RunSummary) × World → IO UInt32
  | (some (.ok summary), world) => do
    IO.println ("Indexing finished: " ++ toString summary.enqueued ++ " heights enqueued, " ++
      toString summary.written.txs ++ " txs written")
    IO.println (world.memory.toRecord p.config.chain.chainId true).render
    return 0
  | (some (.error e), _) => do
    IO.eprintln ("indexing pipeline failed: " ++ e.message)
    return 1
  | (none, _) => do
    IO.eprintln "the run does not come to an end"
    return 1

def runScript (p : Processor) (path : String) : IO UInt32 := do
  match (← readText? path).bind Json.parse? with
  | some script => do
    let inputText ← readText? p.config.indexer.blockInputFile
    report p (rehearse p inputText script)
  | none => do
    IO.eprintln ("no script in " ++ path)
    return 1

def start (arguments : List String) : IO UInt32 := do
  let config := Config.ofEnvironment (← readEnvironment)
  match setUp config (← readText? config.indexer.filterFile), arguments with
  | .error e, _ => do
    IO.eprintln e.message
    return 1
  | .ok p, path :: _ => runScript p path
  | .ok _, [] => do
    (settings config).forM IO.println
    return 0

end ChainIndex.CommandLine

def main (arguments : List String) : IO UInt32 :=
  ChainIndex.CommandLine.start arguments
