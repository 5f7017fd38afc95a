/-
Turning what was fetched of a height into batches to write. A transaction that
cannot be decoded or handled is left out of its batch and named in it, and the
others are kept; the events of a block give a batch or fail as a whole. Filters
decide which messages and events are stored, and never whether something fails
or what is read out of the events.
-/
import ChainIndex.Fetch
import ChainIndex.Filter
import ChainIndex.Handler.Event
import ChainIndex.Handler.Message
import ChainIndex.Tx.Normal

namespace ChainIndex

/-- What processing depends on. -/
structure Processor where
  config : Config
  decoder : Decoder
  eventHandlers : EventRegistry
  messageHandlers : MessageRegistry
  filters : Filters

namespace Processor

/-! Transactions -/

/-- Drops the messages that are not stored and reads the data of the others. -/
def handleMessages (p : Processor) (tx : TxRecord) : Except MessageHandlerError TxRecord := do
  let tx := p.filters.keepMessages tx
  let data ← MessageRegistry.dispatch p.messageHandlers tx
  return { tx with data }

/-- The transactions of a source, each decoded or not. -/
def decodeAll (p : Processor) (block : Block) : TxSource → List (Except DecodeError TxRecord)
  | .search answer => p.decoder.normalizeSearch block answer
  | .blockBytes results => p.decoder.normalizeBlock block results

/-- The names of the transactions of a source. -/
def identifiers (block : Block) : TxSource → List String
  | .search answer => answer.results.map fun r => Text.upper r.hash
  | .blockBytes _ => block.txs.map txHash

/-- A transaction ready to be written, or nothing. -/
def accept? (p : Processor) (decoded : Except DecodeError TxRecord) : Option TxRecord :=
  match decoded with
  | .ok tx => (p.handleMessages tx).toOption
  | .error _ => none

/-- The name of the transaction at a place of a source. -/
def identifier (block : Block) (names : List String) (index : Nat) : String :=
  names[index]?.getD (toString block.height ++ ":" ++ toString index)

/-- The batch of a block's transactions, and the names of those left out. -/
def txBatch (p : Processor) (block : Block) (source : TxSource) : TxBatch :=
  let outcomes := ((p.decodeAll block source).map p.accept?).zipIdx
  let names := identifiers block source
  { chainId := p.config.chain.chainId
    height := block.height
    blockHash := block.hash
    time := block.time
    proposer := block.proposer
    txs := outcomes.filterMap (·.1)
    unprocessable := (outcomes.filter (·.1.isNone)).map fun (_, i) => identifier block names i }

/-! Block events -/

/-- The data of an epoch, if the block begins one. -/
def epochData (p : Processor) (height : Int) (es : BlockEvents) :
    Except EventHandlerError (List EventData) :=
  match p.config.indexer.epochIdentifier with
  | some epoch =>
    if es.begins.any (Event.startsEpoch epoch) then p.eventHandlers.dispatchEpoch epoch height es
    else .ok []
  | none => .ok []

/-- The batch of a block's events, or the reason why there is none. -/
def eventBatch (p : Processor) (block : Block) (results : BlockResults) :
    Except FailureReason EventBatch := do
  let es ← (BlockEvents.ofResults p.config.indexer.base64Attributes results).mapError
    fun _ => .eventHandling
  let data ← (p.eventHandlers.dispatch block.height es).mapError fun _ => .eventHandling
  let epoch ← (p.epochData block.height es).mapError fun _ => .rewardLookup
  return {
    chainId := p.config.chain.chainId
    height := block.height
    blockHash := block.hash
    time := block.time
    events := p.filters.keepEvents es.records
    data := data ++ epoch
    hasEpochData := !epoch.isEmpty }

/-! A height -/

/-- What comes of a height: the failures that are noted, and what is to be
written. -/
structure Outcome where
  failures : List (DataKind × FailureReason)
  requests : List WriteRequest

/-- The transactions of a height. A batch that is not complete is written too. -/
def txOutcome (p : Processor) (block : Block) : Fetched TxSource → Outcome
  | .got source =>
    let batch := p.txBatch block source
    { failures := if batch.isComplete then [] else [(.transactions, .unprocessableTx)]
      requests := [.transactions batch] }
  | _ => ⟨[], []⟩

/-- The events of a height. -/
def eventOutcome (p : Processor) (block : Block) : Fetched BlockResults → Outcome
  | .got results =>
    match p.eventBatch block results with
    | .ok batch => { failures := [], requests := [.blockEvents batch] }
    | .error reason => { failures := [(.blockEvents, reason)], requests := [] }
  | _ => ⟨[], []⟩

/-- The transactions of a height and then its events. -/
def outcome (p : Processor) (d : FetchedBlock) : Outcome :=
  let txs := p.txOutcome d.block d.txs
  let events := p.eventOutcome d.block d.results
  { failures := txs.failures ++ events.failures, requests := txs.requests ++ events.requests }

/-- Notes the failures of a height, and gives what is to be written. -/
def process {σ : Type} (p : Processor) (store : IndexStore σ) (d : FetchedBlock) :
    StateM σ (List WriteRequest) := do
  (p.outcome d).failures.forM fun (kind, reason) =>
    store.note p.config.chain d.block.height kind reason
  return (p.outcome d).requests

end Processor

end ChainIndex
