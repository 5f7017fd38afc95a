/-
Configurations as JSON records. What a record leaves out has the value that
suits a short run in memory.
-/
import ChainIndex.Config.Basic
import ChainIndex.Json.Member

namespace ChainIndex

namespace Throttle

/-- The span of a number of seconds. -/
def ofJson : Json → Span
  | .number (.integer n) => ofDecimal n.toNat 0
  | .number (.fraction false digits exponent) => ofDecimal digits exponent
  | _ => .zero

end Throttle

def ChainConfig.ofRecord (j : Json) : ChainConfig :=
  { chainId := j.textD "chain_id" "testchain-1"
    chainName := j.textD "chain_name" "testchain"
    accountHrp := j.textD "account_prefix" "cosmos"
    rpcUrl := j.textD "rpc_url" "http://rpc"
    restUrl := j.textD "rest_url" "http://rest"
    timeoutSeconds := j.natD "rpc_timeout_secs" 100 }

def ChainConfig.toRecord (c : ChainConfig) : Json :=
  .array [.string c.chainId, .string c.chainName, .string c.accountHrp, .string c.rpcUrl,
    .string c.restUrl, .ofSafe c.timeoutSeconds]

namespace IndexerConfig

def ofRecord (j : Json) : IndexerConfig :=
  { startBlock := j.intD "start_block" 1
    endBlock := j.intD "end_block" (-1)
    reindex := j.flagAt "reindex"
    reindexMessageType := j.textAt "reindex_message_type"
    blockInputFile := j.textAt "block_input_file"
    throttle := Throttle.ofJson (j.member "throttling")
    rpcWorkers := j.natD "rpc_workers" 2
    retryAttempts := j.intAt "request_retry_attempts"
    retryMaxWait := j.natD "request_retry_max_wait" 30
    indexBlockEvents := j.flagAt "block_event_indexing_enabled"
    indexTransactions := j.flagD "transaction_indexing_enabled" true
    reattemptFailedBlocks := j.flagAt "reattempt_failed_blocks"
    exitWhenCaughtUp := j.flagD "exit_when_caught_up" true
    epochIdentifier := j.text? "epoch_identifier"
    waitForChain := j.flagAt "wait_for_chain"
    waitForChainDelay := j.natD "wait_for_chain_delay" 10
    skipTxSearch := j.flagAt "skip_tx_search"
    base64Attributes := j.flagAt "block_event_attributes_base64"
    blockTimer := j.natD "block_timer" 10000
    writerBatchSize := j.natD "writer_batch_size" 20
    writerBatchTimeoutMillis := j.natD "writer_batch_timeout_ms" 500
    writerMaxRetries := j.natD "writer_max_retries" 2
    filterFile := j.textAt "filter_file" }

/-- Every value but the throttle. -/
def toRecord (c : IndexerConfig) : Json :=
  .ofMembers [("start_block", .ofSafe c.startBlock), ("end_block", .ofSafe c.endBlock),
    ("reindex", .bool c.reindex), ("reindex_message_type", .string c.reindexMessageType),
    ("block_input_file", .string c.blockInputFile), ("rpc_workers", .ofSafe c.rpcWorkers),
    ("request_retry_attempts", .ofSafe c.retryAttempts),
    ("request_retry_max_wait", .ofSafe c.retryMaxWait),
    ("block_event_indexing_enabled", .bool c.indexBlockEvents),
    ("transaction_indexing_enabled", .bool c.indexTransactions),
    ("reattempt_failed_blocks", .bool c.reattemptFailedBlocks),
    ("exit_when_caught_up", .bool c.exitWhenCaughtUp),
    ("epoch_identifier", .ofOption .string c.epochIdentifier),
    ("wait_for_chain", .bool c.waitForChain), ("wait_for_chain_delay", .ofSafe c.waitForChainDelay),
    ("skip_tx_search", .bool c.skipTxSearch),
    ("block_event_attributes_base64", .bool c.base64Attributes),
    ("block_timer", .ofSafe c.blockTimer),
    ("writer_batch_size", .ofSafe c.writerBatchSize),
    ("writer_batch_timeout_ms", .ofSafe c.writerBatchTimeoutMillis),
    ("writer_max_retries", .ofSafe c.writerMaxRetries), ("filter_file", .string c.filterFile)]

end IndexerConfig

def Config.ofRecord (j : Json) : Config :=
  { chain := .ofRecord (j.member "chain")
    database := { url := "", dryRun := true }
    indexer := .ofRecord (j.member "indexer") }

end ChainIndex
