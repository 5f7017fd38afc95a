/-
The migrations, in the order in which they are applied. What is applied of them
at any time is an initial part of the list, so the schema is known from its
length.
-/
import ChainIndex.Database.Schema

namespace ChainIndex.Database

structure Migration where
  name : String
  up : List SchemaChange
  down : List SchemaChange

namespace Migration

open Column (required defaulted nullable)

/-- A new table, with an id, and its indexes. -/
def create (name : TableName) (columns : List Column) (foreignKeys : List ForeignKey)
    (indexes : List Index) (unique : List Index) : List SchemaChange :=
  .createTable { name, columns := Column.id :: columns, indexes := unique, foreignKeys } ::
    indexes.map (.createIndex name)

def index (name : String) (columns : List String) : Index := ⟨name, columns, false⟩

def uniqueIndex (name : String) (columns : List String) : Index := ⟨name, columns, true⟩

def toTx : List ForeignKey := [⟨"tx_id", .txes⟩]

def chainTables : Migration where
  name := "m20260301_000001_create_chain_tables"
  up :=
    create .blocks [required "chain_id" .text, required "height" .bigint,
      required "block_hash" .text, required "time_stamp" .time,
      defaulted "proposer_address" .text "''", defaulted "tx_indexed" .bool "FALSE",
      defaulted "block_events_indexed" .bool "FALSE",
      defaulted "updated_at" .time "CURRENT_TIMESTAMP"]
      [] [uniqueIndex "blocks_chain_height" ["chain_id", "height"]] [] ++
    create .txes [required "chain_id" .text, required "hash" .text, required "height" .bigint,
      required "time_stamp" .time, required "code" .bigint, defaulted "codespace" .text "''",
      defaulted "raw_log" .text "''", required "gas_wanted" .bigint, required "gas_used" .bigint,
      defaulted "memo" .text "''", required "timeout_height" .bigint,
      defaulted "signers" .json "'[]'", defaulted "auth_info" .json "'\x7b\x7d'",
      defaulted "dropped_extension_options" .json "'[]'",
      defaulted "decoded_with_fallback" .bool "FALSE"]
      [] [uniqueIndex "txes_chain_hash" ["chain_id", "hash"],
        index "txes_chain_height" ["chain_id", "height"]] [] ++
    create .messages [required "tx_id" .bigint, required "message_index" .integer,
      required "message_type" .text, defaulted "payload" .json "'\x7b\x7d'",
      defaulted "events" .json "'[]'"]
      toTx [index "messages_message_type" ["message_type"], index "messages_tx_id" ["tx_id"]] [] ++
    create .fees [required "tx_id" .bigint, required "denomination" .text,
      required "amount" .amount, required "payer_address" .text]
      toTx [index "fees_tx_id" ["tx_id"]] [] ++
    create .denoms [required "base" .text] [] [] [uniqueIndex "unique base" ["base"]]
  down := [.dropTable .denoms, .dropTable .fees, .dropTable .messages, .dropTable .txes,
    .dropTable .blocks]

def eventTables : Migration where
  name := "m20260301_000002_create_event_tables"
  up :=
    create .blockEvents [required "chain_id" .text, required "height" .bigint,
      required "lifecycle_position" .text, required "event_index" .integer,
      required "event_type" .text, defaulted "attributes" .json "'[]'"]
      [] [index "block_events_chain_height" ["chain_id", "height"]] [] ++
    create .eventData [required "chain_id" .text, required "height" .bigint,
      required "address" .text, required "amount" .amount, required "denomination" .text,
      required "event_source" .text]
      [] [index "event_relevant_data_chain_height" ["chain_id", "height"],
        index "event_relevant_data_address" ["address"]] [] ++
    create .failedBlocks [required "chain_id" .text, required "chain_name" .text,
      required "height" .bigint, required "kind" .text, required "reason" .text,
      defaulted "attempts" .integer "1", defaulted "created_at" .time "CURRENT_TIMESTAMP",
      defaulted "updated_at" .time "CURRENT_TIMESTAMP", nullable "resolved_at" .time]
      [] [uniqueIndex "failed_blocks_chain_height_kind" ["chain_id", "height", "kind"]] []
  down := [.dropTable .failedBlocks, .dropTable .eventData, .dropTable .blockEvents]

def messageDataTable : Migration where
  name := "m20260401_000003_create_message_relevant_data"
  up :=
    create .messageData [required "tx_id" .bigint, required "message_index" .integer,
      required "type_url" .text, defaulted "sender_address" .text "''",
      defaulted "receiver_address" .text "''", required "amount" .amount,
      required "denomination" .text]
      toTx [index "message_relevant_data_tx_id" ["tx_id"],
        index "message_relevant_data_receiver" ["receiver_address"],
        index "message_relevant_data_sender" ["sender_address"]] []
  down := [.dropTable .messageData]

def denomMetadata : Migration where
  name := "m20260401_000004_add_denom_metadata"
  up :=
    .addColumns .denoms
      [defaulted "name" .text "'UNKNOWN'", defaulted "symbol" .text "'UNKNOWN'"] ::
    create .denomUnits [required "denom_id" .bigint, required "name" .text,
      defaulted "exponent" .integer "0"]
      [⟨"denom_id", .denoms⟩] [uniqueIndex "denom_units_denom_id_name" ["denom_id", "name"]] []
  down := [.dropTable .denomUnits, .dropColumns .denoms ["name", "symbol"]]

def all : List Migration := [chainTables, eventTables, messageDataTable, denomMetadata]

end Migration

/-- The schema once the first migrations are applied. -/
def Schema.after (applied : Nat) : Schema :=
  ((Migration.all.take applied).flatMap (·.up)).foldl Schema.change []

/-- The schema that the statements of this library are written for. -/
def Schema.latest : Schema := .after Migration.all.length

end ChainIndex.Database
