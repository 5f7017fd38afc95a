/-
The rows and the schema of a database as JSON records. Rows are listed by their
unique columns, without the columns that number them or tell the time of a write.
-/
import ChainIndex.Database.Basic
import ChainIndex.Json.Member
import ChainIndex.Record.Block

namespace ChainIndex.Database

/-! Rows -/

/-- The entries of a table in ascending order of their keys. -/
def inOrder (before : κ → κ → Bool) (t : Table κ α) : List (κ × α) :=
  t.mergeSort fun a b => before a.1 b.1

def beforeHeight (a b : String × Int) : Bool := a.1 < b.1 || (a.1 == b.1 && a.2 ≤ b.2)

def beforeHash (a b : String × String) : Bool := a.1 < b.1 || (a.1 == b.1 && a.2 ≤ b.2)

def beforeKind (a b : String × Int × String) : Bool :=
  a.1 < b.1 || (a.1 == b.1 && (a.2.1 < b.2.1 || (a.2.1 == b.2.1 && a.2.2 ≤ b.2.2)))

def amountRecord (n : Int) : Json := .string (toString n)

def blockRecord (key : String × Int) (row : BlockRow) : Json :=
  .ofMembers [
    ("chain_id", .string key.1), ("height", .ofSafe key.2), ("block_hash", .string row.hash),
    ("time_stamp", row.time.toRecord), ("proposer_address", .string row.proposer),
    ("tx_indexed", .bool row.txIndexed), ("block_events_indexed", .bool row.eventsIndexed)]

def txRecord (key : String × String) (row : TxRow) : Json :=
  .ofMembers [("chain_id", .string key.1), ("hash", .string key.2), ("height", .ofSafe row.height),
    ("time_stamp", row.time.toRecord), ("code", .ofSafe row.code),
    ("codespace", .string row.codespace),
    ("raw_log", .string row.rawLog), ("gas_wanted", .ofSafe row.gasWanted),
    ("gas_used", .ofSafe row.gasUsed), ("memo", .string row.memo),
    ("timeout_height", .ofSafe row.timeoutHeight), ("signers", row.signers),
    ("auth_info", row.authInfo), ("dropped_extension_options", row.droppedExtensions),
    ("decoded_with_fallback", .bool row.decodedWithFallback)]

def messageRecord (hash : String) (row : MessageRow) : Json :=
  .ofMembers [("tx", .string hash), ("message_index", .ofSafe row.index),
    ("message_type", .string row.typeUrl), ("payload", row.payload), ("events", row.events)]

def feeRecord (hash : String) (row : FeeRow) : Json :=
  .ofMembers [("tx", .string hash), ("denomination", .string row.denom),
    ("amount", amountRecord row.amount), ("payer_address", .string row.payer)]

def messageDataRecord (hash : String) (row : MessageDataRow) : Json :=
  .ofMembers [("tx", .string hash), ("message_index", .ofSafe row.index),
    ("type_url", .string row.typeUrl), ("sender_address", .string row.sender),
    ("receiver_address", .string row.receiver), ("amount", amountRecord row.amount),
    ("denomination", .string row.denom)]

def blockEventRecord (key : String × Int) (row : BlockEventRow) : Json :=
  .ofMembers [("chain_id", .string key.1), ("height", .ofSafe key.2),
    ("lifecycle_position", .string row.position), ("event_index", .ofSafe row.index),
    ("event_type", .string row.eventType), ("attributes", row.attributes)]

def eventDataRecord (key : String × Int) (row : EventDataRow) : Json :=
  .ofMembers [
    ("chain_id", .string key.1), ("height", .ofSafe key.2), ("address", .string row.address),
    ("amount", amountRecord row.amount), ("denomination", .string row.denom),
    ("event_source", .string row.source)]

def failureRecord (key : String × Int × String) (row : FailedBlockRow) : Json :=
  .ofMembers [("chain_id", .string key.1), ("chain_name", .string row.chainName),
    ("height", .ofSafe key.2.1), ("kind", .string key.2.2), ("reason", .string row.reason),
    ("attempts", .ofSafe row.attempts), ("resolved", .bool row.resolved)]

/-- A denomination, with its names if there are columns for them. -/
def denomRecord (named : Bool) (base : String) (row : DenomRow) : Json :=
  .ofMembers (("base", .string base) ::
    if named then [("name", .string row.name), ("symbol", .string row.symbol)] else [])

def unitRecord (base : String) (unit : String × Nat) : Json :=
  .ofMembers [("denom", .string base), ("name", .string unit.1), ("exponent", .ofSafe unit.2)]

/-- The rows of a table. -/
def rowRecords (db : Database φ) : TableName → List Json
  | .blocks => (inOrder beforeHeight db.tables.blocks).map fun (key, row) => blockRecord key row
  | .txes => txRows.map fun (key, row) => txRecord key row
  | .messages => txRows.flatMap fun (key, row) => row.messages.map (messageRecord key.2)
  | .fees => txRows.flatMap fun (key, row) => row.fees.map (feeRecord key.2)
  | .messageData => txRows.flatMap fun (key, row) => row.data.map (messageDataRecord key.2)
  | .blockEvents => (inOrder beforeHeight db.tables.blockEvents).flatMap fun (key, rows) =>
      rows.map (blockEventRecord key)
  | .eventData => (inOrder beforeHeight db.tables.eventData).flatMap fun (key, rows) =>
      rows.map (eventDataRecord key)
  | .failedBlocks =>
    (inOrder beforeKind db.tables.failures).map fun (key, row) => failureRecord key row
  | .denoms => denomRows.map fun (base, row) => denomRecord (db.hasColumns .denoms) base row
  | .denomUnits => denomRows.flatMap fun (base, row) =>
      (inOrder (fun a b => a ≤ b) row.units).map (unitRecord base)
where
  txRows : List ((String × String) × TxRow) := inOrder beforeHash db.tables.txs
  denomRows : List (String × DenomRow) := inOrder (fun a b => a ≤ b) db.tables.denoms

/-- The tables that have rows. -/
def toRecord (db : Database φ) : Json :=
  .ofMembers (db.schema.filterMap fun t =>
    match rowRecords db t.name with
    | [] => none
    | rows => some (t.name.text, .array rows))

/-! The schema -/

def Column.toRecord (c : Column) : Json :=
  .ofMembers [("type", .string c.type.sql), ("not_null", .bool c.notNull),
    ("default", .ofOption .string c.default), ("primary_key", .bool c.isPrimaryKey)]

def Index.toRecord (i : Index) : Json :=
  .ofMembers [("columns", .ofTexts i.columns), ("unique", .bool i.unique)]

def ForeignKey.toRecord (k : ForeignKey) : Json :=
  .ofTexts [k.column, k.table.text, Column.id.name, "CASCADE"]

def TableSchema.toRecord (t : TableSchema) : Json :=
  .ofMembers [("columns", .ofMembers (t.columns.map fun c => (c.name, c.toRecord))),
    ("indexes", .ofMembers (t.indexes.map fun i => (i.name, i.toRecord))),
    ("foreign_keys", .ofList ForeignKey.toRecord t.foreignKeys)]

/-- The schema with the names of the migrations that made it. -/
def schemaRecord (db : Database φ) : Json :=
  .ofMembers [("applied", .ofTexts ((Migration.all.take db.applied).map (·.name))),
    ("tables", .ofMembers (db.schema.map fun t => (t.name.text, t.toRecord)))]

end ChainIndex.Database
